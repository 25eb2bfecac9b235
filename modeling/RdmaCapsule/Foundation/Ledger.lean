import RdmaCapsule.Foundation.Outcome
import RdmaCapsule.Foundation.Placement

/-! A table of resources that are given out and given back one at a time. `Gained` says what a piece
of code has taken and still holds; read backwards, it says what was given back. With a table go the
places where its resources are kept. -/
namespace RdmaCapsule.Foundation

variable {R : Type u} {ε : Type v}

/-- Whoever gives out resources never gives one that is out: `fault` otherwise. -/
def acquire [DecidableEq R] (fault : ε) (r : R) (table : Finset R) : Except ε (Finset R) :=
  if r ∈ table then .error fault else .ok (insert r table)

def release [DecidableEq R] (fault : ε) (r : R) (table : Finset R) : Except ε (Finset R) :=
  if r ∈ table then .ok (table.erase r) else .error fault

structure Gained (before after : Finset R) (got : List R) : Prop where
  nodup : got.Nodup
  fresh : ∀ r ∈ got, r ∉ before
  mem_iff : ∀ r, r ∈ after ↔ r ∈ before ∨ r ∈ got

variable {before middle after : Finset R} {got got' : List R} {r : R}

theorem Gained.refl (table : Finset R) : Gained table table [] where
  nodup := .nil
  fresh := by simp
  mem_iff := by simp

theorem Gained.eq (h : Gained before after []) : after = before := by
  ext r
  rw [h.mem_iff]
  simp

theorem Gained.congr (h : Gained before after got) (hperm : got.Perm got') :
    Gained before after got' where
  nodup := hperm.nodup_iff.mp h.nodup
  fresh := by
    intro r hr
    exact h.fresh r (hperm.mem_iff.mpr hr)
  mem_iff := by
    intro r
    rw [h.mem_iff, hperm.mem_iff]

theorem Gained.append (h : Gained before middle got) (h' : Gained middle after got') :
    Gained before after (got ++ got') where
  nodup := by
    apply List.nodup_append.mpr
    refine ⟨h.nodup, h'.nodup, ?_⟩
    intro r hr r' hr' heq
    subst heq
    exact h'.fresh r hr' ((h.mem_iff r).mpr (.inr hr))
  fresh := by
    intro r hr
    rcases List.mem_append.mp hr with hr | hr
    · exact h.fresh r hr
    · intro hbefore
      exact h'.fresh r hr ((h.mem_iff r).mpr (.inl hbefore))
  mem_iff := by
    intro r
    rw [h'.mem_iff, h.mem_iff, List.mem_append, or_assoc]

/-- What is given back leaves what was gained before. -/
theorem Gained.sub (h : Gained before middle (got ++ got')) (h' : Gained after middle got') :
    Gained before after got := by
  obtain ⟨hleft, hright, hdisjoint⟩ := List.nodup_append.mp h.nodup
  have hiff (r : R) : r ∈ after ↔ r ∈ middle ∧ r ∉ got' := by
    rw [h'.mem_iff]
    constructor
    · intro hr
      exact ⟨.inl hr, fun hgot => h'.fresh r hgot hr⟩
    · rintro ⟨hr | hr, hnot⟩
      · exact hr
      · exact absurd hr hnot
  refine ⟨hleft, fun r hr => h.fresh r (List.mem_append_left _ hr), ?_⟩
  intro r
  rw [hiff, h.mem_iff, List.mem_append]
  constructor
  · rintro ⟨hr | hr | hr, hnot⟩
    · exact .inl hr
    · exact .inr hr
    · exact absurd hr hnot
  · rintro (hr | hr)
    · exact ⟨.inl hr, fun hgot => h.fresh r (List.mem_append_right _ hgot) hr⟩
    · exact ⟨.inr (.inl hr), fun hgot => hdisjoint r hr r hgot rfl⟩

/-- Any resources that are out have been gained from some table. -/
theorem exists_gained [DecidableEq R] (hnodup : got.Nodup) (hmem : ∀ r ∈ got, r ∈ after) :
    ∃ before, Gained before after got := by
  refine ⟨after.filter (· ∉ got), hnodup, ?_, ?_⟩
  · intro r hr hbefore
    exact (Finset.mem_filter.mp hbefore).2 hr
  · intro r
    rw [Finset.mem_filter]
    constructor
    · intro hr
      by_cases hgot : r ∈ got
      · exact .inr hgot
      · exact .inl ⟨hr, hgot⟩
    · rintro (hr | hr)
      · exact hr.1
      · exact hmem r hr

theorem acquire_ends [DecidableEq R] (fault : ε) (r : R) (table : Finset R) :
    Ends (acquire fault r table) (fun table' => Gained table table' [r]) (· = fault) := by
  unfold acquire
  split
  · rfl
  · rename_i hnot
    refine ⟨List.nodup_singleton r, ?_, ?_⟩
    · simpa using hnot
    · intro r'
      rw [Finset.mem_insert, List.mem_singleton, or_comm]

theorem release_ends [DecidableEq R] (fault : ε) (h : r ∈ after) :
    Ends (release fault r after) (fun before => Gained before after [r]) fun _ => False := by
  unfold release
  rw [if_pos h]
  refine ⟨List.nodup_singleton r, by simp, ?_⟩
  intro r'
  rw [Finset.mem_erase, List.mem_singleton]
  constructor
  · intro hr'
    by_cases heq : r' = r
    · exact .inr heq
    · exact .inl ⟨heq, hr'⟩
  · rintro (hr' | rfl)
    · exact hr'.2
    · exact h

namespace Exclusive

variable {P : Type w} {place place' : P → List R}

theorem gain (h : Exclusive (· ∈ before) place) (hgained : Gained before after got) (dst : P)
    (hdst : (place' dst).Perm (got ++ place dst)) (hrest : ∀ p, p ≠ dst → place' p = place p) :
    Exclusive (· ∈ after) place' :=
  h.grow dst got hgained.mem_iff hgained.nodup hgained.fresh hdst hrest

theorem shed (h : Exclusive (· ∈ after) place) (hgained : Gained before after got) (src : P)
    (hsrc : (place src).Perm (got ++ place' src)) (hrest : ∀ p, p ≠ src → place' p = place p) :
    Exclusive (· ∈ before) place' := by
  obtain ⟨_, hleft, hdisjoint⟩ := List.nodup_append.mp (hsrc.nodup_iff.mp (h.nodup src))
  have hkeep : ∀ {p r}, r ∈ place' p → r ∈ place p := by
    intro p r hr
    by_cases hp : p = src
    · subst hp
      exact hsrc.mem_iff.mpr (List.mem_append_right _ hr)
    · exact hrest p hp ▸ hr
  have hnot : ∀ {p r}, r ∈ place' p → r ∉ got := by
    intro p r hr hgot
    have hp := h.apart (hkeep hr) (hsrc.mem_iff.mpr (List.mem_append_left _ hgot))
    subst hp
    exact hdisjoint r hgot r hr rfl
  constructor
  · intro p
    by_cases hp : p = src
    · subst hp
      exact hleft
    · exact (hrest p hp).symm ▸ h.nodup p
  · intro p q r hp hq
    exact h.apart (hkeep hp) (hkeep hq)
  · intro p r hp
    exact ((hgained.mem_iff r).mp (h.sound (hkeep hp))).resolve_right (hnot hp)
  · intro r hr
    obtain ⟨p, hp⟩ := h.covers ((hgained.mem_iff r).mpr (.inl hr))
    by_cases hsame : p = src
    · subst hsame
      rcases List.mem_append.mp (hsrc.mem_iff.mp hp) with hgot | hp
      · exact absurd hr (hgained.fresh r hgot)
      · exact ⟨p, hp⟩
    · exact ⟨p, (hrest p hsame).symm ▸ hp⟩

end Exclusive

end RdmaCapsule.Foundation
