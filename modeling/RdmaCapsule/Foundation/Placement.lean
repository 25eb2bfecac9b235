import Mathlib

/-! Items that live in containers. `Exclusive` says that each known item is in
exactly one container, once. Two things happen to such a family: some items
move from one container to another, or new items appear in one of them. -/
namespace RdmaCapsule.Foundation

variable {P : Type u} {α : Type v}

structure Exclusive (known : α → Prop) (place : P → List α) : Prop where
  nodup : ∀ p, (place p).Nodup
  apart : ∀ {p q a}, a ∈ place p → a ∈ place q → p = q
  sound : ∀ {p a}, a ∈ place p → known a
  covers : ∀ {a}, known a → ∃ p, a ∈ place p

namespace Exclusive

variable {known : α → Prop} {place place' : P → List α}

theorem existsUnique (h : Exclusive known place) {a : α} (ha : known a) :
    ∃! p, a ∈ place p := by
  obtain ⟨p, hp⟩ := h.covers ha
  exact ⟨p, hp, fun q hq => h.apart hq hp⟩

theorem congr (h : Exclusive known place) (hplace : ∀ p, (place' p).Perm (place p)) :
    Exclusive known place' where
  nodup p := (hplace p).nodup_iff.mpr (h.nodup p)
  apart hp hq := h.apart ((hplace _).mem_iff.mp hp) ((hplace _).mem_iff.mp hq)
  sound hp := h.sound ((hplace _).mem_iff.mp hp)
  covers ha := by
    obtain ⟨p, hp⟩ := h.covers ha
    exact ⟨p, (hplace p).mem_iff.mpr hp⟩

/-- Where an item was before `moved` left `src` and arrived in `dst`. -/
theorem origin (h : Exclusive known place) {src dst : P} {moved : List α}
    (hsrc : (place src).Perm (moved ++ place' src))
    (hdst : (place' dst).Perm (moved ++ place dst)) (hne : src ≠ dst)
    (hrest : ∀ p, p ≠ src → p ≠ dst → (place' p).Perm (place p)) {p : P} {a : α}
    (ha : a ∈ place' p) : (p = dst ∧ a ∈ moved) ∨ (a ∉ moved ∧ a ∈ place p) := by
  have hsplit : (moved ++ place' src).Nodup := hsrc.nodup_iff.mp (h.nodup src)
  have hdisjoint := (List.nodup_append.mp hsplit).2.2
  have hfrom : ∀ {a}, a ∈ moved → a ∈ place src := fun ha =>
    hsrc.mem_iff.mpr (List.mem_append_left _ ha)
  by_cases hp : p = src
  · subst hp
    exact .inr ⟨fun hm => hdisjoint a hm a ha rfl, hsrc.mem_iff.mpr (List.mem_append_right _ ha)⟩
  · by_cases hq : p = dst
    · subst hq
      rcases List.mem_append.mp (hdst.mem_iff.mp ha) with hm | hm
      · exact .inl ⟨rfl, hm⟩
      · exact .inr ⟨fun hm' => hp (h.apart hm (hfrom hm')), hm⟩
    · have ha' := (hrest p hp hq).mem_iff.mp ha
      exact .inr ⟨fun hm => hp (h.apart ha' (hfrom hm)), ha'⟩

/-- `moved` leaves `src` and arrives in `dst`; nothing else changes, except
possibly the order inside a container. -/
theorem transfer (h : Exclusive known place) (src dst : P) (moved : List α) (hne : src ≠ dst)
    (hsrc : (place src).Perm (moved ++ place' src))
    (hdst : (place' dst).Perm (moved ++ place dst))
    (hrest : ∀ p, p ≠ src → p ≠ dst → (place' p).Perm (place p)) :
    Exclusive known place' := by
  have hsplit : (moved ++ place' src).Nodup := hsrc.nodup_iff.mp (h.nodup src)
  obtain ⟨hmoved, hleft, _⟩ := List.nodup_append.mp hsplit
  have hfrom : ∀ {a}, a ∈ moved → a ∈ place src := fun ha =>
    hsrc.mem_iff.mpr (List.mem_append_left _ ha)
  have horigin : ∀ {p a}, a ∈ place' p → (p = dst ∧ a ∈ moved) ∨ (a ∉ moved ∧ a ∈ place p) :=
    fun ha => h.origin hsrc hdst hne hrest ha
  constructor
  · intro p
    by_cases hp : p = src
    · subst hp
      exact hleft
    · by_cases hq : p = dst
      · subst hq
        refine hdst.nodup_iff.mpr (List.nodup_append.mpr ⟨hmoved, h.nodup p, ?_⟩)
        intro a ha b hb hab
        subst hab
        exact hp (h.apart hb (hfrom ha))
      · exact (hrest p hp hq).nodup_iff.mpr (h.nodup p)
  · intro p q a hp hq
    rcases horigin hp with ⟨rfl, hm⟩ | ⟨hm, hp'⟩
    · rcases horigin hq with ⟨rfl, _⟩ | ⟨hm', _⟩
      · rfl
      · exact absurd hm hm'
    · rcases horigin hq with ⟨rfl, hm'⟩ | ⟨_, hq'⟩
      · exact absurd hm' hm
      · exact h.apart hp' hq'
  · intro p a hp
    rcases horigin hp with ⟨rfl, hm⟩ | ⟨_, hp'⟩
    · exact h.sound (hfrom hm)
    · exact h.sound hp'
  · intro a ha
    obtain ⟨p, hp⟩ := h.covers ha
    by_cases hsrcp : p = src
    · subst hsrcp
      rcases List.mem_append.mp (hsrc.mem_iff.mp hp) with hm | hm
      · exact ⟨dst, hdst.mem_iff.mpr (List.mem_append_left _ hm)⟩
      · exact ⟨p, hm⟩
    · by_cases hdstp : p = dst
      · subst hdstp
        exact ⟨p, hdst.mem_iff.mpr (List.mem_append_right _ hp)⟩
      · exact ⟨p, (hrest p hsrcp hdstp).mem_iff.mpr hp⟩

/-- Containers are emptied into others, `dst` says which into which. -/
theorem merge (h : Exclusive known place) (dst : P → P)
    (hmem : ∀ p a, a ∈ place' p ↔ ∃ p₀, dst p₀ = p ∧ a ∈ place p₀)
    (hnodup : ∀ p, (place' p).Nodup) : Exclusive known place' where
  nodup := hnodup
  apart := by
    intro p q a hp hq
    obtain ⟨p₀, rfl, hp₀⟩ := (hmem p a).mp hp
    obtain ⟨q₀, rfl, hq₀⟩ := (hmem q a).mp hq
    rw [h.apart hp₀ hq₀]
  sound := by
    intro p a hp
    obtain ⟨p₀, _, hp₀⟩ := (hmem p a).mp hp
    exact h.sound hp₀
  covers := by
    intro a ha
    obtain ⟨p, hp⟩ := h.covers ha
    exact ⟨dst p, (hmem _ a).mpr ⟨p, rfl, hp⟩⟩

/-- New items appear in one container. -/
theorem grow (h : Exclusive known place) {known' : α → Prop} (dst : P) (fresh : List α)
    (hknown : ∀ a, known' a ↔ known a ∨ a ∈ fresh) (hfresh : fresh.Nodup)
    (hnew : ∀ a ∈ fresh, ¬ known a) (hdst : (place' dst).Perm (fresh ++ place dst))
    (hrest : ∀ p, p ≠ dst → place' p = place p) :
    Exclusive known' place' := by
  have hold : ∀ {p a}, a ∈ place' p → (p = dst ∧ a ∈ fresh) ∨ a ∈ place p := by
    intro p a ha
    by_cases hp : p = dst
    · subst hp
      exact (List.mem_append.mp (hdst.mem_iff.mp ha)).imp (fun hm => ⟨rfl, hm⟩) id
    · exact .inr (hrest p hp ▸ ha)
  have hkeep : ∀ {p a}, a ∈ place p → a ∈ place' p := by
    intro p a ha
    by_cases hp : p = dst
    · subst hp
      exact hdst.mem_iff.mpr (List.mem_append_right _ ha)
    · exact (hrest p hp).symm ▸ ha
  constructor
  · intro p
    by_cases hp : p = dst
    · subst hp
      refine hdst.nodup_iff.mpr (List.nodup_append.mpr ⟨hfresh, h.nodup p, ?_⟩)
      intro a ha b hb hab
      subst hab
      exact hnew a ha (h.sound hb)
    · exact (hrest p hp).symm ▸ h.nodup p
  · intro p q a hp hq
    rcases hold hp with ⟨rfl, hm⟩ | hp'
    · rcases hold hq with ⟨rfl, _⟩ | hq'
      · rfl
      · exact absurd (h.sound hq') (hnew a hm)
    · rcases hold hq with ⟨rfl, hm⟩ | hq'
      · exact absurd (h.sound hp') (hnew a hm)
      · exact h.apart hp' hq'
  · intro p a hp
    rcases hold hp with ⟨_, hm⟩ | hp'
    · exact (hknown a).mpr (.inr hm)
    · exact (hknown a).mpr (.inl (h.sound hp'))
  · intro a ha
    rcases (hknown a).mp ha with hk | hm
    · obtain ⟨p, hp⟩ := h.covers hk
      exact ⟨p, hkeep hp⟩
    · exact ⟨dst, hdst.mem_iff.mpr (List.mem_append_left _ hm)⟩

end Exclusive

end RdmaCapsule.Foundation
