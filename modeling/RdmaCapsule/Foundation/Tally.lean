import Mathlib

/-! How many threads are where. A step moves one thread, so a tally changes by that
thread alone; two tallies that share no thread fit into all threads together. -/
namespace RdmaCapsule.Foundation

variable {T : Type u} [Fintype T] {α : Type v} {β : Type w}

/-- The number of threads whose place satisfies `p`. -/
def tally (p : α → Prop) [DecidablePred p] (place : T → α) : Nat :=
  (Finset.univ.filter fun t => p (place t)).card

variable {p : α → Prop} [DecidablePred p] {q : β → Prop} [DecidablePred q]

theorem tally_eq_zero {place : T → α} (h : ∀ t, ¬ p (place t)) : tally p place = 0 :=
  Finset.card_eq_zero.mpr (Finset.filter_eq_empty_iff.mpr fun t _ => h t)

theorem tally_le_card (place : T → α) : tally p place ≤ Fintype.card T :=
  Finset.card_filter_le ..

theorem tally_mono {place : T → α} {place' : T → β} (h : ∀ t, p (place t) → q (place' t)) :
    tally p place ≤ tally q place' :=
  Finset.card_le_card (Finset.monotone_filter_right _ fun t _ => h t)

/-- One thread is in neither of two tallies that share no thread. -/
theorem tally_add_lt {place : T → α} {place' : T → β}
    (happart : ∀ t, p (place t) → ¬ q (place' t)) (t : T) (hp : ¬ p (place t))
    (hq : ¬ q (place' t)) : tally p place + tally q place' < Fintype.card T := by
  classical
  have hdisjoint : Disjoint (Finset.univ.filter fun t => p (place t))
      (Finset.univ.filter fun t => q (place' t)) :=
    Finset.disjoint_filter.mpr fun t _ => happart t
  unfold tally
  rw [← Finset.card_union_of_disjoint hdisjoint]
  refine Finset.card_lt_univ_of_notMem (x := t) ?_
  simp [hp, hq]

variable [DecidableEq T]

/-- A thread leaves its place for another. -/
theorem tally_update (place : T → α) (t : T) (a : α) :
    tally p (Function.update place t a) + (if p (place t) then 1 else 0) =
      tally p place + (if p a then 1 else 0) := by
  have hsplit (place' : T → α) : tally p place' =
      (if p (place' t) then 1 else 0) +
        ((Finset.univ.erase t).filter fun u => p (place' u)).card := by
    unfold tally
    rw [← Finset.insert_erase (Finset.mem_univ t), Finset.filter_insert]
    split
    · rw [Finset.card_insert_of_notMem (by simp)]
      simp [add_comm]
    · simp
  have hrest : ((Finset.univ.erase t).filter fun u => p (Function.update place t a u)) =
      (Finset.univ.erase t).filter fun u => p (place u) := by
    refine Finset.filter_congr fun u hu => ?_
    rw [Function.update_of_ne (Finset.ne_of_mem_erase hu)]
  rw [hsplit, hsplit place, hrest, Function.update_self]
  omega

end RdmaCapsule.Foundation
