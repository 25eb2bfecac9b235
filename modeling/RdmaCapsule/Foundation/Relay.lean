import Mathlib

/-! Items that pass a line of places, one place after the other, under a window. Credit is taken
before an item is started, and the credit of an item is free again when the item has passed the
last place. -/
namespace RdmaCapsule.Foundation

/-- How much credit was ever taken, and how many items each place has passed. -/
structure Relay where
  credit : Nat
  passed : Nat → Nat

namespace Relay

def passBy (relay : Relay) (place n : Nat) : Relay :=
  { relay with passed := Function.update relay.passed place (relay.passed place + n) }

inductive Step (last window : Nat) (relay : Relay) : Relay → Prop
  | take (n : Nat) (h : relay.credit + n ≤ relay.passed last + window) :
      Step last window relay { relay with credit := relay.credit + n }
  | start (n : Nat) (h : relay.passed 0 + n ≤ relay.credit) :
      Step last window relay (relay.passBy 0 n)
  | pass (place : Nat) (hplace : place < last)
      (h : relay.passed (place + 1) < relay.passed place) :
      Step last window relay (relay.passBy (place + 1) 1)

/-- No place is ahead of the one before it, and the first one is ahead of the last one by the
window at most. -/
structure Ordered (last window : Nat) (relay : Relay) : Prop where
  line : ∀ place < last, relay.passed (place + 1) ≤ relay.passed place
  started : relay.passed 0 ≤ relay.credit
  window : relay.credit ≤ relay.passed last + window

variable {last window n place place' : Nat} {relay relay' : Relay}

theorem passBy_self : (relay.passBy place n).passed place = relay.passed place + n :=
  Function.update_self ..

theorem passBy_of_ne (h : place' ≠ place) :
    (relay.passBy place n).passed place' = relay.passed place' :=
  Function.update_of_ne h ..

theorem passed_le_passBy : relay.passed place' ≤ (relay.passBy place n).passed place' := by
  by_cases h : place' = place
  · subst h
    rw [passBy_self]
    exact Nat.le_add_right _ _
  · rw [passBy_of_ne h]

theorem Ordered.step (h : Ordered last window relay) (hstep : Step last window relay relay') :
    Ordered last window relay' := by
  cases hstep with
  | take n hn => exact ⟨h.line, h.started.trans (Nat.le_add_right _ _), hn⟩
  | start n hn =>
      refine ⟨fun place hplace => ?_, ?_, h.window.trans ?_⟩
      · rw [passBy_of_ne (Nat.succ_ne_zero place)]
        exact (h.line place hplace).trans passed_le_passBy
      · rw [passBy_self]
        exact hn
      · exact Nat.add_le_add_right passed_le_passBy _
  | pass at' hat hlt =>
      refine ⟨fun place hplace => ?_, ?_, h.window.trans ?_⟩
      · by_cases hsame : place = at'
        · subst hsame
          rw [passBy_self, passBy_of_ne (Nat.ne_of_lt (Nat.lt_succ_self place))]
          exact hlt
        · rw [passBy_of_ne fun hsucc => hsame (Nat.succ_injective hsucc)]
          exact (h.line place hplace).trans passed_le_passBy
      · rw [passBy_of_ne (Nat.succ_ne_zero at').symm]
        exact h.started
      · exact Nat.add_le_add_right passed_le_passBy _

theorem Ordered.run (h : Ordered last window relay)
    (hrun : Relation.ReflTransGen (Step last window) relay relay') :
    Ordered last window relay' := by
  induction hrun with
  | refl => exact h
  | tail _ hstep ih => exact ih.step hstep

/-- What a place has passed, every place before it has passed. -/
theorem Ordered.passed_le (h : Ordered last window relay) (hle : place ≤ place')
    (hlast : place' ≤ last) : relay.passed place' ≤ relay.passed place := by
  induction place', hle using Nat.le_induction with
  | base => rfl
  | succ place' _ ih =>
      exact (h.line place' (Nat.lt_of_succ_le hlast)).trans (ih (Nat.le_of_succ_le hlast))

theorem Ordered.passed_le_credit (h : Ordered last window relay) (hplace : place ≤ last) :
    relay.passed place ≤ relay.credit :=
  (h.passed_le (Nat.zero_le _) hplace).trans h.started

/-- Two places are apart by the window at most. -/
theorem Ordered.passed_le_add_window (h : Ordered last window relay) (hplace : place ≤ last)
    (hplace' : place' ≤ last) : relay.passed place ≤ relay.passed place' + window :=
  ((h.passed_le_credit hplace).trans h.window).trans
    (Nat.add_le_add_right (h.passed_le hplace' le_rfl) _)

end Relay

end RdmaCapsule.Foundation
