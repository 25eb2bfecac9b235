import Mathlib

/-! A value that many parties update, with a counter that is increased before each update and
another one that is increased after it. Who finds the first counter where the second one was before
the value was read, has read it between two updates. -/
namespace RdmaCapsule.Foundation

/-- The parties that are before and after their update, how many updates have been started and
finished, and the updates made so far in their order. -/
structure Updates (θ : Type u) (υ : Type v) where
  started : Nat
  finished : Nat
  before : Finset θ
  after : Finset θ
  made : List υ

namespace Updates

variable {θ : Type u} {υ : Type v} {updates : Updates θ υ} {t : θ} {u : υ}

def none : Updates θ υ := ⟨0, 0, ∅, ∅, []⟩

structure Counted (updates : Updates θ υ) : Prop where
  started : updates.started = updates.made.length + updates.before.card
  made : updates.made.length = updates.finished + updates.after.card

/-- No update is under way. -/
def Calm (updates : Updates θ υ) : Prop := updates.before = ∅ ∧ updates.after = ∅

theorem Counted.none : (none : Updates θ υ).Counted := ⟨rfl, rfl⟩

theorem Counted.finished_le (h : updates.Counted) : updates.finished ≤ updates.made.length := by
  rw [h.made]
  exact Nat.le_add_right _ _

variable [DecidableEq θ]

def start (updates : Updates θ υ) (t : θ) : Updates θ υ :=
  { updates with started := updates.started + 1, before := insert t updates.before }

def make (updates : Updates θ υ) (t : θ) (u : υ) : Updates θ υ :=
  { updates with
    before := updates.before.erase t
    after := insert t updates.after
    made := updates.made ++ [u] }

def finish (updates : Updates θ υ) (t : θ) : Updates θ υ :=
  { updates with finished := updates.finished + 1, after := updates.after.erase t }

theorem Counted.start (h : updates.Counted) (ht : t ∉ updates.before) :
    (updates.start t).Counted := by
  refine ⟨?_, h.made⟩
  show updates.started + 1 = updates.made.length + (insert t updates.before).card
  rw [Finset.card_insert_of_notMem ht, h.started]
  rfl

theorem Counted.make (h : updates.Counted) (ht : t ∈ updates.before) (ht' : t ∉ updates.after) :
    (updates.make t u).Counted := by
  have hcard := Finset.card_erase_add_one ht
  refine ⟨?_, ?_⟩
  · show updates.started = (updates.made ++ [u]).length + (updates.before.erase t).card
    rw [h.started, List.length_append, List.length_singleton]
    omega
  · show (updates.made ++ [u]).length = updates.finished + (insert t updates.after).card
    rw [List.length_append, List.length_singleton, Finset.card_insert_of_notMem ht', h.made]
    rfl

theorem Counted.finish (h : updates.Counted) (ht : t ∈ updates.after) :
    (updates.finish t).Counted := by
  have hcard := Finset.card_erase_add_one ht
  refine ⟨h.started, ?_⟩
  show updates.made.length = updates.finished + 1 + (updates.after.erase t).card
  rw [h.made]
  omega

end Updates

end RdmaCapsule.Foundation
