import RdmaCapsule.Foundation.Outcome

/-! Loops that may never end. A loop has a condition and a body, and the body may stop with a fault.
A number of passes answers for the loop only when the condition no longer holds after them. -/
namespace RdmaCapsule.Foundation

structure Loop (σ : Type u) (ε : Type v) where
  going : σ → Bool
  body : σ → Except ε σ

namespace Loop

def passes (loop : Loop σ ε) : Nat → σ → Except ε σ
  | 0, state => .ok state
  | n + 1, state => if loop.going state then loop.body state >>= loop.passes n else .ok state

/-- The loop comes to an end, and then the state is `result`. -/
def Finishes (loop : Loop σ ε) (state result : σ) : Prop :=
  ∃ n, loop.passes n state = .ok result ∧ loop.going result = false

variable {loop : Loop σ ε} {state next result : σ}

theorem passes_done (n : Nat) (h : loop.going state = false) : loop.passes n state = .ok state := by
  cases n with
  | zero => rfl
  | succ n => rw [passes, h, if_neg Bool.false_ne_true]

theorem finishes_of_done (h : loop.going state = false) :
    loop.Finishes state result ↔ result = state := by
  constructor
  · rintro ⟨n, hrun, -⟩
    rw [passes_done n h] at hrun
    exact (Except.ok.inj hrun).symm
  · rintro rfl
    exact ⟨0, rfl, h⟩

theorem finishes_of_going (h : loop.going state = true) :
    loop.Finishes state result ↔
      ∃ next, loop.body state = .ok next ∧ loop.Finishes next result := by
  constructor
  · rintro ⟨n, hrun, hend⟩
    cases n with
    | zero =>
        cases hrun
        exact absurd h (by simp [hend])
    | succ n =>
        rw [passes, if_pos h] at hrun
        obtain ⟨next, hbody, hrest⟩ := bind_eq_ok hrun
        exact ⟨next, hbody, n, hrest, hend⟩
  · rintro ⟨next, hbody, n, hrest, hend⟩
    refine ⟨n + 1, ?_, hend⟩
    rw [passes, if_pos h, hbody, ok_bind, hrest]

theorem Finishes.ended (h : loop.Finishes state result) : loop.going result = false := by
  obtain ⟨_, -, hend⟩ := h
  exact hend

/-- What the body keeps holds at the end. -/
theorem Finishes.keeps (h : loop.Finishes state result) (inv : σ → Prop)
    (hbody : ∀ state next, inv state → loop.going state = true → loop.body state = .ok next →
      inv next)
    (hinv : inv state) : inv result := by
  obtain ⟨n, hrun, -⟩ := h
  induction n generalizing state with
  | zero =>
      cases hrun
      exact hinv
  | succ n ih =>
      by_cases hgoing : loop.going state = true
      · rw [passes, if_pos hgoing] at hrun
        obtain ⟨next, hnext, hrest⟩ := bind_eq_ok hrun
        exact ih (hbody state next hinv hgoing hnext) hrest
      · rw [passes, if_neg hgoing] at hrun
        cases hrun
        exact hinv

/-- What is kept by the body and keeps the loop going keeps it going for ever. -/
theorem not_finishes (inv : σ → Prop) (hgoing : ∀ state, inv state → loop.going state = true)
    (hbody : ∀ state next, inv state → loop.body state = .ok next → inv next) (h : inv state) :
    ¬ loop.Finishes state result := by
  intro hfinishes
  have hresult := hfinishes.keeps inv (fun state next hinv _ => hbody state next hinv) h
  exact absurd (hgoing result hresult) (by simp [hfinishes.ended])

/-- The loop comes to this state after some of its passes. -/
def Reaches (loop : Loop σ ε) (first state : σ) : Prop := ∃ n, loop.passes n first = .ok state

theorem Reaches.refl (loop : Loop σ ε) (state : σ) : loop.Reaches state state := ⟨0, rfl⟩

theorem passes_next {n : Nat} {first : σ} (hrun : loop.passes n first = .ok state)
    (hgoing : loop.going state = true) (hbody : loop.body state = .ok next) :
    loop.passes (n + 1) first = .ok next := by
  induction n generalizing first with
  | zero =>
      cases hrun
      rw [passes, if_pos hgoing, hbody]
      rfl
  | succ n ih =>
      by_cases hfirst : loop.going first = true
      · rw [passes, if_pos hfirst] at hrun
        obtain ⟨second, hsecond, hrest⟩ := bind_eq_ok hrun
        rw [passes, if_pos hfirst, hsecond, ok_bind]
        exact ih hrest
      · rw [passes, if_neg hfirst] at hrun
        cases hrun
        exact absurd hgoing hfirst

theorem Reaches.step {first : σ} (h : loop.Reaches first state) (hgoing : loop.going state = true)
    (hbody : loop.body state = .ok next) : loop.Reaches first next := by
  obtain ⟨n, hrun⟩ := h
  exact ⟨n + 1, passes_next hrun hgoing hbody⟩

/-- No pass stops with a fault where the body keeps an invariant. -/
theorem passes_returns (inv : σ → Prop)
    (hbody : ∀ state, inv state → loop.going state = true →
      ∃ next, loop.body state = .ok next ∧ inv next)
    (h : inv state) (n : Nat) : ∃ result, loop.passes n state = .ok result ∧ inv result := by
  induction n generalizing state with
  | zero => exact ⟨state, rfl, h⟩
  | succ n ih =>
      cases hgoing : loop.going state with
      | false => exact ⟨state, passes_done (n + 1) hgoing, h⟩
      | true =>
          obtain ⟨next, hnext, hinv⟩ := hbody state h hgoing
          rw [passes, if_pos hgoing, hnext, ok_bind]
          exact ih hinv

/-- The rule for a loop with an invariant and a variant. -/
theorem finishes_of_variant [LT α] [WellFoundedLT α] (inv : σ → Prop) (variant : σ → α)
    (hbody : ∀ state, inv state → loop.going state = true →
      ∃ next, loop.body state = .ok next ∧ inv next ∧ variant next < variant state)
    (h : inv state) : ∃ result, loop.Finishes state result ∧ inv result := by
  induction hvariant : variant state using WellFoundedLT.induction generalizing state with
  | _ bound ih =>
      cases hgoing : loop.going state with
      | false => exact ⟨state, (finishes_of_done hgoing).mpr rfl, h⟩
      | true =>
          obtain ⟨next, hnext, hinv, hless⟩ := hbody state h hgoing
          obtain ⟨result, hfinishes, hresult⟩ := ih (variant next) (hvariant ▸ hless) hinv rfl
          exact ⟨result, (finishes_of_going hgoing).mpr ⟨next, hnext, hfinishes⟩, hresult⟩

end Loop

end RdmaCapsule.Foundation
