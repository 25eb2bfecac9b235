import Mathlib

/-! Partial correctness of computations that may stop with a fault. One
statement covers both ends: what holds of a returned value, and which faults
can be raised. The rules below follow the monadic structure of a program, so a
caller cites the statement of its callee and never unfolds it. -/
namespace RdmaCapsule.Foundation

/-- If `run` returns, its value satisfies `post`; if it stops, its fault
satisfies `stop`. -/
def Ends (run : Except ε α) (post : α → Prop) (stop : ε → Prop) : Prop :=
  match run with
  | .ok value => post value
  | .error fault => stop fault

@[simp] theorem ends_ok (value : α) (post : α → Prop) (stop : ε → Prop) :
    Ends (.ok value) post stop ↔ post value := Iff.rfl

@[simp] theorem ends_pure (value : α) (post : α → Prop) (stop : ε → Prop) :
    Ends (pure value) post stop ↔ post value := Iff.rfl

@[simp] theorem ends_error (fault : ε) (post : α → Prop) (stop : ε → Prop) :
    Ends (.error fault) post stop ↔ stop fault := Iff.rfl

theorem Ends.value {run : Except ε α} {post : α → Prop} {stop : ε → Prop}
    (h : Ends run post stop) {value : α} (hrun : run = .ok value) : post value := by
  subst hrun
  exact h

theorem Ends.fault {run : Except ε α} {post : α → Prop} {stop : ε → Prop}
    (h : Ends run post stop) {fault : ε} (hrun : run = .error fault) : stop fault := by
  subst hrun
  exact h

/-- Nothing is asked of a run. -/
theorem ends_true (run : Except ε α) : Ends run (fun _ => True) fun _ => True := by
  cases run with
  | ok value => trivial
  | error fault => trivial

/-- A run that no fault can stop. -/
theorem Ends.returns {run : Except ε α} {post : α → Prop} (h : Ends run post fun _ => False) :
    ∃ value, run = .ok value ∧ post value := by
  cases run with
  | ok value => exact ⟨value, rfl, h⟩
  | error fault => exact h.elim

theorem Ends.mono {run : Except ε α} {post post' : α → Prop} {stop stop' : ε → Prop}
    (h : Ends run post stop) (hpost : ∀ value, post value → post' value)
    (hstop : ∀ fault, stop fault → stop' fault) : Ends run post' stop' := by
  cases run with
  | ok value => exact hpost value h
  | error fault => exact hstop fault h

theorem Ends.and {run : Except ε α} {left right : α → Prop} {stop stop' : ε → Prop}
    (h : Ends run left stop) (h' : Ends run right stop') :
    Ends run (fun value => left value ∧ right value) stop := by
  cases run with
  | ok value => exact ⟨h, h'⟩
  | error fault => exact h

/-- A statement about returned values alone, as an inversion of the run. -/
theorem ends_iff_forall {run : Except ε α} {post : α → Prop} :
    Ends run post (fun _ => True) ↔ ∀ value, run = .ok value → post value := by
  constructor
  · intro h value hrun
    exact h.value hrun
  · intro h
    cases run with
    | ok value => exact h value rfl
    | error fault => trivial

theorem Ends.bind {run : Except ε α} {next : α → Except ε β}
    {mid : α → Prop} {post : β → Prop} {stop : ε → Prop}
    (hrun : Ends run mid stop) (hnext : ∀ value, mid value → Ends (next value) post stop) :
    Ends (run >>= next) post stop := by
  cases run with
  | ok value => exact hnext value hrun
  | error fault => exact hrun

/-- Another name for the fault makes no difference to the value. -/
theorem Ends.mapError {run : Except ε α} {post : α → Prop} (name : ε → ε')
    (h : Ends run post fun _ => True) : Ends (run.mapError name) post fun _ => True := by
  cases run with
  | ok value => exact h
  | error fault => trivial

theorem Ends.mapFault {run : Except ε α} {post : α → Prop} {stop : ε → Prop} {stop' : ε' → Prop}
    (name : ε → ε') (h : Ends run post stop) (hname : ∀ fault, stop fault → stop' (name fault)) :
    Ends (run.mapError name) post stop' := by
  cases run with
  | ok value => exact h
  | error fault => exact hname fault h

@[simp] theorem ok_bind (value : α) (next : α → Except ε β) :
    (.ok value >>= next) = next value := rfl

theorem bind_eq_ok {run : Except ε α} {next : α → Except ε β} {result : β}
    (h : run >>= next = .ok result) : ∃ value, run = .ok value ∧ next value = .ok result := by
  cases run with
  | ok value => exact ⟨value, rfl, h⟩
  | error fault => exact nomatch h

theorem ok_of_mapError {run : Except ε α} {name : ε → ε'} {value : α}
    (h : run.mapError name = .ok value) : run = .ok value := by
  cases run with
  | ok value' =>
      cases h
      rfl
  | error fault => exact nomatch h

/-- The loop rule. The invariant sees the items that are still to come. -/
theorem Ends.foldlM {body : σ → α → Except ε σ} (inv : List α → σ → Prop) {stop : ε → Prop}
    (hbody : ∀ item rest state, inv (item :: rest) state →
      Ends (body state item) (inv rest) stop)
    (items : List α) (state : σ) (h : inv items state) :
    Ends (items.foldlM body state) (inv []) stop := by
  induction items generalizing state with
  | nil => exact h
  | cons item rest ih =>
      rw [List.foldlM_cons]
      exact (hbody item rest state h).bind fun next hnext => ih next hnext

theorem Ends.mapM {body : α → Except ε β} {stop : ε → Prop}
    (hbody : ∀ item, Ends (body item) (fun _ => True) stop) (items : List α) :
    Ends (items.mapM body) (fun _ => True) stop := by
  induction items with
  | nil => trivial
  | cons item rest ih =>
      rw [List.mapM_cons]
      exact (hbody item).bind fun _ _ => ih.bind fun _ _ => trivial

end RdmaCapsule.Foundation
