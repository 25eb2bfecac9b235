import Mathlib

/-! State machines driven by inputs from an environment. A step may stop with a
fault, and the environment offers an input only where it is enabled. An
invariant of all runs is proved from one step; a machine is narrowed by
forbidding some of its inputs, and every run of the narrowed machine is a run
of the original one. -/
namespace RdmaCapsule.Foundation

structure Machine (σ : Type u) (ι : Type v) (ε : Type w) where
  start : σ → Prop
  enabled : σ → ι → Prop
  step : σ → ι → Except ε σ

variable {σ : Type u} {σ' : Type u'} {ι : Type v} {ε : Type w}

namespace Machine

def Next (machine : Machine σ ι ε) (before after : σ) : Prop :=
  ∃ input, machine.enabled before input ∧ machine.step before input = .ok after

def Reachable (machine : Machine σ ι ε) (state : σ) : Prop :=
  ∃ first, machine.start first ∧ Relation.ReflTransGen machine.Next first state

theorem Reachable.start {machine : Machine σ ι ε} {state : σ}
    (h : machine.start state) : machine.Reachable state :=
  ⟨state, h, .refl⟩

theorem Reachable.next {machine : Machine σ ι ε} {before after : σ}
    (h : machine.Reachable before) (input : ι) (henabled : machine.enabled before input)
    (hstep : machine.step before input = .ok after) : machine.Reachable after := by
  obtain ⟨first, hfirst, hpath⟩ := h
  exact ⟨first, hfirst, hpath.tail ⟨input, henabled, hstep⟩⟩

/-- A run of several steps, where every input may be offered. -/
theorem Reachable.run {machine : Machine σ ι ε} {before after : σ}
    (h : machine.Reachable before) (henabled : ∀ state input, machine.enabled state input)
    (inputs : List ι) (hrun : inputs.foldlM machine.step before = .ok after) :
    machine.Reachable after := by
  induction inputs generalizing before with
  | nil =>
      cases hrun
      exact h
  | cons input rest ih =>
      rw [List.foldlM_cons] at hrun
      cases hstep : machine.step before input with
      | error fault =>
          rw [hstep] at hrun
          exact nomatch hrun
      | ok next =>
          rw [hstep] at hrun
          exact ih (h.next input (henabled before input) hstep) hrun

/-- The invariant rule: what holds at the start and is kept by each enabled
step holds in every reachable state. -/
theorem Reachable.invariant {machine : Machine σ ι ε} {inv : σ → Prop} {state : σ}
    (h : machine.Reachable state) (hstart : ∀ first, machine.start first → inv first)
    (hstep : ∀ before input after, machine.Reachable before → inv before →
      machine.enabled before input → machine.step before input = .ok after → inv after) :
    inv state := by
  obtain ⟨first, hfirst, hpath⟩ := h
  induction hpath with
  | refl => exact hstart first hfirst
  | @tail before after hprefix hnext ih =>
      obtain ⟨input, henabled, hrun⟩ := hnext
      exact hstep before input after ⟨first, hfirst, hprefix⟩ ih henabled hrun

/-- A run of one machine is a run of another, as far as that one sees the state. -/
theorem Reachable.project {machine : Machine σ ι ε} {machine' : Machine σ' ι ε} {state : σ}
    (h : machine.Reachable state) (view : σ → σ')
    (hstart : ∀ first, machine.start first → machine'.Reachable (view first))
    (hstep : ∀ before input after, machine.enabled before input →
      machine.step before input = .ok after →
      machine'.enabled (view before) input ∧
        machine'.step (view before) input = .ok (view after)) :
    machine'.Reachable (view state) := by
  refine h.invariant hstart ?_
  intro before input after _ hbefore henabled hrun
  obtain ⟨henabled', hrun'⟩ := hstep before input after henabled hrun
  exact hbefore.next input henabled' hrun'

/-- The same machine, offered only the inputs that `allowed` admits. -/
def restrict (machine : Machine σ ι ε) (allowed : σ → ι → Prop) : Machine σ ι ε where
  start := machine.start
  enabled state input := machine.enabled state input ∧ allowed state input
  step := machine.step

theorem Reachable.of_restrict {machine : Machine σ ι ε} {allowed : σ → ι → Prop} {state : σ}
    (h : (machine.restrict allowed).Reachable state) : machine.Reachable state :=
  h.project id (fun _ hfirst => .start hfirst) fun _ _ _ henabled hrun => ⟨henabled.1, hrun⟩

end Machine

end RdmaCapsule.Foundation
