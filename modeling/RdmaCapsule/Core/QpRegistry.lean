import Mathlib
import RdmaCapsule.Core.Ownership

/-! The queue pairs that the dispatcher knows. A queue pair is registered once and
leaves `qp_conns` by one of three ways: its connection goes and it cannot be
switched to the error state, its beacon comes back, or verbs says that it has
reached its last work request. All of them may hit an entry that has moved
before. `polling` deletes what has left, while the other threads go on. -/
namespace RdmaCapsule.Core

open RdmaCapsule.Foundation

namespace World

/-- `IBV_EVENT_QP_LAST_WQE_REACHED`, as `handle_async_event` takes it. -/
def lastWqeReached (q : Nat) (w : World) : Except Fault World := do
  match ← w.getConnLockless q with
  | none => pure w
  | some k =>
      let qp := w.getQpLockless q
      let s ← w.sock k
      let w := w.setSock k { s with ep := s.ep.fault }
      pure (if qp.isSome then w.enqueueDeadQp q else w)

/-- What the destructor of a connection does to the dispatcher. -/
def release (switched : Bool) (k : Nat) (w : World) : Except Fault World := do
  let s ← w.sock k
  let w ← w.scheduleQpDestroy switched (s.qp.getD 0)
  pure { w with socks := Function.update w.socks k none }

end World

/-- The dispatcher and its polling thread. -/
structure Polling where
  w : World
  /-- What the clean-up has swapped out of `dead_queue_pairs` and not deleted yet. -/
  deadQps : List Nat
  /-- The queue pairs registered so far, oldest first. -/
  registered : List Nat
  done : Bool

namespace Polling

variable {d : Polling} {q k : Nat} {qp : QueuePair} {s : Socket}

inductive Op where
  | registerQp (k q : Nat) (qp : QueuePair) (ep : Endpoint)
  | scheduleQpDestroy (q : Nat) (switched : Bool)
  | release (k : Nat) (switched : Bool)
  | beacon (q : Nat)
  | lastWqeReached (q : Nat)
  | swapDead
  | deleteNext
  | stop

def registerQp (k q : Nat) (qp : QueuePair) (ep : Endpoint) (d : Polling) :
    Except Fault Polling := do
  let w := { d.w with ib.qps := Function.update d.w.ib.qps q (some qp) }
  let w ← (w.setSock k ⟨some q, ep, [], [], 0, false⟩).registerQp q k
  pure { d with w, registered := d.registered ++ [q] }

def onWorld (d : Polling) (run : World → Except Fault World) : Except Fault Polling := do
  let w ← run d.w
  pure { d with w }

def deleteNext (d : Polling) : Except Fault Polling :=
  match d.deadQps with
  | [] => .ok d
  | q :: deadQps => do
      let w ← d.w.deleteDead q
      pure { d with w, deadQps }

def step (d : Polling) : Op → Except Fault Polling
  | .registerQp k q qp ep => d.registerQp k q qp ep
  | .scheduleQpDestroy q switched => d.onWorld (World.scheduleQpDestroy switched q)
  | .release k switched => d.onWorld (World.release switched k)
  | .beacon q => .ok { d with w := d.w.enqueueDeadQp q }
  | .lastWqeReached q => d.onWorld (World.lastWqeReached q)
  | .swapDead => .ok { d with w.deadQueuePairs := [], deadQps := d.w.deadQueuePairs }
  | .deleteNext => d.deleteNext
  | .stop => .ok { d with done := true }

/-- Verbs gives out a number only while no queue pair has it, a connection is
destroyed once, and the clean-up swaps when it has deleted what it had. -/
def Enabled (d : Polling) : Op → Prop
  | .registerQp k q qp _ => d.w.socks k = none ∧ d.w.ib.qps q = none ∧ qp.dead = false
  | .release k _ => d.w.socks k ≠ none
  | .swapDead => d.deadQps = []
  | _ => True

def Start (d : Polling) : Prop :=
  (∀ q, d.w.ib.qps q = none) ∧ (∀ q, d.w.qpConns q = none) ∧ d.w.numQpConn = 0 ∧
    d.w.deadQueuePairs = [] ∧ d.w.deleted = [] ∧ d.deadQps = [] ∧ d.registered = []

def machine : Machine Polling Op Fault where
  start := Start
  enabled := Enabled
  step := step

/-- Whether `polling` leaves its loop when it looks. -/
def exits (d : Polling) : Bool := d.w.numQpConn = 0 ∧ d.done ∧ d.w.deadQueuePairs = []

structure Sound (d : Polling) : Prop where
  counted : ∃ entries : Finset Nat,
    (∀ q, q ∈ entries ↔ (d.w.qpConns q).isSome = true) ∧ entries.card = d.w.numQpConn
  placed : ∀ q, (d.w.qpConns q).isSome.toNat + d.w.deadQueuePairs.count q + d.deadQps.count q =
    (d.w.ib.qps q).isSome.toNat
  logged : ∀ q, d.registered.count q = (d.w.ib.qps q).isSome.toNat + d.w.deleted.count q
  owner : ∀ q k, d.w.qpConns q = some (some k) → ∃ s, d.w.socks k = some s ∧ s.qp = some q

theorem Sound.start (h : d.Start) : d.Sound := by
  obtain ⟨hqps, hconns, hnum, hdead, hdeleted, hdeadQps, hregistered⟩ := h
  refine ⟨⟨∅, ?_, ?_⟩, ?_, ?_, ?_⟩
  · simp [hconns]
  · simp [hnum]
  · simp [hqps, hconns, hdead, hdeadQps]
  · simp [hqps, hdeleted, hregistered]
  · intro q k hconn
    exact nomatch (hconns q).symm.trans hconn

/-- A queue pair of the map exists, and is nowhere else. -/
theorem Sound.of_conn (h : d.Sound) {csi : Option Nat} (hconn : d.w.qpConns q = some csi) :
    (∃ qp, d.w.ib.qps q = some qp) ∧ d.w.deadQueuePairs.count q = 0 ∧ d.deadQps.count q = 0 := by
  have hplaced := h.placed q
  rw [hconn] at hplaced
  cases hqp : d.w.ib.qps q with
  | none =>
      rw [hqp] at hplaced
      simp at hplaced
  | some qp =>
      rw [hqp] at hplaced
      simp only [Option.isSome_some, Bool.toNat_true] at hplaced
      exact ⟨⟨qp, rfl⟩, by omega, by omega⟩

/-- The entry of `q` moves to the dead queue pairs. -/
theorem Sound.retire (h : d.Sound) {csi : Option Nat} (hconn : d.w.qpConns q = some csi) :
    Sound { d with w := { d.w with
      deadQueuePairs := d.w.deadQueuePairs ++ [q]
      qpConns := Function.update d.w.qpConns q none
      numQpConn := d.w.numQpConn - 1 } } := by
  obtain ⟨entries, hentries, hcard⟩ := h.counted
  have hmem : q ∈ entries := (hentries q).mpr (by simp [hconn])
  refine ⟨⟨entries.erase q, ?_, ?_⟩, ?_, h.logged, ?_⟩
  · intro q'
    rw [Finset.mem_erase, hentries]
    by_cases hq : q' = q
    · simp [hq]
    · simp [hq]
  · rw [Finset.card_erase_of_mem hmem, hcard]
  · intro q'
    have hplaced := h.placed q'
    by_cases hq : q' = q
    · subst hq
      rw [hconn] at hplaced
      simp only [Option.isSome_some, Bool.toNat_true] at hplaced
      simp only [Function.update_self, Option.isSome_none, Bool.toNat_false, List.count_append,
        List.count_singleton_self]
      omega
    · have hnone : [q].count q' = 0 := List.count_eq_zero_of_not_mem (by simpa using hq)
      simp only [Function.update_of_ne hq, List.count_append, hnone]
      omega
  · intro q' k hconn'
    have hq : q' ≠ q := by
      rintro rfl
      exact nomatch (Function.update_self ..).symm.trans hconn'
    exact h.owner q' k ((Function.update_of_ne hq ..).symm.trans hconn')

theorem Sound.enqueueDeadQp (h : d.Sound) (q : Nat) :
    Sound { d with w := d.w.enqueueDeadQp q } := by
  unfold World.enqueueDeadQp
  split
  · rename_i hsome
    obtain ⟨csi, hconn⟩ := Option.isSome_iff_exists.mp hsome
    exact h.retire hconn
  · exact h

/-- The entry of `q` stays without its connection, and the queue pair is dead. -/
theorem Sound.forget (h : d.Sound) {csi : Option Nat} (hconn : d.w.qpConns q = some csi)
    {ib : Infiniband} (hqps : ∀ q', (ib.qps q').isSome = (d.w.ib.qps q').isSome) :
    Sound { d with w := { d.w with
      ib
      qpConns := Function.update d.w.qpConns q (some none) } } := by
  have hsame : ∀ q', (Function.update d.w.qpConns q (some none) q').isSome =
      (d.w.qpConns q').isSome := by
    intro q'
    by_cases hq : q' = q
    · simp [hq, hconn]
    · simp [hq]
  obtain ⟨entries, hentries, hcard⟩ := h.counted
  refine ⟨⟨entries, ?_, hcard⟩, ?_, ?_, ?_⟩
  · intro q'
    rw [hentries, hsame]
  · intro q'
    rw [hsame, hqps]
    exact h.placed q'
  · intro q'
    rw [hqps]
    exact h.logged q'
  · intro q' k hconn'
    have hq : q' ≠ q := by
      rintro rfl
      simp at hconn'
    exact h.owner q' k ((Function.update_of_ne hq ..).symm.trans hconn')

theorem isSome_toDead (switched : Bool) (q : Nat) (qp : QueuePair) (ib : Infiniband) (q' : Nat) :
    (((World.toDead switched q qp ib).2).qps q').isSome = (ib.qps q').isSome := by
  unfold World.toDead
  split
  · rfl
  · split
    · simp only [Infiniband.modifyQp]
      by_cases hq : q' = q
      · simp [hq]
      · simp [hq]
    · rfl

theorem toDead_of_failed {switched : Bool} {ib ib' : Infiniband}
    (h : World.toDead switched q qp ib = (false, ib')) : ib' = ib := by
  unfold World.toDead at h
  split at h
  · exact nomatch (Prod.mk.inj h).1
  · split at h
    · exact nomatch (Prod.mk.inj h).1
    · exact (Prod.mk.inj h).2.symm

/-- Afterwards no entry has the connection of `q`. -/
theorem Sound.scheduleQpDestroy (h : d.Sound) (switched : Bool) (q : Nat) :
    ∃ w, d.w.scheduleQpDestroy switched q = .ok w ∧ Sound { d with w } ∧ w.socks = d.w.socks ∧
      ∀ k, w.qpConns q ≠ some (some k) := by
  unfold World.scheduleQpDestroy
  cases hconn : d.w.qpConns q with
  | none => exact ⟨d.w, rfl, h, rfl, fun k hk => nomatch hconn.symm.trans hk⟩
  | some csi =>
      obtain ⟨⟨qp, hqp⟩, _⟩ := h.of_conn hconn
      simp only [Option.isNone_some, Bool.false_eq_true, if_false, hqp]
      cases hdead : World.toDead switched q qp d.w.ib with
      | mk switched' ib =>
          cases switched' with
          | true =>
              have hqps : ∀ q', (ib.qps q').isSome = (d.w.ib.qps q').isSome := by
                intro q'
                have hsome := isSome_toDead switched q qp d.w.ib q'
                rwa [hdead] at hsome
              refine ⟨_, rfl, h.forget hconn hqps, rfl, ?_⟩
              intro k hk
              simp at hk
          | false =>
              cases toDead_of_failed hdead
              refine ⟨_, rfl, h.retire hconn, rfl, ?_⟩
              intro k hk
              exact nomatch (Function.update_self ..).symm.trans hk

theorem Sound.getConnLockless (h : d.Sound) (q : Nat) :
    ∃ conn, d.w.getConnLockless q = .ok conn ∧ ∀ k, conn = some k →
      d.w.qpConns q = some (some k) ∧ ∃ qp, d.w.ib.qps q = some qp ∧ qp.dead = false := by
  unfold World.getConnLockless
  cases hconn : d.w.qpConns q with
  | none => exact ⟨none, rfl, fun k hk => nomatch hk⟩
  | some csi =>
      obtain ⟨⟨qp, hqp⟩, _⟩ := h.of_conn hconn
      simp only [hqp]
      refine ⟨_, rfl, ?_⟩
      intro k hk
      cases hdead : qp.dead with
      | true => simp [hdead] at hk
      | false =>
          simp only [hdead, Bool.false_eq_true, if_false] at hk
          exact ⟨congrArg some hk, qp, rfl, hdead⟩

/-- Connections change, but not their queue pairs. -/
theorem Sound.setSock (h : d.Sound) (hs : d.w.socks k = some s) {s' : Socket} (hqp : s'.qp = s.qp) :
    Sound { d with w := d.w.setSock k s' } := by
  refine ⟨h.counted, h.placed, h.logged, ?_⟩
  intro q k' hconn
  obtain ⟨s₀, hs₀, hq⟩ := h.owner q k' hconn
  by_cases hk : k' = k
  · subst hk
    cases hs.symm.trans hs₀
    exact ⟨s', Function.update_self .., hqp.trans hq⟩
  · exact ⟨s₀, (Function.update_of_ne hk ..).trans hs₀, hq⟩

theorem Sound.lastWqeReached (h : d.Sound) (q : Nat) :
    ∃ w, d.w.lastWqeReached q = .ok w ∧ Sound { d with w } := by
  obtain ⟨conn, hrun, hconn⟩ := h.getConnLockless q
  unfold World.lastWqeReached
  rw [hrun, ok_bind]
  cases conn with
  | none => exact ⟨d.w, rfl, h⟩
  | some k =>
      obtain ⟨hentry, _⟩ := hconn k rfl
      obtain ⟨s, hs, hq⟩ := h.owner q k hentry
      have hfaulted : Sound { d with w := d.w.setSock k { s with ep := s.ep.fault } } :=
        h.setSock hs rfl
      have hsock : d.w.sock k = .ok s := by
        unfold World.sock
        rw [hs]
      dsimp only
      rw [hsock, ok_bind]
      refine ⟨_, rfl, ?_⟩
      split
      · exact hfaulted.enqueueDeadQp q
      · exact hfaulted

theorem Sound.release (h : d.Sound) (switched : Bool) (hs : d.w.socks k = some s) :
    ∃ w, d.w.release switched k = .ok w ∧ Sound { d with w } := by
  obtain ⟨w, hrun, hsound, hsocks, hgone⟩ := h.scheduleQpDestroy switched (s.qp.getD 0)
  have hsock : d.w.sock k = .ok s := by
    unfold World.sock
    rw [hs]
  unfold World.release
  rw [hsock, ok_bind, hrun, ok_bind]
  refine ⟨_, rfl, hsound.counted, hsound.placed, hsound.logged, ?_⟩
  intro q k' hconn
  obtain ⟨s₀, hs₀, hq⟩ := hsound.owner q k' hconn
  have hk : k' ≠ k := by
    rintro rfl
    rw [hsocks] at hs₀
    cases hs.symm.trans hs₀
    apply hgone k'
    rw [hq]
    exact hconn
  exact ⟨s₀, (Function.update_of_ne hk ..).trans hs₀, hq⟩

theorem Sound.registerQp (h : d.Sound) (qp : QueuePair) (ep : Endpoint)
    (hk : d.w.socks k = none) (hq : d.w.ib.qps q = none) :
    ∃ d', d.registerQp k q qp ep = .ok d' ∧ d'.Sound := by
  have hplaced := h.placed q
  rw [hq] at hplaced
  have hconn : d.w.qpConns q = none := by
    cases hconn : d.w.qpConns q with
    | none => rfl
    | some csi =>
        rw [hconn] at hplaced
        simp at hplaced
  obtain ⟨entries, hentries, hcard⟩ := h.counted
  have hnot : q ∉ entries := by
    rw [hentries, hconn]
    simp
  unfold Polling.registerQp World.registerQp World.setSock
  simp only [hconn, Option.isSome_none, Bool.false_eq_true, if_false, ok_bind]
  refine ⟨_, rfl, ⟨insert q entries, ?_, ?_⟩, ?_, ?_, ?_⟩
  · intro q'
    rw [Finset.mem_insert, hentries]
    by_cases hqq : q' = q
    · simp [hqq]
    · simp [hqq]
  · rw [Finset.card_insert_of_notMem hnot, hcard]
  · intro q'
    by_cases hqq : q' = q
    · subst hqq
      simp only [hconn, Option.isSome_none, Bool.toNat_false] at hplaced
      simp only [Function.update_self, Option.isSome_some, Bool.toNat_true]
      omega
    · simp only [Function.update_of_ne hqq]
      exact h.placed q'
  · intro q'
    have hlogged := h.logged q'
    by_cases hqq : q' = q
    · subst hqq
      simp only [hq, Option.isSome_none, Bool.toNat_false] at hlogged
      simp only [Function.update_self, Option.isSome_some, Bool.toNat_true, List.count_append,
        List.count_singleton_self]
      omega
    · have hnone : [q].count q' = 0 := List.count_eq_zero_of_not_mem (by simpa using hqq)
      simp only [Function.update_of_ne hqq, List.count_append, hnone]
      omega
  · intro q' k' hconn'
    by_cases hqq : q' = q
    · subst hqq
      simp only [Function.update_self, Option.some.injEq] at hconn'
      subst hconn'
      exact ⟨_, Function.update_self .., rfl⟩
    · obtain ⟨s₀, hs₀, hq₀⟩ :=
        h.owner q' k' ((Function.update_of_ne hqq ..).symm.trans hconn')
      have hkk : k' ≠ k := by
        rintro rfl
        exact nomatch hk.symm.trans hs₀
      exact ⟨s₀, (Function.update_of_ne hkk ..).trans hs₀, hq₀⟩

/-- Releasing chunks does not touch the queue pairs. -/
theorem releaseRxBuffer_qps (ib : Infiniband) (c : Nat) :
    Ends (ib.releaseRxBuffer c) (fun ib' => ib'.qps = ib.qps) (· = .releasedTwice) := by
  unfold Infiniband.releaseRxBuffer
  split
  · rfl
  · rfl

theorem deleteQp_qps {ib : Infiniband} (hqp : ib.qps q = some qp) :
    Ends (ib.deleteQp q) (fun ib' => ib'.qps = Function.update ib.qps q none)
      (· = .releasedTwice) := by
  unfold Infiniband.deleteQp
  simp only [hqp]
  have hreleased : Ends (qp.recvQueue.foldlM Infiniband.releaseRxBuffer ib)
      (fun ib' => ib'.qps = ib.qps) (· = .releasedTwice) := by
    refine Ends.foldlM (fun _ ib' => ib'.qps = ib.qps) ?_ qp.recvQueue ib rfl
    intro c rest ib' hqps
    exact (releaseRxBuffer_qps ib' c).mono (fun _ hsame => hsame.trans hqps) fun _ => id
  refine hreleased.bind fun ib' hqps => ?_
  exact congrArg (Function.update · q none) hqps

/-- What the clean-up deletes exists, and is then gone. -/
theorem Sound.deleteNext (h : d.Sound) : Ends d.deleteNext Sound (· = .releasedTwice) := by
  unfold Polling.deleteNext
  cases hdeadQps : d.deadQps with
  | nil => exact h
  | cons q deadQps =>
      have hplaced := h.placed q
      rw [hdeadQps, List.count_cons_self] at hplaced
      have hqp : ∃ qp, d.w.ib.qps q = some qp := by
        cases hqp : d.w.ib.qps q with
        | none =>
            rw [hqp] at hplaced
            simp at hplaced
        | some qp => exact ⟨qp, rfl⟩
      obtain ⟨qp, hqp⟩ := hqp
      have hdelete : Ends (d.w.deleteDead q)
          (fun w => w.ib.qps = Function.update d.w.ib.qps q none ∧
            w = { d.w with ib := w.ib, deleted := d.w.deleted ++ [q] }) (· = .releasedTwice) :=
        (deleteQp_qps hqp).bind fun ib hqps => ⟨hqps, rfl⟩
      refine hdelete.bind ?_
      rintro w ⟨hqps, hw⟩
      rw [hw]
      refine ⟨h.counted, ?_, ?_, h.owner⟩
      · intro q'
        have hplaced' := h.placed q'
        dsimp only
        rw [hqps]
        by_cases hq : q' = q
        · subst hq
          simp only [hqp, Option.isSome_some, Bool.toNat_true] at hplaced
          simp only [Function.update_self, Option.isSome_none, Bool.toNat_false]
          omega
        · rw [hdeadQps, List.count_cons_of_ne (Ne.symm hq)] at hplaced'
          rw [Function.update_of_ne hq]
          exact hplaced'
      · intro q'
        have hlogged := h.logged q'
        dsimp only
        rw [hqps, List.count_append]
        by_cases hq : q' = q
        · subst hq
          simp only [hqp, Option.isSome_some, Bool.toNat_true] at hlogged
          simp only [Function.update_self, Option.isSome_none, Bool.toNat_false,
            List.count_singleton_self]
          omega
        · have hnone : [q].count q' = 0 := List.count_eq_zero_of_not_mem (by simpa using hq)
          rw [Function.update_of_ne hq, hnone]
          omega

theorem Sound.step (h : d.Sound) {op : Op} (henabled : d.Enabled op) :
    Ends (d.step op) Sound (· = .releasedTwice) := by
  cases op with
  | registerQp k q qp ep =>
      obtain ⟨d', hrun, hsound⟩ := h.registerQp qp ep henabled.1 henabled.2.1
      change Ends (d.registerQp k q qp ep) _ _
      rw [hrun]
      exact hsound
  | scheduleQpDestroy q switched =>
      obtain ⟨w, hrun, hsound, _⟩ := h.scheduleQpDestroy switched q
      simp only [Polling.step, onWorld, hrun]
      exact hsound
  | release k switched =>
      obtain ⟨s, hs⟩ := Option.ne_none_iff_exists'.mp henabled
      obtain ⟨w, hrun, hsound⟩ := h.release switched hs
      simp only [Polling.step, onWorld, hrun]
      exact hsound
  | beacon q => exact h.enqueueDeadQp q
  | lastWqeReached q =>
      obtain ⟨w, hrun, hsound⟩ := h.lastWqeReached q
      simp only [Polling.step, onWorld, hrun]
      exact hsound
  | swapDead =>
      have hnil : d.deadQps = [] := henabled
      refine ⟨h.counted, ?_, h.logged, h.owner⟩
      intro q
      have hplaced := h.placed q
      rw [hnil] at hplaced
      simpa using hplaced
  | deleteNext => exact h.deleteNext
  | stop => exact ⟨h.counted, h.placed, h.logged, h.owner⟩

theorem sound_of_reachable (h : machine.Reachable d) : d.Sound := by
  apply h.invariant
  · intro first hfirst
    exact .start hfirst
  · intro before op after _ hbefore henabled hrun
    exact (hbefore.step henabled).value hrun

/-- In every run the counter is the number of entries; each queue pair that was
registered is in one place, the map, the dead queue pairs, what the clean-up has
taken of them, or deleted, and those that are not deleted have different numbers;
a connection is found only for an entry that is not dead; no step registers a
number twice, deletes a queue pair that is gone or reaches a connection that is;
and where `polling` leaves its loop, nothing is left. -/
theorem dispatcher_registry (d : Polling) (h : machine.Reachable d) :
    (∃ entries : Finset Nat, (∀ q, q ∈ entries ↔ (d.w.qpConns q).isSome = true) ∧
      d.w.numQpConn = entries.card) ∧
    (∀ q, d.registered.count q = (d.w.qpConns q).isSome.toNat + d.w.deadQueuePairs.count q +
        d.deadQps.count q + d.w.deleted.count q ∧
      (d.w.qpConns q).isSome.toNat + d.w.deadQueuePairs.count q + d.deadQps.count q ≤ 1) ∧
    (∀ q k, d.w.getConnLockless q = .ok (some k) → d.w.qpConns q = some (some k) ∧
      q ∉ d.w.deadQueuePairs ∧ q ∉ d.deadQps ∧
      ∃ qp, d.w.ib.qps q = some qp ∧ qp.dead = false) ∧
    (∀ op fault, d.Enabled op → d.step op = .error fault → fault = .releasedTwice) ∧
    (d.exits = true → (∀ q, d.w.qpConns q = none) ∧ d.w.numQpConn = 0 ∧
      d.w.deadQueuePairs = []) := by
  have hsound := sound_of_reachable h
  obtain ⟨entries, hentries, hcard⟩ := hsound.counted
  refine ⟨⟨entries, hentries, hcard.symm⟩, ?_, ?_, ?_, ?_⟩
  · intro q
    have hplaced := hsound.placed q
    have hlogged := hsound.logged q
    have hone := Bool.toNat_le (d.w.ib.qps q).isSome
    omega
  · intro q k hrun
    obtain ⟨conn, hrun', hconn⟩ := hsound.getConnLockless q
    cases hrun.symm.trans hrun'
    obtain ⟨hentry, hqp⟩ := hconn k rfl
    obtain ⟨_, hdead, hdeadQps⟩ := hsound.of_conn hentry
    exact ⟨hentry, List.count_eq_zero.mp hdead, List.count_eq_zero.mp hdeadQps, hqp⟩
  · intro op fault henabled hrun
    exact (hsound.step henabled).fault hrun
  · intro hexits
    simp only [exits, decide_eq_true_eq] at hexits
    obtain ⟨hnum, _, hdead⟩ := hexits
    refine ⟨?_, hnum, hdead⟩
    intro q
    have hempty : entries = ∅ := Finset.card_eq_zero.mp (hcard.trans hnum)
    have hnot := hentries q
    rw [hempty] at hnot
    simpa using hnot

/-- A queue pair goes by its beacon, another one by its last work request. -/
theorem dispatcher_registry_after_two_ways :
    ∃ d, machine.Reachable d ∧ d.w.deleted = [2, 1] ∧ d.registered = [1, 2] ∧
      d.exits = true ∧ ∀ q, d.w.qpConns q = none := by
  let ep := Endpoint.new World.smallConfig false
  let qp : QueuePair := ⟨1, [], false, [], []⟩
  have hfresh : machine.Reachable ⟨World.fresh, [], [], false⟩ :=
    .start ⟨fun _ => rfl, fun _ => rfl, rfl, rfl, rfl, rfl, rfl⟩
  have hone := hfresh.next (.registerQp 0 1 qp (ep 1)) ⟨rfl, rfl, rfl⟩ rfl
  have htwo := hone.next (.registerQp 1 2 qp (ep 2)) ⟨rfl, rfl, rfl⟩ rfl
  have hswitched := htwo.next (.release 0 true) (fun hnone => nomatch hnone) rfl
  have hlast := hswitched.next (.lastWqeReached 2) trivial rfl
  have hbeacon := hlast.next (.beacon 1) trivial rfl
  have hswapped := hbeacon.next .swapDead rfl rfl
  have hfirst := hswapped.next .deleteNext trivial rfl
  have hboth := hfirst.next .deleteNext trivial rfl
  have hdone := hboth.next .stop trivial rfl
  exact ⟨_, hdone, rfl, rfl, rfl, ((dispatcher_registry _ hdone).2.2.2.2 rfl).1⟩

end Polling

end RdmaCapsule.Core
