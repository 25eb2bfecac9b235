import RdmaCapsule.Core.Ownership

/-! The end of a queue pair: `schedule_qp_destroy` moves it to the error state,
verbs flushes what is outstanding, `polling` takes the completions in batches
and deletes the queue pair when it is idle. The two completion handlers abort
on every flushed work request other than the beacon. -/
namespace RdmaCapsule.Core

open RdmaCapsule.Foundation

namespace World

variable {w w₁ : World} {out : Slot → List Nat} {sockQp : Nat → Option Nat} {k q : Nat}
  {s : Socket} {qp : QueuePair} {config : Config} {base : List Nat}

/-- A process, and the completions that `polling` has not yet taken. -/
structure Draining where
  w : World
  tx : List TxWc
  rx : List RxWc

def maxCompletions : Nat := 8

/-- One iteration of `polling`; `arrived` is how many of the completions the two
queues hold when they are looked at. -/
def pollOnce (config : Config) (d : Draining) (arrived : Nat × Nat) : Except Fault Draining := do
  let tx := d.tx.take (min arrived.1 maxCompletions)
  let rx := d.rx.take (min arrived.2 maxCompletions)
  let w ← if tx = [] then pure d.w else d.w.step config (.handleTxEvent tx)
  let w ← if rx = [] then pure w else w.step config (.handleRxEvent rx)
  let w ← if tx = [] ∧ rx = [] then w.idle else pure w
  pure ⟨w, d.tx.drop tx.length, d.rx.drop rx.length⟩

def polling (config : Config) (arrivals : List (Nat × Nat)) (d : Draining) :
    Except Fault Draining :=
  arrivals.foldlM (pollOnce config) d

def flushedTx (q : Nat) (wr : TxWr) : TxWc := ⟨q, wr, .wrFlushErr⟩

def flushedRx (q c : Nat) : RxWc := ⟨q, c, 0, .wrFlushErr⟩

/-- What verbs flushes when the queue pair `qp` has been moved to the error state:
its sends in their order, the beacon after them, and its receives. -/
def flushed (q : Nat) (qp : QueuePair) (w : World) : Draining where
  w := w
  tx := (qp.sends ++ [TxWr.beacon]).map (flushedTx q)
  rx := qp.posted.map (flushedRx q)

/-- The receives may come in another order. -/
structure Flushes (q : Nat) (qp : QueuePair) (w : World) (d : Draining) : Prop where
  same : d.w = w
  tx : d.tx = (flushed q qp w).tx
  rx : d.rx.Perm (flushed q qp w).rx

theorem flushes_flushed (q : Nat) (qp : QueuePair) (w : World) :
    Flushes q qp w (flushed q qp w) :=
  ⟨rfl, rfl, .refl _⟩

/-- How often `q` has been deleted since the state in which `base` had been. -/
def deletions (base : List Nat) (q : Nat) (w : World) : Nat :=
  (w.deleted.drop base.length).count q

/-- Here `qp` is the queue pair before `schedule_qp_destroy`, and `w` the state
after. -/
structure DrainsSafely (config : Config) (q : Nat) (qp : QueuePair) (w : World) : Prop where
  runs : ∀ d arrivals, Flushes q qp w d → ∃ d', polling config arrivals d = .ok d'
  once : ∀ d arrivals d', Flushes q qp w d → polling config arrivals d = .ok d' →
    deletions w.deleted q d'.w ≤ 1 ∧
      (0 < deletions w.deleted q d'.w → d'.tx = [] ∧ d'.rx = [])
  /-- An idle iteration after the last completion. -/
  ends : ∀ d arrivals d' d'', Flushes q qp w d → polling config arrivals d = .ok d' →
    d'.tx = [] → d'.rx = [] → pollOnce config d' (0, 0) = .ok d'' →
    deletions w.deleted q d''.w = 1 ∧ (∀ c ∈ qp.posted, c ∈ d''.w.ib.free) ∧
      ∀ c, .send (.chunk c) ∈ qp.sends → c ∈ d''.w.tx.freeChunks

/-- While `polling` has at most the beacon of `q` to come. -/
structure Calm (out : Slot → List Nat) (sockQp : Nat → Option Nat) (base : List Nat) (q : Nat)
    (d : Draining) : Prop where
  rx : d.rx = []
  placed : d.w.ib.Placed out
  registry : Registry d.w.ib.qps sockQp d.w.qpConns d.w.deadQueuePairs
  deleted : ∃ new, d.w.deleted = base ++ new ∧
    (d.tx = [flushedTx q .beacon] ∧ d.w.qpConns q = some none ∧ new.count q = 0 ∨
      d.tx = [] ∧ d.w.qpConns q = none ∧ new.count q + d.w.deadQueuePairs.count q = 1)

theorem Calm.idle {d : Draining} (h : Calm out sockQp base q d) :
    ∃ w, d.w.idle = .ok w ∧ w.deadQueuePairs = [] ∧ Calm out sockQp base q ⟨w, d.tx, d.rx⟩ := by
  obtain ⟨ib, hrun, hplaced, hreg, _⟩ := idle_eq h.placed h.registry
  obtain ⟨new, hdeleted, hphase⟩ := h.deleted
  refine ⟨_, hrun, rfl, h.rx, hplaced, hreg, new ++ d.w.deadQueuePairs, ?_, ?_⟩
  · simp [hdeleted]
  · rcases hphase with ⟨htx, hconn, hcount⟩ | ⟨htx, hconn, hcount⟩
    · have hnot : q ∉ d.w.deadQueuePairs := fun hmem =>
        nomatch (h.registry.retired hmem).1.symm.trans hconn
      exact .inl ⟨htx, hconn, by simp [hcount, List.count_eq_zero_of_not_mem hnot]⟩
    · exact .inr ⟨htx, hconn, by simpa using hcount⟩

theorem Calm.beacon {d : Draining} (h : Calm out sockQp base q d) (config : Config)
    (htx : d.tx = [flushedTx q .beacon]) :
    ∃ w, d.w.step config (.handleTxEvent [flushedTx q .beacon]) = .ok w ∧
      Calm out sockQp base q ⟨w, [], d.rx⟩ := by
  obtain ⟨new, hdeleted, ⟨_, hconn, hcount⟩ | ⟨hnil, _⟩⟩ := h.deleted
  · have hnot : q ∉ d.w.deadQueuePairs := fun hmem =>
      nomatch (h.registry.retired hmem).1.symm.trans hconn
    have hrun : d.w.step config (.handleTxEvent [flushedTx q .beacon]) =
        .ok ((d.w.completeTx [flushedTx q .beacon]).enqueueDeadQp q) := rfl
    have hsome : ((d.w.completeTx [flushedTx q .beacon]).qpConns q).isSome = true := by
      change (d.w.qpConns q).isSome = true
      rw [hconn]
      rfl
    refine ⟨_, hrun, ?_⟩
    rw [enqueueDeadQp, if_pos hsome]
    refine ⟨h.rx, placed_completeTx h.placed _, ?_, new, hdeleted, .inr ⟨rfl, ?_, ?_⟩⟩
    · exact (registry_completeTx h.registry _).enqueue hconn
    · exact Function.update_self ..
    · change new.count q + (d.w.deadQueuePairs ++ [q]).count q = 1
      simp [hcount, List.count_eq_zero_of_not_mem hnot]
  · exact nomatch htx.symm.trans hnil

theorem Calm.pollOnce {d : Draining} (h : Calm out sockQp base q d) (config : Config)
    (arrived : Nat × Nat) :
    ∃ d', pollOnce config d arrived = .ok d' ∧ Calm out sockQp base q d' ∧
      (d.tx = [] → d'.tx = [] ∧ d'.w.deadQueuePairs = []) := by
  unfold World.pollOnce
  rw [h.rx]
  simp only [List.take_nil, List.drop_nil, if_true, pure_bind, and_true]
  cases htaken : d.tx.take (min arrived.1 maxCompletions) with
  | nil =>
      obtain ⟨w, hrun, hdead, hcalm⟩ := h.idle
      simp only [if_true, hrun, List.length_nil, List.drop_zero]
      exact ⟨_, rfl, h.rx ▸ hcalm, fun htx => ⟨htx, hdead⟩⟩
  | cons response rest =>
      have htx : d.tx = [flushedTx q .beacon] := by
        obtain ⟨_, _, ⟨htx, _⟩ | ⟨hnil, _⟩⟩ := h.deleted
        · exact htx
        · rw [hnil, List.take_nil] at htaken
          exact nomatch htaken
      have hall : response :: rest = [flushedTx q .beacon] := by
        have hprefix := List.take_prefix (min arrived.1 maxCompletions) d.tx
        rw [htaken, htx] at hprefix
        exact (List.prefix_cons_iff.mp hprefix).elim (fun hnil => nomatch hnil) fun hcons => by
          obtain ⟨l, hl, hsub⟩ := hcons
          rw [hl, List.prefix_nil.mp hsub]
      obtain ⟨w, hrun, hcalm⟩ := h.beacon config htx
      rw [hall, htx]
      simp only [List.cons_ne_nil, if_false, hrun]
      exact ⟨_, rfl, h.rx ▸ hcalm, fun hnil => nomatch hnil⟩

theorem Calm.polling {d : Draining} (h : Calm out sockQp base q d) (config : Config)
    (arrivals : List (Nat × Nat)) :
    ∃ d', polling config arrivals d = .ok d' ∧ Calm out sockQp base q d' := by
  refine Ends.returns (Ends.foldlM (fun _ => Calm out sockQp base q) ?_ arrivals d h)
  intro arrived rest d hcalm
  obtain ⟨d', hrun, hcalm', _⟩ := hcalm.pollOnce config arrived
  rw [hrun]
  exact hcalm'

theorem Calm.deletions {d : Draining} (h : Calm out sockQp base q d) :
    deletions base q d.w ≤ 1 ∧ (0 < World.deletions base q d.w → d.tx = [] ∧ d.rx = []) ∧
      (d.tx = [] → d.w.deadQueuePairs = [] → World.deletions base q d.w = 1) := by
  obtain ⟨new, hdeleted, hphase⟩ := h.deleted
  have hcount : World.deletions base q d.w = new.count q := by
    simp [World.deletions, hdeleted]
  rw [hcount]
  rcases hphase with ⟨htx, _, hzero⟩ | ⟨htx, _, hone⟩
  · exact ⟨by omega, fun hpos => absurd hzero hpos.ne', fun hnil => nomatch htx.symm.trans hnil⟩
  · refine ⟨by omega, fun _ => ⟨htx, h.rx⟩, fun _ hdead => ?_⟩
    rw [hdead] at hone
    simpa using hone

/-- What `schedule_qp_destroy` leaves behind. -/
theorem Held.scheduled (h : w.Held out) (hs : w.socks k = some s) (hq : s.qp = some q)
    (hqp : w.ib.qps q = some qp) (hrun : w.scheduleQpDestroy true q = .ok w₁) :
    w₁.ib.Placed out ∧ w₁.qpConns q = some none ∧ w₁.ib.qps q = some { qp with
        sends := qp.sends ++ [.beacon], dead := true } ∧
      Registry w₁.ib.qps (Function.update w₁.sockQps k none) w₁.qpConns w₁.deadQueuePairs := by
  obtain ⟨w', hrun', _, _, hplaced, hreg⟩ := h.scheduleQpDestroy hs true
  rw [hq, Option.getD_some] at hrun'
  cases hrun.symm.trans hrun'
  refine ⟨hplaced, ?_, ?_, hreg⟩
  all_goals
    obtain ⟨hconn, qp', hqp', hlive⟩ := h.registered.socket ((sockQps_of_some hs).trans hq)
    cases hqp.symm.trans hqp'
    simp only [World.scheduleQpDestroy, hconn, Option.isNone_some, Bool.false_eq_true, if_false,
      hqp, toDead, hlive, if_true, Except.ok.injEq] at hrun
    subst hrun
    simp [hqp]

theorem Held.drainsSafely (h : w.Held out) (hs : w.socks k = some s) (hq : s.qp = some q)
    (hqp : w.ib.qps q = some qp) (hrun : w.scheduleQpDestroy true q = .ok w₁) (config : Config)
    (hsends : qp.sends = []) (hposted : qp.posted = []) : DrainsSafely config q qp w₁ := by
  obtain ⟨hplaced, hconn, _, hreg⟩ := h.scheduled hs hq hqp hrun
  have hcalm : ∀ d, Flushes q qp w₁ d →
      Calm out (Function.update w₁.sockQps k none) w₁.deleted q d := by
    rintro ⟨w₂, tx, rx⟩ ⟨rfl, htx, hrx⟩
    simp only [flushed, hsends, hposted, List.map_nil] at htx hrx
    exact ⟨hrx.eq_nil, hplaced, hreg, [], by simp, .inl ⟨htx, hconn, rfl⟩⟩
  constructor
  · intro d arrivals hflushes
    obtain ⟨d', hpolled, _⟩ := (hcalm d hflushes).polling config arrivals
    exact ⟨d', hpolled⟩
  · intro d arrivals d' hflushes hpolled
    obtain ⟨d₁, hpolled₁, hcalm₁⟩ := (hcalm d hflushes).polling config arrivals
    cases hpolled.symm.trans hpolled₁
    exact ⟨hcalm₁.deletions.1, hcalm₁.deletions.2.1⟩
  · intro d arrivals d' d'' hflushes hpolled htx hrx hidle
    obtain ⟨d₁, hpolled₁, hcalm₁⟩ := (hcalm d hflushes).polling config arrivals
    cases hpolled.symm.trans hpolled₁
    obtain ⟨d₂, hidle₂, hcalm₂, hdead⟩ := hcalm₁.pollOnce config (0, 0)
    cases hidle.symm.trans hidle₂
    refine ⟨hcalm₂.deletions.2.2 (hdead htx).1 (hdead htx).2, ?_, ?_⟩
    · simp [hposted]
    · simp [hsends]

/-- A flushed send comes before the beacon. -/
theorem aborts_of_send {wr : SendWr} {rest : List TxWr} (hsends : qp.sends = .send wr :: rest)
    (config : Config) (w : World) :
    polling config [(1, 0)] (flushed q qp w) = .error .abort := by
  unfold flushed
  rw [hsends]
  rfl

theorem Held.aborts_of_posted (h : w.Held out) (hs : w.socks k = some s) (hq : s.qp = some q)
    (hqp : w.ib.qps q = some qp) (hrun : w.scheduleQpDestroy true q = .ok w₁) {c : Nat}
    {rest : List Nat} (hposted : qp.posted = c :: rest) (config : Config) :
    polling config [(0, 1)] (flushed q qp w₁) = .error .abort := by
  obtain ⟨hplaced, hconn, hqp₁, _⟩ := h.scheduled hs hq hqp hrun
  let w₂ := w₁.completeRx [flushedRx q c]
  have hqueued : c ∈ qp.recvQueue := (h.registered.wf hqp).sound.2 c (by simp [hposted])
  have hqp₂ : ∃ qp₂, w₂.ib.qps q = some qp₂ ∧ qp₂.dead = true ∧ qp₂.recvQueue = qp.recvQueue :=
    ⟨_, congrArg (Option.map _) hqp₁, rfl, rfl⟩
  obtain ⟨qp₂, hqp₂, hdead, hqueue⟩ := hqp₂
  obtain ⟨ib, hrecall, _⟩ :=
    (placed_completeRx hplaced [flushedRx q c]).recallChunkToPool_rq hqp₂ (hqueue ▸ hqueued)
  have hone : handleRxOne config (w₂, fun _ => []) (flushedRx q c) = .error .abort := by
    have hconn₂ : w₂.getConnLockless q = .ok none := by
      have : w₂.qpConns q = some none := hconn
      simp [World.getConnLockless, this, hqp₂, hdead]
    have hrecall₂ : w₂.recallChunkToPool c = .ok { w₂ with ib } := by
      unfold World.recallChunkToPool
      rw [hrecall]
      rfl
    unfold handleRxOne
    simp only [flushedRx, hconn₂, hrecall₂]
    rfl
  have htaken : (flushed q qp w₁).rx.take (min 1 maxCompletions) = [flushedRx q c] := by
    simp [flushed, hposted, maxCompletions]
  have hstep : w₁.step config (.handleRxEvent [flushedRx q c]) = .error .abort := by
    change ([flushedRx q c].foldlM (handleRxOne config) (w₂, fun _ => []) >>= _) = _
    rw [List.foldlM_cons, hone]
    rfl
  change (pollOnce config (flushed q qp w₁) (0, 1) >>= _) = _
  unfold World.pollOnce
  simp only [Nat.zero_min, List.take_zero, if_true, pure_bind, htaken, List.cons_ne_nil, if_false]
  change ((w₁.step config (.handleRxEvent [flushedRx q c]) >>= _) >>= _) = _
  rw [hstep]
  rfl

/-- `polling` drains a queue pair safely if and only if nothing was outstanding
on it when it was moved to the error state. -/
theorem teardown_drains_safely_iff (config : Config) (w : World)
    (h : (machine config).Reachable w) (k : Nat) (s : Socket) (q : Nat) (qp : QueuePair)
    (hs : w.socks k = some s) (hq : s.qp = some q) (hqp : w.ib.qps q = some qp) (w₁ : World)
    (hrun : w.scheduleQpDestroy true q = .ok w₁) :
    DrainsSafely config q qp w₁ ↔ qp.sends = [] ∧ qp.posted = [] := by
  have hheld := held_of_reachable h
  constructor
  · intro hsafe
    have hnot : ∀ arrivals, polling config arrivals (flushed q qp w₁) ≠ .error .abort := by
      intro arrivals habort
      obtain ⟨d', hok⟩ := hsafe.runs _ arrivals (flushes_flushed q qp w₁)
      exact nomatch hok.symm.trans habort
    refine ⟨?_, ?_⟩
    · cases hsends : qp.sends with
      | nil => rfl
      | cons wr rest =>
          cases wr with
          | send wr => exact absurd (aborts_of_send hsends config w₁) (hnot _)
          | beacon =>
              obtain ⟨_, qp', hqp', hlive⟩ :=
                hheld.registered.socket ((sockQps_of_some hs).trans hq)
              cases hqp.symm.trans hqp'
              have hdead := (hheld.registered.wf hqp).beacon (by simp [hsends])
              exact nomatch hlive.symm.trans hdead
    · cases hposted : qp.posted with
      | nil => rfl
      | cons c rest =>
          exact absurd (hheld.aborts_of_posted hs hq hqp hrun hposted config) (hnot _)
  · rintro ⟨hsends, hposted⟩
    exact hheld.drainsSafely hs hq hqp hrun config hsends hposted

theorem teardown_drains_safely_when_starved :
    ∃ w w₁ s qp, (machine tightConfig).Reachable w ∧ w.socks 0 = some s ∧ s.qp = some 1 ∧
      w.ib.qps 1 = some qp ∧ w.scheduleQpDestroy true 1 = .ok w₁ ∧
      DrainsSafely tightConfig 1 qp w₁ := by
  have hfresh : (machine tightConfig).Reachable fresh := .start fresh_start
  have hcreated := hfresh.next (.create 0 1 false .created) ⟨rfl, rfl, by decide, by decide⟩ rfl
  have hpassed := hcreated.next (.handleRxEvent [⟨1, 0, 3, .success⟩])
    ⟨by decide, by simp; exact ⟨_, rfl, by decide⟩⟩ rfl
  exact ⟨_, _, _, _, hpassed, rfl, rfl, rfl, rfl,
    (teardown_drains_safely_iff tightConfig _ hpassed 0 _ 1 _ rfl rfl rfl _ rfl).mpr ⟨rfl, rfl⟩⟩

/-- A connection that has received nothing yet. -/
theorem flushed_receive_aborts :
    ∃ w w₁ s qp, (machine smallConfig).Reachable w ∧ w.socks 0 = some s ∧ s.qp = some 1 ∧
      w.ib.qps 1 = some qp ∧ qp.sends = [] ∧ qp.posted = [0] ∧
      w.scheduleQpDestroy true 1 = .ok w₁ ∧
      polling smallConfig [(1, 1)] (flushed 1 qp w₁) = .error .abort ∧
      ¬ DrainsSafely smallConfig 1 qp w₁ := by
  have hfresh : (machine smallConfig).Reachable fresh := .start fresh_start
  have hcreated := hfresh.next (.create 0 1 false .created) ⟨rfl, rfl, by decide, by decide⟩ rfl
  refine ⟨_, _, _, _, hcreated, rfl, rfl, rfl, rfl, rfl, rfl, rfl, ?_⟩
  intro hsafe
  obtain ⟨d', hok⟩ := hsafe.runs _ [(1, 1)] (flushes_flushed ..)
  exact nomatch hok

end World

end RdmaCapsule.Core
