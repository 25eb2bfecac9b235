import RdmaCapsule.Core.Ownership

/-! The account of the receive queues: what is posted and what is owed together
are what the queue pair was made for. `update_post_backlog` subtracts what it
could not post, so the account holds in the runs in which it finds nothing
owed. -/
namespace RdmaCapsule.Core

open RdmaCapsule.Foundation

namespace World

variable {w w' : World} {k q : Nat} {s : Socket} {config : Config}

/-- No operation finds a debt to settle, and verbs takes all that `init` posts. -/
def Careful (config : Config) (w : World) : Op → Prop
  | .create .. => ∀ bad, config.postRecv w.ib.posts = some bad → config.rxQueueLen ≤ bad + 1
  | .read k len _ => ∀ s, w.socks k = some s → s.ep.readsBuffers = true → w.ReadsAside k len
  | .drain k => w.NoBacklog k ∨ ∀ s, w.socks k = some s → s.wc = []
  | .updatePostBacklog k => w.NoBacklog k
  | _ => True

/-- `drain` of a connection that was passed nothing. -/
theorem keeps_drain_nil (hempty : ∀ s, w.socks k = some s → s.wc = [])
    (hrun : w.drain config k = .ok w') : w.Keeps w' := by
  unfold World.drain World.sock at hrun
  cases hs : w.socks k with
  | none =>
      rw [hs] at hrun
      cases hrun
  | some s =>
      rw [hs] at hrun
      have hwc := hempty s hs
      change s.wc.foldlM _ _ = _ at hrun
      rw [hwc] at hrun
      cases hrun
      exact keeps_setSock hs { s with wc := [] } rfl rfl

theorem Balanced.step (h : w.Balanced config) (hheld : w.Held (w.out noPolled)) {op : Op}
    (henabled : w.Enabled op) (hcareful : w.Careful config op)
    (hrun : w.step config op = .ok w') : w'.Balanced config := by
  cases op with
  | create k q isServer answer =>
      have hcreate := hheld.create config isServer answer henabled.1 henabled.2.1 henabled.2.2.1
      exact (hcreate.value hrun).2 hcareful h
  | call k call answers => exact h.of_keeps ((hheld.call k call answers).value hrun).2
  | setTxcCallback k => exact h.of_keeps ((hheld.setTxcCallback k).value hrun).2
  | read k len answers =>
      have hread : Ends (w.step config (.read k len answers)) w.Keeps Fault.Orderly :=
        (hheld.read config answers k len).bind fun _ hw => hw.2 hcareful
      exact h.of_keeps (hread.value hrun)
  | drain k =>
      cases hcareful with
      | inl hnone => exact h.of_keeps (((hheld.drain config k).value hrun).2 hnone)
      | inr hempty => exact h.of_keeps (keeps_drain_nil hempty hrun)
  | updatePostBacklog k =>
      have hsame := ((hheld.updatePostBacklog config k).value hrun).2.2 hcareful
      exact hsame ▸ h
  | handleRxEvent cqe => exact ((hheld.handleRxEvent config cqe henabled).value hrun).2 h
  | handleTxEvent cqe => exact h.of_keeps ((hheld.handleTxEvent cqe henabled).value hrun).2
  | destroy k switched => exact h.of_keeps ((hheld.destroy switched k).value hrun).2
  | idle => exact h.of_keeps (hheld.idle.value hrun).2

theorem Balanced.start (h : w.Start) : w.Balanced config := by
  intro k s q qp hs
  exact nomatch (h.2.2.2.1 k).symm.trans hs

theorem balanced_of_reachable (h : ((machine config).restrict (Careful config)).Reachable w) :
    w.Balanced config := by
  refine h.invariant (fun _ hstart => Balanced.start hstart) ?_
  intro before op after hbefore hbalanced henabled hrun
  exact hbalanced.step (held_of_reachable hbefore.of_restrict) henabled.1 henabled.2 hrun

/-- In every run in which nothing is owed when `update_post_backlog` is called,
posted and owed receives are together as many as the queue pair was made for:
the queue is not over-posted and the backlog fits in `temp_ibv_recv_wr`. -/
theorem receive_queue_occupancy (config : Config) (w : World)
    (h : ((machine config).restrict (Careful config)).Reachable w) (k : Nat) (s : Socket) (q : Nat)
    (hs : w.socks k = some s) (hq : s.qp = some q) :
    ∃ qp, w.ib.qps q = some qp ∧ qp.maxRecvWr = config.rxQueueLen ∧
      qp.recvQueue.length + s.postBacklog = qp.maxRecvWr ∧
      qp.recvQueue.length ≤ qp.maxRecvWr ∧ s.postBacklog ≤ config.rxQueueLen := by
  have hheld := held_of_reachable h.of_restrict
  obtain ⟨_, qp, hqp, _⟩ := hheld.registered.socket ((sockQps_of_some hs).trans hq)
  obtain ⟨hmax, hsum⟩ := balanced_of_reachable h k s q qp hs hq hqp
  exact ⟨qp, hqp, hmax, hsum, by omega, by omega⟩

theorem receive_queue_occupancy_when_pool_is_dry :
    ∃ w s qp, ((machine tightConfig).restrict (Careful tightConfig)).Reachable w ∧
      w.socks 0 = some s ∧ s.qp = some 1 ∧ s.postBacklog = 1 ∧ w.ib.qps 1 = some qp ∧
      qp.recvQueue = [] ∧ qp.recvQueue.length + s.postBacklog = qp.maxRecvWr := by
  have hfresh : ((machine tightConfig).restrict (Careful tightConfig)).Reachable fresh :=
    .start fresh_start
  have hcreated := hfresh.next (.create 0 1 false .created)
    ⟨⟨rfl, rfl, by decide, by decide⟩, fun bad hbad => nomatch hbad⟩ rfl
  have hpassed := hcreated.next (.handleRxEvent [⟨1, 0, 3, .success⟩])
    ⟨⟨by decide, by simp; exact ⟨_, rfl, by decide⟩⟩, trivial⟩ rfl
  obtain ⟨qp, hqp, _, hsum, _⟩ := receive_queue_occupancy tightConfig _ hpassed 0 _ 1 rfl rfl
  exact ⟨_, _, qp, hpassed, rfl, rfl, rfl, hqp, by cases hqp; rfl, hsum⟩

/-- The debt is settled by `drain` and stays owed. -/
theorem backlog_posted_and_owed :
    ∃ w s qp, (machine tightConfig).Reachable w ∧ w.socks 0 = some s ∧ s.qp = some 1 ∧
      w.ib.qps 1 = some qp ∧ qp.maxRecvWr = 1 ∧ qp.recvQueue = [0] ∧ s.postBacklog = 1 ∧
      qp.recvQueue.length + s.postBacklog ≠ qp.maxRecvWr := by
  have hfresh : (machine tightConfig).Reachable fresh := .start fresh_start
  have hcreated := hfresh.next (.create 0 1 false .created) ⟨rfl, rfl, by decide, by decide⟩ rfl
  have hpassed := hcreated.next (.handleRxEvent [⟨1, 0, 3, .success⟩])
    ⟨by decide, by simp; exact ⟨_, rfl, by decide⟩⟩ rfl
  have hdrained := hpassed.next (.drain 0) trivial rfl
  exact ⟨_, _, _, hdrained, rfl, rfl, rfl, rfl, rfl, rfl, by decide⟩

end World

end RdmaCapsule.Core
