import RdmaCapsule.Core.TwoParty

/-! A server whose peer writes any handshake messages in any order. The branch
that `handle_connection` takes is chosen by a field of the message. -/
namespace RdmaCapsule.Core

open RdmaCapsule.Foundation

structure ServerRun where
  ep : Endpoint
  /-- The messages at which `activate` succeeded, oldest first. -/
  activatedBy : List CmMsg

namespace ServerRun

inductive Op where
  | handleConnection (msg : CmMsg) (answers : Answers)
  | read (closed : Bool) (answers : Answers)

def step (tx : Cluster) (s : ServerRun) : Op → Except Fault ServerRun
  | .handleConnection msg answers => do
      let (ep, _) ← s.ep.handleConnection tx answers (.message msg)
      pure ⟨ep, if ep.active && !s.ep.active then s.activatedBy ++ [msg] else s.activatedBy⟩
  | .read closed answers => do
      let ep ← s.ep.read tx answers closed
      pure { s with ep }

def Enabled (s : ServerRun) : Op → Prop
  | .handleConnection _ _ => s.ep.readHandler = true
  | .read _ _ => True

structure Start (s : ServerRun) : Prop where
  initial : s.ep.Initial
  isServer : s.ep.isServer = true
  activatedBy : s.activatedBy = []

def machine (tx : Cluster) : Machine ServerRun Op Fault where
  start := Start
  enabled := Enabled
  step := step tx

/-- An answer of the client comes only after its first message. -/
def InOrder (s : ServerRun) : Op → Prop
  | .handleConnection msg _ =>
      msg.cm.peerQpn ≠ 0 → s.ep.active = true ∨ s.ep.connected = true
  | .read _ _ => True

structure Robust (s : ServerRun) : Prop where
  isServer : s.ep.isServer = true
  inactive : s.ep.active = false →
    s.ep.connected = false ∧ s.ep.transitions = [] ∧ s.activatedBy = []
  active : s.ep.active = true → ∃ msg, s.activatedBy = [msg] ∧ s.ep.Plumbed msg.cm

variable {s : ServerRun} {ep : Endpoint} {msg : CmMsg} {answers : Answers}

theorem Robust.start (h : s.Start) : s.Robust where
  isServer := h.isServer
  inactive _ := ⟨h.initial.connected, h.initial.transitions, h.activatedBy⟩
  active hactive := nomatch h.initial.active.symm.trans hactive

/-- The queue pair stays as it is, and an inactive server unconnected. -/
theorem Robust.alike (h : s.Robust) (halike : s.ep.Alike ep)
    (hconnected : s.ep.active = false → ep.connected = false) : Robust { s with ep } where
  isServer := halike.isServer.trans h.isServer
  inactive hnot := by
    have hbefore : s.ep.active = false := halike.active ▸ hnot
    obtain ⟨_, htransitions, hnone⟩ := h.inactive hbefore
    exact ⟨hconnected hbefore, halike.transitions.trans htransitions, hnone⟩
  active hyes := by
    obtain ⟨msg, hby, hplumbed⟩ := h.active (halike.active ▸ hyes)
    exact ⟨msg, hby, hplumbed.congr halike.transitions halike.attr rfl⟩

/-- The server is activated, whether or not it can answer. -/
theorem Robust.activate (h : s.Robust) (hactive : s.ep.active = false)
    (halike : (Endpoint.activated { s.ep with peerCmMeta := msg.cm }).Alike ep) :
    Robust ⟨ep, s.activatedBy ++ [msg]⟩ := by
  obtain ⟨_, htransitions, hnone⟩ := h.inactive hactive
  have hnow : ep.active = true := halike.active
  refine ⟨halike.isServer.trans h.isServer, fun hnot => ?_, fun _ => ?_⟩
  · exact nomatch hnow.symm.trans hnot
  · refine ⟨msg, by simp [hnone], ?_⟩
    exact (Endpoint.plumbed_activated { s.ep with peerCmMeta := msg.cm } htransitions).congr
      halike.transitions halike.attr rfl

theorem Robust.handleMsg (h : s.Robust) {result : Endpoint × List CmMsg}
    (hresult : Endpoint.Handled answers msg s.ep result)
    (horder : msg.cm.peerQpn ≠ 0 → s.ep.active = true ∨ s.ep.connected = true) :
    Robust ⟨result.1, if result.1.active && !s.ep.active then s.activatedBy ++ [msg]
      else s.activatedBy⟩ := by
  cases hresult with
  | unexpected hconnected =>
      have halike : s.ep.Alike (Endpoint.fault { s.ep with peerCmMeta := msg.cm }) :=
        ⟨rfl, rfl, rfl, rfl, rfl, rfl⟩
      have hactive (hnot : s.ep.active = false) : False :=
        nomatch (h.inactive hnot).1.symm.trans hconnected
      rw [halike.active, Bool.and_not_self]
      exact h.alike halike fun hnot => (hactive hnot).elim
  | client _ hrole => exact nomatch h.isServer.symm.trans hrole
  | again hconnected _ _ _ =>
      have halike : s.ep.Alike { s.ep with peerCmMeta := msg.cm } := ⟨rfl, rfl, rfl, rfl, rfl, rfl⟩
      rw [halike.active, Bool.and_not_self]
      exact h.alike halike fun _ => hconnected
  | first _ _ _ hactive =>
      have halike :=
        Endpoint.sendOrFault_alike answers (Endpoint.activated { s.ep with peerCmMeta := msg.cm })
      have hnow : ((Endpoint.activated { s.ep with peerCmMeta := msg.cm }).sendOrFault
          answers).1.active = true := halike.active
      rw [hnow, hactive]
      exact h.activate hactive halike
  | @ack hconnected _ hack ep' hsends =>
      have halike : s.ep.Alike ep' := { hsends.alike with }
      have hactive : s.ep.active = true := (horder hack).resolve_right (by simp [hconnected])
      rw [halike.active, Bool.and_not_self]
      exact h.alike halike fun hnot => nomatch hactive.symm.trans hnot

theorem Robust.step (h : s.Robust) (tx : Cluster) {op : Op} (horder : s.InOrder op) :
    Ends (s.step tx op) Robust fun _ => True := by
  cases op with
  | handleConnection msg answers =>
      unfold ServerRun.step
      refine (Endpoint.handleConnection_ends tx answers msg s.ep).bind ?_
      intro result hresult
      exact h.handleMsg hresult horder
  | read closed answers =>
      unfold ServerRun.step
      refine (Endpoint.read_ends tx answers closed s.ep).bind ?_
      rintro ep ⟨error, _, rfl | ⟨_, hactive, _, hsends⟩⟩
      · have halike : s.ep.Alike { s.ep with error } := ⟨rfl, rfl, rfl, rfl, rfl, rfl⟩
        exact h.alike halike fun hnot => (h.inactive hnot).1
      · have halike : s.ep.Alike ep := { hsends.alike with }
        exact h.alike halike fun hnot => nomatch hactive.symm.trans hnot

theorem robust_of_reachable {tx : Cluster}
    (h : ((machine tx).restrict InOrder).Reachable s) : s.Robust :=
  h.invariant (fun _ hstart => .start hstart)
    fun _ _ _ _ hrobust henabled hrun => (hrobust.step tx henabled.2).value hrun

/-- In every run in which no answer of the client comes before its first message,
a server that is connected without error has been activated exactly once, and
its queue pair is set up for the sender of the message that did it. -/
theorem server_handshake_robust (tx : Cluster) (s : ServerRun)
    (h : ((machine tx).restrict InOrder).Reachable s) :
    s.ep.connected = true → s.ep.error = 0 →
    ∃ msg, s.activatedBy = [msg] ∧ s.ep.transitions = [.rtr, .rts] ∧ s.ep.attr.state = .rts ∧
      s.ep.attr.destQpNum = msg.cm.localQpn ∧ s.ep.attr.rqPsn = msg.cm.psn ∧
      s.ep.attr.dgid = msg.cm.gid := by
  intro hconnected _
  have hrobust := robust_of_reachable h
  have hactive : s.ep.active = true := by
    by_contra hnot
    exact nomatch (hrobust.inactive (by simpa using hnot)).1.symm.trans hconnected
  obtain ⟨msg, hby, hplumbed⟩ := hrobust.active hactive
  exact ⟨msg, hby, hplumbed.transitions, hplumbed.state, hplumbed.destQpNum, hplumbed.rqPsn,
    hplumbed.dgid⟩

/-- A message of queue pair 17 that names the given queue pair as its peer. -/
def messageFor (peerQpn : UInt32) : CmMsg :=
  ⟨⟨0, 17, 3, peerQpn, Vector.replicate 16 0⟩, ⟨0, 0, 0, 0⟩⟩

def idleServer : ServerRun := ⟨TwoParty.newEndpoint true, []⟩

theorem idleServer_start : idleServer.Start := ⟨⟨rfl, rfl, rfl, rfl, rfl, rfl⟩, rfl, rfl⟩

theorem server_handshake_robust_after_two_messages :
    ∃ s, ((machine (.new 0)).restrict InOrder).Reachable s ∧ s.ep.connected = true ∧
      s.ep.error = 0 ∧ s.ep.attr.state = .rts ∧ s.ep.transitions = [.rtr, .rts] := by
  have hidle : ((machine (.new 0)).restrict InOrder).Reachable idleServer :=
    .start idleServer_start
  have hfirst := hidle.next (.handleConnection (messageFor 0) .good)
    ⟨rfl, fun hne => absurd rfl hne⟩ rfl
  have hack := hfirst.next (.handleConnection (messageFor 34) .good)
    ⟨rfl, fun _ => .inl rfl⟩ rfl
  obtain ⟨_, _, htransitions, hstate, _⟩ := server_handshake_robust (.new 0) _ hack rfl rfl
  exact ⟨_, hack, rfl, rfl, hstate, htransitions⟩

/-- The first message names a peer. -/
theorem server_connected_without_activation :
    ∃ s, (machine (.new 0)).Reachable s ∧ s.ep.connected = true ∧ s.ep.error = 0 ∧
      s.activatedBy = [] ∧ s.ep.transitions = [] ∧ s.ep.attr.state = .init := by
  have hidle : (machine (.new 0)).Reachable idleServer := .start idleServer_start
  have hack := hidle.next (.handleConnection (messageFor 34) .good) rfl rfl
  exact ⟨_, hack, rfl, rfl, rfl, rfl, rfl⟩

end ServerRun

end RdmaCapsule.Core
