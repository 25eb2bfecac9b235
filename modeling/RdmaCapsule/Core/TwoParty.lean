import RdmaCapsule.Core.Handshake
import RdmaCapsule.Foundation.Machine

/-! A client and a server joined by a TCP stream that loses nothing and delivers
each handshake message whole. Operations of the two sides interleave in any
order; messages wait in two queues. -/
namespace RdmaCapsule.Core

open RdmaCapsule.Foundation

inductive Side where
  | client
  | server
  deriving DecidableEq, Repr

structure TwoParty where
  client : Endpoint
  server : Endpoint
  toClient : List CmMsg
  toServer : List CmMsg

namespace TwoParty

inductive Op where
  | handleConnectionEstablished (needSetFault : Bool) (answers : Answers)
  | handleConnection (side : Side) (answers : Answers)
  | read (side : Side) (closed : Bool) (answers : Answers)
  | sendChunks (side : Side) (chunks : List Nat) (answers : Answers)
  | send (side : Side) (bl : BufferList) (answers : Answers)

def endpoint (t : TwoParty) : Side → Endpoint
  | .client => t.client
  | .server => t.server

/-- What `recv_cm_meta` reads from a queue. -/
def recv : List CmMsg → Recv
  | [] => .error eagain
  | msg :: _ => .message msg

/-- A side has become `ep` and has written some messages. -/
def put (t : TwoParty) (side : Side) (ep : Endpoint) (written : List CmMsg) : TwoParty :=
  match side with
  | .client => { t with client := ep, toServer := t.toServer ++ written }
  | .server => { t with server := ep, toClient := t.toClient ++ written }

def inbox (t : TwoParty) : Side → List CmMsg
  | .client => t.toClient
  | .server => t.toServer

def dropMsg (t : TwoParty) : Side → TwoParty
  | .client => { t with toClient := t.toClient.tail }
  | .server => { t with toServer := t.toServer.tail }

def step (tx : Side → Cluster) (t : TwoParty) : Op → Except Fault TwoParty
  | .handleConnectionEstablished needSetFault answers =>
      let (ep, written, _) := t.client.handleConnectionEstablished needSetFault answers
      .ok (t.put .client ep written)
  | .handleConnection side answers => do
      let (ep, written) ←
        (t.endpoint side).handleConnection (tx side) answers (recv (t.inbox side))
      pure ((t.dropMsg side).put side ep written)
  | .read side closed answers => do
      let ep ← (t.endpoint side).read (tx side) answers closed
      pure (t.put side ep [])
  | .sendChunks side chunks answers => do
      let (_, ep) ← (t.endpoint side).sendChunks answers chunks
      pure (t.put side ep [])
  | .send side bl answers => do
      let (_, ep) ← (t.endpoint side).send (tx side) answers bl
      pure (t.put side ep [])

/-- Handshake messages can always be written, and the event loop calls
`handle_connection` while the handler is there. -/
def Enabled (t : TwoParty) : Op → Prop
  | .handleConnectionEstablished _ answers => answers.unsent = none
  | .handleConnection side answers =>
      answers.unsent = none ∧ (t.endpoint side).readHandler = true
  | _ => True

end TwoParty

/-- An endpoint after its constructor. -/
structure Endpoint.Initial (ep : Endpoint) : Prop where
  connected : ep.connected = false
  error : ep.error = 0
  active : ep.active = false
  readHandler : ep.readHandler = true
  transitions : ep.transitions = []
  posted : ep.posted = []

namespace TwoParty

structure Start (t : TwoParty) : Prop where
  client : t.client.Initial
  server : t.server.Initial
  isClient : t.client.isServer = false
  isServer : t.server.isServer = true
  toClient : t.toClient = []
  toServer : t.toServer = []

def machine (tx : Side → Cluster) : Machine TwoParty Op Fault where
  start := Start
  enabled := Enabled
  step := step tx

/-- What the two sides and the messages in flight agree on. -/
structure Agreed (t : TwoParty) : Prop where
  isClient : t.client.isServer = false
  isServer : t.server.isServer = true
  toServer : ∀ msg ∈ t.toServer, msg.cm.ident = t.client.localCmMeta.ident ∧
    (msg.cm.peerQpn ≠ 0 → t.client.connected = true)
  toClient : ∀ msg ∈ t.toClient, msg.cm.ident = t.server.localCmMeta.ident ∧
    t.server.active = true
  clientNew : t.client.connected = false → t.client.transitions = []
  client : t.client.connected = true → t.server.active = true ∧
    t.client.Plumbed t.server.localCmMeta ∧
    t.client.peerCmMeta.ident = t.server.localCmMeta.ident
  serverNew : t.server.active = false → t.server.transitions = []
  server : t.server.active = true → t.server.Plumbed t.client.localCmMeta ∧
    t.server.peerCmMeta.ident = t.client.localCmMeta.ident

theorem Agreed.start {t : TwoParty} (h : t.Start) : t.Agreed where
  isClient := h.isClient
  isServer := h.isServer
  toServer := by simp [h.toServer]
  toClient := by simp [h.toClient]
  clientNew _ := h.client.transitions
  client hconnected := nomatch h.client.connected.symm.trans hconnected
  serverNew _ := h.server.transitions
  server hactive := nomatch h.server.active.symm.trans hactive

variable {t : TwoParty} {ep : Endpoint} {msg : CmMsg} {answers : Answers}

/-- The client learns nothing new. -/
theorem Agreed.putClient (h : t.Agreed) (halike : t.client.Alike ep)
    (hpeer : t.client.connected = true → ep.peerCmMeta.ident = t.server.localCmMeta.ident)
    (hconnected : ep.connected = t.client.connected) {written : List CmMsg}
    (hwritten : ∀ msg ∈ written, msg.cm.ident = t.client.localCmMeta.ident ∧
      msg.cm.peerQpn = 0) : (t.put .client ep written).Agreed where
  isClient := halike.isServer.trans h.isClient
  isServer := h.isServer
  toServer := by
    intro msg hmsg
    change msg.cm.ident = ep.localCmMeta.ident ∧ (msg.cm.peerQpn ≠ 0 → ep.connected = true)
    rw [halike.localCmMeta, hconnected]
    rcases List.mem_append.mp hmsg with hold | hnew
    · exact h.toServer msg hold
    · exact ⟨(hwritten msg hnew).1, fun hne => absurd (hwritten msg hnew).2 hne⟩
  toClient := h.toClient
  clientNew hnot := halike.transitions.trans (h.clientNew (hconnected ▸ hnot))
  client hyes := by
    obtain ⟨hactive, hplumbed, _⟩ := h.client (hconnected ▸ hyes)
    exact ⟨hactive, hplumbed.congr halike.transitions halike.attr rfl,
      hpeer (hconnected ▸ hyes)⟩
  serverNew := h.serverNew
  server hactive := by
    obtain ⟨hplumbed, hpeer⟩ := h.server hactive
    exact ⟨hplumbed.congr rfl rfl halike.localCmMeta.symm, hpeer.trans halike.localCmMeta.symm⟩

/-- The server learns nothing new. -/
theorem Agreed.putServer (h : t.Agreed) (halike : t.server.Alike ep)
    (hpeer : t.server.active = true → ep.peerCmMeta.ident = t.client.localCmMeta.ident) :
    (t.put .server ep []).Agreed where
  isClient := h.isClient
  isServer := halike.isServer.trans h.isServer
  toServer := h.toServer
  toClient := by
    intro msg hmsg
    change msg.cm.ident = ep.localCmMeta.ident ∧ ep.active = true
    rw [halike.localCmMeta, halike.active]
    exact h.toClient msg (by simpa [put] using hmsg)
  clientNew := h.clientNew
  client hconnected := by
    obtain ⟨hactive, hplumbed, hpeer⟩ := h.client hconnected
    exact ⟨halike.active.trans hactive, hplumbed.congr rfl rfl halike.localCmMeta.symm,
      hpeer.trans halike.localCmMeta.symm⟩
  serverNew hnot := halike.transitions.trans (h.serverNew (halike.active ▸ hnot))
  server hactive := by
    have hbefore : t.server.active = true := halike.active ▸ hactive
    exact ⟨(h.server hbefore).1.congr halike.transitions halike.attr rfl, hpeer hbefore⟩

theorem Agreed.dropMsg (h : t.Agreed) (side : Side) : (t.dropMsg side).Agreed := by
  cases side with
  | client =>
      exact { h with toClient := fun msg hmsg => h.toClient msg (List.mem_of_mem_tail hmsg) }
  | server =>
      exact { h with toServer := fun msg hmsg => h.toServer msg (List.mem_of_mem_tail hmsg) }

/-- The answer of the server reaches the client. -/
theorem Agreed.activateClient (h : t.Agreed) (hconnected : t.client.connected = false)
    (hident : msg.cm.ident = t.server.localCmMeta.ident) (hactive : t.server.active = true)
    (hsends : Endpoint.Sends (Endpoint.activated { t.client with peerCmMeta := msg.cm }) ep) :
    (t.put .client ep [ep.cmMsg]).Agreed := by
  have halike := hsends.alike
  have hplumbed : ep.Plumbed t.server.localCmMeta :=
    (Endpoint.plumbed_activated { t.client with peerCmMeta := msg.cm }
      (h.clientNew hconnected)).congr halike.transitions halike.attr hident
  have hnow : ep.connected = true := by
    rw [hsends.connected, Endpoint.activated_connected]
    simp [h.isClient]
  have hlocal : ep.localCmMeta.ident = t.client.localCmMeta.ident := halike.localCmMeta
  refine ⟨halike.isServer.trans h.isClient, h.isServer, ?_, h.toClient, ?_, ?_, h.serverNew, ?_⟩
  · intro msg' hmsg
    refine ⟨?_, fun _ => hnow⟩
    rcases List.mem_append.mp hmsg with hold | hnew
    · exact (h.toServer msg' hold).1.trans hlocal.symm
    · rw [List.mem_singleton.mp hnew]
      rfl
  · exact fun hnot => nomatch hnow.symm.trans hnot
  · exact fun _ => ⟨hactive, hplumbed, hsends.peerCmMeta ▸ hident⟩
  · intro hactive
    obtain ⟨hplumbed', hpeer⟩ := h.server hactive
    exact ⟨hplumbed'.congr rfl rfl hlocal.symm, hpeer.trans hlocal.symm⟩

/-- The first message of the client reaches the server. -/
theorem Agreed.activateServer (h : t.Agreed) (hactive : t.server.active = false)
    (hident : msg.cm.ident = t.client.localCmMeta.ident)
    (heq : ep = Endpoint.activated { t.server with peerCmMeta := msg.cm }) :
    (t.put .server ep [ep.cmMsg]).Agreed := by
  have hplumbed : ep.Plumbed t.client.localCmMeta :=
    heq ▸ (Endpoint.plumbed_activated { t.server with peerCmMeta := msg.cm }
      (h.serverNew hactive)).congr rfl rfl hident
  have hnow : ep.active = true := by rw [heq]; rfl
  have hlocal : ep.localCmMeta.ident = t.server.localCmMeta.ident := by rw [heq]; rfl
  refine ⟨h.isClient, by rw [heq]; exact h.isServer, h.toServer, ?_, h.clientNew, ?_, ?_, ?_⟩
  · intro msg' hmsg
    refine ⟨?_, hnow⟩
    rcases List.mem_append.mp hmsg with hold | hnew
    · exact (h.toClient msg' hold).1.trans hlocal.symm
    · rw [List.mem_singleton.mp hnew]
      rfl
  · intro hconnected
    exact nomatch hactive.symm.trans (h.client hconnected).1
  · exact fun hnot => nomatch hnow.symm.trans hnot
  · intro _
    exact ⟨hplumbed, by rw [heq]; exact hident⟩

/-- An endpoint that only sends or reads. -/
theorem Agreed.putQuiet (h : t.Agreed) {side : Side} (hquiet : (t.endpoint side).Quiet ep) :
    (t.put side ep []).Agreed := by
  cases side with
  | client =>
      exact h.putClient hquiet.toAlike (fun hyes => hquiet.peerCmMeta ▸ (h.client hyes).2.2)
        (hquiet.connected h.isClient) (by simp)
  | server => exact h.putServer hquiet.toAlike fun hyes => hquiet.peerCmMeta ▸ (h.server hyes).2

theorem Agreed.handleMsg (h : t.Agreed) {side : Side} {rest : List CmMsg}
    (hinbox : t.inbox side = msg :: rest) (hsent : answers.unsent = none)
    {result : Endpoint × List CmMsg}
    (hresult : Endpoint.Handled answers msg (t.endpoint side) result) :
    ((t.dropMsg side).put side result.1 result.2).Agreed := by
  have hdrop := h.dropMsg side
  cases side with
  | client =>
      obtain ⟨hident, hactive⟩ := h.toClient msg (by simp [show t.toClient = _ from hinbox])
      cases hresult with
      | unexpected hconnected =>
          have halike : t.client.Alike (Endpoint.fault { t.client with peerCmMeta := msg.cm }) :=
            ⟨rfl, rfl, rfl, rfl, rfl, rfl⟩
          exact hdrop.putClient halike (fun _ => hident) hconnected.symm (by simp)
      | client hconnected hrole hsends =>
          rw [Endpoint.sendOrFault_of_sent hsent]
          exact hdrop.activateClient hconnected hident hactive hsends
      | again _ hrole => exact nomatch h.isClient.symm.trans hrole
      | first _ hrole => exact nomatch h.isClient.symm.trans hrole
      | ack _ hrole => exact nomatch h.isClient.symm.trans hrole
  | server =>
      obtain ⟨hident, _⟩ := h.toServer msg (by simp [show t.toServer = _ from hinbox])
      cases hresult with
      | unexpected _ =>
          have halike : t.server.Alike (Endpoint.fault { t.server with peerCmMeta := msg.cm }) :=
            ⟨rfl, rfl, rfl, rfl, rfl, rfl⟩
          exact hdrop.putServer halike fun _ => hident
      | client _ hrole => exact nomatch h.isServer.symm.trans hrole
      | again _ _ _ _ =>
          have halike : t.server.Alike { t.server with peerCmMeta := msg.cm } :=
            ⟨rfl, rfl, rfl, rfl, rfl, rfl⟩
          exact hdrop.putServer halike fun _ => hident
      | first _ _ _ hactive =>
          rw [Endpoint.sendOrFault_of_sent hsent]
          exact hdrop.activateServer hactive hident rfl
      | @ack _ _ _ ep' hsends =>
          have halike : t.server.Alike ep' := { hsends.alike with }
          exact hdrop.putServer halike fun _ => hsends.peerCmMeta ▸ hident

theorem Agreed.step (h : t.Agreed) (tx : Side → Cluster) {op : Op} (henabled : t.Enabled op) :
    Ends (t.step tx op) Agreed fun _ => True := by
  cases op with
  | handleConnectionEstablished needSetFault answers =>
      obtain ⟨ep, written, r, hrun, halike, hpeer, hconnected, _, hwritten⟩ :=
        Endpoint.handleConnectionEstablished_of_sent henabled needSetFault t.client
      simp only [TwoParty.step, hrun]
      refine h.putClient halike (fun hyes => hpeer ▸ (h.client hyes).2.2) hconnected ?_
      intro msg hmsg
      rw [hwritten msg hmsg]
      exact ⟨rfl, rfl⟩
  | handleConnection side answers =>
      unfold TwoParty.step
      dsimp only
      cases hinbox : t.inbox side with
      | nil =>
          have hsame : (t.dropMsg side).endpoint side = t.endpoint side := by cases side <;> rfl
          change ((t.dropMsg side).put side (t.endpoint side) []).Agreed
          rw [← hsame]
          exact (h.dropMsg side).putQuiet (.refl _)
      | cons msg rest =>
          refine (Endpoint.handleConnection_ends (tx side) answers msg _).bind ?_
          intro result hresult
          exact h.handleMsg hinbox henabled.1 hresult
  | read side closed answers =>
      unfold TwoParty.step
      refine (Endpoint.read_quiet (tx side) answers closed _).bind fun ep hquiet => ?_
      exact h.putQuiet hquiet
  | sendChunks side chunks answers =>
      unfold TwoParty.step
      refine (Endpoint.sendChunks_ends answers chunks _).bind ?_
      rintro ⟨r, ep⟩ ⟨hsends, _⟩
      exact h.putQuiet hsends.quiet
  | send side bl answers =>
      unfold TwoParty.step
      refine (Endpoint.send_ends (tx side) answers bl _).bind ?_
      rintro ⟨r, ep⟩ ⟨hsends, _⟩
      exact h.putQuiet hsends.quiet

theorem agreed_of_reachable {tx : Side → Cluster} (h : (machine tx).Reachable t) : t.Agreed :=
  h.invariant (fun _ hstart => .start hstart)
    fun _ _ _ _ hagreed henabled hrun => (hagreed.step tx henabled).value hrun

theorem Agreed.transitions (h : t.Agreed) (side : Side) :
    (t.endpoint side).transitions = [] ∨ (t.endpoint side).transitions = [.rtr, .rts] := by
  cases side with
  | client =>
      cases hconnected : t.client.connected with
      | false => exact .inl (h.clientNew hconnected)
      | true => exact .inr (h.client hconnected).2.1.transitions
  | server =>
      cases hactive : t.server.active with
      | false => exact .inl (h.serverNew hactive)
      | true => exact .inr (h.server hactive).1.transitions

/-- In every run each queue pair is taken through RTR and RTS at most once, and
when the client is connected the two sides describe each other correctly and
their queue pairs are set up for each other. -/
theorem handshake_agreement (tx : Side → Cluster) (t : TwoParty)
    (h : (machine tx).Reachable t) :
    (∀ side, (t.endpoint side).transitions.count .rtr ≤ 1 ∧
      (t.endpoint side).transitions.count .rts ≤ 1) ∧
    (t.client.connected = true → t.client.error = 0 →
      t.server.active = true ∧
      t.server.peerCmMeta.ident = t.client.localCmMeta.ident ∧
      t.client.peerCmMeta.ident = t.server.localCmMeta.ident ∧
      t.server.attr.destQpNum = t.client.localCmMeta.localQpn ∧
      t.server.attr.rqPsn = t.client.localCmMeta.psn ∧
      t.client.attr.destQpNum = t.server.localCmMeta.localQpn ∧
      t.client.attr.rqPsn = t.server.localCmMeta.psn) := by
  have hagreed := agreed_of_reachable h
  constructor
  · intro side
    rcases hagreed.transitions side with heq | heq <;> rw [heq] <;> decide
  · intro hconnected _
    obtain ⟨hactive, hclient, hclientPeer⟩ := hagreed.client hconnected
    obtain ⟨hserver, hserverPeer⟩ := hagreed.server hactive
    exact ⟨hactive, hserverPeer, hclientPeer, hserver.destQpNum, hserver.rqPsn,
      hclient.destQpNum, hclient.rqPsn⟩

/-- Queue pair 17 at the client and 34 at the server. -/
def newEndpoint (isServer : Bool) : Endpoint where
  isServer := isServer
  connected := false
  error := 0
  active := false
  readHandler := true
  peerQpn := 0
  localCmMeta := ⟨0, if isServer then 34 else 17, if isServer then 5 else 3, 0,
    Vector.replicate 16 0⟩
  peerCmMeta := ⟨0, 0, 0, 0, Vector.replicate 16 0⟩
  mcGroup := ⟨0, 0, 0, 0⟩
  attr := ⟨.init, 0, 0, 0, Vector.replicate 16 0, 0⟩
  transitions := []
  pendingBl := .empty
  posted := []

def apart : TwoParty := ⟨newEndpoint false, newEndpoint true, [], []⟩

def noPools : Side → Cluster := fun _ => .new 0

theorem apart_start : apart.Start :=
  ⟨⟨rfl, rfl, rfl, rfl, rfl, rfl⟩, ⟨rfl, rfl, rfl, rfl, rfl, rfl⟩, rfl, rfl, rfl, rfl⟩

theorem handshake_agreement_after_two_messages :
    ∃ t, (machine noPools).Reachable t ∧ t.client.connected = true ∧ t.client.error = 0 ∧
      t.client.attr.destQpNum = 34 ∧ t.server.attr.destQpNum = 17 := by
  have hapart : (machine noPools).Reachable apart := .start apart_start
  have hsent := hapart.next (.handleConnectionEstablished true .good) rfl rfl
  have hanswered := hsent.next (.handleConnection .server .good) ⟨rfl, rfl⟩ rfl
  have hconnected := hanswered.next (.handleConnection .client .good) ⟨rfl, rfl⟩ rfl
  obtain ⟨_, _, _, hserver, _, hclient, _⟩ :=
    (handshake_agreement noPools _ hconnected).2 rfl rfl
  exact ⟨_, hconnected, rfl, rfl, hclient, hserver⟩

end TwoParty

end RdmaCapsule.Core
