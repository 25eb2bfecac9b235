import RdmaCapsule.Core.TwoParty
import RdmaCapsule.Multicast.Tracking

/-! A client, the daemon and the two servers of a group, joined by TCP streams
that lose nothing and deliver each handshake message whole. The steps of the
four parties interleave in any order. -/
namespace RdmaCapsule.Multicast

open RdmaCapsule.Core RdmaCapsule.Foundation

namespace Event

def clientMsg : Event → Option CmMsg
  | .toClient _ msg => some msg
  | _ => none

def serverMsg (i : Fin 2) : Event → Option CmMsg
  | .toServer _ j msg => if j = i then some msg else none
  | _ => none

theorem mem_clientMsg {new : List Event} {msg : CmMsg} (h : msg ∈ new.filterMap clientMsg) :
    ∃ mcId, .toClient mcId msg ∈ new := by
  obtain ⟨event, hmem, hmsg⟩ := List.mem_filterMap.mp h
  cases event with
  | toClient mcId msg' =>
      cases hmsg
      exact ⟨mcId, hmem⟩
  | groupAdd args => exact nomatch hmsg
  | toServer mcId i msg' => exact nomatch hmsg

theorem mem_serverMsg {i : Fin 2} {new : List Event} {msg : CmMsg}
    (h : msg ∈ new.filterMap (serverMsg i)) : ∃ mcId, .toServer mcId i msg ∈ new := by
  obtain ⟨event, hmem, hmsg⟩ := List.mem_filterMap.mp h
  cases event with
  | toServer mcId j msg' =>
      obtain ⟨rfl, rfl⟩ : j = i ∧ msg' = msg := by simpa [serverMsg] using hmsg
      exact ⟨mcId, hmem⟩
  | groupAdd args => exact nomatch hmsg
  | toClient mcId msg' => exact nomatch hmsg

end Event

inductive Party where
  | client
  | server (i : Fin 2)
  deriving DecidableEq, Repr

/-- The parties and the messages between the daemon and each of the others. -/
structure FourParty where
  client : Endpoint
  server : Fin 2 → Endpoint
  daemon : Daemon
  toClient : List CmMsg
  fromClient : List CmMsg
  toServer : Fin 2 → List CmMsg
  fromServer : Fin 2 → List CmMsg

/-- How a run can stop. -/
inductive Halt where
  | endpoint (fault : Fault)
  | daemon (stop : Stop)
  deriving DecidableEq, Repr

namespace FourParty

inductive Op where
  | handleConnectionEstablished (needSetFault : Bool) (answers : Answers)
  | handleConnection (party : Party) (answers : Answers)
  | read (party : Party) (closed : Bool) (answers : Answers)
  | sendChunks (party : Party) (chunks : List Nat) (answers : Answers)
  | send (party : Party) (bl : BufferList) (answers : Answers)
  | processClientReadable (msg : CmMsg) (c₁ c₂ : Nat)
  | processServerReadable (i : Fin 2) (c : Nat) (msg : CmMsg)
      (toServer toClient : Nat → WriteAnswer)
  | processServerWriteable (i : Fin 2) (c : Nat) (answer : Nat → WriteAnswer)

def endpoint (g : FourParty) : Party → Endpoint
  | .client => g.client
  | .server i => g.server i

def inbox (g : FourParty) : Party → List CmMsg
  | .client => g.toClient
  | .server i => g.toServer i

def dropMsg (g : FourParty) : Party → FourParty
  | .client => { g with toClient := g.toClient.tail }
  | .server i => { g with toServer := Function.update g.toServer i (g.toServer i).tail }

/-- A party has become `ep` and has written some messages. -/
def put (g : FourParty) (ep : Endpoint) (written : List CmMsg) : Party → FourParty
  | .client => { g with client := ep, fromClient := g.fromClient ++ written }
  | .server i =>
      { g with
        server := Function.update g.server i ep
        fromServer := Function.update g.fromServer i (g.fromServer i ++ written) }

/-- The daemon has become `d`; what it wrote on the way is in its log. -/
def deliver (g : FourParty) (d : Daemon) : FourParty :=
  let new := d.log.drop g.daemon.log.length
  { g with
    daemon := d
    toClient := g.toClient ++ new.filterMap Event.clientMsg
    toServer := fun i => g.toServer i ++ new.filterMap (Event.serverMsg i) }

def takeFromClient (g : FourParty) : FourParty := { g with fromClient := g.fromClient.tail }

def takeFromServer (g : FourParty) (i : Fin 2) : FourParty :=
  { g with fromServer := Function.update g.fromServer i (g.fromServer i).tail }

variable (tx : Party → Cluster) (p : Setup)

def step (g : FourParty) : Op → Except Halt FourParty
  | .handleConnectionEstablished needSetFault answers =>
      let (ep, written, _) := g.client.handleConnectionEstablished needSetFault answers
      .ok (g.put ep written .client)
  | .handleConnection party answers => do
      let (ep, written) ← ((g.endpoint party).handleConnection (tx party) answers
        (TwoParty.recv (g.inbox party))).mapError .endpoint
      pure ((g.dropMsg party).put ep written party)
  | .read party closed answers => do
      let ep ← ((g.endpoint party).read (tx party) answers closed).mapError .endpoint
      pure (g.put ep [] party)
  | .sendChunks party chunks answers => do
      let (_, ep) ← ((g.endpoint party).sendChunks answers chunks).mapError .endpoint
      pure (g.put ep [] party)
  | .send party bl answers => do
      let (_, ep) ← ((g.endpoint party).send (tx party) answers bl).mapError .endpoint
      pure (g.put ep [] party)
  | .processClientReadable msg c₁ c₂ => do
      let d ← (g.daemon.step (.clientReadable p.clientConn msg c₁ c₂)).mapError .daemon
      pure (g.takeFromClient.deliver d)
  | .processServerReadable i c msg toServer toClient => do
      let d ← (g.daemon.step (.serverReadable c msg toServer toClient)).mapError .daemon
      pure ((g.takeFromServer i).deliver d)
  | .processServerWriteable _ c answer => do
      let d ← (g.daemon.step (.serverWriteable c answer)).mapError .daemon
      pure (g.deliver d)

/-- The daemon reads the message that has waited longest, and on the connection
it came by. -/
def Enabled (g : FourParty) : Op → Prop
  | .handleConnectionEstablished _ answers => answers.unsent = none
  | .handleConnection party answers =>
      answers.unsent = none ∧ (g.endpoint party).readHandler = true
  | .processClientReadable msg c₁ c₂ => g.fromClient.head? = some msg ∧
      g.daemon.Enabled (.clientReadable p.clientConn msg c₁ c₂)
  | .processServerReadable i c msg toServer toClient => g.daemon.Wired p i c ∧
      (g.fromServer i).head? = some msg ∧
      g.daemon.Enabled (.serverReadable c msg toServer toClient)
  | .processServerWriteable i c answer => g.daemon.Wired p i c ∧
      g.daemon.Enabled (.serverWriteable c answer)
  | _ => True

/-- The daemon has accepted the connection of the client and knows no group. -/
structure Start (g : FourParty) : Prop where
  client : g.client.Initial
  server : ∀ i, (g.server i).Initial
  isClient : g.client.isServer = false
  isServer : ∀ i, (g.server i).isServer = true
  clientMeta : g.client.localCmMeta.ident = p.clientMeta
  serverMeta : ∀ i, (g.server i).localCmMeta.ident = p.serverMeta i
  mcGroup : g.client.mcGroup = p.mcGroup
  daemon : ∃ d : Daemon, d.Start ∧ d.mMcId = p.mcId ∧
    g.daemon = d.accept p.clientConn p.clientAddr
  toClient : g.toClient = []
  fromClient : g.fromClient = []
  toServer : ∀ i, g.toServer i = []
  fromServer : ∀ i, g.fromServer i = []

def machine : Machine FourParty Op Halt where
  start := Start p
  enabled := Enabled p
  step := step tx p

variable {tx p} {g : FourParty} {ep : Endpoint} {msg : CmMsg} {answers : Answers}

def ready (g : FourParty) (i : Fin 2) : Prop := (g.server i).active = true

/-- What the parties, the daemon and the messages in flight agree on. -/
structure Agreed (p : Setup) (g : FourParty) : Prop where
  isClient : g.client.isServer = false
  isServer : ∀ i, (g.server i).isServer = true
  clientMeta : g.client.localCmMeta.ident = p.clientMeta
  serverMeta : ∀ i, (g.server i).localCmMeta.ident = p.serverMeta i
  mcGroup : g.client.mcGroup = p.mcGroup
  daemon : g.daemon.Tracks p g.ready
  fromClient : ∀ msg ∈ g.fromClient, msg.cm.ident = p.clientMeta ∧ msg.mcGroup = p.mcGroup
  fromServer : ∀ i, ∀ msg ∈ g.fromServer i, msg.cm.ident = p.serverMeta i ∧ g.ready i
  toClient : ∀ msg ∈ g.toClient, msg.cm.localQpn = p.mcId ∧ g.daemon.Done p g.ready
  toServer : ∀ i, ∀ msg ∈ g.toServer i, msg.cm.ident = p.clientMeta
  clientNew : g.client.connected = false → g.client.transitions = []
  client : g.client.connected = true → g.daemon.Done p g.ready ∧
    ∃ peer, peer.localQpn = p.mcId ∧ g.client.Plumbed peer
  serverNew : ∀ i, (g.server i).active = false → (g.server i).transitions = []
  server : ∀ i, (g.server i).active = true → (g.server i).Plumbed p.clientMeta

theorem Agreed.start (h : g.Start p) : g.Agreed p where
  isClient := h.isClient
  isServer := h.isServer
  clientMeta := h.clientMeta
  serverMeta := h.serverMeta
  mcGroup := h.mcGroup
  daemon := by
    obtain ⟨d, hstart, hnext, heq⟩ := h.daemon
    rw [heq]
    exact Daemon.Waits.tracks_of_start hstart hnext
  fromClient := by simp [h.fromClient]
  fromServer i := by simp [h.fromServer i]
  toClient := by simp [h.toClient]
  toServer i := by simp [h.toServer i]
  clientNew _ := h.client.transitions
  client hconnected := nomatch h.client.connected.symm.trans hconnected
  serverNew i _ := (h.server i).transitions
  server i hactive := nomatch (h.server i).active.symm.trans hactive

theorem Agreed.dropMsg (h : g.Agreed p) (party : Party) : (g.dropMsg party).Agreed p := by
  cases party with
  | client =>
      exact { h with toClient := fun msg hmsg => h.toClient msg (List.mem_of_mem_tail hmsg) }
  | server i =>
      refine { h with toServer := (Function.forall_update_iff g.toServer fun _ msgs =>
        ∀ msg ∈ msgs, msg.cm.ident = p.clientMeta).mpr ⟨?_, fun j _ => h.toServer j⟩ }
      exact fun msg hmsg => h.toServer i msg (List.mem_of_mem_tail hmsg)

/-- The daemon has advanced. -/
theorem Agreed.deliver (h : g.Agreed p) {d : Daemon} {new : List Event}
    (hadvances : g.daemon.Advances p g.ready d new) : (g.deliver d).Agreed p := by
  have hnew : d.log.drop g.daemon.log.length = new := by simp [hadvances.log]
  refine { h with daemon := hadvances.tracks, toClient := ?_, toServer := ?_, client := ?_ }
  · intro msg hmsg
    rcases List.mem_append.mp hmsg with hold | hfresh
    · exact (h.toClient msg hold).imp id hadvances.done
    · rw [hnew] at hfresh
      obtain ⟨mcId, hevent⟩ := Event.mem_clientMsg hfresh
      exact hadvances.toClient hevent
  · intro i msg hmsg
    rcases List.mem_append.mp hmsg with hold | hfresh
    · exact h.toServer i msg hold
    · rw [hnew] at hfresh
      obtain ⟨mcId, hevent⟩ := Event.mem_serverMsg hfresh
      exact hadvances.toServer hevent
  · exact fun hconnected => (h.client hconnected).imp hadvances.done id

theorem Agreed.takeFromClient (h : g.Agreed p) : g.takeFromClient.Agreed p :=
  { h with fromClient := fun msg hmsg => h.fromClient msg (List.mem_of_mem_tail hmsg) }

theorem Agreed.takeFromServer (h : g.Agreed p) (i : Fin 2) : (g.takeFromServer i).Agreed p := by
  refine { h with fromServer := (Function.forall_update_iff g.fromServer fun j msgs =>
    ∀ msg ∈ msgs, msg.cm.ident = p.serverMeta j ∧ g.ready j).mpr ⟨?_, fun j _ => h.fromServer j⟩ }
  exact fun msg hmsg => h.fromServer i msg (List.mem_of_mem_tail hmsg)

/-- The client learns nothing new. -/
theorem Agreed.putClient (h : g.Agreed p) (halike : g.client.Alike ep)
    (hconnected : ep.connected = g.client.connected) {written : List CmMsg}
    (hwritten : ∀ msg ∈ written, msg.cm.ident = p.clientMeta ∧ msg.mcGroup = p.mcGroup) :
    (g.put ep written .client).Agreed p where
  isClient := halike.isServer.trans h.isClient
  isServer := h.isServer
  clientMeta := halike.localCmMeta.trans h.clientMeta
  serverMeta := h.serverMeta
  mcGroup := halike.mcGroup.trans h.mcGroup
  daemon := h.daemon
  fromClient msg hmsg := (List.mem_append.mp hmsg).elim (h.fromClient msg) (hwritten msg)
  fromServer := h.fromServer
  toClient := h.toClient
  toServer := h.toServer
  clientNew hnot := halike.transitions.trans (h.clientNew (hconnected ▸ hnot))
  client hyes := by
    obtain ⟨hdone, peer, hpeer, hplumbed⟩ := h.client (hconnected ▸ hyes)
    exact ⟨hdone, peer, hpeer, hplumbed.congr halike.transitions halike.attr rfl⟩
  serverNew := h.serverNew
  server := h.server

/-- The answer of the daemon reaches the client. -/
theorem Agreed.activateClient (h : g.Agreed p) (hconnected : g.client.connected = false)
    (hqpn : msg.cm.localQpn = p.mcId) (hdone : g.daemon.Done p g.ready)
    (hsends : Endpoint.Sends (Endpoint.activated { g.client with peerCmMeta := msg.cm }) ep) :
    (g.put ep [ep.cmMsg] .client).Agreed p := by
  have halike := hsends.alike
  have hplumbed : ep.Plumbed msg.cm :=
    (Endpoint.plumbed_activated { g.client with peerCmMeta := msg.cm }
      (h.clientNew hconnected)).congr halike.transitions halike.attr rfl
  have hnow : ep.connected = true := by
    rw [hsends.connected, Endpoint.activated_connected]
    simp [h.isClient]
  have hmeta : ep.localCmMeta.ident = p.clientMeta := halike.localCmMeta.trans h.clientMeta
  have hgroup : ep.mcGroup = p.mcGroup := halike.mcGroup.trans h.mcGroup
  refine ⟨halike.isServer.trans h.isClient, h.isServer, hmeta, h.serverMeta, hgroup, h.daemon,
    ?_, h.fromServer, h.toClient, h.toServer, ?_, ?_, h.serverNew, h.server⟩
  · intro msg' hmsg
    rcases List.mem_append.mp hmsg with hold | hnew
    · exact h.fromClient msg' hold
    · rw [List.mem_singleton.mp hnew]
      exact ⟨hmeta, hgroup⟩
  · exact fun hnot => nomatch hnow.symm.trans hnot
  · exact fun _ => ⟨hdone, msg.cm, hqpn, hplumbed⟩

/-- What a server has to show; it never becomes inactive. -/
theorem Agreed.putServer (h : g.Agreed p) {i : Fin 2} (hrole : ep.isServer = true)
    (hmeta : ep.localCmMeta.ident = p.serverMeta i)
    (hactive : (g.server i).active = true → ep.active = true) {written : List CmMsg}
    (hwritten : ∀ msg ∈ written, msg.cm.ident = p.serverMeta i ∧ ep.active = true)
    (hnew : ep.active = false → ep.transitions = [])
    (hplumbed : ep.active = true → ep.Plumbed p.clientMeta) :
    (g.put ep written (.server i)).Agreed p := by
  have hserver (prop : Fin 2 → Endpoint → Prop) (hold : ∀ j, prop j (g.server j))
      (hself : prop i ep) (j : Fin 2) : prop j (Function.update g.server i ep j) :=
    (Function.forall_update_iff g.server prop).mpr ⟨hself, fun k _ => hold k⟩ j
  have hready (j : Fin 2) (hj : g.ready j) : (g.put ep written (.server i)).ready j :=
    hserver (fun j ep => g.ready j → ep.active = true) (fun _ => id) hactive j hj
  refine ⟨h.isClient, hserver (fun _ ep => ep.isServer = true) h.isServer hrole, h.clientMeta,
    hserver (fun j ep => ep.localCmMeta.ident = p.serverMeta j) h.serverMeta hmeta, h.mcGroup,
    h.daemon.mono hready, h.fromClient, fun j msg hmsg => ?_, fun msg hmsg => ?_, h.toServer,
    h.clientNew, fun hconnected => ?_,
    hserver (fun _ ep => ep.active = false → ep.transitions = []) h.serverNew hnew,
    hserver (fun _ ep => ep.active = true → ep.Plumbed p.clientMeta) h.server hplumbed⟩
  · by_cases hj : j = i
    · subst hj
      have hmem : msg ∈ g.fromServer j ++ written := by simpa [put] using hmsg
      rcases List.mem_append.mp hmem with hold | hfresh
      · exact (h.fromServer j msg hold).imp id (hready j)
      · refine (hwritten msg hfresh).imp id fun hnow => ?_
        simpa [ready, put] using hnow
    · have hmem : msg ∈ g.fromServer j := by simpa [put, hj] using hmsg
      exact (h.fromServer j msg hmem).imp id (hready j)
  · exact (h.toClient msg hmsg).imp id (Daemon.Done.mono · hready)
  · exact (h.client hconnected).imp (Daemon.Done.mono · hready) id

/-- The server learns nothing new. -/
theorem Agreed.putServerAlike (h : g.Agreed p) {i : Fin 2} (halike : (g.server i).Alike ep) :
    (g.put ep [] (.server i)).Agreed p := by
  refine h.putServer (halike.isServer.trans (h.isServer i))
    (halike.localCmMeta.trans (h.serverMeta i)) (fun hyes => halike.active.trans hyes) (by simp)
    ?_ ?_
  · exact fun hnot => halike.transitions.trans (h.serverNew i (halike.active ▸ hnot))
  · exact fun hyes => (h.server i (halike.active ▸ hyes)).congr halike.transitions halike.attr rfl

/-- The first message of the daemon reaches a server. -/
theorem Agreed.activateServer (h : g.Agreed p) {i : Fin 2} (hactive : (g.server i).active = false)
    (hident : msg.cm.ident = p.clientMeta)
    (heq : ep = Endpoint.activated { g.server i with peerCmMeta := msg.cm }) :
    (g.put ep [ep.cmMsg] (.server i)).Agreed p := by
  have hmeta : ep.localCmMeta.ident = p.serverMeta i := by
    rw [heq]
    exact h.serverMeta i
  have hnow : ep.active = true := by rw [heq]; rfl
  refine h.putServer (by rw [heq]; exact h.isServer i) hmeta (fun _ => hnow) ?_ ?_ ?_
  · intro msg' hmsg
    rw [List.mem_singleton.mp hmsg]
    exact ⟨hmeta, hnow⟩
  · exact fun hnot => nomatch hnow.symm.trans hnot
  · intro _
    rw [heq]
    exact (Endpoint.plumbed_activated { g.server i with peerCmMeta := msg.cm }
      (h.serverNew i hactive)).congr rfl rfl (by rw [← hident]; rfl)

/-- An endpoint that only sends or reads. -/
theorem Agreed.putQuiet (h : g.Agreed p) {party : Party} (hquiet : (g.endpoint party).Quiet ep) :
    (g.put ep [] party).Agreed p := by
  cases party with
  | client => exact h.putClient hquiet.toAlike (hquiet.connected h.isClient) (by simp)
  | server i => exact h.putServerAlike hquiet.toAlike

theorem Agreed.handleMsg (h : g.Agreed p) {party : Party} {rest : List CmMsg}
    (hinbox : g.inbox party = msg :: rest) (hsent : answers.unsent = none)
    {result : Endpoint × List CmMsg}
    (hresult : Endpoint.Handled answers msg (g.endpoint party) result) :
    ((g.dropMsg party).put result.1 result.2 party).Agreed p := by
  have hdrop := h.dropMsg party
  cases party with
  | client =>
      obtain ⟨hqpn, hdone⟩ := h.toClient msg (by simp [show g.toClient = _ from hinbox])
      cases hresult with
      | unexpected hconnected =>
          have halike : g.client.Alike (Endpoint.fault { g.client with peerCmMeta := msg.cm }) :=
            ⟨rfl, rfl, rfl, rfl, rfl, rfl⟩
          exact hdrop.putClient halike hconnected.symm (by simp)
      | client hconnected hrole hsends =>
          rw [Endpoint.sendOrFault_of_sent hsent]
          exact hdrop.activateClient hconnected hqpn hdone hsends
      | again _ hrole => exact nomatch h.isClient.symm.trans hrole
      | first _ hrole => exact nomatch h.isClient.symm.trans hrole
      | ack _ hrole => exact nomatch h.isClient.symm.trans hrole
  | server i =>
      have hident := h.toServer i msg (by simp [show g.toServer i = _ from hinbox])
      cases hresult with
      | unexpected _ =>
          have halike : (g.server i).Alike
              (Endpoint.fault { g.server i with peerCmMeta := msg.cm }) :=
            ⟨rfl, rfl, rfl, rfl, rfl, rfl⟩
          exact hdrop.putServerAlike halike
      | client _ hrole => exact nomatch (h.isServer i).symm.trans hrole
      | again _ _ _ _ =>
          have halike : (g.server i).Alike { g.server i with peerCmMeta := msg.cm } :=
            ⟨rfl, rfl, rfl, rfl, rfl, rfl⟩
          exact hdrop.putServerAlike halike
      | first _ _ _ hactive =>
          rw [Endpoint.sendOrFault_of_sent hsent]
          exact hdrop.activateServer hactive hident rfl
      | @ack _ _ _ ep' hsends =>
          have halike : (g.server i).Alike ep' := { hsends.alike with }
          exact hdrop.putServerAlike halike

theorem Agreed.step (h : g.Agreed p) (tx : Party → Cluster) {op : Op} (henabled : g.Enabled p op) :
    Ends (g.step tx p op) (Agreed p) fun _ => True := by
  cases op with
  | handleConnectionEstablished needSetFault answers =>
      obtain ⟨ep, written, r, hrun, halike, _, hconnected, _, hwritten⟩ :=
        Endpoint.handleConnectionEstablished_of_sent henabled needSetFault g.client
      simp only [FourParty.step, hrun]
      refine h.putClient halike hconnected fun msg hmsg => ?_
      rw [hwritten msg hmsg]
      exact ⟨h.clientMeta, h.mcGroup⟩
  | handleConnection party answers =>
      unfold FourParty.step
      dsimp only
      cases hinbox : g.inbox party with
      | nil =>
          have hsame : (g.dropMsg party).endpoint party = g.endpoint party := by
            cases party <;> rfl
          change ((g.dropMsg party).put (g.endpoint party) [] party).Agreed p
          rw [← hsame]
          exact (h.dropMsg party).putQuiet (.refl _)
      | cons msg rest =>
          refine ((Endpoint.handleConnection_ends (tx party) answers msg _).mapError _).bind ?_
          intro result hresult
          exact h.handleMsg hinbox henabled.1 hresult
  | read party closed answers =>
      unfold FourParty.step
      refine ((Endpoint.read_quiet (tx party) answers closed _).mapError _).bind ?_
      exact fun ep hquiet => h.putQuiet hquiet
  | sendChunks party chunks answers =>
      unfold FourParty.step
      refine ((Endpoint.sendChunks_ends answers chunks _).mapError _).bind ?_
      rintro ⟨r, ep⟩ ⟨hsends, _⟩
      exact h.putQuiet hsends.quiet
  | send party bl answers =>
      unfold FourParty.step
      refine ((Endpoint.send_ends (tx party) answers bl _).mapError _).bind ?_
      rintro ⟨r, ep⟩ ⟨hsends, _⟩
      exact h.putQuiet hsends.quiet
  | processClientReadable msg c₁ c₂ =>
      obtain ⟨hhead, henabled⟩ := henabled
      obtain ⟨hident, hgroup⟩ := h.fromClient msg (List.mem_of_mem_head? hhead)
      refine ((ends_iff_forall.mpr fun d hrun => hrun).mapError _).bind fun d hrun => ?_
      exact h.takeFromClient.deliver (h.daemon.clientReadable henabled hident hgroup hrun)
  | processServerReadable i c msg toServer toClient =>
      obtain ⟨hwired, hhead, henabled⟩ := henabled
      obtain ⟨hident, hready⟩ := h.fromServer i msg (List.mem_of_mem_head? hhead)
      obtain ⟨connections, mcCmMeta, mcState, hopened, hslot⟩ := h.daemon.opened hwired
      have hqpn : msg.cm.localQpn = (p.serverMeta i).localQpn := by rw [← hident]; rfl
      refine ((ends_iff_forall.mpr fun d hrun => hrun).mapError _).bind fun d hrun => ?_
      obtain ⟨new, hadvances⟩ :=
        hopened.serverReadable h.daemon.inv hslot henabled hqpn hready hrun
      exact (h.takeFromServer i).deliver hadvances
  | processServerWriteable i c answer =>
      obtain ⟨hwired, henabled⟩ := henabled
      obtain ⟨connections, mcCmMeta, mcState, hopened, hslot⟩ := h.daemon.opened hwired
      refine ((ends_iff_forall.mpr fun d hrun => hrun).mapError _).bind fun d hrun => ?_
      exact h.deliver (hopened.serverWriteable h.daemon.inv hslot henabled hrun)

theorem agreed_of_reachable (h : (machine tx p).Reachable g) : g.Agreed p :=
  h.invariant (fun _ hstart => .start hstart)
    fun _ _ _ _ hagreed henabled hrun => (hagreed.step tx henabled).value hrun

/-- The group as the parties themselves would describe it to the switch. -/
def groupAdd (p : Setup) (g : FourParty) : GroupAdd where
  srcAddr := htonl p.clientAddr.sAddr
  dqpNum := p.mcId
  sqpNum := g.client.localCmMeta.localQpn
  dstAddr1 := htonl (Daemon.memberAddr g.client.mcGroup 0).sAddr
  dqp1 := (g.server 0).localCmMeta.localQpn
  dstAddr2 := htonl (Daemon.memberAddr g.client.mcGroup 1).sAddr
  dqp2 := (g.server 1).localCmMeta.localQpn

theorem Agreed.groupAdd_eq (h : g.Agreed p) : g.groupAdd p = p.groupAdd := by
  have hclient : g.client.localCmMeta.localQpn = p.clientMeta.localQpn := by
    rw [← h.clientMeta]
    rfl
  have hserver (i : Fin 2) : (g.server i).localCmMeta.localQpn = (p.serverMeta i).localQpn := by
    rw [← h.serverMeta]
    rfl
  simp [groupAdd, Setup.groupAdd, h.mcGroup, hclient, hserver]

/-- The connection to a server goes to the address of that member. -/
theorem Agreed.peerAddr (h : g.Agreed p) (hdone : g.daemon.Done p g.ready) (i : Fin 2) :
    ∃ c conn, g.daemon.Wired p i c ∧ g.daemon.conns c = some conn ∧
      conn.peerAddr = Daemon.memberAddr g.client.mcGroup i := by
  rcases h.daemon.phase with hwaits | ⟨connections, mcCmMeta, mcState, hopened⟩
  · exact nomatch hwaits.table.symm.trans hdone.2.1
  · obtain ⟨c, writable, hslot, hconn⟩ := hopened.member i
    exact ⟨c, _, ⟨connections, hopened.wired, hslot⟩, hconn, by rw [h.mcGroup]⟩

/-- In every run, when the client is connected without error: its queue pair
sends to the group, both servers are set up for the client, and the group has
been added to the table once, each member with its own number, before the client
was answered. -/
theorem multicast_agreement (tx : Party → Cluster) (p : Setup) (g : FourParty)
    (h : (machine tx p).Reachable g) :
    g.client.connected = true → g.client.error = 0 →
    g.client.attr.destQpNum = p.mcId ∧
    (∀ i, (g.server i).active = true ∧
      (g.server i).attr.destQpNum = g.client.localCmMeta.localQpn ∧
      (g.server i).attr.rqPsn = g.client.localCmMeta.psn ∧
      (g.server i).attr.dgid = g.client.localCmMeta.gid) ∧
    (∃ msg, g.daemon.clientEvents p.mcId =
      [.groupAdd (g.groupAdd p), .toClient p.mcId msg]) ∧
    g.daemon.table = [g.groupAdd p] ∧
    (∀ i, ∃ c conn, g.daemon.Wired p i c ∧ g.daemon.conns c = some conn ∧
      conn.peerAddr = Daemon.memberAddr g.client.mcGroup i) := by
  intro hconnected _
  have hagreed := agreed_of_reachable h
  obtain ⟨hdone, peer, hpeer, hplumbed⟩ := hagreed.client hconnected
  refine ⟨hplumbed.destQpNum.trans hpeer, fun i => ?_, ?_, ?_, hagreed.peerAddr hdone⟩
  · have hactive : (g.server i).active = true := hdone.1 i
    have hserver : (g.server i).Plumbed g.client.localCmMeta :=
      (hagreed.server i hactive).congr rfl rfl (by rw [← hagreed.clientMeta]; rfl)
    exact ⟨hactive, hserver.destQpNum, hserver.rqPsn, hserver.dgid⟩
  · rw [hagreed.groupAdd_eq]
    exact hdone.2.2
  · rw [hagreed.groupAdd_eq]
    exact hdone.2.1

/-- Group 5 with queue pairs 17 at the client and 34 and 35 at the servers. -/
def pair : Setup where
  mcId := 5
  nonzero := by decide
  accepted := by decide
  clientConn := 0
  clientAddr := ⟨9, 6000⟩
  clientMeta := ⟨0, 17, 3, 0, Vector.replicate 16 0⟩
  serverMeta
    | 0 => ⟨0, 34, 5, 0, Vector.replicate 16 0⟩
    | 1 => ⟨0, 35, 5, 0, Vector.replicate 16 0⟩
  mcGroup := ⟨1, 7000, 2, 7001⟩

def apart : FourParty where
  client := { TwoParty.newEndpoint false with mcGroup := pair.mcGroup }
  server i := { TwoParty.newEndpoint true with localCmMeta := pair.serverMeta i }
  daemon := Daemon.idle.accept 0 ⟨9, 6000⟩
  toClient := []
  fromClient := []
  toServer _ := []
  fromServer _ := []

theorem apart_start : apart.Start pair where
  client := ⟨rfl, rfl, rfl, rfl, rfl, rfl⟩
  server _ := ⟨rfl, rfl, rfl, rfl, rfl, rfl⟩
  isClient := rfl
  isServer _ := rfl
  clientMeta := rfl
  serverMeta
    | 0 => rfl
    | 1 => rfl
  mcGroup := rfl
  daemon := ⟨Daemon.idle, Daemon.idle_start, rfl, rfl⟩
  toClient := rfl
  fromClient := rfl
  toServer _ := rfl
  fromServer _ := rfl

theorem multicast_agreement_of_pair :
    ∃ g, (machine (fun _ => .new 0) pair).Reachable g ∧ g.client.connected = true ∧
      g.client.error = 0 ∧ g.client.attr.destQpNum = 5 ∧
      g.daemon.table = [⟨htonl 9, 5, 17, htonl 1, 34, htonl 2, 35⟩] := by
  have hapart : (machine (fun _ => .new 0) pair).Reachable apart := .start apart_start
  have hsent := hapart.next (.handleConnectionEstablished true .good) rfl rfl
  have hopened := hsent.next (.processClientReadable _ 1 2)
    ⟨rfl, ⟨_, rfl, rfl⟩, by decide, rfl, rfl⟩ rfl
  have hfirst := hopened.next (.processServerWriteable 0 1 fun _ => .whole)
    ⟨⟨_, rfl, rfl⟩, _, rfl, rfl, rfl⟩ rfl
  have hsecond := hfirst.next (.processServerWriteable 1 2 fun _ => .whole)
    ⟨⟨_, rfl, rfl⟩, _, rfl, rfl, rfl⟩ rfl
  have hsecondUp := hsecond.next (.handleConnection (.server 1) .good) ⟨rfl, rfl⟩ rfl
  have hsecondAcked := hsecondUp.next
    (.processServerReadable 1 2 _ (fun _ => .whole) fun _ => .whole)
    ⟨⟨_, rfl, rfl⟩, rfl, _, rfl, rfl⟩ rfl
  have hfirstUp := hsecondAcked.next (.handleConnection (.server 0) .good) ⟨rfl, rfl⟩ rfl
  have hanswered := hfirstUp.next
    (.processServerReadable 0 1 _ (fun _ => .whole) fun _ => .whole)
    ⟨⟨_, rfl, rfl⟩, rfl, _, rfl, rfl⟩ rfl
  have hconnected := hanswered.next (.handleConnection .client .good) ⟨rfl, rfl⟩ rfl
  obtain ⟨hdest, _, _, htable, _⟩ := multicast_agreement _ pair _ hconnected rfl rfl
  exact ⟨_, hconnected, rfl, rfl, hdest, htable⟩

end FourParty

end RdmaCapsule.Multicast
