import RdmaCapsule.Core.Handshake
import RdmaCapsule.Multicast.StateMachine

/-! The daemon as seen by the members of one group, when each of them sends what
describes its own queue pair. The daemon then keeps the description of the
client, pairs each server with its own number, and has written the group to the
table by the time it answers the client. -/
namespace RdmaCapsule.Multicast

open RdmaCapsule.Core RdmaCapsule.Foundation

/-- The client and the servers of a group, and the number it is going to have. -/
structure Setup where
  mcId : McId
  nonzero : mcId ≠ 0
  accepted : mcId ≠ 2
  clientConn : Nat
  clientAddr : EntityAddr
  /-- Descriptions without the numbers of peers. -/
  clientMeta : CmMeta
  serverMeta : Fin 2 → CmMeta
  mcGroup : McGroup

/-- What should be written to the switch. -/
def Setup.groupAdd (p : Setup) : GroupAdd where
  srcAddr := htonl p.clientAddr.sAddr
  dqpNum := p.mcId
  sqpNum := p.clientMeta.localQpn
  dstAddr1 := htonl (Daemon.memberAddr p.mcGroup 0).sAddr
  dqp1 := (p.serverMeta 0).localQpn
  dstAddr2 := htonl (Daemon.memberAddr p.mcGroup 1).sAddr
  dqp2 := (p.serverMeta 1).localQpn

/-- What the daemon knows of the client. -/
def McMeta.senderIdent (mcCmMeta : McMeta) : CmMeta :=
  ⟨mcCmMeta.senderLid, mcCmMeta.senderLocalQpn, mcCmMeta.senderPsn, 0, mcCmMeta.senderGid⟩

namespace Daemon

variable {p : Setup} {ready ready' : Fin 2 → Prop} {d d' : Daemon}
  {connections : Fin 3 → Option Nat} {mcCmMeta : McMeta} {mcState : McState} {c : Nat}
  {conn : Conn} {msg : CmMsg} {new : List Event}

/-- The group has been written to the table, once, and the client has been
answered; `ready` says which servers are active. -/
def Done (p : Setup) (ready : Fin 2 → Prop) (d : Daemon) : Prop :=
  (∀ i, ready i) ∧ d.table = [p.groupAdd] ∧
    ∃ msg, d.clientEvents p.mcId = [.groupAdd p.groupAdd, .toClient p.mcId msg]

/-- The client has not been heard of. -/
structure Waits (p : Setup) (d : Daemon) : Prop where
  clientConn : ∃ writable, d.conns p.clientConn = some ⟨0, false, p.clientAddr, writable⟩
  next : d.mMcId = p.mcId
  unused : d.multicastConnections p.mcId = none
  table : d.table = []

structure Opened (p : Setup) (ready : Fin 2 → Prop) (d : Daemon)
    (connections : Fin 3 → Option Nat) (mcCmMeta : McMeta) (mcState : McState) : Prop where
  wired : d.multicastConnections p.mcId = some connections
  clientSlot : connections 0 = some p.clientConn
  clientConn : ∃ writable, d.conns p.clientConn = some ⟨p.mcId, false, p.clientAddr, writable⟩
  member : ∀ i : Fin 2, ∃ c writable, connections i.succ = some c ∧
    d.conns c = some ⟨p.mcId, true, memberAddr p.mcGroup i, writable⟩
  addrs : d.multicastAddrs p.mcId = some (memberAddr p.mcGroup)
  cmMeta : d.multicastCmMeta p.mcId = some mcCmMeta
  sender : mcCmMeta.senderIdent = p.clientMeta
  state : d.multicastState p.mcId = some mcState
  acked : ∀ i, mcState.serverState i = .handshakeAckSent →
    mcCmMeta.receiverLocalQpn i = (p.serverMeta i).localQpn ∧ ready i
  outcome : d.clientEvents p.mcId = [] ∧ d.table = [] ∨ d.Done p ready

structure Tracks (p : Setup) (ready : Fin 2 → Prop) (d : Daemon) : Prop where
  inv : d.Inv
  phase : d.Waits p ∨ ∃ connections mcCmMeta mcState, d.Opened p ready connections mcCmMeta mcState

/-- What a step of the daemon comes to for the group. -/
structure Advances (p : Setup) (ready : Fin 2 → Prop) (d d' : Daemon) (new : List Event) :
    Prop where
  log : d'.log = d.log ++ new
  tracks : d'.Tracks p ready
  done : d.Done p ready → d'.Done p ready
  toServer : ∀ {mcId i msg}, .toServer mcId i msg ∈ new → msg.cm.ident = p.clientMeta
  toClient : ∀ {mcId msg}, .toClient mcId msg ∈ new → msg.cm.localQpn = p.mcId ∧ d'.Done p ready

theorem Done.mono (h : d.Done p ready) (hready : ∀ i, ready i → ready' i) : d.Done p ready' :=
  ⟨fun i => hready i (h.1 i), h.2⟩

theorem Tracks.mono (h : d.Tracks p ready) (hready : ∀ i, ready i → ready' i) :
    d.Tracks p ready' := by
  refine ⟨h.inv, ?_⟩
  rcases h.phase with hwaits | ⟨connections, mcCmMeta, mcState, hopened⟩
  · exact .inl hwaits
  · refine .inr ⟨connections, mcCmMeta, mcState, { hopened with acked := ?_, outcome := ?_ }⟩
    · intro i hacked
      obtain ⟨hqpn, hi⟩ := hopened.acked i hacked
      exact ⟨hqpn, hready i hi⟩
    · exact hopened.outcome.imp id (Done.mono · hready)

theorem Waits.tracks_of_start (hstart : d.Start) (hnext : d.mMcId = p.mcId) :
    (d.accept p.clientConn p.clientAddr).Tracks p ready := by
  refine ⟨(Inv.start hstart).accept (hstart.conns _) _, .inl ⟨⟨false, ?_⟩, hnext, ?_, ?_⟩⟩
  · exact Function.update_self ..
  · exact hstart.connections _
  · exact hstart.table

/-- The first message of the client. -/
theorem Waits.clientReadable (hwaits : d.Waits p) (h : d.Inv) {c₁ c₂ : Nat}
    (henabled : d.Enabled (.clientReadable p.clientConn msg c₁ c₂))
    (hident : msg.cm.ident = p.clientMeta) (hgroup : msg.mcGroup = p.mcGroup)
    (hrun : d.step (.clientReadable p.clientConn msg c₁ c₂) = .ok d') :
    d.Advances p ready d' [] := by
  have hinv' : d'.Inv := (h.step henabled).value hrun
  obtain ⟨⟨conn, hconn, hclient⟩, hne, hc₁, hc₂⟩ := henabled
  obtain ⟨writable, hconn'⟩ := hwaits.clientConn
  cases hconn.symm.trans hconn'
  have hasks : d.Asks p.clientConn _ c₁ c₂ := ⟨hconn, hclient, hne, hc₁, hc₂⟩
  unfold step Daemon.processClientReadable at hrun
  simp only [conn_eq hconn, ok_bind, if_true] at hrun
  obtain ⟨_, rfl⟩ := (openGroup_ends ..).value hrun
  have hself {α : Type} (f : McId → Option α) (value : Option α) :
      Function.update f d.mMcId value p.mcId = value := by
    rw [hwaits.next, Function.update_self]
  refine ⟨(List.append_nil _).symm, ⟨hinv', .inr ⟨slots p.clientConn c₁ c₂,
    McMeta.zero.setSender msg.cm, { McState.new with clientState := .handshakeReceived },
    hself .., rfl, ⟨writable, ?_⟩, fun i => ?_, ?_, hself .., hident, hself .., ?_,
    .inl ⟨?_, hwaits.table⟩⟩⟩, ?_, by simp, by simp⟩
  · rw [← hwaits.next]
    exact hasks.client msg.mcGroup
  · obtain ⟨c, hslot, hmember⟩ := hasks.member msg.mcGroup i
    rw [← hwaits.next, ← hgroup]
    exact ⟨c, false, hslot, hmember⟩
  · rw [← hgroup]
    exact hself ..
  · exact fun _ hacked => nomatch hacked
  · exact clientEvents_eq_nil (h.unused hwaits.unused).2.2
  · rintro ⟨_, htable, _⟩
    exact nomatch hwaits.table.symm.trans htable

/-- What a step for a group that exists has to show. -/
theorem Opened.update (h : d.Opened p ready connections mcCmMeta mcState)
    {mcCmMeta' : McMeta} {mcState' : McState}
    (hconnections : d'.multicastConnections = d.multicastConnections)
    (haddrs : d'.multicastAddrs = d.multicastAddrs)
    (hconns : ∀ {c conn}, d.conns c = some conn →
      ∃ writable, d'.conns c = some { conn with writable })
    (hmeta : d'.multicastCmMeta = Function.update d.multicastCmMeta p.mcId (some mcCmMeta'))
    (hsender : mcCmMeta'.senderIdent = p.clientMeta)
    (hstate : d'.multicastState = Function.update d.multicastState p.mcId (some mcState'))
    (hacked : ∀ i, mcState'.serverState i = .handshakeAckSent →
      mcCmMeta'.receiverLocalQpn i = (p.serverMeta i).localQpn ∧ ready i)
    (houtcome : d'.clientEvents p.mcId = [] ∧ d'.table = [] ∨ d'.Done p ready) :
    d'.Opened p ready connections mcCmMeta' mcState' where
  wired := by rw [hconnections, h.wired]
  clientSlot := h.clientSlot
  clientConn := by
    obtain ⟨_, hconn⟩ := h.clientConn
    exact hconns hconn
  member i := by
    obtain ⟨c, _, hslot, hconn⟩ := h.member i
    obtain ⟨writable, hconn'⟩ := hconns hconn
    exact ⟨c, writable, hslot, hconn'⟩
  addrs := by rw [haddrs, h.addrs]
  cmMeta := by rw [hmeta, Function.update_self]
  sender := hsender
  state := by rw [hstate, Function.update_self]
  acked := hacked
  outcome := houtcome

/-- Nothing is written to the table and nothing to the client. -/
theorem Done.congr (h : d.Done p ready) (htable : d'.table = d.table)
    (hevents : d'.clientEvents p.mcId = d.clientEvents p.mcId) : d'.Done p ready := by
  obtain ⟨hready, hadded, msg, hboth⟩ := h
  exact ⟨hready, htable.trans hadded, msg, hevents.trans hboth⟩

theorem Opened.outcome_congr (h : d.Opened p ready connections mcCmMeta mcState)
    (htable : d'.table = d.table) (hevents : d'.clientEvents p.mcId = d.clientEvents p.mcId) :
    d'.clientEvents p.mcId = [] ∧ d'.table = [] ∨ d'.Done p ready := by
  rcases h.outcome with ⟨hnone, hempty⟩ | hdone
  · exact .inl ⟨hevents.trans hnone, htable.trans hempty⟩
  · exact .inr (hdone.congr htable hevents)

/-- A later message of the client is taken for its answer. -/
theorem Opened.clientReadable (h : d.Opened p ready connections mcCmMeta mcState) (hinv : d.Inv)
    {c₁ c₂ : Nat} (henabled : d.Enabled (.clientReadable p.clientConn msg c₁ c₂))
    (hident : msg.cm.ident = p.clientMeta)
    (hrun : d.step (.clientReadable p.clientConn msg c₁ c₂) = .ok d') :
    d.Advances p ready d' [] := by
  have hinv' : d'.Inv := (hinv.step henabled).value hrun
  obtain ⟨writable, hconn⟩ := h.clientConn
  unfold step Daemon.processClientReadable at hrun
  simp only [conn_eq hconn, ok_bind, if_neg p.nonzero, h.state, h.cmMeta, Option.getD_some] at hrun
  split at hrun
  · exact nomatch hrun
  · split at hrun
    · exact nomatch hrun
    · cases hrun
      refine ⟨(List.append_nil _).symm, ⟨hinv', .inr ⟨connections, mcCmMeta.setSender msg.cm,
        { mcState with clientState := .ackReceived }, ?_⟩⟩, ?_, by simp, by simp⟩
      · exact h.update rfl rfl (fun hconn => ⟨_, hconn⟩) rfl hident rfl h.acked
          (h.outcome_congr rfl rfl)
      · exact fun hdone => hdone.congr rfl rfl

/-- The connection of a server of the group. -/
theorem Opened.serves (h : d.Opened p ready connections mcCmMeta mcState) (hinv : d.Inv)
    {i : Fin 2} (hslot : connections i.succ = some c) :
    ∃ writable, d.Serves c ⟨p.mcId, true, memberAddr p.mcGroup i, writable⟩ connections mcState
      i := by
  obtain ⟨mcState', hstate, hok⟩ := hinv.group h.wired
  cases h.state.symm.trans hstate
  obtain ⟨c', writable, hslot', hconn⟩ := h.member i
  cases hslot.symm.trans hslot'
  obtain ⟨c', conn, hslot', hconn', _, _, hprogress⟩ := hok.member i
  cases hslot.symm.trans hslot'
  cases hconn.symm.trans hconn'
  exact ⟨writable, hconn, h.wired, hstate, hok, hslot, rfl, hprogress⟩

/-- The connection to a server becomes writable. -/
theorem Opened.serverWriteable (h : d.Opened p ready connections mcCmMeta mcState) (hinv : d.Inv)
    {i : Fin 2} (hslot : connections i.succ = some c) {answer : Nat → WriteAnswer}
    (henabled : d.Enabled (.serverWriteable c answer))
    (hrun : d.step (.serverWriteable c answer) = .ok d') :
    d.Advances p ready d' [.toServer p.mcId i (mcCmMeta.serverMsg i)] := by
  have hinv' : d'.Inv := (hinv.step henabled).value hrun
  obtain ⟨writable, hserves⟩ := h.serves hinv hslot
  obtain ⟨conn, hconn, _, hfirst⟩ := henabled
  cases hserves.found.symm.trans hconn
  obtain ⟨d₁, hwrite, hmark⟩ := bind_eq_ok hrun
  cases hmark
  cases (hserves.writeable (hserves.received hfirst).1 answer).value hwrite
  have hmeta : (d.multicastCmMeta p.mcId).getD .zero = mcCmMeta := by rw [h.cmMeta]; rfl
  have hlog : ((d.greeted p.mcId mcState i).markWritable c).log =
      d.log ++ [.toServer p.mcId i (mcCmMeta.serverMsg i)] := by
    rw [← hmeta]
    rfl
  have hevents : ((d.greeted p.mcId mcState i).markWritable c).clientEvents p.mcId =
      d.clientEvents p.mcId :=
    clientEvents_of_toServer hlog p.mcId
  refine ⟨hlog, ⟨hinv', .inr ⟨connections, mcCmMeta, { mcState with
    serverState := Function.update mcState.serverState i .handshakeSent }, ?_⟩⟩, ?_, ?_, by simp⟩
  · refine h.update rfl rfl (fun {c' conn'} hconn' => ?_) ?_ h.sender rfl (fun j hacked => ?_)
      (h.outcome_congr rfl hevents)
    · by_cases heq : c' = c
      · subst heq
        exact ⟨true, by simp [markWritable, greeted, setMeta, setState, record, hconn']⟩
      · exact ⟨conn'.writable, (Function.update_of_ne heq ..).trans hconn'⟩
    · rw [← hmeta]
      rfl
    · by_cases hj : j = i
      · subst hj
        simp at hacked
      · exact h.acked j ((Function.update_of_ne hj ..).symm.trans hacked)
  · exact fun hdone => hdone.congr rfl hevents
  · intro mcId j msg hmem
    cases List.mem_singleton.mp hmem
    exact h.sender

/-- The daemon pairs a server with its own number. -/
theorem Opened.acked_setReceiver (h : d.Opened p ready connections mcCmMeta mcState) {i : Fin 2}
    (hqpn : msg.cm.localQpn = (p.serverMeta i).localQpn) (hready : ready i) {j : Fin 2}
    (hacked : Function.update mcState.serverState i .handshakeAckSent j = .handshakeAckSent) :
    (mcCmMeta.setReceiver i msg.cm).receiverLocalQpn j = (p.serverMeta j).localQpn ∧ ready j := by
  by_cases hj : j = i
  · subst hj
    exact ⟨(Function.update_self ..).trans hqpn, hready⟩
  · obtain ⟨hother, hreadyOther⟩ := h.acked j ((Function.update_of_ne hj ..).symm.trans hacked)
    exact ⟨(Function.update_of_ne hj ..).trans hother, hreadyOther⟩

/-- The arguments are those of the group once both servers are known. -/
theorem Opened.groupAdd_eq (h : d.Opened p ready connections mcCmMeta mcState)
    {mcCmMeta' : McMeta} (hsender : mcCmMeta'.senderIdent = p.clientMeta)
    (hqpn : ∀ i, mcCmMeta'.receiverLocalQpn i = (p.serverMeta i).localQpn) {client : Nat}
    (hclient : d.clientConn p.mcId = .ok client) (hconn : d.conns client = some conn) :
    groupAdd p.mcId mcCmMeta' conn.peerAddr ((d.multicastAddrs p.mcId).getD fun _ => ⟨0, 0⟩) =
      p.groupAdd := by
  have hslot : d.clientConn p.mcId = .ok p.clientConn := by
    simp [Daemon.clientConn, h.wired, h.clientSlot]
  cases hslot.symm.trans hclient
  obtain ⟨_, hconn'⟩ := h.clientConn
  cases hconn.symm.trans hconn'
  have hlocal : mcCmMeta'.senderLocalQpn = p.clientMeta.localQpn := by rw [← hsender]; rfl
  simp [groupAdd, Setup.groupAdd, h.addrs, hlocal, hqpn]

/-- The table is written and the client answered. -/
theorem Opened.answered (h : d.Opened p ready connections mcCmMeta mcState) (hinv' : d'.Inv)
    (hnone : d.clientEvents p.mcId = []) {mcCmMeta' : McMeta} {mcState' : McState}
    (hknown : ∀ j, mcCmMeta'.receiverLocalQpn j = (p.serverMeta j).localQpn ∧ ready j)
    (hsender : mcCmMeta'.senderIdent = p.clientMeta)
    (hconnections : d'.multicastConnections = d.multicastConnections)
    (haddrs : d'.multicastAddrs = d.multicastAddrs) (hconns : d'.conns = d.conns)
    (hmeta : d'.multicastCmMeta = Function.update d.multicastCmMeta p.mcId (some mcCmMeta'))
    (hstate : d'.multicastState = Function.update d.multicastState p.mcId (some mcState'))
    (htable : d'.table = multicastGroupAdd p.groupAdd d.table) {i : Fin 2}
    (hlog : d'.log = d.log ++ [.toServer p.mcId i (mcCmMeta'.serverMsg i), .groupAdd p.groupAdd,
      .toClient p.mcId (mcCmMeta'.clientMsg p.mcId)]) :
    ∃ new, d.Advances p ready d' new := by
  have hempty : d.table = [] := by
    rcases h.outcome with ⟨_, hempty⟩ | ⟨_, _, _, hboth⟩
    · exact hempty
    · exact nomatch hnone.symm.trans hboth
  have hdone : d'.Done p ready := by
    refine ⟨fun j => (hknown j).2, ?_, mcCmMeta'.clientMsg p.mcId, ?_⟩
    · rw [htable, hempty]
      exact if_neg p.accepted
    · rw [clientEvents_append hlog, hnone]
      simp [Event.isForClient, Setup.groupAdd]
  refine ⟨_, hlog, ⟨hinv', .inr ⟨connections, mcCmMeta', mcState', ?_⟩⟩, fun _ => hdone, ?_, ?_⟩
  · exact h.update hconnections haddrs (fun {_ conn} hconn => ⟨conn.writable, hconns ▸ hconn⟩)
      hmeta hsender hstate (fun j _ => hknown j) (.inr hdone)
  · intro mcId j msg hmem
    simp only [List.mem_cons, reduceCtorEq, List.not_mem_nil, or_false] at hmem
    cases hmem
    exact hsender
  · intro mcId msg hmem
    simp only [List.mem_cons, reduceCtorEq, List.not_mem_nil, or_false, false_or] at hmem
    cases hmem
    exact ⟨rfl, hdone⟩

/-- A message of a server that describes its own queue pair. -/
theorem Opened.serverReadable (h : d.Opened p ready connections mcCmMeta mcState) (hinv : d.Inv)
    {i : Fin 2} (hslot : connections i.succ = some c) {toServer toClient : Nat → WriteAnswer}
    (henabled : d.Enabled (.serverReadable c msg toServer toClient))
    (hqpn : msg.cm.localQpn = (p.serverMeta i).localQpn) (hready : ready i)
    (hrun : d.step (.serverReadable c msg toServer toClient) = .ok d') :
    ∃ new, d.Advances p ready d' new := by
  have hinv' : d'.Inv := (hinv.step henabled).value hrun
  obtain ⟨writable, hserves⟩ := h.serves hinv hslot
  have heard := (hserves.readable msg toServer toClient).value hrun
  have hmeta : (d.multicastCmMeta p.mcId).getD .zero = mcCmMeta := by rw [h.cmMeta]; rfl
  dsimp only at heard
  rw [hmeta] at heard
  have hsender : (mcCmMeta.setReceiver i msg.cm).senderIdent = p.clientMeta := h.sender
  cases heard with
  | early hinit =>
      refine ⟨[], (List.append_nil _).symm, ⟨hinv', .inr ⟨connections,
        mcCmMeta.setReceiver i msg.cm, mcState, ?_⟩⟩, ?_, by simp, by simp⟩
      · refine h.update rfl rfl (fun hconn => ⟨_, hconn⟩) rfl hsender rfl (fun j hacked => ?_)
          (h.outcome_congr rfl rfl)
        have hne : j ≠ i := by
          rintro rfl
          exact nomatch hinit.symm.trans hacked
        exact h.acked_setReceiver hqpn hready ((Function.update_of_ne hne ..).trans hacked)
      · exact fun hdone => hdone.congr rfl rfl
  | acked hsent hmore =>
      have hevents (mcState' : McState) :
          (((d.setMeta p.mcId (mcCmMeta.setReceiver i msg.cm)).record (.toServer p.mcId i
            ((mcCmMeta.setReceiver i msg.cm).serverMsg i))).setState p.mcId mcState').clientEvents
            p.mcId = d.clientEvents p.mcId :=
        clientEvents_of_toServer rfl p.mcId
      refine ⟨_, rfl, ⟨hinv', .inr ⟨connections, mcCmMeta.setReceiver i msg.cm, { mcState with
        serverState := Function.update mcState.serverState i .handshakeAckSent }, ?_⟩⟩, ?_, ?_,
        by simp⟩
      · exact h.update rfl rfl (fun hconn => ⟨_, hconn⟩) rfl hsender rfl
          (fun j hacked => h.acked_setReceiver hqpn hready hacked)
          (h.outcome_congr rfl (hevents _))
      · exact fun hdone => hdone.congr rfl (hevents _)
      · intro mcId j msg' hmem
        cases List.mem_singleton.mp hmem
        exact hsender
  | @last hsent hall client conn₀ hfound hconn₀ args hargs =>
      obtain ⟨_, hnone⟩ := hserves.group.replied.received (i := i) (by simp [hsent])
      have hknown (j : Fin 2) := h.acked_setReceiver hqpn hready (hall j)
      have hargs' : args = p.groupAdd :=
        hargs.trans (h.groupAdd_eq hsender (fun j => (hknown j).1) hfound hconn₀)
      subst hargs'
      exact h.answered (i := i) hinv' hnone hknown hsender rfl rfl rfl rfl rfl rfl
        (by simp [setState, record, setMeta])

/-- Connection `c` is the one to server `i` of the group. -/
def Wired (p : Setup) (i : Fin 2) (c : Nat) (d : Daemon) : Prop :=
  ∃ connections, d.multicastConnections p.mcId = some connections ∧ connections i.succ = some c

theorem Tracks.opened (h : d.Tracks p ready) {i : Fin 2} (hwired : d.Wired p i c) :
    ∃ connections mcCmMeta mcState, d.Opened p ready connections mcCmMeta mcState ∧
      connections i.succ = some c := by
  obtain ⟨connections, hsome, hslot⟩ := hwired
  rcases h.phase with hwaits | ⟨connections', mcCmMeta, mcState, hopened⟩
  · exact nomatch hwaits.unused.symm.trans hsome
  · cases hsome.symm.trans hopened.wired
    exact ⟨connections, mcCmMeta, mcState, hopened, hslot⟩

theorem Tracks.clientReadable (h : d.Tracks p ready) {c₁ c₂ : Nat}
    (henabled : d.Enabled (.clientReadable p.clientConn msg c₁ c₂))
    (hident : msg.cm.ident = p.clientMeta) (hgroup : msg.mcGroup = p.mcGroup)
    (hrun : d.step (.clientReadable p.clientConn msg c₁ c₂) = .ok d') :
    d.Advances p ready d' [] := by
  rcases h.phase with hwaits | ⟨connections, mcCmMeta, mcState, hopened⟩
  · exact hwaits.clientReadable h.inv henabled hident hgroup hrun
  · exact hopened.clientReadable h.inv henabled hident hrun

end Daemon

end RdmaCapsule.Multicast
