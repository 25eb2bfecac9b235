import RdmaCapsule.Multicast.Daemon

/-! What the daemon keeps true of every group, whatever the clients and servers
of all groups send. A step concerns one group; the invariant of a group speaks
of its own entries, connections and events alone, so the other groups have
nothing to prove. -/
namespace RdmaCapsule.Multicast

open RdmaCapsule.Core RdmaCapsule.Foundation

namespace Event

def group : Event → McId
  | .groupAdd args => args.dqpNum
  | .toClient mcId _ => mcId
  | .toServer mcId _ _ => mcId

def isToServer (mcId : McId) (i : Fin 2) : Event → Bool
  | .toServer mcId' i' _ => mcId' = mcId ∧ i' = i
  | _ => false

def isForClient (mcId : McId) : Event → Bool
  | .groupAdd args => args.dqpNum = mcId
  | .toClient mcId' _ => mcId' = mcId
  | _ => false

theorem isToServer_of_ne {event : Event} {mcId : McId} (h : event.group ≠ mcId) (i : Fin 2) :
    event.isToServer mcId i = false := by
  cases event with
  | groupAdd args => rfl
  | toClient mcId' msg => rfl
  | toServer mcId' i' msg => simpa [isToServer, group] using fun heq => absurd heq h

theorem isForClient_of_ne {event : Event} {mcId : McId} (h : event.group ≠ mcId) :
    event.isForClient mcId = false := by
  cases event with
  | groupAdd args => simpa [isForClient, group] using h
  | toClient mcId' msg => simpa [isForClient, group] using h
  | toServer mcId' i' msg => rfl

end Event

/-- How far a server is, from whether its connection has become writable and how
often it has been written to. -/
def Progress (writable : Bool) (serverState : ServerState) (sends : Nat) : Prop :=
  writable = false ∧ serverState = .init ∧ sends = 0 ∨
    writable = true ∧ (serverState = .handshakeSent ∧ sends = 1 ∨
      serverState = .handshakeAckSent ∧ sends = 2)

/-- How far the client is, from what has been done for it. -/
def Replied (mcId : McId) (mcState : McState) (events : List Event) : Prop :=
  mcState.clientState = .handshakeReceived ∧ events = [] ∨
    (mcState.clientState = .handshakeSent ∨ mcState.clientState = .ackReceived) ∧
      (∀ i, mcState.serverState i = .handshakeAckSent) ∧
      ∃ args msg, args.dqpNum = mcId ∧ events = [.groupAdd args, .toClient mcId msg]

/-- A server that has not been written to twice means that the client has not
been answered. -/
theorem Replied.received {mcId : McId} {mcState : McState} {events : List Event}
    (h : Replied mcId mcState events) {i : Fin 2}
    (hnot : mcState.serverState i ≠ .handshakeAckSent) :
    mcState.clientState = .handshakeReceived ∧ events = [] := by
  rcases h with hreceived | ⟨_, hall, _⟩
  · exact hreceived
  · exact absurd (hall i) hnot

namespace Daemon

def sends (d : Daemon) (mcId : McId) (i : Fin 2) : Nat := d.log.countP (·.isToServer mcId i)

def clientEvents (d : Daemon) (mcId : McId) : List Event := d.log.filter (·.isForClient mcId)

structure GroupOk (d : Daemon) (mcId : McId) (connections : Fin 3 → Option Nat)
    (mcState : McState) : Prop where
  client : ∃ c conn, connections 0 = some c ∧ d.conns c = some conn
  distinct : connections 1 ≠ connections 2
  member : ∀ i : Fin 2, ∃ c conn, connections i.succ = some c ∧ d.conns c = some conn ∧
    conn.isServer = true ∧ conn.mcId = mcId ∧
    Progress conn.writable (mcState.serverState i) (d.sends mcId i)
  replied : Replied mcId mcState (d.clientEvents mcId)

structure Inv (d : Daemon) : Prop where
  unused : ∀ {mcId}, d.multicastConnections mcId = none → d.multicastCmMeta mcId = none ∧
    d.multicastState mcId = none ∧ ∀ event ∈ d.log, event.group ≠ mcId
  fresh : ∀ {mcId}, d.multicastCmMeta mcId = none → d.multicastConnections mcId = none
  group : ∀ {mcId connections}, d.multicastConnections mcId = some connections →
    ∃ mcState, d.multicastState mcId = some mcState ∧ d.GroupOk mcId connections mcState
  server : ∀ {c conn}, d.conns c = some conn → conn.isServer = true →
    ∃ connections, d.multicastConnections conn.mcId = some connections ∧
      ∃ i : Fin 2, connections i.succ = some c

variable {d d' : Daemon} {mcId : McId} {connections : Fin 3 → Option Nat} {mcState : McState}
  {c : Nat} {conn : Conn} {msg : CmMsg}

theorem Inv.start (h : d.Start) : d.Inv where
  unused _ := ⟨h.cmMeta _, h.state _, by simp [h.log]⟩
  fresh _ := h.connections _
  group hsome := nomatch (h.connections _).symm.trans hsome
  server hconn := nomatch (h.conns _).symm.trans hconn

theorem sends_append {new : List Event} (hlog : d'.log = d.log ++ new) (mcId : McId) (i : Fin 2) :
    d'.sends mcId i = d.sends mcId i + new.countP (·.isToServer mcId i) := by
  simp [sends, hlog]

theorem clientEvents_append {new : List Event} (hlog : d'.log = d.log ++ new) (mcId : McId) :
    d'.clientEvents mcId = d.clientEvents mcId ++ new.filter (·.isForClient mcId) := by
  simp [clientEvents, hlog]

/-- A message to a server is not for the client. -/
theorem clientEvents_of_toServer {mcId' : McId} {i : Fin 2}
    (hlog : d'.log = d.log ++ [.toServer mcId' i msg]) (mcId : McId) :
    d'.clientEvents mcId = d.clientEvents mcId :=
  (clientEvents_append hlog mcId).trans (List.append_nil _)

theorem sends_eq_of_append {new : List Event} (hlog : d'.log = d.log ++ new)
    (hnew : ∀ event ∈ new, event.group ≠ mcId) (i : Fin 2) :
    d'.sends mcId i = d.sends mcId i := by
  have hnone : new.countP (·.isToServer mcId i) = 0 :=
    List.countP_eq_zero.mpr fun event hevent => by
      simp [Event.isToServer_of_ne (hnew event hevent)]
  rw [sends_append hlog, hnone, Nat.add_zero]

theorem clientEvents_eq_of_append {new : List Event} (hlog : d'.log = d.log ++ new)
    (hnew : ∀ event ∈ new, event.group ≠ mcId) : d'.clientEvents mcId = d.clientEvents mcId := by
  have hnone : new.filter (·.isForClient mcId) = [] :=
    List.filter_eq_nil_iff.mpr fun event hevent => by
      simp [Event.isForClient_of_ne (hnew event hevent)]
  rw [clientEvents_append hlog, hnone, List.append_nil]

/-- Nothing has been sent for a number without events. -/
theorem sends_eq_zero (h : ∀ event ∈ d.log, event.group ≠ mcId) (i : Fin 2) :
    d.sends mcId i = 0 :=
  sends_eq_of_append (d := { d with log := [] }) (List.nil_append _).symm h i

theorem clientEvents_eq_nil (h : ∀ event ∈ d.log, event.group ≠ mcId) :
    d.clientEvents mcId = [] :=
  clientEvents_eq_of_append (d := { d with log := [] }) (List.nil_append _).symm h

/-- A group whose connections and events are left alone. -/
theorem GroupOk.congr (h : d.GroupOk mcId connections mcState)
    (hconns : ∀ {c conn}, d.conns c = some conn →
      ∃ conn', d'.conns c = some conn' ∧ (conn.isServer = true → conn.mcId = mcId → conn' = conn))
    {new : List Event} (hlog : d'.log = d.log ++ new)
    (hnew : ∀ event ∈ new, event.group ≠ mcId) : d'.GroupOk mcId connections mcState where
  client := by
    obtain ⟨c, conn, hc, hconn⟩ := h.client
    obtain ⟨conn', hconn', _⟩ := hconns hconn
    exact ⟨c, conn', hc, hconn'⟩
  distinct := h.distinct
  member i := by
    obtain ⟨c, conn, hc, hconn, hserver, hid, hprogress⟩ := h.member i
    obtain ⟨conn', hconn', hsame⟩ := hconns hconn
    cases hsame hserver hid
    exact ⟨c, conn, hc, hconn', hserver, hid, by rwa [sends_eq_of_append hlog hnew]⟩
  replied := by
    rw [clientEvents_eq_of_append hlog hnew]
    exact h.replied

/-- A step that concerns one group which exists. -/
theorem Inv.updateGroup (h : d.Inv) (hsome : d.multicastConnections mcId = some connections)
    (hconnections : d'.multicastConnections = d.multicastConnections)
    (hmeta : ∀ mcId', mcId' ≠ mcId → d'.multicastCmMeta mcId' = d.multicastCmMeta mcId')
    (hmetaSome : d'.multicastCmMeta mcId ≠ none)
    (hstate : d'.multicastState = Function.update d.multicastState mcId (some mcState))
    (hkind : ∀ {c conn'}, d'.conns c = some conn' →
      ∃ conn, d.conns c = some conn ∧ conn.isServer = conn'.isServer ∧ conn.mcId = conn'.mcId)
    (hconns : ∀ {c conn}, d.conns c = some conn →
      ∃ conn', d'.conns c = some conn' ∧ (conn.mcId ≠ mcId → conn' = conn))
    {new : List Event} (hlog : d'.log = d.log ++ new) (hnew : ∀ event ∈ new, event.group = mcId)
    (hgroup : d'.GroupOk mcId connections mcState) : d'.Inv := by
  constructor
  · intro mcId' hnone
    rw [hconnections] at hnone
    have hne : mcId' ≠ mcId := by
      rintro rfl
      exact nomatch hnone.symm.trans hsome
    obtain ⟨hnoMeta, hnoState, hevents⟩ := h.unused hnone
    refine ⟨(hmeta mcId' hne).trans hnoMeta, ?_, fun event hevent => ?_⟩
    · rw [hstate, Function.update_of_ne hne, hnoState]
    rw [hlog] at hevent
    rcases List.mem_append.mp hevent with hold | hfresh
    · exact hevents event hold
    · exact fun heq => hne (heq.symm.trans (hnew event hfresh))
  · intro mcId' hnone
    have hne : mcId' ≠ mcId := by
      rintro rfl
      exact hmetaSome hnone
    rw [hconnections]
    exact h.fresh ((hmeta mcId' hne).symm.trans hnone)
  · intro mcId' connections' hsome'
    rw [hconnections] at hsome'
    by_cases hne : mcId' = mcId
    · subst hne
      cases hsome.symm.trans hsome'
      exact ⟨mcState, by rw [hstate, Function.update_self], hgroup⟩
    · obtain ⟨mcState', hstate', hok⟩ := h.group hsome'
      refine ⟨mcState', by rw [hstate, Function.update_of_ne hne, hstate'], ?_⟩
      refine hok.congr (fun hconn => ?_) hlog fun event hevent heq => ?_
      · obtain ⟨conn', hconn', hsame⟩ := hconns hconn
        exact ⟨conn', hconn', fun _ hid => hsame (hid ▸ hne)⟩
      · exact hne (heq.symm.trans (hnew event hevent))
  · intro c conn' hconn' hserver
    obtain ⟨conn, hconn, hkind', hid⟩ := hkind hconn'
    rw [hconnections, ← hid]
    exact h.server hconn (hkind'.trans hserver)

/-- The stops that would be undefined behaviour are excluded. -/
def Sane (stop : Stop) : Prop := stop ≠ .outOfBounds ∧ stop ≠ .nullConnection

theorem GroupOk.getMcIndex (h : d.GroupOk mcId connections mcState)
    (hsome : d.multicastConnections mcId = some connections) {i : Fin 2}
    (hc : connections i.succ = some c) : d.getMcIndex mcId c = .ok i := by
  unfold Daemon.getMcIndex
  rw [hsome]
  match i with
  | 0 => exact if_pos hc
  | 1 =>
      have hne : connections 1 ≠ some c := fun heq => h.distinct (heq.trans hc.symm)
      exact (if_neg hne).trans (if_pos hc)

/-- A server connection, its group and its place in it. -/
structure Serves (d : Daemon) (c : Nat) (conn : Conn) (connections : Fin 3 → Option Nat)
    (mcState : McState) (i : Fin 2) : Prop where
  found : d.conns c = some conn
  wired : d.multicastConnections conn.mcId = some connections
  state : d.multicastState conn.mcId = some mcState
  group : d.GroupOk conn.mcId connections mcState
  place : connections i.succ = some c
  isServer : conn.isServer = true
  progress : Progress conn.writable (mcState.serverState i) (d.sends conn.mcId i)

theorem Inv.serves (h : d.Inv) (hconn : d.conns c = some conn) (hserver : conn.isServer = true) :
    ∃ connections mcState i, d.Serves c conn connections mcState i := by
  obtain ⟨connections, hsome, i, hplace⟩ := h.server hconn hserver
  obtain ⟨mcState, hstate, hok⟩ := h.group hsome
  refine ⟨connections, mcState, i, hconn, hsome, hstate, hok, hplace, hserver, ?_⟩
  obtain ⟨c', conn', hplace', hconn', _, _, hprogress⟩ := hok.member i
  cases hplace.symm.trans hplace'
  cases hconn.symm.trans hconn'
  exact hprogress

/-- Before its connection is writable a server has not been written to, and its
client has not been answered. -/
theorem Serves.received {i : Fin 2} (h : d.Serves c conn connections mcState i)
    (hfirst : conn.writable = false) : mcState.clientState = .handshakeReceived ∧
      d.clientEvents conn.mcId = [] ∧ d.sends conn.mcId i = 0 := by
  have hprogress := h.progress
  rw [hfirst] at hprogress
  obtain ⟨_, hinit, hzero⟩ := hprogress.resolve_right (by simp)
  obtain ⟨hclient, hevents⟩ := h.group.replied.received (i := i) (by simp [hinit])
  exact ⟨hclient, hevents, hzero⟩

theorem Serves.getMcIndex {i : Fin 2} (h : d.Serves c conn connections mcState i) :
    d.getMcIndex conn.mcId c = .ok i :=
  h.group.getMcIndex h.wired h.place

/-- One server of a group moves on, and its client perhaps. -/
theorem Serves.groupOk {i : Fin 2} (h : d.Serves c conn connections mcState i)
    {serverState : ServerState} {clientState : ClientState} {conn' : Conn}
    (hconns : d'.conns = Function.update d.conns c (some conn'))
    (hkind : conn'.isServer = true ∧ conn'.mcId = conn.mcId)
    (hself : Progress conn'.writable serverState (d'.sends conn.mcId i))
    (hother : ∀ j, j ≠ i → d'.sends conn.mcId j = d.sends conn.mcId j)
    (hreplied : Replied conn.mcId ⟨clientState, Function.update mcState.serverState i serverState⟩
      (d'.clientEvents conn.mcId)) :
    d'.GroupOk conn.mcId connections
      ⟨clientState, Function.update mcState.serverState i serverState⟩ where
  client := by
    obtain ⟨c₀, conn₀, hc₀, hconn₀⟩ := h.group.client
    by_cases heq : c₀ = c
    · exact ⟨c₀, conn', hc₀, by rw [hconns, heq, Function.update_self]⟩
    · exact ⟨c₀, conn₀, hc₀, by rw [hconns, Function.update_of_ne heq, hconn₀]⟩
  distinct := h.group.distinct
  member j := by
    by_cases hj : j = i
    · subst hj
      refine ⟨c, conn', h.place, by rw [hconns, Function.update_self], hkind.1, hkind.2, ?_⟩
      dsimp only
      rwa [Function.update_self]
    · obtain ⟨c', conn₀, hplace, hconn₀, hserver, hid, hprogress⟩ := h.group.member j
      have hne : c' ≠ c := by
        rintro rfl
        have hindex := (h.group.getMcIndex h.wired hplace).symm.trans h.getMcIndex
        exact hj (Except.ok.inj hindex)
      refine ⟨c', conn₀, hplace, ?_, hserver, hid, ?_⟩
      · rw [hconns, Function.update_of_ne hne, hconn₀]
      dsimp only
      rwa [Function.update_of_ne hj, hother j hj]
  replied := hreplied

/-- What a callback of a server connection does to the rest of the daemon. -/
theorem Inv.serverStep {i : Fin 2} (h : d.Inv) (hserves : d.Serves c conn connections mcState i)
    {mcState' : McState} {conn' : Conn}
    (hconns : d'.conns = Function.update d.conns c (some conn'))
    (hkind : conn'.isServer = true ∧ conn'.mcId = conn.mcId)
    (hconnections : d'.multicastConnections = d.multicastConnections)
    {mcCmMeta : McMeta}
    (hmeta : d'.multicastCmMeta = Function.update d.multicastCmMeta conn.mcId (some mcCmMeta))
    (hstate : d'.multicastState = Function.update d.multicastState conn.mcId (some mcState'))
    {new : List Event} (hlog : d'.log = d.log ++ new)
    (hnew : ∀ event ∈ new, event.group = conn.mcId)
    (hgroup : d'.GroupOk conn.mcId connections mcState') : d'.Inv := by
  refine h.updateGroup hserves.wired hconnections (fun mcId' hne => ?_) ?_ hstate ?_ ?_ hlog hnew
    hgroup
  · rw [hmeta, Function.update_of_ne hne]
  · simp [hmeta]
  · intro c' conn₁ hconn₁
    rw [hconns] at hconn₁
    by_cases heq : c' = c
    · subst heq
      rw [Function.update_self] at hconn₁
      cases hconn₁
      exact ⟨conn, hserves.found, hserves.isServer.trans hkind.1.symm, hkind.2.symm⟩
    · rw [Function.update_of_ne heq] at hconn₁
      exact ⟨conn₁, hconn₁, rfl, rfl⟩
  · intro c' conn₁ hconn₁
    rw [hconns]
    by_cases heq : c' = c
    · subst heq
      cases hserves.found.symm.trans hconn₁
      exact ⟨conn', Function.update_self .., fun hne => absurd rfl hne⟩
    · exact ⟨conn₁, (Function.update_of_ne heq ..).trans hconn₁, fun _ => rfl⟩

theorem sends_record_self (d : Daemon) (mcId : McId) (i : Fin 2) (msg : CmMsg) :
    (d.record (.toServer mcId i msg)).sends mcId i = d.sends mcId i + 1 := by
  simp [sends, record, Event.isToServer]

theorem sends_record_other (d : Daemon) (mcId : McId) {i j : Fin 2} (hne : j ≠ i) (msg : CmMsg) :
    (d.record (.toServer mcId i msg)).sends mcId j = d.sends mcId j := by
  simp [sends, record, Event.isToServer, hne.symm]

theorem conn_eq (hconn : d.conns c = some conn) : d.conn c = .ok conn := by
  simp [Daemon.conn, hconn]

theorem sendHandshakeToServer_ends {i : Fin 2} (answer : Nat → WriteAnswer) (mcCmMeta : McMeta)
    (hstate : mcState.serverState i = .connected ∨ mcState.serverState i = .handshakeSent) :
    Ends (d.sendHandshakeToServer mcId mcCmMeta mcState i answer)
      (fun d' => d' = d.record (.toServer mcId i (mcCmMeta.serverMsg i))) Sane := by
  unfold sendHandshakeToServer
  rw [if_pos hstate]
  split
  · rfl
  · exact ⟨by simp, by simp⟩

/-- The state of a group after the first message to one of its servers. -/
def greeted (d : Daemon) (mcId : McId) (mcState : McState) (i : Fin 2) : Daemon :=
  let mcCmMeta := (d.multicastCmMeta mcId).getD .zero
  ((d.setMeta mcId mcCmMeta).record (.toServer mcId i (mcCmMeta.serverMsg i))).setState mcId
    { mcState with serverState := Function.update mcState.serverState i .handshakeSent }

theorem Serves.writeable {i : Fin 2} (h : d.Serves c conn connections mcState i)
    (hclient : mcState.clientState = .handshakeReceived) (answer : Nat → WriteAnswer) :
    Ends (d.processServerWriteable c answer) (· = d.greeted conn.mcId mcState i) Sane := by
  unfold Daemon.processServerWriteable
  simp only [conn_eq h.found, ok_bind, h.state, Option.getD_some, h.getMcIndex, hclient, if_true]
  refine (sendHandshakeToServer_ends answer _ (.inl (Function.update_self ..))).bind ?_
  rintro _ rfl
  change _ = _
  rw [Function.update_idem, ← hclient]
  rfl

theorem Inv.serverWriteable (h : d.Inv) (hconn : d.conns c = some conn)
    (hserver : conn.isServer = true) (hfirst : conn.writable = false)
    (answer : Nat → WriteAnswer) :
    Ends (d.step (.serverWriteable c answer)) Inv Sane := by
  obtain ⟨connections, mcState, i, hserves⟩ := h.serves hconn hserver
  obtain ⟨hclient, hevents, hzero⟩ := hserves.received hfirst
  refine (hserves.writeable hclient answer).bind ?_
  rintro _ rfl
  have hconns : ((d.greeted conn.mcId mcState i).markWritable c).conns =
      Function.update d.conns c (some { conn with writable := true }) := by
    simp [greeted, markWritable, setMeta, setState, record, hconn]
  have hgroup : ((d.greeted conn.mcId mcState i).markWritable c).GroupOk conn.mcId connections
      { mcState with serverState := Function.update mcState.serverState i .handshakeSent } := by
    refine hserves.groupOk hconns ⟨hserver, rfl⟩ ?_ (fun j hj => ?_) ?_
    · refine .inr ⟨rfl, .inl ⟨rfl, ?_⟩⟩
      exact (sends_record_self (d.setMeta _ _) conn.mcId i _).trans (by
        rw [show (d.setMeta _ _).sends conn.mcId i = d.sends conn.mcId i from rfl, hzero])
    · exact sends_record_other (d.setMeta _ _) conn.mcId hj _
    · exact .inl ⟨hclient, (clientEvents_of_toServer (d := d) rfl conn.mcId).trans hevents⟩
  exact h.serverStep hserves hconns ⟨hserver, rfl⟩ rfl rfl rfl rfl (by simp [Event.group]) hgroup

/-- What comes of a message of a server, when nothing stops it. -/
inductive Heard (d : Daemon) (mcId : McId) (mcState : McState) (i : Fin 2) (mcCmMeta : McMeta) :
    Daemon → Prop where
  | early (hinit : mcState.serverState i = .init) :
      Heard d mcId mcState i mcCmMeta ((d.setMeta mcId mcCmMeta).setState mcId mcState)
  | acked (hsent : mcState.serverState i = .handshakeSent)
      (hmore : ∃ j, Function.update mcState.serverState i .handshakeAckSent j ≠ .handshakeAckSent) :
      Heard d mcId mcState i mcCmMeta
        (((d.setMeta mcId mcCmMeta).record (.toServer mcId i (mcCmMeta.serverMsg i))).setState mcId
          { mcState with
            serverState := Function.update mcState.serverState i .handshakeAckSent })
  | last (hsent : mcState.serverState i = .handshakeSent)
      (hall : ∀ j, Function.update mcState.serverState i .handshakeAckSent j = .handshakeAckSent)
      {client : Nat} {conn : Conn} (hclient : d.clientConn mcId = .ok client)
      (hconn : d.conns client = some conn) {args : GroupAdd}
      (hargs : args = groupAdd mcId mcCmMeta conn.peerAddr
        ((d.multicastAddrs mcId).getD fun _ => ⟨0, 0⟩)) :
      Heard d mcId mcState i mcCmMeta
        ((({ (d.setMeta mcId mcCmMeta).record (.toServer mcId i (mcCmMeta.serverMsg i)) with
            table := multicastGroupAdd args d.table }.record (.groupAdd args)).record
          (.toClient mcId (mcCmMeta.clientMsg mcId))).setState mcId
            ⟨.handshakeSent, Function.update mcState.serverState i .handshakeAckSent⟩)

theorem Serves.readable {i : Fin 2} (h : d.Serves c conn connections mcState i) (msg : CmMsg)
    (toServer toClient : Nat → WriteAnswer) :
    Ends (d.processServerReadable c msg toServer toClient) (Heard d conn.mcId mcState i
      (((d.multicastCmMeta conn.mcId).getD .zero).setReceiver i msg.cm)) Sane := by
  unfold Daemon.processServerReadable
  simp only [conn_eq h.found, ok_bind, h.state, Option.getD_some, h.getMcIndex]
  generalize ((d.multicastCmMeta conn.mcId).getD .zero).setReceiver i msg.cm = mcCmMeta
  cases hstate : mcState.serverState i with
  | init => exact .early hstate
  | connected => exact ⟨by simp, by simp⟩
  | handshakeAckSent => exact ⟨by simp, by simp⟩
  | error => exact ⟨by simp, by simp⟩
  | handshakeSent =>
      obtain ⟨hreceived, _⟩ := h.group.replied.received (i := i) (by simp [hstate])
      obtain ⟨client, conn₀, hclient, hconn₀⟩ := h.group.client
      refine (sendHandshakeToServer_ends toServer _ (.inr hstate)).bind ?_
      rintro _ rfl
      have hfound : d.clientConn conn.mcId = .ok client := by
        simp [clientConn, h.wired, hclient]
      have hsame : ((d.setMeta conn.mcId mcCmMeta).record
          (.toServer conn.mcId i (mcCmMeta.serverMsg i))).clientConn conn.mcId = .ok client :=
        hfound
      rw [hsame, ok_bind]
      unfold checkAndSendHandshakeToClient
      rw [if_neg (by simp [hreceived])]
      split
      · rename_i hmore
        refine .acked hstate ?_
        rcases hmore with hmore | hmore
        · exact ⟨0, hmore⟩
        · exact ⟨1, hmore⟩
      · rename_i hall
        have hconn₁ : ((d.setMeta conn.mcId mcCmMeta).record
            (.toServer conn.mcId i (mcCmMeta.serverMsg i))).conn client = .ok conn₀ :=
          conn_eq hconn₀
        simp only [hconn₁, ok_bind]
        split
        · refine .last hstate (fun j => ?_) hfound hconn₀ rfl
          match j with
          | 0 => exact not_not.mp fun hne => hall (.inl hne)
          | 1 => exact not_not.mp fun hne => hall (.inr hne)
        · exact ⟨by simp, by simp⟩

theorem Heard.inv {i : Fin 2} {mcCmMeta : McMeta}
    (heard : d.Heard conn.mcId mcState i mcCmMeta d') (h : d.Inv)
    (hserves : d.Serves c conn connections mcState i) : d'.Inv := by
  have hconns : d.conns = Function.update d.conns c (some conn) := by
    rw [← hserves.found, Function.update_eq_self]
  have hkind : conn.isServer = true ∧ conn.mcId = conn.mcId := ⟨hserves.isServer, rfl⟩
  cases heard with
  | early hinit =>
      have hgroup : ((d.setMeta conn.mcId mcCmMeta).setState conn.mcId mcState).GroupOk conn.mcId
          connections mcState :=
        hserves.group.congr (fun hconn => ⟨_, hconn, fun _ _ => rfl⟩) (List.append_nil _).symm
          (by simp)
      exact h.serverStep hserves hconns hkind rfl rfl rfl (List.append_nil _).symm (by simp) hgroup
  | acked hsent hmore =>
      obtain ⟨hclient, hevents⟩ := hserves.group.replied.received (i := i) (by simp [hsent])
      obtain ⟨hwritable, hone⟩ : conn.writable = true ∧ d.sends conn.mcId i = 1 := by
        simpa [Progress, hsent] using hserves.progress
      refine h.serverStep hserves hconns hkind rfl rfl rfl rfl (by simp [Event.group]) ?_
      refine hserves.groupOk hconns hkind (.inr ⟨hwritable, .inr ⟨rfl, ?_⟩⟩) (fun j hj => ?_)
        (.inl ⟨hclient, ?_⟩)
      · exact (sends_record_self (d.setMeta conn.mcId mcCmMeta) conn.mcId i _).trans
          (congrArg (· + 1) hone)
      · exact sends_record_other (d.setMeta conn.mcId mcCmMeta) conn.mcId hj _
      · exact (clientEvents_of_toServer (d := d) rfl conn.mcId).trans hevents
  | @last hsent hall client conn₀ hfound hconn₀ args hargs =>
      obtain ⟨_, hevents⟩ := hserves.group.replied.received (i := i) (by simp [hsent])
      obtain ⟨hwritable, hone⟩ : conn.writable = true ∧ d.sends conn.mcId i = 1 := by
        simpa [Progress, hsent] using hserves.progress
      have hid : args.dqpNum = conn.mcId := by rw [hargs]; rfl
      have hlog : d.log ++ [Event.toServer conn.mcId i (mcCmMeta.serverMsg i)] ++
          [Event.groupAdd args] ++ [Event.toClient conn.mcId (mcCmMeta.clientMsg conn.mcId)] =
          d.log ++ [Event.toServer conn.mcId i (mcCmMeta.serverMsg i), Event.groupAdd args,
            Event.toClient conn.mcId (mcCmMeta.clientMsg conn.mcId)] := by simp
      refine h.serverStep hserves hconns hkind rfl rfl rfl hlog (by simp [Event.group, hid]) ?_
      refine hserves.groupOk hconns hkind (.inr ⟨hwritable, .inr ⟨rfl, ?_⟩⟩) (fun j hj => ?_)
        (.inr ⟨.inl rfl, hall, args, mcCmMeta.clientMsg conn.mcId, hid, ?_⟩)
      · rw [sends_append hlog, hone]
        simp [Event.isToServer]
      · rw [sends_append hlog]
        simp [Event.isToServer, hj.symm]
      · rw [clientEvents_append hlog, hevents]
        simp [Event.isForClient, hid]

theorem Inv.serverReadable (h : d.Inv) (hconn : d.conns c = some conn)
    (hserver : conn.isServer = true) (msg : CmMsg) (toServer toClient : Nat → WriteAnswer) :
    Ends (d.processServerReadable c msg toServer toClient) Inv Sane := by
  obtain ⟨connections, mcState, i, hserves⟩ := h.serves hconn hserver
  exact (hserves.readable msg toServer toClient).mono (fun _ heard => heard.inv h hserves)
    fun _ hstop => hstop

theorem Inv.accept (h : d.Inv) (hfree : d.conns c = none) (peerAddr : EntityAddr) :
    (d.accept c peerAddr).Inv := by
  have hother {c' : Nat} {conn : Conn} (hconn : d.conns c' = some conn) :
      (d.accept c peerAddr).conns c' = some conn := by
    have hne : c' ≠ c := by
      rintro rfl
      exact nomatch hfree.symm.trans hconn
    exact (Function.update_of_ne hne ..).trans hconn
  refine ⟨h.unused, h.fresh, fun hsome => ?_, fun {c' conn} hconn hserver => ?_⟩
  · obtain ⟨mcState, hstate, hok⟩ := h.group hsome
    refine ⟨mcState, hstate, ?_⟩
    exact hok.congr (fun hconn => ⟨_, hother hconn, fun _ _ => rfl⟩) (List.append_nil _).symm
      (by simp)
  · by_cases heq : c' = c
    · subst heq
      cases (Function.update_self ..).symm.trans hconn
      exact nomatch hserver
    · exact h.server ((Function.update_of_ne heq ..).symm.trans hconn) hserver

theorem Inv.clientAck (h : d.Inv) (hsome : d.multicastConnections mcId = some connections)
    (hstate : d.multicastState mcId = some mcState)
    (hsent : mcState.clientState = .handshakeSent) (mcCmMeta : McMeta) :
    ((d.setMeta mcId mcCmMeta).setState mcId { mcState with clientState := .ackReceived }).Inv := by
  obtain ⟨mcState', hstate', hok⟩ := h.group hsome
  cases hstate.symm.trans hstate'
  refine h.updateGroup hsome rfl (fun mcId' hne => Function.update_of_ne hne ..) ?_ rfl
    (fun hconn => ⟨_, hconn, rfl, rfl⟩) (fun hconn => ⟨_, hconn, fun _ => rfl⟩)
    (List.append_nil _).symm (by simp) ?_
  · simp [setMeta, setState]
  · refine ⟨hok.client, hok.distinct, hok.member, .inr ⟨.inr rfl, ?_⟩⟩
    rcases hok.replied with ⟨hreceived, _⟩ | ⟨_, hrest⟩
    · exact nomatch hsent.symm.trans hreceived
    · exact hrest

/-- The addresses of the two members. -/
def memberAddr (mcGroup : McGroup) : Fin 2 → EntityAddr
  | 0 => ⟨mcGroup.ipAddrMember1, mcGroup.portMember1⟩
  | 1 => ⟨mcGroup.ipAddrMember2, mcGroup.portMember2⟩

/-- The connections of a new group. -/
def slots (c c₁ c₂ : Nat) : Fin 3 → Option Nat
  | 0 => some c
  | 1 => some c₁
  | 2 => some c₂

def openedConns (d : Daemon) (c : Nat) (conn : Conn) (mcGroup : McGroup) (c₁ c₂ : Nat) :
    Nat → Option Conn :=
  Function.update (Function.update (Function.update d.conns c (some { conn with mcId := d.mMcId }))
    c₁ (some ⟨d.mMcId, true, memberAddr mcGroup 0, false⟩))
    c₂ (some ⟨d.mMcId, true, memberAddr mcGroup 1, false⟩)

/-- The daemon after the first message of a client. -/
def opened (d : Daemon) (c : Nat) (conn : Conn) (msg : CmMsg) (c₁ c₂ : Nat) : Daemon :=
  { d with
    mMcId := d.mMcId + 1
    conns := d.openedConns c conn msg.mcGroup c₁ c₂
    multicastCmMeta := Function.update d.multicastCmMeta d.mMcId
      (some (McMeta.zero.setSender msg.cm))
    multicastState := Function.update d.multicastState d.mMcId
      (some { McState.new with clientState := .handshakeReceived })
    multicastConnections := Function.update d.multicastConnections d.mMcId (some (slots c c₁ c₂))
    multicastAddrs := Function.update d.multicastAddrs d.mMcId (some (memberAddr msg.mcGroup)) }

theorem openGroup_ends (d : Daemon) (c : Nat) (conn : Conn) (msg : CmMsg) (c₁ c₂ : Nat) :
    Ends (d.openGroup c conn msg c₁ c₂)
      (fun d' => d.multicastCmMeta d.mMcId = none ∧ d' = d.opened c conn msg c₁ c₂) Sane := by
  unfold Daemon.openGroup
  dsimp only
  split
  · exact ⟨by simp, by simp⟩
  · rename_i hunused
    exact ⟨by simpa using hunused, rfl⟩

/-- A client asks for a group, and `c₁` and `c₂` are the names of no connection. -/
structure Asks (d : Daemon) (c : Nat) (conn : Conn) (c₁ c₂ : Nat) : Prop where
  found : d.conns c = some conn
  isClient : conn.isServer = false
  distinct : c₁ ≠ c₂
  free₁ : d.conns c₁ = none
  free₂ : d.conns c₂ = none

section Asks

variable {c₁ c₂ : Nat} (h : d.Asks c conn c₁ c₂) (mcGroup : McGroup)

include h

theorem Asks.known {c' : Nat} {conn' : Conn} (hconn' : d.conns c' = some conn') :
    c' ≠ c₁ ∧ c' ≠ c₂ := by
  constructor
  · rintro rfl
    exact nomatch h.free₁.symm.trans hconn'
  · rintro rfl
    exact nomatch h.free₂.symm.trans hconn'

theorem Asks.client : d.openedConns c conn mcGroup c₁ c₂ c =
    some { conn with mcId := d.mMcId } := by
  obtain ⟨hne₁, hne₂⟩ := h.known h.found
  rw [openedConns, Function.update_of_ne hne₂, Function.update_of_ne hne₁, Function.update_self]

theorem Asks.member (i : Fin 2) : ∃ c', slots c c₁ c₂ i.succ = some c' ∧
    d.openedConns c conn mcGroup c₁ c₂ c' = some ⟨d.mMcId, true, memberAddr mcGroup i, false⟩ := by
  match i with
  | 0 =>
      refine ⟨c₁, rfl, ?_⟩
      rw [openedConns, Function.update_of_ne h.distinct, Function.update_self]
  | 1 => exact ⟨c₂, rfl, Function.update_self ..⟩

theorem Asks.old {c' : Nat} {conn' : Conn} (hconn' : d.conns c' = some conn') (hc' : c' ≠ c) :
    d.openedConns c conn mcGroup c₁ c₂ c' = some conn' := by
  obtain ⟨hne₁, hne₂⟩ := h.known hconn'
  rw [openedConns, Function.update_of_ne hne₂, Function.update_of_ne hne₁,
    Function.update_of_ne hc', hconn']

/-- The new connections are told apart from each other and from the old ones. -/
theorem Asks.cases {c' : Nat} {conn' : Conn}
    (hconn' : d.openedConns c conn mcGroup c₁ c₂ c' = some conn') :
    (∃ i : Fin 2, slots c c₁ c₂ i.succ = some c' ∧ conn'.mcId = d.mMcId) ∨
      conn'.isServer = false ∨ d.conns c' = some conn' := by
  by_cases hold : ∃ conn₀, d.conns c' = some conn₀
  · obtain ⟨conn₀, hconn₀⟩ := hold
    by_cases hc' : c' = c
    · subst hc'
      cases (h.client mcGroup).symm.trans hconn'
      exact .inr (.inl h.isClient)
    · cases (h.old mcGroup hconn₀ hc').symm.trans hconn'
      exact .inr (.inr hconn₀)
  · unfold openedConns at hconn'
    by_cases h₂ : c' = c₂
    · subst h₂
      rw [Function.update_self] at hconn'
      cases hconn'
      exact .inl ⟨1, rfl, rfl⟩
    · rw [Function.update_of_ne h₂] at hconn'
      by_cases h₁ : c' = c₁
      · subst h₁
        rw [Function.update_self] at hconn'
        cases hconn'
        exact .inl ⟨0, rfl, rfl⟩
      · have hc' : c' ≠ c := fun heq => hold ⟨conn, heq ▸ h.found⟩
        rw [Function.update_of_ne h₁, Function.update_of_ne hc'] at hconn'
        exact absurd ⟨conn', hconn'⟩ hold

/-- The new group is where a group begins. -/
theorem Asks.groupOk (msg : CmMsg) (hevents : ∀ event ∈ d.log, event.group ≠ d.mMcId) :
    (d.opened c conn msg c₁ c₂).GroupOk d.mMcId (slots c c₁ c₂)
      { McState.new with clientState := .handshakeReceived } where
  client := ⟨c, _, rfl, h.client msg.mcGroup⟩
  distinct heq := h.distinct (Option.some.inj heq)
  member i := by
    obtain ⟨c', hslot, hconn'⟩ := h.member msg.mcGroup i
    exact ⟨c', _, hslot, hconn', rfl, rfl, .inl ⟨rfl, rfl, sends_eq_zero hevents i⟩⟩
  replied := .inl ⟨rfl, clientEvents_eq_nil hevents⟩

end Asks

theorem Inv.opened (h : d.Inv) {c₁ c₂ : Nat} (hasks : d.Asks c conn c₁ c₂)
    (hnoMeta : d.multicastCmMeta d.mMcId = none) (msg : CmMsg) :
    (d.opened c conn msg c₁ c₂).Inv := by
  have hnone := h.fresh hnoMeta
  have hself : (d.opened c conn msg c₁ c₂).multicastConnections d.mMcId =
      some (slots c c₁ c₂) := Function.update_self ..
  refine ⟨fun {mcId} hnone' => ?_, fun {mcId} hnoMeta' => ?_, fun {mcId connections} hsome => ?_,
    fun {c' conn'} hconn' hserver => ?_⟩
  · have hid : mcId ≠ d.mMcId := by
      rintro rfl
      exact nomatch hself.symm.trans hnone'
    obtain ⟨hmeta, hstate, hlog⟩ := h.unused ((Function.update_of_ne hid ..).symm.trans hnone')
    exact ⟨(Function.update_of_ne hid ..).trans hmeta, (Function.update_of_ne hid ..).trans hstate,
      hlog⟩
  · have hid : mcId ≠ d.mMcId := by
      rintro rfl
      exact nomatch (Function.update_self ..).symm.trans hnoMeta'
    exact (Function.update_of_ne hid ..).trans
      (h.fresh ((Function.update_of_ne hid ..).symm.trans hnoMeta'))
  · by_cases hid : mcId = d.mMcId
    · subst hid
      cases hself.symm.trans hsome
      exact ⟨_, Function.update_self .., hasks.groupOk msg (h.unused hnone).2.2⟩
    · obtain ⟨mcState, hstate, hok⟩ := h.group ((Function.update_of_ne hid ..).symm.trans hsome)
      refine ⟨mcState, (Function.update_of_ne hid ..).trans hstate, ?_⟩
      refine hok.congr (fun {c' conn'} hconn' => ?_) (List.append_nil _).symm (by simp)
      by_cases hc' : c' = c
      · subst hc'
        cases hasks.found.symm.trans hconn'
        exact ⟨_, hasks.client _, fun hserver => nomatch hasks.isClient.symm.trans hserver⟩
      · exact ⟨conn', hasks.old _ hconn' hc', fun _ _ => rfl⟩
  · rcases hasks.cases _ hconn' with ⟨i, hslot, hid⟩ | hclient | hold
    · exact ⟨_, hid ▸ Function.update_self .., i, hslot⟩
    · exact nomatch hclient.symm.trans hserver
    · obtain ⟨connections, hsome, hplace⟩ := h.server hold hserver
      have hid : conn'.mcId ≠ d.mMcId := by
        intro heq
        rw [heq] at hsome
        exact nomatch hnone.symm.trans hsome
      exact ⟨connections, (Function.update_of_ne hid ..).trans hsome, hplace⟩

theorem Inv.clientReadable (h : d.Inv) {c₁ c₂ : Nat} (hasks : d.Asks c conn c₁ c₂) (msg : CmMsg) :
    Ends (d.processClientReadable c msg c₁ c₂) Inv Sane := by
  unfold processClientReadable
  rw [conn_eq hasks.found, ok_bind]
  split
  · refine (openGroup_ends d c conn msg c₁ c₂).mono ?_ fun _ => id
    rintro d' ⟨hnoMeta, rfl⟩
    exact h.opened hasks hnoMeta msg
  · dsimp only
    split
    · exact ⟨by simp, by simp⟩
    · rename_i hsent
      split
      · exact ⟨by simp, by simp⟩
      · cases hstate : d.multicastState conn.mcId with
        | none => simp [hstate, McState.new] at hsent
        | some mcState =>
            rw [hstate] at hsent
            cases hsome : d.multicastConnections conn.mcId with
            | none => exact nomatch (h.unused hsome).2.1.symm.trans hstate
            | some connections => exact h.clientAck hsome hstate (not_not.mp hsent) _

theorem Inv.step (h : d.Inv) {op : Op} (henabled : d.Enabled op) : Ends (d.step op) Inv Sane := by
  cases op with
  | accept c peerAddr => exact h.accept henabled peerAddr
  | clientReadable c msg c₁ c₂ =>
      obtain ⟨⟨conn, hconn, hclient⟩, hne, hc₁, hc₂⟩ := henabled
      exact h.clientReadable ⟨hconn, hclient, hne, hc₁, hc₂⟩ msg
  | clientWriteable c => exact h
  | serverReadable c msg toServer toClient =>
      obtain ⟨conn, hconn, hserver⟩ := henabled
      exact h.serverReadable hconn hserver msg toServer toClient
  | serverWriteable c answer =>
      obtain ⟨conn, hconn, hserver, hfirst⟩ := henabled
      exact h.serverWriteable hconn hserver hfirst answer

theorem inv_of_reachable (h : machine.Reachable d) : d.Inv :=
  h.invariant (fun _ hstart => .start hstart)
    fun _ _ _ _ hinv henabled hrun => (hinv.step henabled).value hrun

/-- The group that an operation is for; a client without a group opens the next
one. -/
def opGroup (d : Daemon) : Op → Option McId
  | .accept _ _ => none
  | .clientReadable c _ _ _ => (d.conns c).map fun conn =>
      if conn.mcId = 0 then d.mMcId else conn.mcId
  | .clientWriteable _ => none
  | .serverReadable c _ _ _ => (d.conns c).map (·.mcId)
  | .serverWriteable c _ => (d.conns c).map (·.mcId)

/-- All that belongs to a group is as before. Number 0 at the connection of a
client stands for no group. -/
structure SameGroup (mcId : McId) (d d' : Daemon) : Prop where
  state : d'.multicastState mcId = d.multicastState mcId
  cmMeta : d'.multicastCmMeta mcId = d.multicastCmMeta mcId
  connections : d'.multicastConnections mcId = d.multicastConnections mcId
  addrs : d'.multicastAddrs mcId = d.multicastAddrs mcId
  conns : ∀ {c conn}, d.conns c = some conn → conn.mcId = mcId →
    conn.mcId ≠ 0 ∨ conn.isServer = true → d'.conns c = some conn
  events : d'.log.filter (·.group = mcId) = d.log.filter (·.group = mcId)

theorem SameGroup.refl (mcId : McId) (d : Daemon) : SameGroup mcId d d :=
  ⟨rfl, rfl, rfl, rfl, fun hconn _ _ => hconn, rfl⟩

theorem SameGroup.setState (h : SameGroup mcId d d') {mcId' : McId} (hne : mcId ≠ mcId')
    (mcState : McState) : SameGroup mcId d (d'.setState mcId' mcState) :=
  { h with state := (Function.update_of_ne hne ..).trans h.state }

theorem SameGroup.setMeta (h : SameGroup mcId d d') {mcId' : McId} (hne : mcId ≠ mcId')
    (mcCmMeta : McMeta) : SameGroup mcId d (d'.setMeta mcId' mcCmMeta) :=
  { h with cmMeta := (Function.update_of_ne hne ..).trans h.cmMeta }

theorem SameGroup.record (h : SameGroup mcId d d') (event : Event) (hne : mcId ≠ event.group) :
    SameGroup mcId d (d'.record event) := by
  refine { h with events := ?_ }
  simp [Daemon.record, h.events, hne.symm]

theorem SameGroup.setTable (h : SameGroup mcId d d') (table : List GroupAdd) :
    SameGroup mcId d { d' with table } :=
  { h with }

theorem SameGroup.markWritable (h : SameGroup mcId d d') (hconn : d.conns c = some conn)
    (hne : mcId ≠ conn.mcId) : SameGroup mcId d (d'.markWritable c) := by
  refine { h with conns := fun {c' conn'} hconn' hid hgroup => ?_ }
  have heq : c' ≠ c := by
    rintro rfl
    cases hconn.symm.trans hconn'
    exact hne hid.symm
  exact (Function.update_of_ne heq ..).trans (h.conns hconn' hid hgroup)

theorem Heard.sameGroup {mcId' : McId} {i : Fin 2} {mcCmMeta : McMeta}
    (heard : d.Heard mcId' mcState i mcCmMeta d') (hne : mcId ≠ mcId') :
    SameGroup mcId d d' := by
  have hmeta := (SameGroup.refl mcId d).setMeta hne mcCmMeta
  cases heard with
  | early => exact hmeta.setState hne _
  | acked => exact (hmeta.record (.toServer mcId' i _) hne).setState hne _
  | last hsent hall hclient hconn hargs =>
      refine SameGroup.setState ?_ hne _
      refine SameGroup.record ?_ _ hne
      refine SameGroup.record ?_ _ (by rw [hargs]; exact hne)
      exact (hmeta.record (.toServer mcId' i _) hne).setTable _

theorem Asks.sameGroup {c₁ c₂ : Nat} (h : d.Asks c conn c₁ c₂) (hnew : conn.mcId = 0)
    (hne : mcId ≠ d.mMcId) (msg : CmMsg) : SameGroup mcId d (d.opened c conn msg c₁ c₂) := by
  refine ⟨Function.update_of_ne hne .., Function.update_of_ne hne .., Function.update_of_ne hne ..,
    Function.update_of_ne hne .., fun {c' conn'} hconn' _ hgroup => ?_, rfl⟩
  have hc' : c' ≠ c := by
    rintro rfl
    cases h.found.symm.trans hconn'
    rcases hgroup with hid | hserver
    · exact hid hnew
    · exact nomatch h.isClient.symm.trans hserver
  exact h.old _ hconn' hc'

theorem Asks.clientReadable_sameGroup {c₁ c₂ : Nat} (h : d.Asks c conn c₁ c₂)
    (hne : mcId ≠ if conn.mcId = 0 then d.mMcId else conn.mcId)
    (hrun : d.processClientReadable c msg c₁ c₂ = .ok d') : SameGroup mcId d d' := by
  unfold Daemon.processClientReadable at hrun
  rw [conn_eq h.found, ok_bind] at hrun
  split at hrun
  · rename_i hnew
    rw [if_pos hnew] at hne
    rw [((openGroup_ends d c conn msg c₁ c₂).value hrun).2]
    exact h.sameGroup hnew hne msg
  · rename_i hold
    rw [if_neg hold] at hne
    dsimp only at hrun
    split at hrun
    · exact nomatch hrun
    · split at hrun
      · exact nomatch hrun
      · cases hrun
        exact ((SameGroup.refl mcId d).setMeta hne _).setState hne _

/-- A new connection belongs to no group. -/
theorem accept_sameGroup (hfree : d.conns c = none) (peerAddr : EntityAddr) :
    SameGroup mcId d (d.accept c peerAddr) := by
  refine ⟨rfl, rfl, rfl, rfl, fun {c' conn'} hconn' _ _ => ?_, rfl⟩
  have hc' : c' ≠ c := by
    rintro rfl
    exact nomatch hfree.symm.trans hconn'
  exact (Function.update_of_ne hc' ..).trans hconn'

/-- A step for one group leaves every other group alone. -/
theorem Inv.sameGroup (h : d.Inv) {op : Op} (henabled : d.Enabled op)
    (hrun : d.step op = .ok d') (hne : d.opGroup op ≠ some mcId) : SameGroup mcId d d' := by
  cases op with
  | accept c peerAddr =>
      cases hrun
      exact accept_sameGroup henabled peerAddr
  | clientReadable c msg c₁ c₂ =>
      obtain ⟨⟨conn, hconn, hclient⟩, hdistinct, hc₁, hc₂⟩ := henabled
      have hasks : d.Asks c conn c₁ c₂ := ⟨hconn, hclient, hdistinct, hc₁, hc₂⟩
      refine hasks.clientReadable_sameGroup (fun heq => hne ?_) hrun
      simp [opGroup, hconn, heq]
  | clientWriteable c =>
      cases hrun
      exact .refl mcId d
  | serverReadable c msg toServer toClient =>
      obtain ⟨conn, hconn, hserver⟩ := henabled
      obtain ⟨connections, mcState, i, hserves⟩ := h.serves hconn hserver
      have heard := (hserves.readable msg toServer toClient).value hrun
      exact heard.sameGroup fun heq => hne (by simp [opGroup, hconn, heq])
  | serverWriteable c answer =>
      obtain ⟨conn, hconn, hserver, hfirst⟩ := henabled
      obtain ⟨connections, mcState, i, hserves⟩ := h.serves hconn hserver
      have hother : mcId ≠ conn.mcId := fun heq => hne (by simp [opGroup, hconn, heq])
      obtain ⟨d₁, hwrite, hmark⟩ := bind_eq_ok hrun
      cases hmark
      rw [(hserves.writeable (hserves.received hfirst).1 answer).value hwrite]
      refine SameGroup.markWritable ?_ hconn hother
      exact (((SameGroup.refl mcId d).setMeta hother _).record (.toServer conn.mcId i _)
        hother).setState hother _

theorem Inv.clientEvents (h : d.Inv) (mcId : McId) : d.clientEvents mcId = [] ∨
    ∃ args msg, args.dqpNum = mcId ∧
      d.clientEvents mcId = [.groupAdd args, .toClient mcId msg] := by
  cases hsome : d.multicastConnections mcId with
  | none => exact .inl (clientEvents_eq_nil (h.unused hsome).2.2)
  | some connections =>
      obtain ⟨mcState, _, hok⟩ := h.group hsome
      rcases hok.replied with ⟨_, hnone⟩ | ⟨_, _, hboth⟩
      · exact .inl hnone
      · exact .inr hboth

theorem Inv.handshakeAckSent (h : d.Inv) (hstate : d.multicastState mcId = some mcState)
    (hclient : mcState.clientState = .handshakeSent ∨ mcState.clientState = .ackReceived)
    (i : Fin 2) : mcState.serverState i = .handshakeAckSent := by
  cases hsome : d.multicastConnections mcId with
  | none => exact nomatch (h.unused hsome).2.1.symm.trans hstate
  | some connections =>
      obtain ⟨mcState', hstate', hok⟩ := h.group hsome
      cases hstate.symm.trans hstate'
      rcases hok.replied with ⟨hreceived, _⟩ | ⟨_, hall, _⟩
      · rw [hreceived] at hclient
        exact nomatch hclient
      · exact hall i

/-- A daemon without connections that will call its first group 5. -/
def idle : Daemon where
  mMcId := 5
  conns _ := none
  multicastCmMeta _ := none
  multicastState _ := none
  multicastConnections _ := none
  multicastAddrs _ := none
  table := []
  log := []

theorem idle_start : idle.Start :=
  ⟨fun _ => rfl, fun _ => rfl, fun _ => rfl, fun _ => rfl, fun _ => rfl, rfl, rfl⟩

/-- A message that describes queue pair `qpn`. -/
def greeting (qpn : UInt32) : CmMsg :=
  ⟨⟨0, qpn, 3, 0, Vector.replicate 16 0⟩, ⟨1, 7000, 2, 7001⟩⟩

end Daemon

end RdmaCapsule.Multicast
