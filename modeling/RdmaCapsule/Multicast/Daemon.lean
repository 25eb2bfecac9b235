import RdmaCapsule.Core.Endpoint
import RdmaCapsule.Foundation.Machine

/-! `MulticastDaemon`: for each client it opens connections to the two members
of a group, shakes hands with both on behalf of the client, writes the group to
the switch table and answers the client. Callbacks are atomic and each message
is read whole. Connections are named by numbers that stand for their addresses;
none is ever deleted. -/
namespace RdmaCapsule.Multicast

open RdmaCapsule.Core RdmaCapsule.Foundation

abbrev McId := UInt32

/-- The members of a group are numbered by `Fin 2`, its connections by `Fin 3`. -/
instance neZeroTwo : NeZero 2 := ⟨by decide⟩

instance neZeroThree : NeZero 3 := ⟨by decide⟩

inductive ClientState where
  | init
  | handshakeReceived
  | handshakeSent
  | ackReceived
  | error
  deriving DecidableEq, Repr

inductive ServerState where
  | init
  | connected
  | handshakeSent
  | handshakeAckSent
  | error
  deriving DecidableEq, Repr

structure McState where
  clientState : ClientState
  serverState : Fin 2 → ServerState

def McState.new : McState := ⟨.init, fun _ => .init⟩

/-- The address and port of `entity_addr_t`; the address is in network order. -/
structure EntityAddr where
  sAddr : UInt32
  port : UInt16
  deriving DecidableEq, Repr

def htonl (v : UInt32) : UInt32 :=
  v <<< (24 : UInt32) ||| (v <<< (8 : UInt32) &&& (0xff0000 : UInt32)) |||
    (v >>> (8 : UInt32) &&& (0xff00 : UInt32)) ||| v >>> (24 : UInt32)

/-- `multicast_cm_meta_t`. -/
structure McMeta where
  senderLid : UInt16
  senderLocalQpn : UInt32
  senderPsn : UInt32
  senderPeerQpn : UInt32
  receiverLid : Fin 2 → UInt16
  receiverLocalQpn : Fin 2 → UInt32
  receiverPsn : Fin 2 → UInt32
  receiverPeerQpn : Fin 2 → UInt32
  senderGid : Gid
  receiverGid : Fin 2 → Gid

namespace McMeta

def zero : McMeta :=
  ⟨0, 0, 0, 0, fun _ => 0, fun _ => 0, fun _ => 0, fun _ => 0, Vector.replicate 16 0,
    fun _ => Vector.replicate 16 0⟩

/-- `sscanf` of a message of the client. -/
def setSender (mcCmMeta : McMeta) (cm : CmMeta) : McMeta :=
  { mcCmMeta with
    senderLid := cm.lid
    senderLocalQpn := cm.localQpn
    senderPsn := cm.psn
    senderPeerQpn := cm.peerQpn
    senderGid := cm.gid }

/-- `sscanf` of a message of a server. -/
def setReceiver (mcCmMeta : McMeta) (index : Fin 2) (cm : CmMeta) : McMeta :=
  { mcCmMeta with
    receiverLid := Function.update mcCmMeta.receiverLid index cm.lid
    receiverLocalQpn := Function.update mcCmMeta.receiverLocalQpn index cm.localQpn
    receiverPsn := Function.update mcCmMeta.receiverPsn index cm.psn
    receiverPeerQpn := Function.update mcCmMeta.receiverPeerQpn index cm.peerQpn
    receiverGid := Function.update mcCmMeta.receiverGid index cm.gid }

/-- The message of `send_handshake_to_server`. -/
def serverMsg (mcCmMeta : McMeta) (i : Fin 2) : CmMsg where
  cm := ⟨mcCmMeta.senderLid, mcCmMeta.senderLocalQpn, mcCmMeta.senderPsn,
    mcCmMeta.receiverLocalQpn i, mcCmMeta.senderGid⟩
  mcGroup := ⟨mcCmMeta.senderLocalQpn, mcCmMeta.senderLid, mcCmMeta.senderLocalQpn,
    mcCmMeta.senderLid⟩

/-- The message of `check_and_send_handshake_to_client`. -/
def clientMsg (mcCmMeta : McMeta) (mcId : McId) : CmMsg where
  cm := ⟨mcCmMeta.receiverLid 0, mcId, mcCmMeta.senderPsn, mcCmMeta.senderLocalQpn,
    mcCmMeta.receiverGid 1⟩
  mcGroup := ⟨mcCmMeta.senderPsn, mcCmMeta.receiverLid 0, mcCmMeta.senderPsn,
    mcCmMeta.receiverLid 0⟩

end McMeta

/-- The arguments of `multicast_group_add`. -/
structure GroupAdd where
  srcAddr : UInt32
  dqpNum : UInt32
  sqpNum : UInt32
  dstAddr1 : UInt32
  dqp1 : UInt32
  dstAddr2 : UInt32
  dqp2 : UInt32
  deriving DecidableEq, Repr

/-- `SwitchTableWritter::multicast_group_add` on the rules of the switch. -/
def multicastGroupAdd (args : GroupAdd) (table : List GroupAdd) : List GroupAdd :=
  if args.dqpNum = 2 then table else table ++ [args]

structure Conn where
  mcId : McId
  /-- Whether its callbacks are those of a server connection. -/
  isServer : Bool
  peerAddr : EntityAddr
  /-- Whether its writable callback has been run. -/
  writable : Bool
  deriving DecidableEq, Repr

/-- What the daemon does for others to see. -/
inductive Event where
  | groupAdd (args : GroupAdd)
  | toClient (mcId : McId) (msg : CmMsg)
  | toServer (mcId : McId) (i : Fin 2) (msg : CmMsg)
  deriving DecidableEq, Repr

inductive Stop where
  | kassertCmMeta
  | kassertConnections
  | kassertClientState
  | kassertSenderPeerQpn
  | kassertServerState
  | assertServerRead
  | assertWritten
  | nullConnection
  | outOfBounds
  deriving DecidableEq, Repr

structure Daemon where
  mMcId : McId
  conns : Nat → Option Conn
  multicastCmMeta : McId → Option McMeta
  multicastState : McId → Option McState
  /-- Index 0 is the connection of the client. -/
  multicastConnections : McId → Option (Fin 3 → Option Nat)
  multicastAddrs : McId → Option (Fin 2 → EntityAddr)
  table : List GroupAdd
  log : List Event

/-- What one call of `write` on a TCP socket comes to. -/
inductive WriteAnswer where
  | whole
  | again
  | failed
  deriving DecidableEq, Repr

/-- The loop around `write`: three more attempts after an interrupted one. -/
def writeLoop (answer : Nat → WriteAnswer) (retry : Nat) : Nat → Bool
  | 0 => answer retry = .whole
  | left + 1 =>
      match answer retry with
      | .whole => true
      | .again => writeLoop answer (retry + 1) left
      | .failed => false

def written (answer : Nat → WriteAnswer) : Bool := writeLoop answer 0 3

namespace Daemon

def conn (d : Daemon) (c : Nat) : Except Stop Conn :=
  match d.conns c with
  | none => .error .nullConnection
  | some conn => .ok conn

def setConn (d : Daemon) (c : Nat) (conn : Conn) : Daemon :=
  { d with conns := Function.update d.conns c (some conn) }

def setState (d : Daemon) (mcId : McId) (mcState : McState) : Daemon :=
  { d with multicastState := Function.update d.multicastState mcId (some mcState) }

def setMeta (d : Daemon) (mcId : McId) (mcCmMeta : McMeta) : Daemon :=
  { d with multicastCmMeta := Function.update d.multicastCmMeta mcId (some mcCmMeta) }

def record (d : Daemon) (event : Event) : Daemon := { d with log := d.log ++ [event] }

/-- With no match the loop leaves an index past the arrays. -/
def getMcIndex (d : Daemon) (mcId : McId) (c : Nat) : Except Stop (Fin 2) :=
  match d.multicastConnections mcId with
  | none => .error .kassertConnections
  | some connections =>
      if connections 1 = some c then .ok 0
      else if connections 2 = some c then .ok 1
      else .error .outOfBounds

def accept (d : Daemon) (c : Nat) (peerAddr : EntityAddr) : Daemon :=
  d.setConn c ⟨0, false, peerAddr, false⟩

/-- The first message of a client; `c₁` and `c₂` are the new connections. -/
def openGroup (c : Nat) (conn : Conn) (msg : CmMsg) (c₁ c₂ : Nat) (d : Daemon) :
    Except Stop Daemon :=
  let mcId := d.mMcId
  if (d.multicastCmMeta mcId).isSome then .error .kassertCmMeta
  else
    let addr₁ : EntityAddr := ⟨msg.mcGroup.ipAddrMember1, msg.mcGroup.portMember1⟩
    let addr₂ : EntityAddr := ⟨msg.mcGroup.ipAddrMember2, msg.mcGroup.portMember2⟩
    let d := ((d.setConn c { conn with mcId }).setConn c₁ ⟨mcId, true, addr₁, false⟩).setConn c₂
      ⟨mcId, true, addr₂, false⟩
    let d := d.setMeta mcId (McMeta.zero.setSender msg.cm)
    let d := d.setState mcId { McState.new with clientState := .handshakeReceived }
    .ok { d with
      mMcId := mcId + 1
      multicastConnections := Function.update d.multicastConnections mcId
        (some fun
          | 0 => some c
          | 1 => some c₁
          | 2 => some c₂)
      multicastAddrs := Function.update d.multicastAddrs mcId
        (some fun
          | 0 => addr₁
          | 1 => addr₂) }

def processClientReadable (c : Nat) (msg : CmMsg) (c₁ c₂ : Nat) (d : Daemon) :
    Except Stop Daemon := do
  let conn ← d.conn c
  if conn.mcId = 0 then d.openGroup c conn msg c₁ c₂
  else
    let mcId := conn.mcId
    let mcState := (d.multicastState mcId).getD .new
    let mcCmMeta := ((d.multicastCmMeta mcId).getD .zero).setSender msg.cm
    if mcState.clientState ≠ .handshakeSent then .error .kassertClientState
    else if mcCmMeta.senderPeerQpn ≠ mcId then .error .kassertSenderPeerQpn
    else
      pure ((d.setMeta mcId mcCmMeta).setState mcId { mcState with clientState := .ackReceived })

def sendHandshakeToServer (mcId : McId) (mcCmMeta : McMeta) (mcState : McState) (i : Fin 2)
    (answer : Nat → WriteAnswer) (d : Daemon) : Except Stop Daemon :=
  if mcState.serverState i = .connected ∨ mcState.serverState i = .handshakeSent then
    if written answer then .ok (d.record (.toServer mcId i (mcCmMeta.serverMsg i)))
    else .error .assertWritten
  else .error .kassertServerState

/-- What the daemon passes to the switch. -/
def groupAdd (mcId : McId) (mcCmMeta : McMeta) (peerAddr : EntityAddr)
    (addrs : Fin 2 → EntityAddr) : GroupAdd where
  srcAddr := htonl peerAddr.sAddr
  dqpNum := mcId
  sqpNum := mcCmMeta.senderLocalQpn
  dstAddr1 := htonl (addrs 0).sAddr
  dqp1 := mcCmMeta.receiverLocalQpn 0
  dstAddr2 := htonl (addrs 1).sAddr
  dqp2 := mcCmMeta.receiverLocalQpn 1

def checkAndSendHandshakeToClient (c : Nat) (mcId : McId) (mcCmMeta : McMeta)
    (mcState : McState) (answer : Nat → WriteAnswer) (d : Daemon) :
    Except Stop (McState × Daemon) :=
  if mcState.clientState ≠ .handshakeReceived then .ok (mcState, d)
  else if mcState.serverState 0 ≠ .handshakeAckSent ∨ mcState.serverState 1 ≠ .handshakeAckSent then
    .ok (mcState, d)
  else do
    let conn ← d.conn c
    let addrs := (d.multicastAddrs mcId).getD fun _ => ⟨0, 0⟩
    let args := groupAdd mcId mcCmMeta conn.peerAddr addrs
    let d := { d with table := multicastGroupAdd args d.table }.record (.groupAdd args)
    if written answer then
      pure ({ mcState with clientState := .handshakeSent },
        d.record (.toClient mcId (mcCmMeta.clientMsg mcId)))
    else .error .assertWritten

/-- The connection of the client of a group. -/
def clientConn (d : Daemon) (mcId : McId) : Except Stop Nat :=
  match (d.multicastConnections mcId).bind (· 0) with
  | none => .error .nullConnection
  | some c => .ok c

def processServerReadable (c : Nat) (msg : CmMsg) (toServer toClient : Nat → WriteAnswer)
    (d : Daemon) : Except Stop Daemon := do
  let conn ← d.conn c
  let mcId := conn.mcId
  let mcState := (d.multicastState mcId).getD .new
  let index ← d.getMcIndex mcId c
  let mcCmMeta := ((d.multicastCmMeta mcId).getD .zero).setReceiver index msg.cm
  let d := d.setMeta mcId mcCmMeta
  match mcState.serverState index with
  | .init => pure (d.setState mcId mcState)
  | .handshakeSent =>
      let d ← d.sendHandshakeToServer mcId mcCmMeta mcState index toServer
      let mcState := { mcState with
        serverState := Function.update mcState.serverState index .handshakeAckSent }
      let client ← d.clientConn mcId
      let (mcState, d) ← d.checkAndSendHandshakeToClient client mcId mcCmMeta mcState toClient
      pure (d.setState mcId mcState)
  | _ => .error .assertServerRead

def processServerWriteable (c : Nat) (answer : Nat → WriteAnswer) (d : Daemon) :
    Except Stop Daemon := do
  let conn ← d.conn c
  let mcId := conn.mcId
  let mcState := (d.multicastState mcId).getD .new
  let index ← d.getMcIndex mcId c
  let mcCmMeta := (d.multicastCmMeta mcId).getD .zero
  let d := d.setMeta mcId mcCmMeta
  let mcState := { mcState with
    serverState := Function.update mcState.serverState index .connected }
  if mcState.clientState = .handshakeReceived then
    let d ← d.sendHandshakeToServer mcId mcCmMeta mcState index answer
    pure (d.setState mcId { mcState with
      serverState := Function.update mcState.serverState index .handshakeSent })
  else pure (d.setState mcId mcState)

inductive Op where
  | accept (c : Nat) (peerAddr : EntityAddr)
  | clientReadable (c : Nat) (msg : CmMsg) (c₁ c₂ : Nat)
  | clientWriteable (c : Nat)
  | serverReadable (c : Nat) (msg : CmMsg) (toServer toClient : Nat → WriteAnswer)
  | serverWriteable (c : Nat) (answer : Nat → WriteAnswer)

/-- The event loop has run the writable callback of a connection. -/
def markWritable (d : Daemon) (c : Nat) : Daemon :=
  { d with conns := Function.update d.conns c ((d.conns c).map ({ · with writable := true })) }

def step (d : Daemon) : Op → Except Stop Daemon
  | .accept c peerAddr => .ok (d.accept c peerAddr)
  | .clientReadable c msg c₁ c₂ => d.processClientReadable c msg c₁ c₂
  | .clientWriteable _ => .ok d
  | .serverReadable c msg toServer toClient => d.processServerReadable c msg toServer toClient
  | .serverWriteable c answer => do
      let d ← d.processServerWriteable c answer
      pure (d.markWritable c)

/-- New connections are at addresses that no one has, callbacks are those of the
connection, and the writable callback of a server connection is run once. -/
def Enabled (d : Daemon) : Op → Prop
  | .accept c _ => d.conns c = none
  | .clientReadable c _ c₁ c₂ => (∃ conn, d.conns c = some conn ∧ conn.isServer = false) ∧
      c₁ ≠ c₂ ∧ d.conns c₁ = none ∧ d.conns c₂ = none
  | .clientWriteable c => ∃ conn, d.conns c = some conn ∧ conn.isServer = false
  | .serverReadable c _ _ _ => ∃ conn, d.conns c = some conn ∧ conn.isServer = true
  | .serverWriteable c _ =>
      ∃ conn, d.conns c = some conn ∧ conn.isServer = true ∧ conn.writable = false

structure Start (d : Daemon) : Prop where
  conns : ∀ c, d.conns c = none
  cmMeta : ∀ mcId, d.multicastCmMeta mcId = none
  state : ∀ mcId, d.multicastState mcId = none
  connections : ∀ mcId, d.multicastConnections mcId = none
  addrs : ∀ mcId, d.multicastAddrs mcId = none
  table : d.table = []
  log : d.log = []

def machine : Machine Daemon Op Stop where
  start := Start
  enabled := Enabled
  step := step

end Daemon

end RdmaCapsule.Multicast
