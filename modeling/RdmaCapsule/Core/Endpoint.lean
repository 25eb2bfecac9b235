import RdmaCapsule.Core.Cluster
import RdmaCapsule.Core.ReceiveQueue

/-! `RDMAConnectedSocketImpl` without its receive path: the handshake over TCP,
the queue pair attributes it sets, and the sends it posts. A handshake message
is the record of its fields; the answers of verbs and of the TCP socket to the
calls that one operation makes are inputs of the operation. -/
namespace RdmaCapsule.Core

open RdmaCapsule.Foundation

abbrev Gid := Vector UInt8 16

/-- `ib_cm_meta_t`. -/
structure CmMeta where
  lid : UInt16
  localQpn : UInt32
  psn : UInt32
  peerQpn : UInt32
  gid : Gid
  deriving DecidableEq, Repr

/-- The two members of a multicast group, as configured at a client. -/
structure McGroup where
  ipAddrMember1 : UInt32
  portMember1 : UInt16
  ipAddrMember2 : UInt32
  portMember2 : UInt16
  deriving DecidableEq, Repr

structure CmMsg where
  cm : CmMeta
  mcGroup : McGroup
  deriving DecidableEq, Repr

/-- What `read` on the TCP socket gives to `recv_cm_meta`. -/
inductive Recv where
  | error (errno : Nat)
  | disconnected
  | badLength
  | message (msg : CmMsg)

inductive QpState where
  | init
  | rtr
  | rts
  deriving DecidableEq, Repr

/-- The attributes that verbs holds for a queue pair. -/
structure QpAttr where
  state : QpState
  destQpNum : UInt32
  rqPsn : UInt32
  sqPsn : UInt32
  dgid : Gid
  dlid : UInt16
  deriving DecidableEq, Repr

structure Buffer where
  start : Nat
  cur : Nat
  len : UInt32
  deriving DecidableEq, Repr

def Buffer.getRemainingLen (buffer : Buffer) : UInt32 :=
  buffer.len - UInt32.ofNat (buffer.cur - buffer.start)

structure BufferList where
  bufferList : List Buffer
  len : UInt32
  deriving DecidableEq, Repr

namespace BufferList

def empty : BufferList := ⟨[], 0⟩

def appendBuffer (bl : BufferList) (buffer : Buffer) : BufferList :=
  ⟨bl.bufferList ++ [buffer], bl.len + buffer.getRemainingLen⟩

def append (bl other : BufferList) : BufferList :=
  other.bufferList.foldl appendBuffer bl

/-- The cached length stays. -/
def clear (bl : BufferList) : BufferList := { bl with bufferList := [] }

end BufferList

/-- What the calls made by one operation are answered. -/
structure Answers where
  /-- `ibv_modify_qp` to RTR and to RTS succeed. -/
  rtr : Bool
  rts : Bool
  /-- Index at which `ibv_post_send` stops, and `errno`. -/
  post : Option (Nat × Nat)
  /-- `errno` of a handshake message that could not be written. -/
  unsent : Option Nat

def Answers.good : Answers := ⟨true, true, none, none⟩

structure Endpoint where
  isServer : Bool
  connected : Bool
  error : Nat
  active : Bool
  /-- Whether `read_handler` is there, and with it the call of `handle_connection`. -/
  readHandler : Bool
  peerQpn : UInt32
  localCmMeta : CmMeta
  peerCmMeta : CmMeta
  mcGroup : McGroup
  attr : QpAttr
  /-- The states that verbs has taken the queue pair to, oldest first. -/
  transitions : List QpState
  pendingBl : BufferList
  /-- All sends that verbs has accepted, oldest first. -/
  posted : List SendWr
  deriving DecidableEq, Repr

def econnreset : Nat := 104

def epipe : Nat := 32

def eagain : Nat := 11

namespace Endpoint

def cleanup (ep : Endpoint) : Endpoint := { ep with readHandler := false }

def fault (ep : Endpoint) : Endpoint := { ep with error := econnreset, connected := true }

/-- `ibv_post_send` on a chain: the requests before the bad one are posted. -/
def ibvPostSend (answer : Option (Nat × Nat)) (requests : List SendWr) (ep : Endpoint) :
    Int × Endpoint :=
  match answer.filter (·.1 < requests.length) with
  | none => (0, { ep with posted := ep.posted ++ requests })
  | some (bad, errno) => (-errno, { ep with posted := ep.posted ++ requests.take bad })

/-- With no chunk the array of work requests has no entry, and verbs is handed
what lies behind it. -/
def postWorkRequest (answers : Answers) (txBuffers : List Nat) (ep : Endpoint) :
    Except Fault (Int × Endpoint) :=
  if txBuffers = [] then .error .emptyVector
  else .ok (ep.ibvPostSend answers.post (txBuffers.map .chunk))

def txChunk (tx : Cluster) (buffer : Buffer) : Except Fault Nat :=
  if tx.isMyBuffer buffer.cur then .ok (tx.getChunkByBuffer buffer.cur)
  else .error .kassertTxBuffer

def submit (tx : Cluster) (answers : Answers) (ep : Endpoint) : Except Fault (Int × Endpoint) :=
  if ep.error ≠ 0 then .ok (-ep.error, ep)
  else if ep.pendingBl.len = 0 then .ok (0, ep)
  else do
    let txBuffers ← ep.pendingBl.bufferList.mapM (txChunk tx)
    let (r, ep) ← ep.postWorkRequest answers txBuffers
    let ep := { ep with pendingBl := ep.pendingBl.clear }
    if r < 0 then pure (r, ep)
    else pure (if ep.pendingBl.len ≠ 0 then -eagain else 0, ep)

/-- `send(std::vector<Chunk *>)`. -/
def sendChunks (answers : Answers) (chunks : List Nat) (ep : Endpoint) :
    Except Fault (Int × Endpoint) :=
  if !ep.connected then .ok (-1, ep)
  else do
    let (_, ep) ← ep.postWorkRequest answers chunks
    pure (0, ep)

def send (tx : Cluster) (answers : Answers) (bl : BufferList) (ep : Endpoint) :
    Except Fault (Int × Endpoint) :=
  if ep.error ≠ 0 then .ok (if !ep.active then -epipe else -ep.error, ep)
  else if bl.len = 0 then .ok (0, ep)
  else
    let ep := { ep with pendingBl := ep.pendingBl.append bl }
    if !ep.connected then .ok (bl.len.toNat, ep)
    else do
      let (r, ep) ← ep.submit tx answers
      if r < 0 ∧ r ≠ -eagain then pure (r, ep)
      else pure (bl.len.toNat, ep)

def modifyQpToRtr (ep : Endpoint) : Endpoint :=
  { ep with
    attr := { ep.attr with
      state := .rtr
      destQpNum := ep.peerCmMeta.localQpn
      rqPsn := ep.peerCmMeta.psn
      dgid := ep.peerCmMeta.gid
      dlid := ep.peerCmMeta.lid }
    transitions := ep.transitions ++ [.rtr] }

def modifyQpToRts (ep : Endpoint) : Endpoint :=
  { ep with
    attr := { ep.attr with state := .rts, sqPsn := ep.localCmMeta.psn }
    transitions := ep.transitions ++ [.rts] }

def activate (tx : Cluster) (answers : Answers) (ep : Endpoint) :
    Except Fault (Int × Endpoint) :=
  let ep := { ep with localCmMeta.peerQpn := ep.peerCmMeta.localQpn }
  if !answers.rtr then .ok (-1, ep)
  else
    let ep := ep.modifyQpToRtr
    if !answers.rts then .ok (-1, ep)
    else do
      let ep := ep.modifyQpToRts
      let ep ←
        if !ep.isServer then do
          let (_, ep) ← submit tx answers { ep with connected := true }
          pure ep
        else pure ep
      pure (0, { ep with active := true, peerQpn := ep.localCmMeta.peerQpn })

/-- The message that `send_cm_meta` writes. -/
def cmMsg (ep : Endpoint) : CmMsg := ⟨ep.localCmMeta, ep.mcGroup⟩

/-- The last integer is the return value, and the list what was written. -/
def handleConnectionEstablished (needSetFault : Bool) (answers : Answers) (ep : Endpoint) :
    Endpoint × List CmMsg × Int :=
  if ep.connected then (if needSetFault then ep.fault else ep, [], -1)
  else
    let ep := { ep with localCmMeta.peerQpn := 0 }
    match answers.unsent with
    | some errno => (if needSetFault then ep.fault else ep, [], -errno)
    | none => (ep, [ep.cmMsg], 0)

/-- The end of `handle_connection` at both sides: the message goes out or the
connection is given up. -/
def sendOrFault (answers : Answers) (ep : Endpoint) : Endpoint × List CmMsg :=
  match answers.unsent with
  | some _ => (ep.fault, [])
  | none => (ep, [ep.cmMsg])

/-- `activate` followed by `kassert(!r)`. -/
def mustActivate (tx : Cluster) (answers : Answers) (ep : Endpoint) : Except Fault Endpoint := do
  let (r, ep) ← ep.activate tx answers
  if r = 0 then pure ep else .error .kassertActivate

def handleConnection (tx : Cluster) (answers : Answers) (recv : Recv) (ep : Endpoint) :
    Except Fault (Endpoint × List CmMsg) :=
  match recv with
  | .error errno => .ok (if errno = eagain then ep else ep.fault, [])
  | .disconnected => .ok (ep.fault, [])
  | .badLength => .ok (ep.fault, [])
  | .message msg =>
      let ep := { ep with peerCmMeta := msg.cm }
      if ep.connected then .ok (ep.fault, [])
      else if !ep.isServer then do
        let ep ← ep.mustActivate tx answers
        pure (ep.sendOrFault answers)
      else if ep.peerCmMeta.peerQpn = 0 then
        if ep.active then .ok (ep, [])
        else do
          let ep ← ep.mustActivate tx answers
          pure (ep.sendOrFault answers)
      else do
        let (_, ep) ← submit tx answers { ep with connected := true }
        pure (ep, [])

/-- Whether `read` comes as far as `read_buffers`. -/
def readsBuffers (ep : Endpoint) : Bool := ep.active && (ep.connected || ep.isServer)

/-- What `buffer_prefetch` does about a message of no bytes. -/
def gotRemoteClose (ep : Endpoint) : Endpoint :=
  if ep.connected then { ep with error := econnreset } else ep

/-- What `read` does after `read_buffers`. -/
def afterRead (tx : Cluster) (answers : Answers) (ep : Endpoint) : Except Fault Endpoint :=
  if ep.isServer && !ep.connected then do
    let ep := cleanup { ep with connected := true }
    let (_, ep) ← ep.submit tx answers
    pure ep
  else .ok ep

/-- A whole `read` as far as the endpoint is concerned; `closed` says whether
`read_buffers` found a message of no bytes. -/
def read (tx : Cluster) (answers : Answers) (closed : Bool) (ep : Endpoint) :
    Except Fault Endpoint :=
  if ep.readsBuffers then
    (if closed then ep.gotRemoteClose else ep).afterRead tx answers
  else .ok ep

def fin (answers : Answers) (ep : Endpoint) : Endpoint :=
  (ep.ibvPostSend answers.post [.fin ep.localCmMeta.localQpn.toNat]).2

/-- `close` and `shutdown`. -/
def close (answers : Answers) (ep : Endpoint) : Endpoint :=
  let ep := if ep.error = 0 then ep.fin answers else ep
  { ep with error := econnreset, active := false }

/-- The operations of a connection other than `read` and `drain`. -/
inductive Call where
  | handleConnectionEstablished (needSetFault : Bool)
  | handleConnection (recv : Recv)
  | sendChunks (chunks : List Nat)
  | send (bl : BufferList)
  | submit
  | close
  | fault

/-- The endpoint after a call and the handshake messages it wrote. -/
def call (tx : Cluster) (answers : Answers) (ep : Endpoint) :
    Call → Except Fault (Endpoint × List CmMsg)
  | .handleConnectionEstablished needSetFault =>
      let (ep, written, _) := ep.handleConnectionEstablished needSetFault answers
      .ok (ep, written)
  | .handleConnection recv => ep.handleConnection tx answers recv
  | .sendChunks chunks => do
      let (_, ep) ← ep.sendChunks answers chunks
      pure (ep, [])
  | .send bl => do
      let (_, ep) ← ep.send tx answers bl
      pure (ep, [])
  | .submit => do
      let (_, ep) ← ep.submit tx answers
      pure (ep, [])
  | .close => .ok (ep.close answers, [])
  | .fault => .ok (ep.fault, [])

/-- The ways in which an operation of an endpoint can stop. -/
def Stops (fault : Fault) : Prop :=
  fault = .emptyVector ∨ fault = .kassertTxBuffer ∨ fault = .kassertActivate

variable (tx : Cluster) (answers : Answers) (ep : Endpoint)

theorem postWorkRequest_stops (txBuffers : List Nat) :
    Ends (ep.postWorkRequest answers txBuffers) (fun _ => True) Stops := by
  unfold postWorkRequest
  split
  · exact .inl rfl
  · trivial

theorem txChunk_stops (buffer : Buffer) : Ends (txChunk tx buffer) (fun _ => True) Stops := by
  unfold txChunk
  split
  · trivial
  · exact .inr (.inl rfl)

theorem submit_stops : Ends (ep.submit tx answers) (fun _ => True) Stops := by
  unfold submit
  split
  · trivial
  · split
    · trivial
    · refine (Ends.mapM (txChunk_stops tx) _).bind fun txBuffers _ => ?_
      refine (postWorkRequest_stops answers ep txBuffers).bind fun result _ => ?_
      dsimp only
      split <;> trivial

theorem activate_stops : Ends (ep.activate tx answers) (fun _ => True) Stops := by
  unfold activate
  dsimp only
  split
  · trivial
  · split
    · trivial
    · split
      · exact (submit_stops tx answers _).bind fun _ _ => trivial
      · trivial

theorem mustActivate_stops : Ends (ep.mustActivate tx answers) (fun _ => True) Stops := by
  unfold mustActivate
  refine (activate_stops tx answers ep).bind fun result _ => ?_
  dsimp only
  split
  · trivial
  · exact .inr (.inr rfl)

theorem handleConnection_stops (recv : Recv) :
    Ends (ep.handleConnection tx answers recv) (fun _ => True) Stops := by
  unfold handleConnection
  cases recv with
  | error errno => trivial
  | disconnected => trivial
  | badLength => trivial
  | message msg =>
      dsimp only
      split
      · trivial
      · split
        · exact (mustActivate_stops tx answers _).bind fun _ _ => trivial
        · split
          · split
            · trivial
            · exact (mustActivate_stops tx answers _).bind fun _ _ => trivial
          · exact (submit_stops tx answers _).bind fun _ _ => trivial

theorem afterRead_stops : Ends (ep.afterRead tx answers) (fun _ => True) Stops := by
  unfold afterRead
  split
  · exact (submit_stops tx answers _).bind fun _ _ => trivial
  · trivial

theorem sendChunks_stops (chunks : List Nat) :
    Ends (ep.sendChunks answers chunks) (fun _ => True) Stops := by
  unfold sendChunks
  split
  · trivial
  · exact (postWorkRequest_stops answers ep chunks).bind fun _ _ => trivial

theorem send_stops (bl : BufferList) : Ends (ep.send tx answers bl) (fun _ => True) Stops := by
  unfold send
  split
  · trivial
  · split
    · trivial
    · dsimp only
      split
      · trivial
      · refine (submit_stops tx answers _).bind fun result _ => ?_
        split <;> trivial

theorem call_stops (call : Call) : Ends (ep.call tx answers call) (fun _ => True) Stops := by
  cases call with
  | handleConnectionEstablished needSetFault => trivial
  | handleConnection recv => exact handleConnection_stops tx answers ep recv
  | sendChunks chunks => exact (sendChunks_stops answers ep chunks).bind fun _ _ => trivial
  | send bl => exact (send_stops tx answers ep bl).bind fun _ _ => trivial
  | submit => exact (submit_stops tx answers ep).bind fun _ _ => trivial
  | close => trivial
  | fault => trivial

end Endpoint

end RdmaCapsule.Core
