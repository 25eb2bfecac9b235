import RdmaCapsule.Core.Endpoint
import RdmaCapsule.Foundation.Machine

/-! The dispatcher, its connections and their queue pairs. Connections are named
by numbers that stand for their addresses. Each operation takes the state and
returns it changed, or stops with a fault. -/
namespace RdmaCapsule.Core

open RdmaCapsule.Foundation

inductive WcStatus where
  | success
  | wrFlushErr
  | otherErr
  deriving DecidableEq, Repr

structure RxWc where
  qpNum : Nat
  chunk : Nat
  byteLen : UInt32
  status : WcStatus
  deriving DecidableEq, Repr

structure TxWc where
  qpNum : Nat
  wr : TxWr
  status : WcStatus
  deriving DecidableEq, Repr

structure Socket where
  /-- NULL if the queue pair could not be created. -/
  qp : Option Nat
  ep : Endpoint
  wc : List RxWc
  buffers : List Nat
  postBacklog : Nat
  /-- Whether `txc_callback` has been set. -/
  txcCallback : Bool
  deriving DecidableEq, Repr

structure Config extends Env where
  lid : UInt16
  gid : Gid
  mcGroup : McGroup

/-- What `ibv_create_qp` and `ibv_modify_qp` to INIT are answered. -/
inductive InitAnswer where
  | created
  | notCreated
  | notInit
  deriving DecidableEq, Repr

structure World where
  ib : Infiniband
  tx : Cluster
  socks : Nat → Option Socket
  /-- The second component of each entry; the first is the queue pair itself. -/
  qpConns : Nat → Option (Option Nat)
  numQpConn : Nat
  deadQueuePairs : List Nat
  inflight : UInt64
  /-- Calls of `txc_callback`, oldest first. -/
  callbacks : List (Nat × SendWr)
  /-- Queue pairs deleted by `polling`, oldest first. -/
  deleted : List Nat

def Endpoint.new (config : Config) (isServer : Bool) (qpn : Nat) : Endpoint where
  isServer := isServer
  connected := false
  error := 0
  active := false
  readHandler := true
  peerQpn := 0
  localCmMeta := ⟨config.lid, UInt32.ofNat qpn, 520, 0, config.gid⟩
  peerCmMeta := ⟨0, 0, 0, 0, Vector.replicate 16 0⟩
  mcGroup := config.mcGroup
  attr := ⟨.init, 0, 0, 0, Vector.replicate 16 0, 0⟩
  transitions := []
  pendingBl := .empty
  posted := []

namespace World

def setSock (w : World) (k : Nat) (s : Socket) : World :=
  { w with socks := Function.update w.socks k (some s) }

def setChunk (w : World) (c : Nat) (chunk : Chunk) : World :=
  { w with ib := w.ib.setChunk c chunk }

/-- The connection at an address; there is none after its destructor. -/
def sock (w : World) (k : Nat) : Except Fault Socket :=
  match w.socks k with
  | none => .error .deletedObject
  | some s => .ok s

def sockQp (s : Socket) : Except Fault Nat :=
  match s.qp with
  | none => .error .nullVerbsQp
  | some q => .ok q

/-- The endpoint after an operation; what it posted is now outstanding. -/
def setEndpoint (w : World) (k : Nat) (s : Socket) (q : Nat) (ep : Endpoint) : World :=
  let new := ep.posted.drop s.ep.posted.length
  { w.setSock k { s with ep } with
    ib := w.ib.modifyQp q fun qp => { qp with sends := qp.sends ++ new.map .send } }

def registerQp (w : World) (q k : Nat) : Except Fault World :=
  if (w.qpConns q).isSome then .error .kassertRegisterQp
  else .ok { w with
    qpConns := Function.update w.qpConns q (some (some k))
    numQpConn := w.numQpConn + 1 }

def getConnLockless (w : World) (q : Nat) : Except Fault (Option Nat) :=
  match w.qpConns q with
  | none => .ok none
  | some csi =>
      match w.ib.qps q with
      | none => .error .deletedObject
      | some qp => .ok (if qp.dead then none else csi)

def getQpLockless (w : World) (q : Nat) : Option Nat :=
  if (w.qpConns q).isSome then some q
  else w.deadQueuePairs.find? (· = q)

def recallChunkToPool (w : World) (c : Nat) : Except Fault World := do
  let ib ← w.ib.recallChunkToPool c
  pure { w with ib }

def postChunksToRq (config : Config) (num k : Nat) (w : World) : Except Fault World := do
  let s ← w.sock k
  let q ← sockQp s
  let (r, ib) ← w.ib.postChunksToRq config.toEnv num q
  pure ({ w with ib }.setSock k { s with postBacklog := s.postBacklog + (num - r) })

def updatePostBacklog (config : Config) (k : Nat) (w : World) : Except Fault World := do
  let s ← w.sock k
  if s.postBacklog = 0 then pure w
  else
    let q ← sockQp s
    let (r, ib) ← w.ib.postChunksToRq config.toEnv s.postBacklog q
    pure ({ w with ib }.setSock k { s with postBacklog := s.postBacklog - (s.postBacklog - r) })

/-- The constructor of a connection, with `create_queue_pair` and `init`. When
`init` fails its caller deletes the queue pair, whose destructor reads the verbs
queue pair that was never there or destroys it again. -/
def create (config : Config) (k q : Nat) (isServer : Bool) (answer : InitAnswer) (w : World) :
    Except Fault World :=
  match answer with
  | .notCreated => .error .nullVerbsQp
  | .notInit => .error .destroyedTwice
  | .created => do
      let qp : QueuePair := ⟨config.rxQueueLen, [], false, [], []⟩
      let ib := { w.ib with qps := Function.update w.ib.qps q (some qp) }
      let (rqWrs, ib) ← ib.postChunksToRq config.toEnv config.rxQueueLen q
      if rqWrs = 0 then
        let ib ← ib.deleteQp q
        pure ({ w with ib }.setSock k ⟨none, .new config isServer 0, [], [], 0, false⟩)
      else
        ({ w with ib }.setSock k ⟨some q, .new config isServer q, [], [], 0, false⟩).registerQp q k

/-- The loop body of `buffer_prefetch`. -/
def prefetchOne (k : Nat) (w : World) (response : RxWc) : Except Fault World := do
  let s ← w.sock k
  if response.status ≠ .success then .error .kassertStatus
  else
    let chunk := (w.ib.chunk response.chunk).prepareRead response.byteLen
    if chunk.getSize = 0 then
      let w := w.setChunk response.chunk chunk.resetReadChunk
      (w.setSock k { s with ep := s.ep.gotRemoteClose }).recallChunkToPool response.chunk
    else
      let w := w.setChunk response.chunk chunk
      pure (w.setSock k { s with buffers := s.buffers ++ [response.chunk] })

def bufferPrefetch (k : Nat) (w : World) : Except Fault World := do
  let s ← w.sock k
  s.wc.foldlM (prefetchOne k) (w.setSock k { s with wc := [] })

/-- The loop of `read_buffers`; returns the bytes read and the chunks that stay.
A pass that finishes neither the chunk nor the request has used up the low 32
bits of what is wanted: no later pass reads anything. -/
def readLoop (config : Config) (k : Nat) (len : UInt64) :
    List Nat → UInt64 → World → Except Fault (UInt64 × List Nat × World)
  | [], readSize, w => .ok (readSize, [], w)
  | c :: rest, readSize, w => do
      let (tmp, chunk) := (w.ib.chunk c).zeroRead (len - readSize).toUInt32
      let readSize := readSize + tmp.toUInt64
      if chunk.getSize = 0 then
        let w ← (w.setChunk c chunk.resetReadChunk).recallChunkToPool c
        let w ← w.updatePostBacklog config k
        if readSize = len then pure (readSize, rest, w)
        else readLoop config k len rest readSize w
      else
        let w := w.setChunk c chunk
        if readSize = len then pure (readSize, c :: rest, w)
        else .error .spins

def readBuffers (config : Config) (k : Nat) (len : UInt64) (w : World) :
    Except Fault (UInt64 × World) := do
  let w ← w.bufferPrefetch k
  let s ← w.sock k
  let (readSize, rest, w) ← readLoop config k len s.buffers 0 w
  let s ← w.sock k
  pure (readSize, w.setSock k { s with buffers := rest })

def read (config : Config) (answers : Answers) (k : Nat) (len : UInt64) (w : World) :
    Except Fault (Int × World) := do
  let s ← w.sock k
  if s.ep.readsBuffers then
    let (readSize, w) ← w.readBuffers config k len
    let s ← w.sock k
    let q ← sockQp s
    let ep ← s.ep.afterRead w.tx answers
    let r : Int :=
      if readSize = 0 ∧ ep.error ≠ 0 then -ep.error
      else if readSize = 0 then -eagain
      else readSize.toNat
    pure (r, w.setEndpoint k s q ep)
  else pure (-eagain, w)

/-- The loop body of `drain`. -/
def drainOne (config : Config) (k : Nat) (w : World) (response : RxWc) : Except Fault World :=
  if response.status ≠ .success then .error .kassertStatus
  else do
    let w ← w.recallChunkToPool response.chunk
    w.updatePostBacklog config k

def drain (config : Config) (k : Nat) (w : World) : Except Fault World := do
  let s ← w.sock k
  s.wc.foldlM (drainOne config k) (w.setSock k { s with wc := [] })

/-- The loop body of `handle_rx_event`; `polled` holds, for each connection, the
completions to pass on. -/
def handleRxOne (config : Config) (state : World × (Nat → List RxWc)) (response : RxWc) :
    Except Fault (World × (Nat → List RxWc)) := do
  let (w, polled) := state
  let conn ← w.getConnLockless response.qpNum
  let qp := w.getQpLockless response.qpNum
  match response.status with
  | .success =>
      match conn with
      | none =>
          let w ← w.recallChunkToPool response.chunk
          pure (w, polled)
      | some k =>
          let w ← w.postChunksToRq config 1 k
          let polled := Function.update polled k (polled k ++ [response])
          match qp with
          | none => pure (w, polled)
          | some q =>
              let ib ← w.ib.removeRqWr q response.chunk
              pure ({ w with ib := ib.clearQp response.chunk }, polled)
  | _ =>
      let _ ← w.recallChunkToPool response.chunk
      .error .abort

def passWc (w : World) (polled : Nat → List RxWc) : World :=
  { w with socks := fun k => (w.socks k).map fun s => { s with wc := s.wc ++ polled k } }

def handleRxEvent (config : Config) (cqe : List RxWc) (w : World) : Except Fault World := do
  let (w, polled) ← cqe.foldlM (handleRxOne config) (w, fun _ => [])
  pure (w.passWc polled)

def enqueueDeadQp (w : World) (q : Nat) : World :=
  if (w.qpConns q).isSome then
    { w with
      deadQueuePairs := w.deadQueuePairs ++ [q]
      qpConns := Function.update w.qpConns q none
      numQpConn := w.numQpConn - 1 }
  else w

/-- The loop body of `handle_tx_event`. A completion without success ends in
`abort()`, whatever its kind. -/
def handleTxOne (state : World × List Nat) (response : TxWc) :
    Except Fault (World × List Nat) := do
  let (w, txChunks) := state
  match response.wr with
  | .beacon => pure (w.enqueueDeadQp response.qpNum, txChunks)
  | .send wr =>
      if response.status ≠ .success then .error .abort
      else
        match ← w.getConnLockless response.qpNum with
        | none => .error .nullConnection
        | some k =>
            let s ← w.sock k
            if !s.txcCallback then .error .emptyCallback
            else
              let w := { w with callbacks := w.callbacks ++ [(k, wr)] }
              match wr with
              | .chunk index =>
                  if w.tx.isValidChunk index then pure (w, txChunks ++ [index])
                  else .error .abort
              | .fin q => if q = response.qpNum then pure (w, txChunks) else .error .abort

def postTxBuffer (w : World) (chunks : List Nat) : World :=
  if chunks = [] then w
  else { w with
    inflight := w.inflight - UInt64.ofNat chunks.length
    tx := w.tx.takeBack chunks }

def handleTxEvent (cqe : List TxWc) (w : World) : Except Fault World := do
  let (w, txChunks) ← cqe.foldlM handleTxOne (w, [])
  pure (w.postTxBuffer txChunks)

/-- `to_dead`; `switched` says whether the move to the error state and the post
of the beacon both succeed. The result says whether it returned zero. -/
def toDead (switched : Bool) (q : Nat) (qp : QueuePair) (ib : Infiniband) : Bool × Infiniband :=
  if qp.dead then (true, ib)
  else if switched then
    (true, ib.modifyQp q fun qp => { qp with sends := qp.sends ++ [.beacon], dead := true })
  else (false, ib)

def scheduleQpDestroy (switched : Bool) (q : Nat) (w : World) : Except Fault World :=
  if (w.qpConns q).isNone then .ok w
  else
    match w.ib.qps q with
    | none => .error .deletedObject
    | some qp =>
        match toDead switched q qp w.ib with
        | (true, ib) => .ok { w with ib, qpConns := Function.update w.qpConns q (some none) }
        | (false, ib) => .ok { w with
            ib
            deadQueuePairs := w.deadQueuePairs ++ [q]
            qpConns := Function.update w.qpConns q none
            numQpConn := w.numQpConn - 1 }

/-- `~RDMAConnectedSocketImpl`. Without a queue pair `local_qpn` is zero. -/
def destroy (switched : Bool) (k : Nat) (w : World) : Except Fault World := do
  let s ← w.sock k
  let w ← w.scheduleQpDestroy switched (s.qp.getD 0)
  let w ← (s.wc.map (·.chunk)).foldlM recallChunkToPool w
  let w ← s.buffers.foldlM recallChunkToPool w
  pure { w with socks := Function.update w.socks k none }

def deleteDead (w : World) (q : Nat) : Except Fault World := do
  let ib ← w.ib.deleteQp q
  pure { w with ib, deleted := w.deleted ++ [q] }

/-- What `polling` does when both completion queues are empty. -/
def idle (w : World) : Except Fault World :=
  w.deadQueuePairs.foldlM deleteDead { w with deadQueuePairs := [] }

def call (k : Nat) (call : Endpoint.Call) (answers : Answers) (w : World) :
    Except Fault World := do
  let s ← w.sock k
  let q ← sockQp s
  let (ep, _) ← s.ep.call w.tx answers call
  pure (w.setEndpoint k s q ep)

def setTxcCallback (k : Nat) (w : World) : Except Fault World := do
  let s ← w.sock k
  pure (w.setSock k { s with txcCallback := true })

end World

/-- What the application, the network and the polling thread can make happen. -/
inductive Op where
  | create (k q : Nat) (isServer : Bool) (answer : InitAnswer)
  | call (k : Nat) (call : Endpoint.Call) (answers : Answers)
  | setTxcCallback (k : Nat)
  | read (k : Nat) (len : UInt64) (answers : Answers)
  | drain (k : Nat)
  | updatePostBacklog (k : Nat)
  | handleRxEvent (cqe : List RxWc)
  | handleTxEvent (cqe : List TxWc)
  | destroy (k : Nat) (switched : Bool)
  | idle

namespace World

/-- Verbs moves receives from the queue pairs to the completion queue. -/
def completeRx (cqe : List RxWc) (w : World) : World :=
  let done := cqe.map fun response => (response.qpNum, response.chunk)
  { w with ib.qps := fun q => (w.ib.qps q).map fun qp =>
    { qp with posted := qp.posted.filter fun c => (q, c) ∉ done } }

/-- Verbs moves sends from the queue pairs to the completion queue. -/
def completeTx (cqe : List TxWc) (w : World) : World :=
  { w with ib.qps := fun q => (w.ib.qps q).map fun qp =>
    { qp with sends := qp.sends.drop (cqe.countP (·.qpNum = q)) } }

/-- What verbs and the allocators promise: an address or a number is given out
only while no one has it, and completions are those of work requests that are
outstanding, each of them once, sends in their order. -/
def Enabled (w : World) : Op → Prop
  | .create k q _ _ => w.socks k = none ∧ w.ib.qps q = none ∧ 0 < q ∧ q < 2 ^ 24
  | .handleRxEvent cqe => (cqe.map (·.chunk)).Nodup ∧
      ∀ response ∈ cqe, ∃ qp, w.ib.qps response.qpNum = some qp ∧ response.chunk ∈ qp.posted
  | .handleTxEvent cqe => ∀ response ∈ cqe, ∃ qp, w.ib.qps response.qpNum = some qp ∧
      (cqe.filter (·.qpNum = response.qpNum)).map (·.wr) <+: qp.sends
  | _ => True

def step (config : Config) (w : World) : Op → Except Fault World
  | .create k q isServer answer => w.create config k q isServer answer
  | .call k call answers => w.call k call answers
  | .setTxcCallback k => w.setTxcCallback k
  | .read k len answers => do
      let (_, w) ← w.read config answers k len
      pure w
  | .drain k => w.drain config k
  | .updatePostBacklog k => w.updatePostBacklog config k
  | .handleRxEvent cqe => (w.completeRx cqe).handleRxEvent config cqe
  | .handleTxEvent cqe => (w.completeTx cqe).handleTxEvent cqe
  | .destroy k switched => w.destroy switched k
  | .idle => w.idle

/-- Before the first connection: nothing is cut from the receive pool. -/
def Start (w : World) : Prop :=
  w.ib.free = [] ∧ w.ib.made = 0 ∧ (∀ q, w.ib.qps q = none) ∧ (∀ k, w.socks k = none) ∧
    (∀ q, w.qpConns q = none) ∧ w.numQpConn = 0 ∧ w.deadQueuePairs = [] ∧ w.deleted = []

def machine (config : Config) : Machine World Op Fault where
  start := Start
  enabled := Enabled
  step := step config

end World

end RdmaCapsule.Core
