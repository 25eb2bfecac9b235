import Mathlib
import RdmaCapsule.Core.Chunk
import RdmaCapsule.Foundation.Outcome
import RdmaCapsule.Foundation.Placement

/-! Receive chunks below the dispatcher: the pool they are cut from, the
`recv_queue` of each queue pair, and the three functions that move them. Shared
receive queues are off throughout. Chunks are named in the order in which they
are cut, queue pairs by their number: verbs gives no number twice among the
queue pairs that exist. -/
namespace RdmaCapsule.Core

open RdmaCapsule.Foundation

/-- What the `wr_id` of a send of a connection stands for. -/
inductive SendWr where
  | chunk (index : Nat)
  | fin (qp : Nat)
  deriving DecidableEq, Repr

inductive TxWr where
  | send (wr : SendWr)
  | beacon
  deriving DecidableEq, Repr

structure QueuePair where
  maxRecvWr : Nat
  recvQueue : List Nat
  dead : Bool
  /-- Receives that verbs has accepted and not completed. -/
  posted : List Nat
  /-- Sends that verbs has accepted and not completed, oldest first. -/
  sends : List TxWr
  deriving DecidableEq, Repr

/-- Configuration, and what the allocator and verbs answer to each call. -/
structure Env where
  rdmaBufferSize : UInt32
  rxQueueLen : Nat
  /-- Chunks in the block that a call of `PoolAllocator::malloc` returns; zero
  when it returns NULL. -/
  block : Nat → Nat
  /-- Index at which a call of `ibv_post_recv` stops. -/
  postRecv : Nat → Option Nat

structure Infiniband where
  /-- Free list of `rxbuf_pool`, its head first. -/
  free : List Nat
  /-- Number of chunks cut so far. -/
  made : Nat
  chunk : Nat → Chunk
  qps : Nat → Option QueuePair
  mallocs : Nat
  posts : Nat

namespace Infiniband

def setChunk (ib : Infiniband) (c : Nat) (chunk : Chunk) : Infiniband :=
  { ib with chunk := Function.update ib.chunk c chunk }

def modifyQp (ib : Infiniband) (q : Nat) (f : QueuePair → QueuePair) : Infiniband :=
  { ib with qps := Function.update ib.qps q ((ib.qps q).map f) }

/-- `PoolAllocator::malloc` on behalf of the pool: the new block is cut into
chunks, all of them free. -/
def slowMalloc (env : Env) (ib : Infiniband) : Infiniband :=
  let nbufs := env.block ib.mallocs
  { ib with
    free := List.range' ib.made nbufs ++ ib.free
    made := ib.made + nbufs
    chunk := fun c =>
      if ib.made ≤ c ∧ c < ib.made + nbufs then ⟨none, env.rdmaBufferSize, 0, 0, 0⟩
      else ib.chunk c
    mallocs := ib.mallocs + 1 }

def getRxBuffer (env : Env) (ib : Infiniband) : Option Nat × Infiniband :=
  let ib := if ib.free.isEmpty then ib.slowMalloc env else ib
  match ib.free with
  | [] => (none, ib)
  | c :: rest => (some c, { ib with free := rest })

def addRqWr (ib : Infiniband) (q c : Nat) : Infiniband :=
  ib.modifyQp q fun qp => { qp with recvQueue := qp.recvQueue ++ [c] }

def removeRqWr (ib : Infiniband) (q c : Nat) : Except Fault Infiniband :=
  match ib.qps q with
  | none => .error .deletedObject
  | some qp =>
      if c ∈ qp.recvQueue then
        .ok (ib.modifyQp q fun qp => { qp with recvQueue := qp.recvQueue.erase c })
      else .error .kassertRemoveRqWr

def clearQp (ib : Infiniband) (c : Nat) : Infiniband := ib.setChunk c (ib.chunk c).clearQp

def releaseRxBuffer (ib : Infiniband) (c : Nat) : Except Fault Infiniband :=
  if c ∈ ib.free then .error .releasedTwice
  else .ok { ib.clearQp c with free := c :: ib.free }

def recallChunkToPool (ib : Infiniband) (c : Nat) : Except Fault Infiniband :=
  match (ib.chunk c).qp with
  | none => ib.releaseRxBuffer c
  | some q => do
      let ib ← ib.removeRqWr q c
      ib.releaseRxBuffer c

/-- The first loop of `post_chunks_to_rq`: returns the work requests filled. -/
def fillRequests (env : Env) (q : Nat) : Nat → List Nat → Infiniband → List Nat × Infiniband
  | 0, requests, ib => (requests, ib)
  | left + 1, requests, ib =>
      match ib.getRxBuffer env with
      | (none, ib) => (requests, ib)
      | (some c, ib) =>
          fillRequests env q left (requests ++ [c])
            ((ib.setChunk c ((ib.chunk c).setQp q)).addRqWr q c)

/-- `ibv_post_recv` on a chain: the index of the bad work request, if any; the
requests before it are posted. -/
def ibvPostRecv (env : Env) (q : Nat) (requests : List Nat) (ib : Infiniband) :
    Option Nat × Infiniband :=
  let bad := (env.postRecv ib.posts).filter (· < requests.length)
  let accepted := requests.take (bad.getD requests.length)
  (bad, { ib.modifyQp q (fun qp => { qp with posted := qp.posted ++ accepted }) with
          posts := ib.posts + 1 })

/-- One iteration of the loop that takes back what was not posted. -/
def unpost (q : Nat) (ib : Infiniband) (c : Nat) : Except Fault Infiniband := do
  let ib ← ib.removeRqWr q c
  (ib.clearQp c).releaseRxBuffer c

/-- The array `temp_ibv_recv_wr` has `max_recv_wr` entries. The loop that takes
back requests ends at the last one of the chain without taking it back. -/
def postChunksToRq (env : Env) (rqWrNum q : Nat) (ib : Infiniband) :
    Except Fault (Nat × Infiniband) :=
  match ib.qps q with
  | none => .error .deletedObject
  | some qp =>
      if rqWrNum = 0 then .error .tempOverrun
      else
        let (requests, ib) := ib.fillRequests env q rqWrNum []
        if requests = [] then .ok (0, ib)
        else if qp.maxRecvWr < requests.length then .error .tempOverrun
        else if requests.length ≠ rqWrNum then .error .kassertPosted
        else
          match ib.ibvPostRecv env q requests with
          | (none, ib) => .ok (rqWrNum, ib)
          | (some bad, ib) => do
              let undone := (requests.drop bad).dropLast
              let ib ← undone.foldlM (unpost q) ib
              pure (rqWrNum - undone.length, ib)

/-- `~QueuePair`, for a queue pair that verbs destroys without error. -/
def deleteQp (ib : Infiniband) (q : Nat) : Except Fault Infiniband :=
  match ib.qps q with
  | none => .error .deletedObject
  | some qp => do
      let ib ← qp.recvQueue.foldlM releaseRxBuffer ib
      pure { ib with qps := Function.update ib.qps q none }

end Infiniband

end RdmaCapsule.Core
