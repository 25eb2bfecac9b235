import Mathlib

/-! The header of a registered buffer and its cursor. Send chunks are written
from `offset` up to `bytes`; receive chunks are read from `offset` up to
`bound`. All three are `uint32_t` in the library, and so is every length that
the cursor functions take or return. -/
namespace RdmaCapsule.Core

/-- The ways in which an operation of the library stops the process or leaves
the defined behaviour of the language. -/
inductive Fault where
  /-- An explicit call of `abort()`. -/
  | abort
  | kassertBase
  | kassertRegistered
  | kassertPosted
  | kassertRemoveRqWr
  | kassertRegisterQp
  | kassertTxBuffer
  | kassertActivate
  | kassertStatus
  /-- A chunk is handed to the free list of a pool that already has it. -/
  | releasedTwice
  /-- A write past the entries of `temp_ibv_recv_wr`, or before them. -/
  | tempOverrun
  /-- A chunk header is constructed past the `num` headers of a cluster, or past the block of a
  receive pool. -/
  | headerOverrun
  | divisionByZero
  | emptyVector
  | nullVerbsQp
  | destroyedTwice
  | nullConnection
  | emptyCallback
  | deletedObject
  /-- A loop that makes no progress. -/
  | spins
  deriving DecidableEq, Repr

/-- `Chunk`. The queue pair is named by its number. -/
structure Chunk where
  qp : Option Nat
  bytes : UInt32
  offset : UInt32
  bound : UInt32
  /-- Address of the first data byte. -/
  buffer : Nat
  deriving DecidableEq, Repr

namespace Chunk

def getOffset (chunk : Chunk) : UInt32 := chunk.offset

def getSize (chunk : Chunk) : UInt32 := chunk.bound - chunk.offset

def prepareRead (chunk : Chunk) (b : UInt32) : Chunk :=
  { chunk with offset := 0, bound := b }

def zeroRead (chunk : Chunk) (len : UInt32) : UInt32 × Chunk :=
  let left := chunk.getSize
  let readLen := if left ≤ len then left else len
  (readLen, { chunk with offset := chunk.offset + readLen })

/-- `write` and `zero_fill` move the cursor alike; only the copied bytes differ,
and no byte of a payload is read back by the library. -/
def zeroFill (chunk : Chunk) (len : UInt32) : UInt32 × Chunk :=
  let writeLen := if chunk.bytes - chunk.offset ≤ len then chunk.bytes - chunk.offset else len
  (writeLen, { chunk with offset := chunk.offset + writeLen })

def write (chunk : Chunk) (len : UInt32) : UInt32 × Chunk := chunk.zeroFill len

def full (chunk : Chunk) : Bool := chunk.offset == chunk.bytes

def resetReadChunk (chunk : Chunk) : Chunk := { chunk with offset := 0, bound := 0 }

def resetWriteChunk (chunk : Chunk) : Chunk := { chunk with offset := 0, bound := chunk.bytes }

def setQp (chunk : Chunk) (qp : Nat) : Chunk := { chunk with qp := some qp }

def clearQp (chunk : Chunk) : Chunk := { chunk with qp := none }

@[simp] theorem setQp_qp (chunk : Chunk) (qp : Nat) : (chunk.setQp qp).qp = some qp := rfl

@[simp] theorem clearQp_qp (chunk : Chunk) : chunk.clearQp.qp = none := rfl

@[simp] theorem zeroFill_bytes (chunk : Chunk) (len : UInt32) :
    (chunk.zeroFill len).2.bytes = chunk.bytes := rfl

/-- A cursor inside its chunk stays inside it. -/
theorem zeroFill_offset_le (chunk : Chunk) (len : UInt32) (h : chunk.offset ≤ chunk.bytes) :
    (chunk.zeroFill len).2.offset ≤ chunk.bytes := by
  have hroom := UInt32.toNat_sub_of_le _ _ h
  rw [UInt32.le_iff_toNat_le] at h ⊢
  have hbytes := chunk.bytes.toNat_lt
  unfold zeroFill
  dsimp only
  split
  · rename_i hfits
    rw [UInt32.toNat_add, hroom]
    omega
  · rename_i hfits
    rw [UInt32.le_iff_toNat_le, hroom] at hfits
    rw [UInt32.toNat_add]
    omega

end Chunk

end RdmaCapsule.Core
