import Mathlib
import RdmaCapsule.Core.Chunk
import RdmaCapsule.Foundation.Machine
import RdmaCapsule.Foundation.Outcome
import RdmaCapsule.Foundation.Placement

/-! The pool of send chunks. `fill` cuts one registered region into `num`
chunks; allocation takes chunks from the back of `free_chunks` and `take_back`
returns them there. A chunk is named by its index from `chunk_base`. -/
namespace RdmaCapsule.Core

open RdmaCapsule.Foundation

structure Cluster where
  bufferSize : UInt32
  numChunk : UInt32
  base : Option Nat
  endAddr : Nat
  /-- The vector `free_chunks`, its back first. -/
  freeChunks : List Nat
  chunk : Nat → Chunk

/-- What `MemoryManager::malloc` and `ibv_reg_mr` answer for a region of the
given number of bytes. -/
structure Memory where
  malloc : UInt32 → Option Nat
  regMr : UInt32 → Bool

namespace Cluster

def new (bufferSize : UInt32) : Cluster where
  bufferSize := bufferSize
  numChunk := 0
  base := none
  endAddr := 0
  freeChunks := []
  chunk := fun _ => ⟨none, 0, 0, 0, 0⟩

/-- One iteration of the loop of `fill`: construct a header, make it free. -/
def construct (cluster : Cluster) (index buffer : Nat) : Cluster :=
  { cluster with
    chunk := Function.update cluster.chunk index
      ⟨none, cluster.bufferSize, 0, cluster.bufferSize, buffer⟩
    freeChunks := index :: cluster.freeChunks }

/-- The loop of `fill`, with `room` headers left in the array of headers. -/
def fillLoop (bytes : UInt32) (base : Nat) :
    Nat → UInt32 → Nat → Cluster → Except Fault Cluster
  | 0, offset, _, cluster => if offset < bytes then .error .headerOverrun else .ok cluster
  | room + 1, offset, index, cluster =>
      if offset < bytes then
        fillLoop bytes base room (offset + cluster.bufferSize) (index + 1)
          (cluster.construct index (base + offset.toNat))
      else .ok cluster

def fill (memory : Memory) (num : UInt32) (cluster : Cluster) : Except Fault Cluster :=
  if cluster.base.isSome then .error .kassertBase
  else
    let bytes := cluster.bufferSize * num
    match memory.malloc bytes with
    | none => .error .kassertBase
    | some base =>
        if memory.regMr bytes then
          fillLoop bytes base num.toNat 0 0
            { cluster with numChunk := num, base := some base, endAddr := base + bytes.toNat }
        else .error .kassertRegistered

def takeBackOne (cluster : Cluster) (index : Nat) : Cluster :=
  { cluster with
    chunk := Function.update cluster.chunk index (cluster.chunk index).resetWriteChunk
    freeChunks := index :: cluster.freeChunks }

def takeBack (cluster : Cluster) (ck : List Nat) : Cluster :=
  ck.foldl takeBackOne cluster

/-- The loop shared by `get_chunks` and `get_buffers`. -/
def takeLoop : Nat → List Nat → Cluster → Except Fault (List Nat × Cluster)
  | 0, chunks, cluster => .ok (chunks, cluster)
  | num + 1, chunks, cluster =>
      match cluster.freeChunks with
      | [] => .error .emptyVector
      | top :: rest => takeLoop num (chunks ++ [top]) { cluster with freeChunks := rest }

/-- Returns the number of chunks taken, the extended vector and the cluster. -/
def getChunks (chunks : List Nat) (num : Nat) (cluster : Cluster) :
    Except Fault (Nat × List Nat × Cluster) :=
  if num > cluster.freeChunks.length then .error .abort
  else do
    let out ← takeLoop num chunks cluster
    pure (num, out)

def getBuffers (chunks : List Nat) (blockSize : UInt64) (cluster : Cluster) :
    Except Fault (Nat × List Nat × Cluster) :=
  if cluster.bufferSize = 0 then .error .divisionByZero
  else
    let size := cluster.bufferSize.toUInt64
    let chunkBufferNumber := ((blockSize + size - 1) / size).toUInt32
    if chunkBufferNumber.toNat > cluster.freeChunks.length then .error .abort
    else do
      let num := if cluster.freeChunks.length < chunkBufferNumber.toNat
        then cluster.freeChunks.length else chunkBufferNumber.toNat
      let out ← takeLoop num chunks cluster
      pure (num, out)

def isMyBuffer (cluster : Cluster) (c : Nat) : Bool :=
  match cluster.base with
  | none => false
  | some base => base ≤ c && c < cluster.endAddr

def getChunkByBuffer (cluster : Cluster) (c : Nat) : Nat :=
  (((c - cluster.base.getD 0) / cluster.bufferSize.toNat).toUInt32).toNat

def isValidChunk (cluster : Cluster) (index : Nat) : Bool := index < cluster.numChunk.toNat

theorem takeLoop_eq (num : Nat) (chunks : List Nat) (cluster : Cluster)
    (h : num ≤ cluster.freeChunks.length) :
    takeLoop num chunks cluster =
      .ok (chunks ++ cluster.freeChunks.take num,
        { cluster with freeChunks := cluster.freeChunks.drop num }) := by
  induction num generalizing chunks cluster with
  | zero => simp [takeLoop]
  | succ num ih =>
      cases hfree : cluster.freeChunks with
      | nil => simp [hfree] at h
      | cons top rest =>
          rw [hfree, List.length_cons] at h
          simp only [takeLoop, hfree]
          rw [ih _ _ (by simpa using Nat.le_of_succ_le_succ h)]
          simp

/-- What an allocation that returns has done. -/
def Takes (cluster : Cluster) (chunks : List Nat) (num : Nat)
    (result : Nat × List Nat × Cluster) : Prop :=
  num ≤ cluster.freeChunks.length ∧
    result = (num, chunks ++ cluster.freeChunks.take num,
      { cluster with freeChunks := cluster.freeChunks.drop num })

theorem Takes.chunk_eq {cluster : Cluster} {chunks : List Nat} {num : Nat}
    {result : Nat × List Nat × Cluster} (h : cluster.Takes chunks num result) :
    result.2.2.chunk = cluster.chunk := by
  rw [h.2]

theorem Takes.length_eq {cluster : Cluster} {num : Nat} {result : Nat × List Nat × Cluster}
    (h : cluster.Takes [] num result) : result.2.1.length = num := by
  obtain ⟨hle, rfl⟩ := h
  simpa using hle

/-- An allocation takes what it is asked for, or aborts when that is not there. -/
theorem getChunks_ends (chunks : List Nat) (num : Nat) (cluster : Cluster) :
    Ends (cluster.getChunks chunks num) (Takes cluster chunks num)
      fun fault => fault = .abort ∧ cluster.freeChunks.length < num := by
  unfold getChunks
  split
  · rename_i hmore
    exact ⟨rfl, hmore⟩
  · rename_i hle
    have hle' := Nat.le_of_not_gt hle
    rw [takeLoop_eq _ _ _ hle']
    exact ⟨hle', rfl⟩

/-- The number of chunks that `get_buffers` comes to, cut to 32 bits. -/
def chunkBufferNumber (blockSize : UInt64) (size : UInt32) : UInt32 :=
  ((blockSize + size.toUInt64 - 1) / size.toUInt64).toUInt32

theorem getBuffers_takes (chunks : List Nat) (blockSize : UInt64) (cluster : Cluster)
    (hsize : cluster.bufferSize ≠ 0) :
    Ends (cluster.getBuffers chunks blockSize)
      (Takes cluster chunks (chunkBufferNumber blockSize cluster.bufferSize).toNat)
      fun fault => fault = .abort ∧ cluster.freeChunks.length <
        (chunkBufferNumber blockSize cluster.bufferSize).toNat := by
  unfold getBuffers chunkBufferNumber
  rw [if_neg hsize]
  dsimp only
  split
  · rename_i hmore
    exact ⟨rfl, hmore⟩
  · rename_i hle
    have hle' := Nat.le_of_not_gt hle
    rw [takeLoop_eq _ _ _ hle']
    exact ⟨hle', rfl⟩

/-- The number of chunks that `get_buffers` takes is the ceiling of the division
when the request fits in 32 bits. -/
theorem chunkBufferNumber_toNat (blockSize : UInt64) (size : UInt32)
    (hblock : blockSize.toNat < 2 ^ 32) (hsize : size ≠ 0) :
    ((blockSize + size.toUInt64 - 1) / size.toUInt64).toUInt32.toNat =
      (blockSize.toNat + size.toNat - 1) / size.toNat := by
  have hpos : 0 < size.toNat := UInt32.lt_iff_toNat_lt.mp (UInt32.pos_iff_ne_zero.mpr hsize)
  have hlt := size.toNat_lt
  have hone : (1 : UInt64) ≤ blockSize + size.toUInt64 := by
    rw [UInt64.le_iff_toNat_le, UInt64.toNat_add, UInt32.toNat_toUInt64]
    simp only [UInt64.toNat_one]
    omega
  rw [UInt64.toNat_toUInt32, UInt64.toNat_div, UInt64.toNat_sub_of_le _ _ hone,
    UInt64.toNat_add, UInt32.toNat_toUInt64, UInt64.toNat_one,
    Nat.mod_eq_of_lt (by omega : blockSize.toNat + size.toNat < 2 ^ 64)]
  apply Nat.mod_eq_of_lt
  -- the quotient is at most the request itself, since a buffer has a byte
  have hle : (blockSize.toNat + size.toNat - 1) / size.toNat ≤ blockSize.toNat := by
    rw [Nat.div_le_iff_le_mul hpos]
    have := Nat.le_mul_of_pos_right blockSize.toNat hpos
    omega
  exact Nat.lt_of_le_of_lt hle hblock

theorem getBuffers_ends (chunks : List Nat) {blockSize : UInt64} {cluster : Cluster}
    (hblock : blockSize.toNat < 2 ^ 32) (hsize : cluster.bufferSize ≠ 0) :
    Ends (cluster.getBuffers chunks blockSize) (Takes cluster chunks
      ((blockSize.toNat + cluster.bufferSize.toNat - 1) / cluster.bufferSize.toNat))
      fun fault => fault = .abort ∧ cluster.freeChunks.length <
        (blockSize.toNat + cluster.bufferSize.toNat - 1) / cluster.bufferSize.toNat := by
  have htakes := getBuffers_takes chunks blockSize cluster hsize
  rwa [chunkBufferNumber, chunkBufferNumber_toNat blockSize cluster.bufferSize hblock hsize]
    at htakes

/-- Everything the loop of `fill` has done when the region is cut without
remainder: the headers from `index` on are constructed, and they are free. -/
theorem fillLoop_spec (bytes : UInt32) (base room : Nat) (offset : UInt32) (index : Nat)
    (cluster : Cluster) (hsize : 0 < cluster.bufferSize.toNat)
    (hoffset : offset.toNat = cluster.bufferSize.toNat * index)
    (hbytes : bytes.toNat = cluster.bufferSize.toNat * (index + room)) :
    ∃ result, fillLoop bytes base room offset index cluster = .ok result ∧
      result.bufferSize = cluster.bufferSize ∧ result.numChunk = cluster.numChunk ∧
      result.freeChunks = (List.range' index room).reverse ++ cluster.freeChunks ∧
      ∀ c, result.chunk c =
        if index ≤ c ∧ c < index + room then
          ⟨none, cluster.bufferSize, 0, cluster.bufferSize, base + cluster.bufferSize.toNat * c⟩
        else cluster.chunk c := by
  induction room generalizing offset index cluster with
  | zero =>
      have hstop : ¬ offset < bytes := by
        rw [UInt32.lt_iff_toNat_lt, hoffset, hbytes]
        exact Nat.lt_irrefl _
      refine ⟨cluster, by simp [fillLoop, hstop], rfl, rfl, by simp, ?_⟩
      intro c
      rw [if_neg (by omega)]
  | succ room ih =>
      have hmore : cluster.bufferSize.toNat * (index + (room + 1)) =
          cluster.bufferSize.toNat * index + cluster.bufferSize.toNat * (room + 1) :=
        Nat.mul_add _ _ _
      have hstep : cluster.bufferSize.toNat ≤ cluster.bufferSize.toNat * (room + 1) :=
        Nat.le_mul_of_pos_right _ (Nat.succ_pos room)
      have hgo : offset < bytes := by
        rw [UInt32.lt_iff_toNat_lt, hoffset, hbytes]
        omega
      have hlt := bytes.toNat_lt
      have hnext : (offset + cluster.bufferSize).toNat =
          cluster.bufferSize.toNat * (index + 1) := by
        rw [UInt32.toNat_add, hoffset, Nat.mul_succ]
        exact Nat.mod_eq_of_lt (by omega)
      obtain ⟨result, hrun, hsize', hnum, hfree, hchunk⟩ :=
        ih (offset + cluster.bufferSize) (index + 1)
          (cluster.construct index (base + offset.toNat)) hsize hnext
          (by rw [hbytes]; congr 1; omega)
      refine ⟨result, by simp [fillLoop, hgo, hrun], hsize', hnum, ?_, ?_⟩
      · rw [hfree, List.range'_succ]
        simp [construct]
      · intro c
        rw [hchunk]
        by_cases hc : c = index
        · subst hc
          rw [if_neg (by omega), if_pos (by omega), hoffset]
          simp [construct]
        · have hiff : (index + 1 ≤ c ∧ c < index + 1 + room) ↔
              (index ≤ c ∧ c < index + (room + 1)) := by omega
          simp only [hiff]
          simp [construct, Function.update_of_ne hc]

/-- A pool that `fill` returns has its `num` chunks free, each with its cursor
at the start. Registering an empty region is refused, so a buffer has a byte. -/
theorem fill_spec {memory : Memory} {num : UInt32} {cluster result : Cluster}
    (hreg : memory.regMr 0 = false) (hempty : cluster.freeChunks = [])
    (hbytes : cluster.bufferSize.toNat * num.toNat < 2 ^ 32)
    (h : fill memory num cluster = .ok result) :
    cluster.bufferSize ≠ 0 ∧ result.bufferSize = cluster.bufferSize ∧
      result.freeChunks = (List.range num.toNat).reverse ∧
      ∀ c < num.toNat, (result.chunk c).offset = 0 ∧
        (result.chunk c).bound = (result.chunk c).bytes := by
  have hmul : (cluster.bufferSize * num).toNat = cluster.bufferSize.toNat * num.toNat := by
    rw [UInt32.toNat_mul]
    exact Nat.mod_eq_of_lt hbytes
  unfold fill at h
  dsimp only at h
  split at h
  · exact nomatch h
  · split at h
    · exact nomatch h
    · rename_i base _
      split at h
      · rename_i hregistered
        have hsize : 0 < cluster.bufferSize.toNat := by
          rcases Nat.eq_zero_or_pos cluster.bufferSize.toNat with hzero | hpos
          · have : cluster.bufferSize * num = 0 :=
              UInt32.toNat_inj.mp (by rw [hmul, hzero]; simp)
            rw [this, hreg] at hregistered
            exact nomatch hregistered
          · exact hpos
        obtain ⟨filled, hrun, hsize', -, hfree, hchunk⟩ :=
          fillLoop_spec (cluster.bufferSize * num) base num.toNat 0 0
            { cluster with numChunk := num, base := some base,
                           endAddr := base + (cluster.bufferSize * num).toNat }
            hsize (by simp) (by simp [hmul])
        have heq : filled = result := Except.ok.inj (hrun.symm.trans h)
        subst heq
        have hnonzero : cluster.bufferSize ≠ 0 := by
          intro hzero
          rw [hzero] at hsize
          exact absurd hsize (Nat.lt_irrefl 0)
        refine ⟨hnonzero, hsize', by simp [hfree, hempty, List.range_eq_range'], ?_⟩
        intro c hc
        rw [hchunk c, if_pos ⟨Nat.zero_le c, by omega⟩]
        exact ⟨rfl, rfl⟩
      · exact nomatch h

end Cluster

end RdmaCapsule.Core
