import RdmaCapsule.Core.PoolSize
import RdmaCapsule.Core.UniformPool

/-! From an address back to its chunk. `fill` moves an offset and a header on together; the lookup
divides, and nothing that is done with the chunks later moves their buffers. -/
namespace RdmaCapsule.Core

open RdmaCapsule.Foundation

namespace Cluster

/-- The address `c` is in the buffer of a chunk. -/
def Covers (cluster : Cluster) (index c : Nat) : Prop :=
  (cluster.chunk index).buffer ≤ c ∧
    c < (cluster.chunk index).buffer + (cluster.chunk index).bytes.toNat

/-- A region cut into buffers of one size, one after another. -/
structure Layout (base : Nat) (bufferSize num : UInt32) (cluster : Cluster) : Prop where
  begins : cluster.base = some base
  ends : cluster.endAddr = base + bufferSize.toNat * num.toNat
  size : cluster.bufferSize = bufferSize
  numChunk : cluster.numChunk = num
  buffer : ∀ c < num.toNat, (cluster.chunk c).buffer = base + bufferSize.toNat * c
  bytes : ∀ c < num.toNat, (cluster.chunk c).bytes = bufferSize

/-- Of the headers, the addresses of the buffers and their sizes count. -/
theorem Layout.congr {base : Nat} {bufferSize num : UInt32} {cluster cluster' : Cluster}
    (h : Layout base bufferSize num cluster) (hbase : cluster'.base = cluster.base)
    (hend : cluster'.endAddr = cluster.endAddr) (hsize : cluster'.bufferSize = cluster.bufferSize)
    (hnum : cluster'.numChunk = cluster.numChunk)
    (hchunk : ∀ c, (cluster'.chunk c).buffer = (cluster.chunk c).buffer ∧
      (cluster'.chunk c).bytes = (cluster.chunk c).bytes) :
    Layout base bufferSize num cluster' where
  begins := hbase.trans h.begins
  ends := hend.trans h.ends
  size := hsize.trans h.size
  numChunk := hnum.trans h.numChunk
  buffer c hc := (hchunk c).1.trans (h.buffer c hc)
  bytes c hc := (hchunk c).2.trans (h.bytes c hc)

variable {memory : Memory} {base index c : Nat} {bufferSize num : UInt32}
  {cluster result : Cluster}

theorem fill_layout (hsize : 0 < cluster.bufferSize.toNat)
    (hbytes : cluster.bufferSize.toNat * num.toNat < 2 ^ 32)
    (h : fill memory num cluster = .ok result) :
    ∃ base, Layout base cluster.bufferSize num result := by
  have hmul : (cluster.bufferSize * num).toNat = cluster.bufferSize.toNat * num.toNat := by
    rw [UInt32.toNat_mul]
    exact Nat.mod_eq_of_lt hbytes
  unfold fill at h
  dsimp only at h
  split at h
  · cases h
  · split at h
    · cases h
    · rename_i base _
      split at h
      · obtain ⟨hbase, hend, hnum⟩ := fillLoop_region h
        obtain ⟨filled, hrun, hkeep, -, -, hchunk⟩ :=
          fillLoop_spec (cluster.bufferSize * num) base num.toNat 0 0
            { cluster with
              numChunk := num, base := some base
              endAddr := base + (cluster.bufferSize * num).toNat }
            hsize (by simp) (by simp [hmul])
        obtain rfl : filled = result := Except.ok.inj (hrun.symm.trans h)
        have hslot {c : Nat} (hc : c < num.toNat) : filled.chunk c = ⟨none, cluster.bufferSize, 0,
            cluster.bufferSize, base + cluster.bufferSize.toNat * c⟩ := by
          rw [hchunk c, if_pos ⟨Nat.zero_le c, by omega⟩]
        refine ⟨base, hbase, ?_, hkeep, hnum, fun c hc => by rw [hslot hc],
          fun c hc => by rw [hslot hc]⟩
        rw [hend, hmul]
      · cases h

theorem Layout.isMyBuffer_iff (h : Layout base bufferSize num cluster) :
    cluster.isMyBuffer c = true ↔ base ≤ c ∧ c < base + bufferSize.toNat * num.toNat := by
  unfold isMyBuffer
  rw [h.begins, h.ends]
  simp

theorem Layout.covers_iff (h : Layout base bufferSize num cluster) (hindex : index < num.toNat) :
    cluster.Covers index c ↔ base + bufferSize.toNat * index ≤ c ∧
      c < base + bufferSize.toNat * index + bufferSize.toNat := by
  rw [Covers, h.buffer index hindex, h.bytes index hindex]

/-- The quotient of an offset is the one chunk that has the address. -/
theorem Layout.covers_iff_div (h : Layout base bufferSize num cluster)
    (hsize : 0 < bufferSize.toNat) (hindex : index < num.toNat) :
    cluster.Covers index c ↔ base ≤ c ∧ (c - base) / bufferSize.toNat = index := by
  rw [h.covers_iff hindex, Nat.div_eq_iff hsize]
  have hmul := Nat.mul_comm index bufferSize.toNat
  omega

theorem Layout.div_lt (h : Layout base bufferSize num cluster)
    (hmine : cluster.isMyBuffer c = true) : (c - base) / bufferSize.toNat < num.toNat := by
  obtain ⟨hlow, hhigh⟩ := h.isMyBuffer_iff.mp hmine
  apply Nat.div_lt_of_lt_mul
  omega

theorem Layout.getChunkByBuffer_eq (h : Layout base bufferSize num cluster)
    (hlt : (c - base) / bufferSize.toNat < num.toNat) :
    cluster.getChunkByBuffer c = (c - base) / bufferSize.toNat := by
  unfold getChunkByBuffer
  rw [h.begins, h.size, Option.getD_some]
  exact UInt32.toNat_ofNat_of_lt' (Nat.lt_trans hlt num.toNat_lt)

/-- What the lookup by address is for. -/
structure Corresponds (cluster : Cluster) (num bufferSize : UInt32) (c : Nat) : Prop where
  mine : cluster.isMyBuffer c = true ↔ ∃! index, index < num.toNat ∧ cluster.Covers index c
  found : cluster.isMyBuffer c = true → cluster.getChunkByBuffer c < num.toNat ∧
    cluster.Covers (cluster.getChunkByBuffer c) c ∧
      cluster.isValidChunk (cluster.getChunkByBuffer c) = true
  interior : ∀ index < num.toNat, ∀ d < bufferSize.toNat,
    cluster.getChunkByBuffer ((cluster.chunk index).buffer + d) = index

theorem Layout.corresponds (h : Layout base bufferSize num cluster)
    (hsize : 0 < bufferSize.toNat) (c : Nat) : Corresponds cluster num bufferSize c := by
  have hfound : ∀ {c}, cluster.isMyBuffer c = true →
      cluster.getChunkByBuffer c < num.toNat ∧ cluster.Covers (cluster.getChunkByBuffer c) c := by
    intro c hmine
    have hlt := h.div_lt hmine
    rw [h.getChunkByBuffer_eq hlt]
    exact ⟨hlt, (h.covers_iff_div hsize hlt).mpr ⟨(h.isMyBuffer_iff.mp hmine).1, rfl⟩⟩
  refine ⟨⟨fun hmine => ?_, ?_⟩, fun hmine => ?_, fun index hindex d hd => ?_⟩
  · refine ⟨cluster.getChunkByBuffer c, hfound hmine, fun index hcovers => ?_⟩
    rw [h.getChunkByBuffer_eq (h.div_lt hmine)]
    exact ((h.covers_iff_div hsize hcovers.1).mp hcovers.2).2.symm
  · rintro ⟨index, ⟨hindex, hcovers⟩, -⟩
    obtain ⟨hlow, hhigh⟩ := (h.covers_iff hindex).mp hcovers
    have hpast : bufferSize.toNat * index + bufferSize.toNat ≤ bufferSize.toNat * num.toNat := by
      rw [← Nat.mul_succ]
      exact Nat.mul_le_mul_left _ hindex
    exact h.isMyBuffer_iff.mpr ⟨by omega, by omega⟩
  · obtain ⟨hlt, hcovers⟩ := hfound hmine
    refine ⟨hlt, hcovers, ?_⟩
    rw [isValidChunk, h.numChunk]
    exact decide_eq_true hlt
  · have hcovers : cluster.Covers index ((cluster.chunk index).buffer + d) := by
      rw [Covers, h.bytes index hindex]
      omega
    have hdiv := ((h.covers_iff_div hsize hindex).mp hcovers).2
    rw [h.getChunkByBuffer_eq (by rwa [hdiv]), hdiv]

theorem Layout.update (h : Layout base bufferSize num cluster) (index : Nat) (chunk : Chunk)
    (hbuffer : chunk.buffer = (cluster.chunk index).buffer)
    (hbytes : chunk.bytes = (cluster.chunk index).bytes) :
    Layout base bufferSize num
      { cluster with chunk := Function.update cluster.chunk index chunk } := by
  refine h.congr rfl rfl rfl rfl fun c => ?_
  by_cases hne : c = index
  · subst hne
    simp [hbuffer, hbytes]
  · simp [Function.update_of_ne hne]

theorem Layout.takeBack (h : Layout base bufferSize num cluster) (ck : List Nat) :
    Layout base bufferSize num (cluster.takeBack ck) := by
  induction ck generalizing cluster with
  | nil => exact h
  | cons index rest ih =>
      have hreset := h.update index (cluster.chunk index).resetWriteChunk rfl rfl
      exact ih (hreset.congr rfl rfl rfl rfl fun c => ⟨rfl, rfl⟩)

end Cluster

namespace SendPool

open Cluster

variable {memory : Memory} {base : Nat} {bufferSize num : UInt32} {pool after : SendPool}

theorem layout_step (hsize : bufferSize ≠ 0) (h : Layout base bufferSize num pool.cluster)
    {op : Op} (henabled : (anySize memory bufferSize num).enabled pool op)
    (hstep : pool.step op = .ok after) : Layout base bufferSize num after.cluster := by
  rcases step_cases (h.size ▸ hsize) (enabled_of_anySize henabled) hstep with
    ⟨count, result, ⟨-, rfl⟩, rfl⟩ | ⟨index, -, len, rfl⟩ | ⟨ck, -, rfl⟩
  · exact h.congr rfl rfl rfl rfl fun c => ⟨rfl, rfl⟩
  · exact h.update index _ rfl rfl
  · exact h.takeBack ck

/-- In every run of a filled pool, an address is the pool's exactly when it is in the buffer of one
chunk, and that is the chunk that the lookup finds. -/
theorem buffers_correspond (memory : Memory) (bufferSize num : UInt32) (hsize : 0 < bufferSize)
    (hbytes : bufferSize.toNat * num.toNat < 2 ^ 32) (pool : SendPool)
    (h : (anySize memory bufferSize num).Reachable pool) (c : Nat) :
    Corresponds pool.cluster num bufferSize c := by
  have hpos : 0 < bufferSize.toNat := UInt32.lt_iff_toNat_lt.mp hsize
  have hlayout : ∃ base, Layout base bufferSize num pool.cluster :=
    h.invariant (fun _ hstart => fill_layout hpos hbytes hstart.1)
      fun _ _ _ _ ⟨base, hbefore⟩ henabled hstep =>
        ⟨base, layout_step (UInt32.pos_iff_ne_zero.mp hsize) hbefore henabled hstep⟩
  obtain ⟨base, hlayout⟩ := hlayout
  exact hlayout.corresponds hpos c

theorem buffers_correspond_after_one_chunk :
    ∃ pool, (anySize someMemory 4 2).Reachable pool ∧ pool.held = [1] ∧
      pool.cluster.isMyBuffer 4103 = true ∧ pool.cluster.getChunkByBuffer 4103 = 1 := by
  have hfilled : (anySize someMemory 4 2).Reachable ⟨_, []⟩ := .start ⟨rfl, rfl⟩
  have htaken := hfilled.next (Op.getChunks 1) trivial rfl
  refine ⟨_, htaken, rfl, by decide, ?_⟩
  exact (buffers_correspond someMemory 4 2 (by decide) (by decide) _ htaken 4103).interior 1
    (by decide) 3 (by decide)

end SendPool

end RdmaCapsule.Core
