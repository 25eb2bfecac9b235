import RdmaCapsule.Core.Cluster

/-! How `Infiniband::init` sizes the pool of send chunks: the length of the send queue, the check
against the largest region that the device registers, and the pool that `fill` then cuts. The
lengths are 32 bits wide, the check multiplies in 64 bits, and it leaves out the factor 8. -/
namespace RdmaCapsule.Core

open RdmaCapsule.Foundation

/-- What `ibv_query_device` has answered. -/
structure DeviceAttr where
  maxQpWr : Int32
  maxMrSize : UInt64

/-- The settings that `init` reads, without a shared receive queue. -/
structure InitConfig where
  rdmaBufferSizeBytes : UInt32
  rdmaSendQueueLen : UInt32
  rdmaReceiveBuffersBytes : UInt32
  rdmaReceiveQueueLen : UInt32

namespace Cluster

def rxQueueLen (attr : DeviceAttr) (config : InitConfig) : UInt32 :=
  let rxQueueLen := attr.maxQpWr.toUInt32
  if rxQueueLen > config.rdmaReceiveQueueLen then config.rdmaReceiveQueueLen else rxQueueLen

/-- One work request is kept for the beacon. -/
def txQueueLen (attr : DeviceAttr) (config : InitConfig) : UInt32 :=
  let txQueueLen := (attr.maxQpWr - 1).toUInt32
  if txQueueLen > config.rdmaSendQueueLen then config.rdmaSendQueueLen else txQueueLen

def createTxPool (memory : Memory) (size txNum : UInt32) : Except Fault Cluster :=
  (Cluster.new size).fill memory txNum

/-- The checks of `init` on the settings. -/
def Passes (attr : DeviceAttr) (config : InitConfig) : Prop :=
  ¬ (0 < config.rdmaReceiveBuffersBytes ∧
      config.rdmaReceiveBuffersBytes < rxQueueLen attr config) ∧
    config.rdmaBufferSizeBytes.toUInt64 * (txQueueLen attr config).toUInt64 ≤ attr.maxMrSize

instance (attr : DeviceAttr) (config : InitConfig) : Decidable (Passes attr config) := by
  unfold Passes
  infer_instance

/-- `init`, as far as it makes the pool. -/
def init (memory : Memory) (attr : DeviceAttr) (config : InitConfig) : Except Fault Cluster :=
  if Passes attr config then
    createTxPool memory config.rdmaBufferSizeBytes (8 * txQueueLen attr config)
  else .error .abort

/-- A pool of `count` chunks of `size` bytes, in a region of just their bytes. -/
structure Sized (size count : Nat) (pool : Cluster) : Prop where
  numChunk : pool.numChunk.toNat = count
  region : ∃ base, pool.base = some base ∧ pool.endAddr = base + size * count ∧
    ∀ c < count, base ≤ (pool.chunk c).buffer ∧ (pool.chunk c).buffer + size ≤ pool.endAddr
  constructed : pool.freeChunks.Perm (List.range count)
  bytes : ∀ c < count, (pool.chunk c).bytes.toNat = size
  disjoint : ∀ c < count, ∀ c' < count, c ≠ c' →
    (pool.chunk c).buffer + size ≤ (pool.chunk c').buffer ∨
      (pool.chunk c').buffer + size ≤ (pool.chunk c).buffer

/-- `init` leaves a pool of eight chunks for each work request of the send queue, which the
device can register. -/
def AsLargeAsAsked (memory : Memory) (attr : DeviceAttr) (config : InitConfig) : Prop :=
  ∃ pool, init memory attr config = .ok pool ∧
    Sized config.rdmaBufferSizeBytes.toNat (8 * (txQueueLen attr config).toNat) pool ∧
    config.rdmaBufferSizeBytes.toNat * (8 * (txQueueLen attr config).toNat) ≤
      attr.maxMrSize.toNat

/-- There is memory for a region, and it can be registered. -/
def Serves (memory : Memory) (bytes : UInt32) : Prop :=
  (memory.malloc bytes).isSome ∧ memory.regMr bytes = true

variable {memory : Memory} {attr : DeviceAttr} {config : InitConfig}
  {size num bytes offset : UInt32} {base room index : Nat} {cluster result : Cluster}

theorem fillLoop_region (h : fillLoop bytes base room offset index cluster = .ok result) :
    result.base = cluster.base ∧ result.endAddr = cluster.endAddr ∧
      result.numChunk = cluster.numChunk := by
  induction room generalizing offset index cluster with
  | zero =>
      unfold fillLoop at h
      split at h
      · cases h
      · cases h
        exact ⟨rfl, rfl, rfl⟩
  | succ room ih =>
      unfold fillLoop at h
      split at h
      · have hrest := ih h
        exact hrest
      · cases h
        exact ⟨rfl, rfl, rfl⟩

/-- The region that a pool is cut from has as many bytes as the 32 bits of the product say. -/
theorem createTxPool_region (h : createTxPool memory size num = .ok result) :
    result.numChunk = num ∧ ∃ base, result.base = some base ∧
      result.endAddr = base + (size * num).toNat := by
  unfold createTxPool fill at h
  dsimp only at h
  split at h
  · cases h
  · split at h
    · cases h
    · rename_i base _
      split at h
      · obtain ⟨hbase, hend, hnum⟩ := fillLoop_region h
        exact ⟨hnum, base, hbase, hend⟩
      · cases h

/-- Where the product fits, the region is cut into all the chunks. -/
theorem createTxPool_sized (hsize : 0 < size.toNat) (hfits : size.toNat * num.toNat < 2 ^ 32)
    (hmemory : Serves memory (size * num)) :
    ∃ pool, createTxPool memory size num = .ok pool ∧ Sized size.toNat num.toNat pool := by
  have hmul : (size * num).toNat = size.toNat * num.toNat := by
    rw [UInt32.toNat_mul]
    exact Nat.mod_eq_of_lt hfits
  obtain ⟨base, hbase⟩ := Option.isSome_iff_exists.mp hmemory.1
  obtain ⟨pool, hrun, -, hnum, hfree, hchunk⟩ :=
    fillLoop_spec (size * num) base num.toNat 0 0
      { Cluster.new size with
        numChunk := num, base := some base, endAddr := base + (size * num).toNat }
      hsize (by simp) (by simp [hmul, Cluster.new])
  obtain ⟨hpool, hend, -⟩ := fillLoop_region hrun
  rw [hmul] at hend
  have hslot {c : Nat} (hc : c < num.toNat) :
      pool.chunk c = ⟨none, size, 0, size, base + size.toNat * c⟩ := by
    rw [hchunk c, if_pos ⟨Nat.zero_le c, by omega⟩]
    rfl
  have hpast {c c' : Nat} (hless : c < c') : size.toNat * c + size.toNat ≤ size.toNat * c' := by
    rw [← Nat.mul_succ]
    exact Nat.mul_le_mul_left _ hless
  refine ⟨pool, ?_, congrArg UInt32.toNat hnum, ⟨base, hpool, hend, fun c hc => ?_⟩, ?_,
    fun c hc => by rw [hslot hc], fun c hc c' hc' hne => ?_⟩
  · simp only [createTxPool, fill, Cluster.new, hbase]
    exact (if_neg (by simp)).trans ((if_pos hmemory.2).trans hrun)
  · rw [hslot hc, hend]
    dsimp only
    have := hpast hc
    omega
  · rw [hfree]
    simp only [Cluster.new, List.append_nil, List.range_eq_range']
    exact List.reverse_perm _
  · rw [hslot hc, hslot hc']
    dsimp only
    rcases Nat.lt_or_gt_of_ne hne with hless | hless
    · have := hpast hless
      exact .inl (by omega)
    · have := hpast hless
      exact .inr (by omega)

/-- Where there is memory for a region that the device can register, a configuration that passes
the checks of `init` leads to a pool as large as was asked for exactly when its bytes can be
counted in 32 bits and the device can register them. -/
theorem tx_pool_as_large_as_asked_iff (memory : Memory) (attr : DeviceAttr) (config : InitConfig)
    (hsize : 0 < config.rdmaBufferSizeBytes) (hpasses : Passes attr config)
    (hmemory : (config.rdmaBufferSizeBytes * (8 * txQueueLen attr config)).toNat ≤
        attr.maxMrSize.toNat →
      Serves memory (config.rdmaBufferSizeBytes * (8 * txQueueLen attr config))) :
    AsLargeAsAsked memory attr config ↔
      config.rdmaBufferSizeBytes.toNat * (8 * (txQueueLen attr config).toNat) < 2 ^ 32 ∧
        config.rdmaBufferSizeBytes.toNat * (8 * (txQueueLen attr config).toNat) ≤
          attr.maxMrSize.toNat := by
  have hpos : 0 < config.rdmaBufferSizeBytes.toNat := UInt32.lt_iff_toNat_lt.mp hsize
  constructor
  · rintro ⟨pool, hrun, hsized, hregister⟩
    rw [init, if_pos hpasses] at hrun
    obtain ⟨-, base, hbase, hend⟩ := createTxPool_region hrun
    obtain ⟨base', hbase', hend', -⟩ := hsized.region
    cases hbase.symm.trans hbase'
    have hless := (config.rdmaBufferSizeBytes * (8 * txQueueLen attr config)).toNat_lt
    exact ⟨by omega, hregister⟩
  · rintro ⟨hfits, hregister⟩
    have hcount : (8 * txQueueLen attr config).toNat = 8 * (txQueueLen attr config).toNat := by
      have hle := Nat.le_mul_of_pos_left (8 * (txQueueLen attr config).toNat) hpos
      rw [UInt32.toNat_mul]
      exact Nat.mod_eq_of_lt (Nat.lt_of_le_of_lt hle hfits)
    have hserves := hmemory (by
      rw [UInt32.toNat_mul, hcount]
      exact (Nat.mod_le _ _).trans hregister)
    obtain ⟨pool, hrun, hsized⟩ := createTxPool_sized hpos (by rwa [hcount]) hserves
    rw [hcount] at hsized
    exact ⟨pool, by rw [init, if_pos hpasses, hrun], hsized, hregister⟩

/-- A device without limits that matter here. -/
def largeDevice : DeviceAttr := ⟨32768, 2 ^ 40⟩

/-- Buffers of 128 KiB, as they are by default, and a send queue of the given length. -/
def withSendQueue (length : UInt32) : InitConfig := ⟨131072, length, 67108864, 256⟩

def anyMemory : Memory := ⟨fun _ => some 4096, fun bytes => bytes ≠ 0⟩

/-- The default settings. -/
theorem tx_pool_as_large_as_asked_iff_default :
    AsLargeAsAsked anyMemory largeDevice (withSendQueue 128) :=
  (tx_pool_as_large_as_asked_iff anyMemory largeDevice (withSendQueue 128) (by decide) (by decide)
    fun _ => ⟨rfl, by decide⟩).mpr ⟨by decide, by decide⟩

/-- A send queue of 4100: 32800 chunks are asked for, and the region is large enough for 32. -/
theorem tx_pool_not_as_large_as_asked :
    Passes largeDevice (withSendQueue 4100) ∧
      Serves anyMemory (131072 * (8 * txQueueLen largeDevice (withSendQueue 4100))) ∧
      ¬ AsLargeAsAsked anyMemory largeDevice (withSendQueue 4100) := by
  refine ⟨by decide, ⟨rfl, by decide⟩, ?_⟩
  rintro ⟨pool, hrun, hsized, -⟩
  rw [init, if_pos (by decide)] at hrun
  obtain ⟨-, base, hbase, hend⟩ := createTxPool_region hrun
  obtain ⟨base', hbase', hend', -⟩ := hsized.region
  cases hbase.symm.trans hbase'
  have hregion : ((withSendQueue 4100).rdmaBufferSizeBytes *
      (8 * txQueueLen largeDevice (withSendQueue 4100))).toNat = 4194304 := by decide
  have hasked : (withSendQueue 4100).rdmaBufferSizeBytes.toNat *
      (8 * (txQueueLen largeDevice (withSendQueue 4100)).toNat) = 4299161600 := by decide
  omega

end Cluster

end RdmaCapsule.Core
