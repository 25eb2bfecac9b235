import RdmaCapsule.Core.PoolSize
import RdmaCapsule.Foundation.Loop

/-! The blocks of the receive pool. `PoolAllocator::malloc` divides a block by the bytes of a header
and its data, and constructs a chunk after each such stretch; `boost::pool` hands out pieces of that
size rounded up to a multiple of 8. -/
namespace RdmaCapsule.Core

open RdmaCapsule.Foundation

/-- What `MemoryManager::malloc` and `ibv_reg_mr` answer: an address, and the `lkey` of the region
that is registered there. -/
structure RxMemory where
  malloc : UInt64 → Option Nat
  regMr : Nat → UInt64 → Option UInt32

/-- `MemPoolContext`, without the counters that it reports to. -/
structure MemPoolContext where
  nBufsAllocated : UInt32

namespace MemPoolContext

def canAlloc (config : InitConfig) (nbufs : UInt32) (ctx : MemPoolContext) : Bool :=
  if config.rdmaReceiveBuffersBytes ≤ 0 then true
  else if ctx.nBufsAllocated + nbufs > config.rdmaReceiveBuffersBytes then false
  else true

def updateStats (nbufs : UInt32) (ctx : MemPoolContext) : MemPoolContext :=
  { ctx with nBufsAllocated := ctx.nBufsAllocated + nbufs }

end MemPoolContext

namespace PoolAllocator

/-- `sizeof(Chunk)`: three pointers, four words, and the two counters behind `data`. -/
def sizeofChunk : UInt64 := 56

/-- `offsetof(Chunk, data)`. -/
def dataOffset : Nat := 40

/-- `sizeof(mem_info)`, which is also where its `chunks` are. -/
def sizeofMemInfo : UInt64 := 24

def chunkBufferSize (config : InitConfig) : UInt64 :=
  sizeofChunk + config.rdmaBufferSizeBytes.toUInt64

def chunkBufferNumber (config : InitConfig) (blockSize : UInt64) : UInt64 :=
  blockSize / chunkBufferSize config

/-- A `Chunk` that is constructed at an address, in a region with this `lkey`. -/
structure Header where
  place : Nat
  lkey : UInt32
  chunk : Chunk

def newChunk (config : InitConfig) (lkey : UInt32) (place : Nat) : Header :=
  ⟨place, lkey, ⟨none, config.rdmaBufferSizeBytes, 0, 0, place + dataOffset⟩⟩

/-- The variables of the loop, and the chunks that it has constructed. -/
structure Chunks where
  i : UInt32
  chunk : Nat
  headers : List Header

/-- The loop over the chunks of a block that ends at `blockEnd`. The counter has 32 bits, and the
number it is compared with has 64. -/
def initializeChunks (config : InitConfig) (lkey : UInt32) (blockSize : UInt64) (blockEnd : Nat) :
    Loop Chunks Fault where
  going st := decide (st.i.toUInt64 < chunkBufferNumber config blockSize)
  body st :=
    if st.chunk + sizeofChunk.toNat ≤ blockEnd then
      .ok ⟨st.i + 1, st.chunk + (chunkBufferSize config).toNat,
        st.headers ++ [newChunk config lkey st.chunk]⟩
    else .error .headerOverrun

/-- The checks before the loop: the address of the chunks and the `lkey` of their region. -/
def reserve (memory : RxMemory) (config : InitConfig) (blockSize : UInt64)
    (ctx : MemPoolContext) : Option (Nat × UInt32) :=
  if ctx.canAlloc config (chunkBufferNumber config blockSize).toUInt32 then do
    let minfo ← memory.malloc (blockSize + sizeofMemInfo)
    let lkey ← memory.regMr (minfo + sizeofMemInfo.toNat) blockSize
    pure (minfo + sizeofMemInfo.toNat, lkey)
  else none

/-- A block as `malloc` leaves it: `nbufs` in its `mem_info`, the address that is returned, the
chunks in it, and the context it was taken from. -/
structure Block where
  nbufs : UInt32
  chunks : Nat
  headers : List Header
  ctx : MemPoolContext

/-- `malloc` returns, with no block where it returns `NULL`. -/
inductive Malloc (memory : RxMemory) (config : InitConfig) (blockSize : UInt64)
    (ctx : MemPoolContext) : Option Block → Prop where
  | null (h : reserve memory config blockSize ctx = none) : Malloc memory config blockSize ctx none
  | block {chunks : Nat} {lkey : UInt32} {st : Chunks}
      (h : reserve memory config blockSize ctx = some (chunks, lkey))
      (hloop : (initializeChunks config lkey blockSize (chunks + blockSize.toNat)).Finishes
        ⟨0, chunks, []⟩ st) :
      Malloc memory config blockSize ctx (some {
        nbufs := (chunkBufferNumber config blockSize).toUInt32
        chunks := chunks
        headers := st.headers
        ctx := ctx.updateStats (chunkBufferNumber config blockSize).toUInt32 })

/-- The requested size, as `boost::pool` rounds it up. -/
def partitionSize (config : InitConfig) : Nat :=
  (sizeofChunk.toNat + config.rdmaBufferSizeBytes.toNat + 7) / 8 * 8

/-- The address belongs to the header or to its data. -/
def Header.Covers (header : Header) (address : Nat) : Prop :=
  (header.place ≤ address ∧ address < header.place + sizeofChunk.toNat) ∨
    (header.chunk.buffer ≤ address ∧
      address < header.chunk.buffer + header.chunk.bytes.toNat)

/-- Where a piece starts that the pool hands out. -/
def Block.piece (block : Block) (config : InitConfig) (i : Nat) : Nat :=
  block.chunks + i * partitionSize config

/-- The block is ready for the pool to cut it into this many pieces. -/
structure Initialised (config : InitConfig) (pieces : Nat) (block : Block) : Prop where
  nbufs : block.nbufs.toNat = pieces
  constructed : ∀ i < pieces,
    block.headers.countP (fun header => header.place = block.piece config i) = 1
  disjoint : ∀ i < pieces, ∀ j < pieces, i ≠ j →
    ∀ header ∈ block.headers, header.place = block.piece config i →
      ∀ header' ∈ block.headers, header'.place = block.piece config j →
        ∀ address, ¬ (header.Covers address ∧ header'.Covers address)

/-- `malloc` returns, and a block that it returns is ready. -/
def InitialisedWhereUsed (memory : RxMemory) (config : InitConfig) (blockSize : UInt64)
    (ctx : MemPoolContext) (pieces : Nat) : Prop :=
  ∃ result, Malloc memory config blockSize ctx result ∧
    ∀ block, result = some block → Initialised config pieces block

/-- None of the checks of `malloc` refuses the block. -/
def Granted (memory : RxMemory) (config : InitConfig) (blockSize : UInt64)
    (ctx : MemPoolContext) : Prop :=
  ctx.canAlloc config (chunkBufferNumber config blockSize).toUInt32 = true ∧
    ∃ minfo, memory.malloc (blockSize + sizeofMemInfo) = some minfo ∧
      (memory.regMr (minfo + sizeofMemInfo.toNat) blockSize).isSome

variable {memory : RxMemory} {config : InitConfig} {blockSize : UInt64} {ctx : MemPoolContext}
  {lkey : UInt32} {pieces chunks blockEnd : Nat} {st : Chunks} {header : Header} {block : Block}

theorem chunkBufferSize_toNat (config : InitConfig) :
    (chunkBufferSize config).toNat = 56 + config.rdmaBufferSizeBytes.toNat := by
  have hless := config.rdmaBufferSizeBytes.toNat_lt
  have hsizeof : sizeofChunk.toNat = 56 := rfl
  rw [chunkBufferSize, UInt64.toNat_add, UInt32.toNat_toUInt64, hsizeof]
  omega

theorem chunkBufferNumber_toNat (config : InitConfig) (blockSize : UInt64) :
    (chunkBufferNumber config blockSize).toNat =
      blockSize.toNat / (chunkBufferSize config).toNat := UInt64.toNat_div _ _

theorem granted_iff_reserve :
    Granted memory config blockSize ctx ↔
      ∃ chunks lkey, reserve memory config blockSize ctx = some (chunks, lkey) := by
  unfold Granted reserve
  constructor
  · rintro ⟨hcan, minfo, hmalloc, hreg⟩
    obtain ⟨lkey, hlkey⟩ := Option.isSome_iff_exists.mp hreg
    exact ⟨minfo + sizeofMemInfo.toNat, lkey, by simp [hcan, hmalloc, hlkey]⟩
  · rintro ⟨chunks, lkey, hreserve⟩
    split at hreserve
    · rename_i hcan
      obtain ⟨minfo, hmalloc, hrest⟩ := Option.bind_eq_some_iff.mp hreserve
      obtain ⟨key, hlkey, -⟩ := Option.bind_eq_some_iff.mp hrest
      exact ⟨hcan, minfo, hmalloc, Option.isSome_iff_exists.mpr ⟨key, hlkey⟩⟩
    · cases hreserve

/-- A piece is as large as a stretch, or a little larger. -/
theorem partitionSize_bounds (config : InitConfig) :
    (chunkBufferSize config).toNat ≤ partitionSize config ∧
      partitionSize config < (chunkBufferSize config).toNat + 8 ∧
      56 ≤ (chunkBufferSize config).toNat := by
  have hsizeof : sizeofChunk.toNat = 56 := rfl
  rw [chunkBufferSize_toNat, partitionSize, hsizeof]
  omega

theorem partitionSize_eq_iff (config : InitConfig) :
    partitionSize config = (chunkBufferSize config).toNat ↔
      8 ∣ config.rdmaBufferSizeBytes.toNat := by
  have hsizeof : sizeofChunk.toNat = 56 := rfl
  rw [chunkBufferSize_toNat, partitionSize, hsizeof]
  omega

/-- The loop has constructed a chunk after each stretch, from the start of the block on. -/
structure Constructed (config : InitConfig) (lkey : UInt32) (chunks : Nat) (st : Chunks) : Prop where
  chunk : st.chunk = chunks + st.i.toNat * (chunkBufferSize config).toNat
  headers : st.headers = (List.range st.i.toNat).map fun j =>
    newChunk config lkey (chunks + j * (chunkBufferSize config).toNat)

theorem constructed_start (config : InitConfig) (lkey : UInt32) (chunks : Nat) :
    Constructed config lkey chunks ⟨0, chunks, []⟩ where
  chunk := by simp
  headers := by simp

theorem going_iff (config : InitConfig) (lkey : UInt32) (blockSize : UInt64) (blockEnd : Nat)
    (st : Chunks) :
    (initializeChunks config lkey blockSize blockEnd).going st = true ↔
      st.i.toNat < (chunkBufferNumber config blockSize).toNat := by
  simp only [initializeChunks, decide_eq_true_eq, UInt64.lt_iff_toNat_lt, UInt32.toNat_toUInt64]

/-- A pass, where the counter does not wrap around. -/
theorem Constructed.pass {next : Chunks} (h : Constructed config lkey chunks st)
    (hcount : st.i.toNat + 1 < 2 ^ 32)
    (hpass : (initializeChunks config lkey blockSize blockEnd).body st = .ok next) :
    Constructed config lkey chunks next ∧ next.i.toNat = st.i.toNat + 1 := by
  have hi : (st.i + 1).toNat = st.i.toNat + 1 := by
    rw [UInt32.toNat_add, UInt32.toNat_one]
    omega
  simp only [initializeChunks] at hpass
  split at hpass
  · cases hpass
    refine ⟨⟨?_, ?_⟩, hi⟩
    · dsimp only
      rw [h.chunk, hi, Nat.succ_mul, Nat.add_assoc]
    · dsimp only
      rw [h.headers, hi, List.range_succ, List.map_append, h.chunk]
      rfl
  · cases hpass

theorem pass_ok (h : Constructed config lkey chunks st)
    (hgoing : st.i.toNat < (chunkBufferNumber config blockSize).toNat) :
    ∃ next, (initializeChunks config lkey blockSize (chunks + blockSize.toNat)).body st =
      .ok next := by
  have hbounds := partitionSize_bounds config
  have hroom := Nat.div_mul_le_self blockSize.toNat (chunkBufferSize config).toNat
  rw [← chunkBufferNumber_toNat] at hroom
  have hnext := Nat.mul_le_mul_right (chunkBufferSize config).toNat (Nat.succ_le_of_lt hgoing)
  rw [Nat.succ_mul] at hnext
  have hsizeof : sizeofChunk.toNat = 56 := rfl
  simp only [initializeChunks, h.chunk]
  exact ⟨_, if_pos (by omega)⟩

/-- The loop ends where the number of chunks has 32 bits. -/
theorem initializeChunks_finishes (config : InitConfig) (lkey : UInt32) (chunks : Nat)
    (hnumber : (chunkBufferNumber config blockSize).toNat < 2 ^ 32) :
    ∃ st, (initializeChunks config lkey blockSize (chunks + blockSize.toNat)).Finishes
      ⟨0, chunks, []⟩ st ∧ Constructed config lkey chunks st := by
  refine Loop.finishes_of_variant (Constructed config lkey chunks)
    (fun st => (chunkBufferNumber config blockSize).toNat - st.i.toNat)
    (fun st hst hgoing => ?_) (constructed_start config lkey chunks)
  rw [going_iff] at hgoing
  obtain ⟨next, hpass⟩ := pass_ok hst hgoing
  obtain ⟨hnext, hi⟩ := hst.pass (by omega) hpass
  exact ⟨next, hpass, hnext, by omega⟩

/-- The chunks that it leaves, where it ends. -/
theorem headers_of_finishes
    (h : (initializeChunks config lkey blockSize blockEnd).Finishes ⟨0, chunks, []⟩ st) :
    (chunkBufferNumber config blockSize).toNat < 2 ^ 32 ∧
      st.headers = (List.range (chunkBufferNumber config blockSize).toNat).map fun j =>
        newChunk config lkey (chunks + j * (chunkBufferSize config).toNat) := by
  have hended := h.ended
  rw [← Bool.not_eq_true, going_iff] at hended
  have hcount := st.i.toNat_lt
  obtain ⟨hst, hi⟩ := h.keeps
    (fun st => Constructed config lkey chunks st ∧
      st.i.toNat ≤ (chunkBufferNumber config blockSize).toNat)
    (fun st next ⟨hst, hle⟩ hgoing hpass => by
      rw [going_iff] at hgoing
      obtain ⟨hnext, hi⟩ := hst.pass (by omega) hpass
      exact ⟨hnext, by omega⟩)
    ⟨constructed_start config lkey chunks, by simp⟩
  have hall : st.i.toNat = (chunkBufferNumber config blockSize).toNat := by omega
  exact ⟨by omega, hall ▸ hst.headers⟩

/-- A block that `malloc` returns: the chunks are a stretch apart. -/
theorem Malloc.spec (h : Malloc memory config blockSize ctx (some block)) :
    ∃ lkey, (chunkBufferNumber config blockSize).toNat < 2 ^ 32 ∧
      block.nbufs = (chunkBufferNumber config blockSize).toUInt32 ∧
      block.headers = (List.range (chunkBufferNumber config blockSize).toNat).map fun j =>
        newChunk config lkey (block.chunks + j * (chunkBufferSize config).toNat) := by
  cases h with
  | block _ hloop =>
      obtain ⟨hnumber, hheaders⟩ := headers_of_finishes hloop
      exact ⟨_, hnumber, rfl, hheaders⟩

/-- Where the sizes differ, no chunk is at the start of the second piece. -/
theorem not_initialised (hmultiple : ¬ 8 ∣ config.rdmaBufferSizeBytes.toNat) (hpieces : 1 < pieces)
    (h : Malloc memory config blockSize ctx (some block)) : ¬ Initialised config pieces block := by
  intro hinitialised
  obtain ⟨lkey, -, -, hheaders⟩ := h.spec
  have hbounds := partitionSize_bounds config
  have hne := mt (partitionSize_eq_iff config).mp hmultiple
  have hone := hinitialised.constructed 1 hpieces
  obtain ⟨header, hmem, hplace⟩ := List.countP_pos_iff.mp (hone ▸ Nat.one_pos)
  rw [hheaders] at hmem
  obtain ⟨j, -, rfl⟩ := List.mem_map.mp hmem
  simp only [newChunk, Block.piece, decide_eq_true_eq, Nat.one_mul, Nat.add_left_cancel_iff]
    at hplace
  -- The size of a piece would be a multiple of that of a stretch, between once and twice of it.
  have hmore : 1 < j :=
    Nat.lt_of_mul_lt_mul_right (a := (chunkBufferSize config).toNat) (by omega)
  have hless : j < 2 :=
    Nat.lt_of_mul_lt_mul_right (a := (chunkBufferSize config).toNat) (by omega)
  omega

/-- Where the sizes agree as far as there are pieces, the block is divided as the pool cuts it. -/
theorem chunkBufferNumber_eq (hblock : blockSize.toNat = pieces * partitionSize config + 16)
    (hagree : 8 ∣ config.rdmaBufferSizeBytes.toNat ∨ pieces ≤ 1) :
    (chunkBufferNumber config blockSize).toNat = pieces ∧
      ∀ i < pieces, i * (chunkBufferSize config).toNat = i * partitionSize config := by
  have hbounds := partitionSize_bounds config
  rw [chunkBufferNumber_toNat, hblock]
  rcases hagree with hmultiple | hfew
  · rw [(partitionSize_eq_iff config).mpr hmultiple]
    refine ⟨?_, fun i _ => rfl⟩
    exact Nat.div_eq_of_lt_le (Nat.le_add_right _ _) (by
      rw [Nat.succ_mul]
      omega)
  · interval_cases pieces
    · refine ⟨Nat.div_eq_of_lt (by omega), fun i hi => by omega⟩
    · refine ⟨Nat.div_eq_of_lt_le (by omega) (by omega), fun i hi => ?_⟩
      rw [Nat.lt_one_iff.mp hi, Nat.zero_mul, Nat.zero_mul]

/-- A chunk and its data stay within one stretch. -/
theorem covers_newChunk {place address : Nat}
    (h : (newChunk config lkey place).Covers address) :
    place ≤ address ∧ address < place + (chunkBufferSize config).toNat := by
  have hsizeof : sizeofChunk.toNat = 56 := rfl
  rw [chunkBufferSize_toNat]
  unfold Header.Covers newChunk dataOffset at h
  dsimp only at h
  omega

/-- Exactly one chunk of the loop is at the start of a stretch. -/
theorem countP_newChunk {number i : Nat} (config : InitConfig) (lkey : UInt32) (chunks : Nat)
    (hi : i < number) :
    ((List.range number).map fun j =>
      newChunk config lkey (chunks + j * (chunkBufferSize config).toNat)).countP
        (fun header => header.place = chunks + i * (chunkBufferSize config).toNat) = 1 := by
  have hbounds := partitionSize_bounds config
  have hplace (j : Nat) : chunks + j * (chunkBufferSize config).toNat =
      chunks + i * (chunkBufferSize config).toNat ↔ j = i := by
    rw [Nat.add_left_cancel_iff, Nat.mul_left_inj (by omega)]
  rw [List.countP_map, ← List.count_eq_one_of_mem List.nodup_range (List.mem_range.mpr hi)]
  refine List.countP_congr fun j _ => ?_
  simp only [Function.comp_apply, newChunk, decide_eq_true_eq, hplace, beq_iff_eq]

/-- Where the sizes agree as far as there are pieces, and `nbufs` can count them, the block is
ready. -/
theorem initialised (hblock : blockSize.toNat = pieces * partitionSize config + 16)
    (hagree : 8 ∣ config.rdmaBufferSizeBytes.toNat ∨ pieces ≤ 1) (hpieces : pieces < 2 ^ 32)
    (h : Malloc memory config blockSize ctx (some block)) : Initialised config pieces block := by
  obtain ⟨lkey, -, hnbufs, hheaders⟩ := h.spec
  obtain ⟨hnumber, hplaces⟩ := chunkBufferNumber_eq hblock hagree
  rw [hnumber] at hheaders
  have hbounds := partitionSize_bounds config
  refine ⟨?_, fun i hi => ?_, fun i hi j hj hne header hmem hplace header' hmem' hplace' => ?_⟩
  · rw [hnbufs, UInt64.toNat_toUInt32, hnumber]
    exact Nat.mod_eq_of_lt hpieces
  · rw [hheaders, Block.piece, ← hplaces i hi]
    exact countP_newChunk config lkey block.chunks hi
  · rw [hheaders] at hmem hmem'
    obtain ⟨a, -, rfl⟩ := List.mem_map.mp hmem
    obtain ⟨b, -, rfl⟩ := List.mem_map.mp hmem'
    rintro address ⟨hcovers, hcovers'⟩
    have hin := covers_newChunk hcovers
    have hin' := covers_newChunk hcovers'
    simp only [newChunk, Block.piece] at hplace hplace'
    rcases Nat.lt_or_gt_of_ne hne with hless | hless
    · have hnext := Nat.mul_le_mul_right (partitionSize config) (Nat.succ_le_of_lt hless)
      rw [Nat.succ_mul] at hnext
      omega
    · have hnext := Nat.mul_le_mul_right (partitionSize config) (Nat.succ_le_of_lt hless)
      rw [Nat.succ_mul] at hnext
      omega

/-- With the block that `boost::pool` asks for, of pieces and 16 bytes more, `malloc` leaves exactly
one chunk at the start of each piece, as many as it counts and none over another, exactly where the
size of a buffer is a multiple of 8 or there is at most one piece, and there are fewer than 2^32
pieces, or where `malloc` is refused the block. -/
theorem blocks_initialised_iff (memory : RxMemory) (config : InitConfig) (blockSize : UInt64)
    (ctx : MemPoolContext) (pieces : Nat)
    (hblock : blockSize.toNat = pieces * partitionSize config + 16) :
    InitialisedWhereUsed memory config blockSize ctx pieces ↔
      (Granted memory config blockSize ctx →
        (8 ∣ config.rdmaBufferSizeBytes.toNat ∨ pieces ≤ 1) ∧ pieces < 2 ^ 32) := by
  rw [granted_iff_reserve]
  constructor
  · rintro ⟨result, hmalloc, hready⟩ ⟨chunks, lkey, hreserve⟩
    cases hmalloc with
    | null hnone => exact nomatch hnone.symm.trans hreserve
    | block h hloop =>
        have hinitialised := hready _ rfl
        refine ⟨?_, hinitialised.nbufs ▸ UInt32.toNat_lt _⟩
        by_contra hdisagree
        obtain ⟨hmultiple, hmany⟩ := not_or.mp hdisagree
        exact not_initialised hmultiple (Nat.lt_of_not_le hmany) (.block h hloop) hinitialised
  · intro hwhen
    cases hreserve : reserve memory config blockSize ctx with
    | none => exact ⟨none, .null hreserve, fun block heq => nomatch heq⟩
    | some found =>
        obtain ⟨hagree, hpieces⟩ := hwhen ⟨found.1, found.2, hreserve⟩
        obtain ⟨st, hloop, -⟩ := initializeChunks_finishes config found.2 found.1
          ((chunkBufferNumber_eq hblock hagree).1.trans_lt hpieces)
        have hmalloc : Malloc memory config blockSize ctx _ := .block hreserve hloop
        refine ⟨_, hmalloc, fun block heq => ?_⟩
        cases heq
        exact initialised hblock hagree hpieces hmalloc

/-- A machine that has memory for every block and registers it. -/
def anyRxMemory : RxMemory := ⟨fun _ => some 4096, fun _ _ => some 7⟩

/-- Buffers of the given size, and otherwise the default settings. -/
def withBufferSize (bytes : UInt32) : InitConfig := ⟨bytes, 128, 67108864, 256⟩

/-- Two buffers of the default size. -/
theorem blocks_initialised_iff_default :
    InitialisedWhereUsed anyRxMemory (withBufferSize 131072) 262272 ⟨0⟩ 2 :=
  (blocks_initialised_iff anyRxMemory (withBufferSize 131072) 262272 ⟨0⟩ 2 (by decide)).mpr
    fun _ => ⟨.inl (by decide), by decide⟩

/-- Two buffers of 100 bytes: pieces of 160 bytes, and chunks that are 156 bytes apart. -/
theorem blocks_not_initialised :
    (336 : UInt64).toNat = 2 * partitionSize (withBufferSize 100) + 16 ∧
      Granted anyRxMemory (withBufferSize 100) 336 ⟨0⟩ ∧
      ¬ InitialisedWhereUsed anyRxMemory (withBufferSize 100) 336 ⟨0⟩ 2 := by
  have hgranted : Granted anyRxMemory (withBufferSize 100) 336 ⟨0⟩ :=
    ⟨by decide, 4096, rfl, rfl⟩
  refine ⟨by decide, hgranted, ?_⟩
  rintro ⟨result, hmalloc, hready⟩
  cases hresult : result with
  | none =>
      obtain ⟨chunks, lkey, hreserve⟩ := granted_iff_reserve.mp hgranted
      rw [hresult] at hmalloc
      cases hmalloc with
      | null hnone => exact nomatch hnone.symm.trans hreserve
  | some block =>
      rw [hresult] at hmalloc
      exact not_initialised (by decide) (by decide) hmalloc (hready block hresult)

end PoolAllocator

end RdmaCapsule.Core
