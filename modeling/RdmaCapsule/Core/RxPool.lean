import RdmaCapsule.Core.RxBlocks
import RdmaCapsule.Foundation.Machine

/-! Where the blocks of the receive pool come from and where they go. `PoolAllocator` keeps what it
has to know about a block in front of it, and with huge pages `MemoryManager` keeps the size of the
mapping two megabytes in front of that. What `free` does is read from there, while the pool writes
into the blocks as it likes. -/
namespace RdmaCapsule.Core

open RdmaCapsule.Foundation

/-- Memory that the system has given: pages from `mmap`, or a piece of the heap. -/
structure Region where
  mapped : Bool
  base : Nat
  size : Nat
deriving DecidableEq

def Region.Apart (region region' : Region) : Prop :=
  region.base + region.size ≤ region'.base ∨ region'.base + region'.size ≤ region.base

instance : Std.Symm Region.Apart := ⟨fun _ _ => Or.symm⟩

structure RxPoolConfig extends InitConfig where
  rdmaEnableHugepage : Bool
  /-- The address of `rxbuf_pool_ctx`. -/
  rxbufPoolCtx : UInt64

/-- What `mmap`, `std::malloc` and `ibv_reg_mr` answer. -/
structure HostAnswers where
  mmap : Option Nat
  malloc : Option Nat
  regMr : Option UInt64

structure RxPool where
  /-- The words at aligned addresses. -/
  word : Nat → UInt64
  regions : List Region
  /-- Memory regions that are registered. -/
  mrs : List UInt64
  ctx : MemPoolContext
  /-- The blocks that the pool has, with their sizes. -/
  blocks : List (Nat × UInt64)

inductive PoolFault where
  | kassert
  /-- `munmap` of something that is not a mapping. -/
  | munmap
  /-- `std::free` of something that is not a piece of the heap. -/
  | free
  /-- `ibv_dereg_mr` of something that is not registered. -/
  | deregMr
  /-- Not the context that the block was counted in. -/
  | context

namespace RxPool

def setWord (pool : RxPool) (address : Nat) (value : UInt64) : RxPool :=
  { pool with word := Function.update pool.word address value }

def addRegion (pool : RxPool) (region : Region) : RxPool :=
  { pool with regions := region :: pool.regions }

/-- The words of a block become something else. -/
def overwrite (pool : RxPool) (start size : Nat) (contents : Nat → UInt64) : RxPool :=
  { pool with word := fun address =>
      if start ≤ address ∧ address < start + size then contents address else pool.word address }

def munmap (address : Nat) (size : UInt64) (pool : RxPool) : Except PoolFault RxPool :=
  let region : Region := ⟨true, address, size.toNat⟩
  if region ∈ pool.regions then .ok { pool with regions := pool.regions.erase region }
  else .error .munmap

def stdFree (address : Nat) (pool : RxPool) : Except PoolFault RxPool :=
  match pool.regions.find? fun region => !region.mapped && region.base = address with
  | some region => .ok { pool with regions := pool.regions.erase region }
  | none => .error .free

def deregMr (mr : UInt64) (pool : RxPool) : Except PoolFault RxPool :=
  if mr ∈ pool.mrs then .ok { pool with mrs := pool.mrs.erase mr } else .error .deregMr

end RxPool

namespace MemoryManager

def hugePageSize2MB : UInt64 := 2 * 1024 * 1024

def alignToPage2MB (size : UInt64) : UInt64 :=
  (size + (hugePageSize2MB - 1)) &&& ~~~(hugePageSize2MB - 1)

/-- `real_size`. -/
def realSize (size : UInt64) : UInt64 := alignToPage2MB size + hugePageSize2MB

def hugePagesMalloc (size : UInt64) (answers : HostAnswers) (pool : RxPool) :
    Option (Nat × RxPool) :=
  match answers.mmap with
  | some ptr =>
      some (ptr + hugePageSize2MB.toNat,
        (pool.addRegion ⟨true, ptr, (realSize size).toNat⟩).setWord ptr (realSize size))
  | none =>
      match answers.malloc with
      | some ptr =>
          some (ptr + hugePageSize2MB.toNat,
            (pool.addRegion ⟨false, ptr, (realSize size).toNat⟩).setWord ptr 0)
      | none => none

def hugePagesFree (ptr : Nat) (pool : RxPool) : Except PoolFault RxPool :=
  let realPtr := ptr - hugePageSize2MB.toNat
  let realSize := pool.word realPtr
  if realSize % hugePageSize2MB ≠ 0 then .error .kassert
  else if realSize ≠ 0 then pool.munmap realPtr realSize
  else pool.stdFree realPtr

def malloc (config : RxPoolConfig) (size : UInt64) (answers : HostAnswers) (pool : RxPool) :
    Option (Nat × RxPool) :=
  if config.rdmaEnableHugepage then hugePagesMalloc size answers pool
  else answers.malloc.map fun ptr => (ptr, pool.addRegion ⟨false, ptr, size.toNat⟩)

def free (config : RxPoolConfig) (ptr : Nat) (pool : RxPool) : Except PoolFault RxPool :=
  if config.rdmaEnableHugepage then hugePagesFree ptr pool else pool.stdFree ptr

end MemoryManager

namespace PoolAllocator

/-- `malloc` with the writes into `mem_info`, its `mr`, `ctx` and `nbufs`; the chunks that it
constructs are within the block. -/
def malloc (config : RxPoolConfig) (blockSize : UInt64) (answers : HostAnswers) (pool : RxPool) :
    Except PoolFault (Option Nat × RxPool) :=
  let nbufs := (chunkBufferNumber config.toInitConfig blockSize).toUInt32
  if !pool.ctx.canAlloc config.toInitConfig nbufs then .ok (none, pool)
  else
    match MemoryManager.malloc config (blockSize + sizeofMemInfo) answers pool with
    | none => .ok (none, pool)
    | some (minfo, pool) =>
        match answers.regMr with
        | none => do
            let pool ← MemoryManager.free config minfo pool
            .ok (none, pool)
        | some mr =>
            let pool := { pool with mrs := mr :: pool.mrs }
            let pool := ((pool.setWord minfo mr).setWord (minfo + 8) config.rxbufPoolCtx).setWord
              (minfo + 16) nbufs.toUInt64
            .ok (some (minfo + sizeofMemInfo.toNat),
              { pool with ctx := pool.ctx.updateStats nbufs })

def free (config : RxPoolConfig) (block : Nat) (pool : RxPool) : Except PoolFault RxPool := do
  let m := block - sizeofMemInfo.toNat
  let mr := pool.word m
  let nbufs := (pool.word (m + 16)).toUInt32
  if pool.word (m + 8) ≠ config.rxbufPoolCtx then .error .context
  else
    let pool ← { pool with ctx := pool.ctx.updateStats (-nbufs) }.deregMr mr
    MemoryManager.free config m pool

end PoolAllocator

namespace RxPool

inductive Op where
  | malloc (blockSize : UInt64) (answers : HostAnswers)
  | free (block : Nat × UInt64)
  | write (block : Nat × UInt64) (contents : Nat → UInt64)

def step (config : RxPoolConfig) (pool : RxPool) : Op → Except PoolFault RxPool
  | .malloc blockSize answers => do
      let (block, pool) ← PoolAllocator.malloc config blockSize answers pool
      match block with
      | some block => .ok { pool with blocks := (block, blockSize) :: pool.blocks }
      | none => .ok pool
  | .free block => do
      let pool ← PoolAllocator.free config block.1 pool
      .ok { pool with blocks := pool.blocks.erase block }
  | .write block contents => .ok (pool.overwrite block.1 block.2.toNat contents)

/-- Memory is given where none is in use. -/
def Fresh (pool : RxPool) (base size : Nat) : Prop :=
  ∀ region ∈ pool.regions, Region.Apart ⟨false, base, size⟩ region

/-- The size of the allocation under a block. -/
def allocationSize (config : RxPoolConfig) (blockSize : UInt64) : UInt64 :=
  if config.rdmaEnableHugepage then
    MemoryManager.realSize (blockSize + PoolAllocator.sizeofMemInfo)
  else blockSize + PoolAllocator.sizeofMemInfo

/-- The system gives and registers memory as it has to, sizes have 64 bits, and the pool gives back
and writes to blocks that it has. -/
def Enabled (config : RxPoolConfig) (pool : RxPool) : Op → Prop
  | .malloc blockSize answers =>
      blockSize.toNat + 2 ^ 23 ≤ 2 ^ 64 ∧
      (∀ base, answers.mmap = some base ∨ answers.malloc = some base →
        pool.Fresh base (allocationSize config blockSize).toNat) ∧
      ∀ mr, answers.regMr = some mr → mr ∉ pool.mrs
  | .free block => block ∈ pool.blocks
  | .write block _ => block ∈ pool.blocks

def Start (pool : RxPool) : Prop :=
  pool.regions = [] ∧ pool.mrs = [] ∧ pool.ctx.nBufsAllocated = 0 ∧ pool.blocks = []

def machine (config : RxPoolConfig) : Machine RxPool Op PoolFault where
  start := Start
  enabled := Enabled config
  step := step config

/-- A block that the pool has, with what it was given for it. -/
structure RxBlock where
  chunks : Nat
  size : UInt64
  nbufs : UInt32
  mr : UInt64
  region : Region
deriving DecidableEq

/-- Where `MemoryManager::malloc` points to in its region. -/
def offset (config : RxPoolConfig) : Nat := if config.rdmaEnableHugepage then 2 ^ 21 else 0

/-- The word in front of huge pages says how to give the region back. -/
def Backs (config : RxPoolConfig) (word : Nat → UInt64) (region : Region) : Prop :=
  if config.rdmaEnableHugepage then
    if region.mapped then
      (word region.base).toNat = region.size ∧ 2 ^ 21 ∣ region.size
    else word region.base = 0
  else region.mapped = false

/-- The number of buffers that a block is counted with. -/
def requested (config : RxPoolConfig) (blockSize : UInt64) : UInt32 :=
  (PoolAllocator.chunkBufferNumber config.toInitConfig blockSize).toUInt32

structure Held (config : RxPoolConfig) (pool : RxPool) (block : RxBlock) : Prop where
  start : block.region.base + offset config + 24 = block.chunks
  room : block.chunks + block.size.toNat ≤ block.region.base + block.region.size
  mr : pool.word (block.chunks - 24) = block.mr
  ctx : pool.word (block.chunks - 24 + 8) = config.rxbufPoolCtx
  nbufs : (pool.word (block.chunks - 24 + 16)).toUInt32 = block.nbufs
  backs : Backs config pool.word block.region
  counted : block.nbufs = requested config block.size

/-- What the system has given is what the blocks were made of. -/
structure Inv (config : RxPoolConfig) (pool : RxPool) (held : List RxBlock) : Prop where
  blocks : pool.blocks.Perm (held.map fun block => (block.chunks, block.size))
  regions : pool.regions.Perm (held.map RxBlock.region)
  mrs : pool.mrs.Perm (held.map RxBlock.mr)
  count : pool.ctx.nBufsAllocated = (held.map RxBlock.nbufs).sum
  apart : pool.regions.Pairwise Region.Apart
  positive : ∀ region ∈ pool.regions, 0 < region.size
  held : ∀ block ∈ held, Held config pool block

variable {config : RxPoolConfig} {pool pool' : RxPool} {held rest : List RxBlock}
  {block : RxBlock} {region region' : Region}

/-- Two regions of a pool that meet are the same. -/
theorem eq_of_base (hapart : pool.regions.Pairwise Region.Apart)
    (hpositive : ∀ region ∈ pool.regions, 0 < region.size) (hregion : region ∈ pool.regions)
    (hregion' : region' ∈ pool.regions) (hbase : region'.base = region.base) :
    region' = region := by
  by_contra hne
  have hsep := hapart.forall hregion' hregion hne
  have hpos := hpositive region hregion
  have hpos' := hpositive region' hregion'
  unfold Region.Apart at hsep
  omega

theorem stdFree_eq (hapart : pool.regions.Pairwise Region.Apart)
    (hpositive : ∀ region ∈ pool.regions, 0 < region.size) (hregion : region ∈ pool.regions)
    (hheap : region.mapped = false) :
    pool.stdFree region.base = .ok { pool with regions := pool.regions.erase region } := by
  unfold stdFree
  cases hfind : pool.regions.find? fun r => !r.mapped && r.base = region.base with
  | none =>
      have hnot := List.find?_eq_none.mp hfind region hregion
      simp [hheap] at hnot
  | some region' =>
      have hthis := List.find?_some hfind
      simp only [Bool.and_eq_true, decide_eq_true_eq] at hthis
      have hsame := eq_of_base hapart hpositive hregion (List.mem_of_find?_eq_some hfind) hthis.2
      rw [hsame]

theorem free_eq (hapart : pool.regions.Pairwise Region.Apart)
    (hpositive : ∀ region ∈ pool.regions, 0 < region.size) (hregion : region ∈ pool.regions)
    (hbacks : Backs config pool.word region) :
    MemoryManager.free config (region.base + offset config) pool =
      .ok { pool with regions := pool.regions.erase region } := by
  have hpos := hpositive region hregion
  unfold MemoryManager.free
  unfold Backs at hbacks
  unfold offset
  cases hhuge : config.rdmaEnableHugepage with
  | false =>
      rw [hhuge] at hbacks
      exact stdFree_eq hapart hpositive hregion hbacks
  | true =>
      rw [hhuge] at hbacks
      simp only [if_true] at hbacks ⊢
      have hback : region.base + 2 ^ 21 - MemoryManager.hugePageSize2MB.toNat = region.base := by
        rw [show MemoryManager.hugePageSize2MB.toNat = 2 ^ 21 from rfl, Nat.add_sub_cancel]
      unfold MemoryManager.hugePagesFree
      dsimp only
      rw [hback]
      cases hmapped : region.mapped with
      | false =>
          rw [hmapped] at hbacks
          have hzero : pool.word region.base = 0 := hbacks
          rw [hzero]
          exact stdFree_eq hapart hpositive hregion hmapped
      | true =>
          rw [hmapped] at hbacks
          obtain ⟨hsize, hdvd⟩ := hbacks
          have hmod : pool.word region.base % MemoryManager.hugePageSize2MB = 0 := by
            rw [← UInt64.toNat_inj, UInt64.toNat_mod, hsize]
            exact Nat.mod_eq_zero_of_dvd hdvd
          have hne : pool.word region.base ≠ 0 := by
            intro hzero
            rw [hzero] at hsize
            have hempty : region.size = 0 := hsize.symm
            omega
          rw [if_neg (not_not.mpr hmod), if_pos hne]
          have hsame : (⟨true, region.base, (pool.word region.base).toNat⟩ : Region) = region := by
            rw [hsize, ← hmapped]
          unfold munmap
          dsimp only
          rw [hsame, if_pos hregion]

theorem Held.congr (h : Held config pool block) (hword : ∀ address, block.region.base ≤ address →
    address < block.chunks → pool'.word address = pool.word address) :
    Held config pool' block := by
  have hstart := h.start
  refine ⟨h.start, h.room, ?_, ?_, ?_, ?_, h.counted⟩
  · rw [hword _ (by omega) (by omega)]
    exact h.mr
  · rw [hword _ (by omega) (by omega)]
    exact h.ctx
  · rw [hword _ (by omega) (by omega)]
    exact h.nbufs
  · have hbacks := h.backs
    unfold Backs at hbacks ⊢
    rwa [hword _ le_rfl (by omega)]

theorem Inv.perm {held' : List RxBlock} (h : Inv config pool held) (hperm : held.Perm held') :
    Inv config pool held' :=
  ⟨h.blocks.trans (hperm.map _), h.regions.trans (hperm.map _), h.mrs.trans (hperm.map _),
    h.count.trans (hperm.map _).sum_eq, h.apart, h.positive,
    fun block hblock => h.held block (hperm.mem_iff.mpr hblock)⟩

theorem Inv.start (h : pool.Start) : Inv config pool [] := by
  obtain ⟨hregions, hmrs, hcount, hblocks⟩ := h
  exact ⟨by simp [hblocks], by simp [hregions], by simp [hmrs], by simp [hcount],
    by simp [hregions], by simp [hregions], nofun⟩

theorem clearLow_toNat (x : UInt64) :
    (x &&& ~~~(MemoryManager.hugePageSize2MB - 1)).toNat = x.toNat / 2 ^ 21 * 2 ^ 21 := by
  have hmask : (MemoryManager.hugePageSize2MB - 1).toBitVec = BitVec.ofNat 64 (2 ^ 21 - 1) := by
    decide
  have hshift : (x &&& ~~~(MemoryManager.hugePageSize2MB - 1)).toBitVec =
      (x.toBitVec >>> 21) <<< 21 := by
    apply BitVec.eq_of_getLsbD_eq
    intro i hi
    simp only [UInt64.toBitVec_and, UInt64.toBitVec_not, hmask, BitVec.getLsbD_and,
      BitVec.getLsbD_not, BitVec.getLsbD_ofNat, Nat.testBit_two_pow_sub_one,
      BitVec.getLsbD_shiftLeft, BitVec.getLsbD_ushiftRight, hi]
    by_cases h : i < 21
    · simp [h]
    · simp [h, show 21 + (i - 21) = i by omega]
  have hlt := x.toNat_lt
  rw [← UInt64.toNat_toBitVec, hshift, BitVec.toNat_shiftLeft, BitVec.toNat_ushiftRight,
    UInt64.toNat_toBitVec, Nat.shiftLeft_eq, Nat.shiftRight_eq_div_pow]
  omega

/-- The mapping has whole pages, and two megabytes in front of the size that is asked for. -/
theorem realSize_spec {size : UInt64} (hsize : size.toNat + 2 ^ 22 ≤ 2 ^ 64) :
    size.toNat + 2 ^ 21 ≤ (MemoryManager.realSize size).toNat ∧
      2 ^ 21 ∣ (MemoryManager.realSize size).toNat := by
  have hpage : MemoryManager.hugePageSize2MB.toNat = 2 ^ 21 := rfl
  have hmask : (MemoryManager.hugePageSize2MB - 1).toNat = 2 ^ 21 - 1 := rfl
  have hadd : (size + (MemoryManager.hugePageSize2MB - 1)).toNat = size.toNat + (2 ^ 21 - 1) := by
    rw [UInt64.toNat_add, hmask, Nat.mod_eq_of_lt (by omega)]
  have haligned : (MemoryManager.alignToPage2MB size).toNat =
      (size.toNat + (2 ^ 21 - 1)) / 2 ^ 21 * 2 ^ 21 := by
    unfold MemoryManager.alignToPage2MB
    rw [clearLow_toNat, hadd]
  have hreal : (MemoryManager.realSize size).toNat =
      (size.toNat + (2 ^ 21 - 1)) / 2 ^ 21 * 2 ^ 21 + 2 ^ 21 := by
    unfold MemoryManager.realSize
    rw [UInt64.toNat_add, haligned, hpage, Nat.mod_eq_of_lt (by omega)]
  rw [hreal]
  exact ⟨by omega, Dvd.intro_left _ (Nat.succ_mul _ _)⟩

/-- What `MemoryManager::malloc` does where it does not fail. -/
structure Given (config : RxPoolConfig) (size : UInt64) (answers : HostAnswers) (pool : RxPool)
    (region : Region) (pool' : RxPool) : Prop where
  answer : answers.mmap = some region.base ∨ answers.malloc = some region.base
  length : region.size = (if config.rdmaEnableHugepage then MemoryManager.realSize size
    else size).toNat
  room : offset config + size.toNat ≤ region.size
  regions : pool'.regions = region :: pool.regions
  backs : Backs config pool'.word region
  word : ∀ address, address ≠ region.base → pool'.word address = pool.word address
  mrs : pool'.mrs = pool.mrs
  ctx : pool'.ctx = pool.ctx
  blocks : pool'.blocks = pool.blocks

theorem malloc_given {size : UInt64} {answers : HostAnswers} {ptr : Nat}
    (hsize : size.toNat + 2 ^ 22 ≤ 2 ^ 64)
    (hrun : MemoryManager.malloc config size answers pool = some (ptr, pool')) :
    ∃ region, ptr = region.base + offset config ∧ Given config size answers pool region pool' := by
  obtain ⟨hroom, hdvd⟩ := realSize_spec hsize
  unfold MemoryManager.malloc at hrun
  cases hhuge : config.rdmaEnableHugepage with
  | false =>
      rw [hhuge] at hrun
      obtain ⟨base, hbase, hresult⟩ := Option.map_eq_some_iff.mp hrun
      cases hresult
      refine ⟨⟨false, ptr, size.toNat⟩, ?_, .inr hbase, ?_, ?_, rfl, ?_, fun _ _ => rfl, rfl, rfl,
        rfl⟩
      · simp [offset, hhuge]
      · simp [hhuge]
      · simp [offset, hhuge]
      · simp [Backs, hhuge]
  | true =>
      rw [hhuge, if_pos rfl] at hrun
      have hoffset : offset config = 2 ^ 21 := by simp [offset, hhuge]
      unfold MemoryManager.hugePagesMalloc at hrun
      cases hmmap : answers.mmap with
      | some base =>
          rw [hmmap] at hrun
          cases hrun
          refine ⟨⟨true, base, (MemoryManager.realSize size).toNat⟩, ?_, .inl hmmap, ?_, ?_, rfl, ?_,
            fun address hne => Function.update_of_ne hne .., rfl, rfl, rfl⟩
          · rw [hoffset]
            rfl
          · simp [hhuge]
          · rw [hoffset]
            dsimp only
            omega
          · simp only [Backs, hhuge, if_true]
            exact ⟨congrArg UInt64.toNat (Function.update_self ..), hdvd⟩
      | none =>
          rw [hmmap] at hrun
          cases hmalloc : answers.malloc with
          | none =>
              rw [hmalloc] at hrun
              exact nomatch hrun
          | some base =>
              rw [hmalloc] at hrun
              cases hrun
              refine ⟨⟨false, base, (MemoryManager.realSize size).toNat⟩, ?_, .inr hmalloc, ?_, ?_,
                rfl, ?_, fun address hne => Function.update_of_ne hne .., rfl, rfl, rfl⟩
              · rw [hoffset]
                rfl
              · simp [hhuge]
              · rw [hoffset]
                dsimp only
                omega
              · simp only [Backs, hhuge, if_true]
                exact Function.update_self ..

/-- A new region, before the pool has made anything of it. -/
structure New (pool : RxPool) (region : Region) : Prop where
  apart : ∀ region' ∈ pool.regions, region.Apart region'
  positive : 0 < region.size

theorem Given.new {blockSize : UInt64} {answers : HostAnswers}
    (h : Given config (blockSize + PoolAllocator.sizeofMemInfo) answers pool region pool')
    (henabled : pool.Enabled config (.malloc blockSize answers)) : New pool region := by
  obtain ⟨hsize, hfresh, -⟩ := henabled
  have hlength : region.size = (allocationSize config blockSize).toNat := by
    rw [h.length, allocationSize]
  refine ⟨fun region' hregion' => ?_, ?_⟩
  · have hsep := hfresh region.base h.answer region' hregion'
    rw [← hlength] at hsep
    exact hsep
  · have hroom := h.room
    have hmemInfo : PoolAllocator.sizeofMemInfo.toNat = 24 := rfl
    rw [UInt64.toNat_add, hmemInfo, Nat.mod_eq_of_lt (by omega)] at hroom
    omega

/-- Writing in a new region does nothing to the blocks that are there. -/
theorem Inv.held_of_new (h : Inv config pool held) (hnew : New pool region)
    (hword : ∀ address, ¬ (region.base ≤ address ∧ address < region.base + region.size) →
      pool'.word address = pool.word address) :
    ∀ block ∈ held, Held config pool' block := by
  intro block hblock
  have hheld := h.held block hblock
  have hroom := hheld.room
  have hmem : block.region ∈ pool.regions :=
    h.regions.mem_iff.mpr (List.mem_map_of_mem hblock)
  have hsep := hnew.apart block.region hmem
  refine hheld.congr fun address hle hlt => hword address ?_
  unfold Region.Apart at hsep
  omega

theorem Inv.write (h : Inv config pool held) (hblock : block ∈ held) (contents : Nat → UInt64) :
    Inv config (pool.overwrite block.chunks block.size.toNat contents) held := by
  refine ⟨h.blocks, h.regions, h.mrs, h.count, h.apart, h.positive, fun block' hblock' => ?_⟩
  have hroom := (h.held block hblock).room
  have hstart := (h.held block hblock).start
  have hroom' := (h.held block' hblock').room
  refine (h.held block' hblock').congr fun address hle hlt => if_neg ?_
  by_cases hsame : block' = block
  · subst hsame
    omega
  · have hapart : held.Pairwise fun b b' => b.region.Apart b'.region :=
      List.pairwise_map.mp ((h.regions.pairwise_iff Or.symm).mp h.apart)
    have hsymm : Std.Symm fun b b' : RxBlock => b.region.Apart b'.region := ⟨fun _ _ => Or.symm⟩
    have hsep := hapart.forall hblock' hblock hsame
    unfold Region.Apart at hsep
    omega

/-- `free` of a block that the pool has. -/
theorem Inv.free (h : Inv config pool (block :: rest)) :
    ∃ pool', PoolAllocator.free config block.chunks pool = .ok pool' ∧
      pool'.blocks = pool.blocks ∧
      Inv config { pool' with blocks := pool.blocks.erase (block.chunks, block.size) } rest := by
  have hheld := h.held block List.mem_cons_self
  have hstart := hheld.start
  have hregion : block.region ∈ pool.regions := h.regions.mem_iff.mpr List.mem_cons_self
  have hmr : block.mr ∈ pool.mrs := h.mrs.mem_iff.mpr List.mem_cons_self
  have hminfo : block.chunks - 24 = block.region.base + offset config := by omega
  have hfree : MemoryManager.free config (block.region.base + offset config) { pool with
      ctx := pool.ctx.updateStats (-block.nbufs)
      mrs := pool.mrs.erase block.mr } = .ok { pool with
        ctx := pool.ctx.updateStats (-block.nbufs)
        mrs := pool.mrs.erase block.mr
        regions := pool.regions.erase block.region } :=
    free_eq h.apart h.positive hregion hheld.backs
  refine ⟨{ pool with
      ctx := pool.ctx.updateStats (-block.nbufs)
      mrs := pool.mrs.erase block.mr
      regions := pool.regions.erase block.region }, ?_, rfl, ?_⟩
  · unfold PoolAllocator.free
    rw [show PoolAllocator.sizeofMemInfo.toNat = 24 from rfl]
    dsimp only
    rw [hheld.mr, hheld.ctx, hheld.nbufs, if_neg (not_not.mpr rfl), deregMr, if_pos hmr, hminfo,
      ok_bind]
    exact hfree
  · refine ⟨?_, ?_, ?_, ?_, h.apart.sublist List.erase_sublist, fun region hmem => ?_,
      fun block' hblock' => ?_⟩
    · have hperm := h.blocks.erase (block.chunks, block.size)
      rwa [List.map_cons, List.erase_cons_head] at hperm
    · have hperm := h.regions.erase block.region
      rwa [List.map_cons, List.erase_cons_head] at hperm
    · have hperm := h.mrs.erase block.mr
      rwa [List.map_cons, List.erase_cons_head] at hperm
    · have hcount := h.count
      rw [List.map_cons, List.sum_cons] at hcount
      show pool.ctx.nBufsAllocated + -block.nbufs = _
      rw [hcount, add_neg_cancel_comm]
    · exact h.positive region (List.mem_of_mem_erase hmem)
    · exact (h.held block' (List.mem_cons_of_mem _ hblock')).congr fun _ _ _ => rfl

/-- A block that could not be registered. -/
theorem Inv.unregistered {blockSize : UInt64} {answers : HostAnswers}
    (h : Inv config pool held)
    (hgiven : Given config (blockSize + PoolAllocator.sizeofMemInfo) answers pool region pool')
    (hnew : New pool region) :
    ∃ pool'', MemoryManager.free config (region.base + offset config) pool' = .ok pool'' ∧
      Inv config pool'' held := by
  have hmem : region ∈ pool'.regions := by
    rw [hgiven.regions]
    exact List.mem_cons_self
  have hapart : pool'.regions.Pairwise Region.Apart := by
    rw [hgiven.regions]
    exact List.pairwise_cons.mpr ⟨hnew.apart, h.apart⟩
  have hpositive : ∀ region' ∈ pool'.regions, 0 < region'.size := by
    rw [hgiven.regions]
    exact List.forall_mem_cons.mpr ⟨hnew.positive, h.positive⟩
  have hregions : pool'.regions.erase region = pool.regions := by
    rw [hgiven.regions, List.erase_cons_head]
  have hheld : ∀ block ∈ held, Held config pool' block := by
    refine h.held_of_new hnew fun address hout => ?_
    refine hgiven.word address fun hbase => hout ?_
    have hpos := hnew.positive
    omega
  refine ⟨_, free_eq hapart hpositive hmem hgiven.backs, ?_⟩
  refine ⟨?_, ?_, ?_, ?_, ?_, ?_, fun block hblock => (hheld block hblock).congr fun _ _ _ => rfl⟩
  · exact hgiven.blocks ▸ h.blocks
  · exact hregions.symm ▸ h.regions
  · exact hgiven.mrs ▸ h.mrs
  · exact hgiven.ctx ▸ h.count
  · exact hregions.symm ▸ h.apart
  · exact hregions.symm ▸ h.positive

/-- A block that is made. -/
theorem Inv.made {blockSize : UInt64} {answers : HostAnswers} (h : Inv config pool held)
    (hsize : blockSize.toNat + 2 ^ 23 ≤ 2 ^ 64)
    (hgiven : Given config (blockSize + PoolAllocator.sizeofMemInfo) answers pool region pool')
    (hnew : New pool region) (mr : UInt64) :
    Inv config { ((({ pool' with mrs := mr :: pool'.mrs }.setWord (region.base + offset config)
        mr).setWord (region.base + offset config + 8) config.rxbufPoolCtx).setWord
          (region.base + offset config + 16) (requested config blockSize).toUInt64) with
        ctx := pool'.ctx.updateStats (requested config blockSize)
        blocks := (region.base + offset config + 24, blockSize) :: pool'.blocks }
      (⟨region.base + offset config + 24, blockSize, requested config blockSize, mr, region⟩ ::
        held) := by
  have hmemInfo : PoolAllocator.sizeofMemInfo.toNat = 24 := rfl
  have hroom := hgiven.room
  rw [UInt64.toNat_add, hmemInfo, Nat.mod_eq_of_lt (by omega)] at hroom
  have hpos := hnew.positive
  refine ⟨?_, ?_, ?_, ?_, ?_, ?_, List.forall_mem_cons.mpr ⟨?_, ?_⟩⟩
  · exact (hgiven.blocks ▸ h.blocks).cons _
  · show pool'.regions.Perm _
    rw [hgiven.regions]
    exact h.regions.cons _
  · show (mr :: pool'.mrs).Perm _
    rw [hgiven.mrs]
    exact h.mrs.cons _
  · show pool'.ctx.nBufsAllocated + requested config blockSize =
      requested config blockSize + (held.map RxBlock.nbufs).sum
    rw [hgiven.ctx, h.count, add_comm]
  · show pool'.regions.Pairwise _
    rw [hgiven.regions]
    exact List.pairwise_cons.mpr ⟨hnew.apart, h.apart⟩
  · show ∀ region' ∈ pool'.regions, 0 < region'.size
    rw [hgiven.regions]
    exact List.forall_mem_cons.mpr ⟨hpos, h.positive⟩
  · refine ⟨rfl, by dsimp only; omega, ?_, ?_, ?_, ?_, rfl⟩
    · simp [setWord]
    · simp [setWord]
    · simp [setWord]
    · have hbacks := hgiven.backs
      unfold Backs at hbacks ⊢
      split
      · rename_i hhuge
        rw [if_pos hhuge] at hbacks
        have hoffset : offset config = 2 ^ 21 := if_pos hhuge
        have hword (mr ctx nbufs : UInt64) : Function.update (Function.update (Function.update
            pool'.word (region.base + offset config) mr) (region.base + offset config + 8) ctx)
              (region.base + offset config + 16) nbufs region.base = pool'.word region.base := by
          rw [Function.update_of_ne (by omega), Function.update_of_ne (by omega),
            Function.update_of_ne (by omega)]
        simp only [setWord, hword]
        exact hbacks
      · rename_i hhuge
        rwa [if_neg hhuge] at hbacks
  · refine h.held_of_new hnew fun address hout => ?_
    have hne : ∀ k < offset config + 24, address ≠ region.base + k := by
      intro k hk
      omega
    have hword := hgiven.word address (hne 0 (by omega))
    have h0 := hne (offset config) (by omega)
    have h8 := hne (offset config + 8) (by omega)
    have h16 := hne (offset config + 16) (by omega)
    rw [← add_assoc] at h8 h16
    simp [setWord, h0, h8, h16, hword]

/-- `malloc` makes a block, or nothing that is left. -/
theorem Inv.malloc {blockSize : UInt64} {answers : HostAnswers} (h : Inv config pool held)
    (henabled : pool.Enabled config (.malloc blockSize answers)) :
    ∃ pool', step config pool (.malloc blockSize answers) = .ok pool' ∧
      (Inv config pool' held ∨
        pool.ctx.canAlloc config.toInitConfig (requested config blockSize) = true ∧
        ∃ block, block.nbufs = requested config blockSize ∧
          Inv config pool' (block :: held)) := by
  have hsize := henabled.1
  have hmemInfo : PoolAllocator.sizeofMemInfo.toNat = 24 := rfl
  have hroom : (blockSize + PoolAllocator.sizeofMemInfo).toNat + 2 ^ 22 ≤ 2 ^ 64 := by
    rw [UInt64.toNat_add, hmemInfo, Nat.mod_eq_of_lt (by omega)]
    omega
  simp only [step, PoolAllocator.malloc]
  cases hcan : pool.ctx.canAlloc config.toInitConfig (requested config blockSize) with
  | false =>
      rw [requested] at hcan
      exact ⟨pool, by simp [hcan], .inl h⟩
  | true =>
      rw [requested] at hcan
      rw [hcan]
      cases hmalloc : MemoryManager.malloc config (blockSize + PoolAllocator.sizeofMemInfo) answers
          pool with
      | none => exact ⟨pool, rfl, .inl h⟩
      | some result =>
          obtain ⟨minfo, pool'⟩ := result
          obtain ⟨region, hminfo, hgiven⟩ := malloc_given hroom hmalloc
          have hnew := hgiven.new henabled
          cases hmr : answers.regMr with
          | none =>
              obtain ⟨pool'', hfree, hinv⟩ := h.unregistered hgiven hnew
              rw [← hminfo] at hfree
              refine ⟨pool'', ?_, .inl hinv⟩
              simp [hfree]
          | some mr =>
              have hmade := h.made hsize hgiven hnew mr
              refine ⟨_, rfl, .inr ⟨rfl, ⟨region.base + offset config + 24, blockSize,
                requested config blockSize, mr, region⟩, rfl, ?_⟩⟩
              rw [hminfo]
              exact hmade

theorem Inv.step (h : Inv config pool held) {op : Op} (henabled : pool.Enabled config op) :
    ∃ pool' held', step config pool op = .ok pool' ∧ Inv config pool' held' := by
  cases op with
  | malloc blockSize answers =>
      obtain ⟨pool', hrun, hinv | ⟨-, block, -, hinv⟩⟩ := h.malloc henabled
      · exact ⟨pool', held, hrun, hinv⟩
      · exact ⟨pool', block :: held, hrun, hinv⟩
  | free block =>
      obtain ⟨block', hblock', hsame⟩ := List.mem_map.mp (h.blocks.mem_iff.mp henabled)
      obtain ⟨pool', hfree, hblocks, hinv⟩ :=
        (h.perm (List.perm_cons_erase hblock')).free
      refine ⟨_, held.erase block', ?_, hinv⟩
      rw [← hsame]
      simp [RxPool.step, hfree, hblocks]
  | write block contents =>
      obtain ⟨block', hblock', hsame⟩ := List.mem_map.mp (h.blocks.mem_iff.mp henabled)
      refine ⟨_, held, rfl, ?_⟩
      rw [← hsame]
      exact h.write hblock' contents

/-- The answers as the checks of `malloc` see them. -/
def memory (config : RxPoolConfig) (pool : RxPool) (answers : HostAnswers)
    (lkey : UInt64 → UInt32) : RxMemory where
  malloc size := (MemoryManager.malloc config size answers pool).map (·.1)
  regMr _ _ := answers.regMr.map lkey

/-- `malloc` returns a block where its checks reserve one. -/
theorem malloc_eq_reserve {blockSize : UInt64} {answers : HostAnswers} {result : Option Nat}
    (lkey : UInt64 → UInt32)
    (hrun : PoolAllocator.malloc config blockSize answers pool = .ok (result, pool')) :
    result = (PoolAllocator.reserve (memory config pool answers lkey) config.toInitConfig blockSize
      pool.ctx).map (·.1) := by
  unfold PoolAllocator.malloc at hrun
  unfold PoolAllocator.reserve memory
  dsimp only at hrun ⊢
  split at hrun
  · rename_i hcan
    cases hrun
    rw [if_neg (by simpa using hcan)]
    rfl
  · rename_i hcan
    rw [if_pos (by simpa using hcan)]
    cases hmalloc : MemoryManager.malloc config (blockSize + PoolAllocator.sizeofMemInfo) answers
        pool with
    | none =>
        rw [hmalloc] at hrun
        cases hrun
        rfl
    | some given =>
        rw [hmalloc] at hrun
        cases hmr : answers.regMr with
        | none =>
            rw [hmr] at hrun
            obtain ⟨pool'', -, hresult⟩ := bind_eq_ok hrun
            cases hresult
            rfl
        | some mr =>
            rw [hmr] at hrun
            cases hrun
            rfl

theorem exists_inv_of_reachable (h : (machine config).Reachable pool) :
    ∃ held, Inv config pool held := by
  have hstart (first : RxPool) (hfirst : (machine config).start first) :
      ∃ held, Inv config first held := ⟨[], .start hfirst⟩
  refine h.invariant hstart ?_
  rintro before op after _ ⟨held, hinv⟩ henabled hrun
  obtain ⟨pool', held', hrun', hinv'⟩ := hinv.step henabled
  cases hrun.symm.trans hrun'
  exact ⟨held', hinv'⟩

/-- Each block has one region of the system around it and one registration, and there are no
others. -/
def Accounted (pool : RxPool) : Prop :=
  ∃ held : List RxBlock, pool.blocks.Perm (held.map fun block => (block.chunks, block.size)) ∧
    pool.regions.Perm (held.map RxBlock.region) ∧ pool.mrs.Perm (held.map RxBlock.mr) ∧
    ∀ block ∈ held, block.region.base ≤ block.chunks ∧
      block.chunks + block.size.toNat ≤ block.region.base + block.region.size

/-- Whatever the system answers and the pool writes into its blocks: nothing that was given is lost
or given back twice, and `free` finds what it needs in front of a block; its `kassert` is true. -/
theorem rx_pool_accounted (config : RxPoolConfig) (pool : RxPool)
    (h : (machine config).Reachable pool) :
    pool.Accounted ∧ ∀ op, pool.Enabled config op → ∃ pool', step config pool op = .ok pool' := by
  obtain ⟨held, hinv⟩ := exists_inv_of_reachable h
  refine ⟨⟨held, hinv.blocks, hinv.regions, hinv.mrs, fun block hblock => ?_⟩,
    fun op henabled => ?_⟩
  · have hstart := (hinv.held block hblock).start
    exact ⟨by omega, (hinv.held block hblock).room⟩
  · obtain ⟨pool', held', hrun, -⟩ := hinv.step henabled
    exact ⟨pool', hrun⟩

def someConfig : RxPoolConfig := ⟨⟨8, 1, 3, 1⟩, true, 7⟩

/-- One block in huge pages. -/
theorem rx_pool_accounted_one_block : ∃ pool : RxPool, pool.regions = [⟨true, 0, 2 ^ 22⟩] ∧
    pool.Accounted := by
  have hstart : (machine someConfig).Reachable ⟨fun _ => 0, [], [], ⟨0⟩, []⟩ :=
    .start ⟨rfl, rfl, rfl, rfl⟩
  have hmade := hstart.next (.malloc 64 ⟨some 0, none, some 5⟩)
    ⟨by decide, fun _ _ _ hmem => (nomatch hmem), fun _ _ hmem => (nomatch hmem)⟩ rfl
  exact ⟨_, rfl, (rx_pool_accounted someConfig _ hmade).1⟩

/-- No block has so many buffers that counting them overflows. -/
def Small (config : RxPoolConfig) (_ : RxPool) : Op → Prop
  | .malloc blockSize _ =>
      config.rdmaReceiveBuffersBytes.toNat + (requested config blockSize).toNat < 2 ^ 32
  | _ => True

/-- The buffers of all blocks. -/
def total (held : List RxBlock) : Nat := (held.map fun block => block.nbufs.toNat).sum

theorem sum_toNat (held : List RxBlock) (hsmall : total held < 2 ^ 32) :
    (held.map RxBlock.nbufs).sum.toNat = total held := by
  induction held with
  | nil => rfl
  | cons block rest ih =>
      have htotal : total (block :: rest) = block.nbufs.toNat + total rest := rfl
      rw [htotal] at hsmall ⊢
      rw [List.map_cons, List.sum_cons, UInt32.toNat_add, ih (by omega), Nat.mod_eq_of_lt hsmall]

/-- A block that is granted fits below the limit. -/
theorem Inv.granted (h : Inv config pool held) {blockSize : UInt64}
    (hlimit : 0 < config.rdmaReceiveBuffersBytes)
    (hheld : total held ≤ config.rdmaReceiveBuffersBytes.toNat)
    (hsmall : config.rdmaReceiveBuffersBytes.toNat + (requested config blockSize).toNat < 2 ^ 32)
    (hcan : pool.ctx.canAlloc config.toInitConfig (requested config blockSize) = true) :
    total held + (requested config blockSize).toNat ≤ config.rdmaReceiveBuffersBytes.toNat := by
  have hcount : pool.ctx.nBufsAllocated.toNat = total held := by
    rw [h.count, sum_toNat held (by omega)]
  unfold MemPoolContext.canAlloc at hcan
  rw [if_neg (UInt32.not_le.mpr hlimit)] at hcan
  split at hcan
  · exact nomatch hcan
  · rename_i hfits
    have hle := UInt32.le_iff_toNat_le.mp (UInt32.not_lt.mp hfits)
    rwa [UInt32.toNat_add, hcount, Nat.mod_eq_of_lt (by omega)] at hle

theorem exists_total_le (hlimit : 0 < config.rdmaReceiveBuffersBytes)
    (h : ((machine config).restrict (Small config)).Reachable pool) :
    ∃ held, Inv config pool held ∧ total held ≤ config.rdmaReceiveBuffersBytes.toNat := by
  have hstart (first : RxPool) (hfirst : (machine config).start first) :
      ∃ held, Inv config first held ∧ total held ≤ config.rdmaReceiveBuffersBytes.toNat :=
    ⟨[], .start hfirst, Nat.zero_le _⟩
  refine h.invariant hstart ?_
  rintro before op after _ ⟨held, hinv, hheld⟩ ⟨henabled, hsmall⟩ hrun
  cases op with
  | malloc blockSize answers =>
      obtain ⟨pool', hrun', hinv' | ⟨hcan, block, hnbufs, hinv'⟩⟩ := hinv.malloc henabled
      · cases hrun.symm.trans hrun'
        exact ⟨held, hinv', hheld⟩
      · cases hrun.symm.trans hrun'
        refine ⟨block :: held, hinv', ?_⟩
        have hgranted := hinv.granted hlimit hheld hsmall hcan
        show block.nbufs.toNat + total held ≤ _
        rw [hnbufs]
        omega
  | free block =>
      obtain ⟨block', hblock', hsame⟩ := List.mem_map.mp (hinv.blocks.mem_iff.mp henabled)
      have hperm := List.perm_cons_erase hblock'
      obtain ⟨pool', hfree, hblocks, hinv'⟩ := (hinv.perm hperm).free
      have hrun' : step config before (.free block) =
          .ok { pool' with blocks := before.blocks.erase (block'.chunks, block'.size) } := by
        rw [← hsame]
        simp [RxPool.step, hfree, hblocks]
      cases hrun.symm.trans hrun'
      refine ⟨held.erase block', hinv', ?_⟩
      have htotal : total held = block'.nbufs.toNat + total (held.erase block') :=
        (hperm.map _).sum_eq
      omega
  | write block contents =>
      obtain ⟨block', hblock', hsame⟩ := List.mem_map.mp (hinv.blocks.mem_iff.mp henabled)
      cases hrun
      refine ⟨held, ?_, hheld⟩
      rw [← hsame]
      exact hinv.write hblock' contents

theorem Inv.total_eq (h : Inv config pool held) :
    total held = (pool.blocks.map fun block => (requested config block.2).toNat).sum := by
  have hperm := (h.blocks.map fun block => (requested config block.2).toNat).sum_eq
  rw [hperm, List.map_map, total]
  congr 1
  refine List.map_congr_left fun block hblock => ?_
  rw [(h.held block hblock).counted]
  rfl

/-- With a limit the blocks never have more buffers, and the context counts them. -/
theorem rx_pool_within_limit (config : RxPoolConfig) (hlimit : 0 < config.rdmaReceiveBuffersBytes)
    (pool : RxPool) (h : ((machine config).restrict (Small config)).Reachable pool) :
    (pool.blocks.map fun block => (requested config block.2).toNat).sum =
      pool.ctx.nBufsAllocated.toNat ∧
    pool.ctx.nBufsAllocated ≤ config.rdmaReceiveBuffersBytes := by
  obtain ⟨held, hinv, hheld⟩ := exists_total_le hlimit h
  have hlt := config.rdmaReceiveBuffersBytes.toNat_lt
  have hcount : pool.ctx.nBufsAllocated.toNat = total held := by
    rw [hinv.count, sum_toNat held (by omega)]
  rw [UInt32.le_iff_toNat_le, hcount]
  exact ⟨hinv.total_eq.symm, hheld⟩

theorem rx_pool_within_limit_one_block : ∃ pool : RxPool, pool.blocks = [(2 ^ 21 + 24, 64)] ∧
    pool.ctx.nBufsAllocated ≤ 3 := by
  have hstart : ((machine someConfig).restrict (Small someConfig)).Reachable
      ⟨fun _ => 0, [], [], ⟨0⟩, []⟩ := .start ⟨rfl, rfl, rfl, rfl⟩
  have hsmall : Small someConfig ⟨fun _ => 0, [], [], ⟨0⟩, []⟩
      (.malloc 64 ⟨some 0, none, some 5⟩) := by
    unfold Small
    decide
  have hmade := hstart.next (.malloc 64 ⟨some 0, none, some 5⟩)
    ⟨⟨by decide, fun _ _ _ hmem => (nomatch hmem), fun _ _ hmem => (nomatch hmem)⟩, hsmall⟩ rfl
  exact ⟨_, rfl, (rx_pool_within_limit someConfig (by decide) _ hmade).2⟩

end RxPool

end RdmaCapsule.Core
