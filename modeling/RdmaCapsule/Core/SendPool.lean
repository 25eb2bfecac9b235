import RdmaCapsule.Core.Cluster

/-! Runs of a send pool with any number of holders. A chunk is free or held,
never both and never neither; a free chunk is ready to be written from its
start, and the cursor of a held chunk stays inside it. -/
namespace RdmaCapsule.Core

open RdmaCapsule.Foundation

/-- A cluster and the chunks that its users have taken and not returned. -/
structure SendPool where
  cluster : Cluster
  held : List Nat

namespace SendPool

inductive Op where
  | getChunks (num : Nat)
  | getBuffers (blockSize : UInt64)
  | write (index : Nat) (len : UInt32)
  | zeroFill (index : Nat) (len : UInt32)
  | takeBack (ck : List Nat)

/-- Requests fit in 32 bits; a user writes and returns only what it holds. -/
def Enabled (pool : SendPool) : Op → Prop
  | .getChunks _ => True
  | .getBuffers blockSize => blockSize.toNat < 2 ^ 32
  | .write index _ => index ∈ pool.held
  | .zeroFill index _ => index ∈ pool.held
  | .takeBack ck => ck.Nodup ∧ ∀ index ∈ ck, index ∈ pool.held

def setChunk (pool : SendPool) (index : Nat) (chunk : Chunk) : SendPool :=
  { pool with cluster :=
      { pool.cluster with chunk := Function.update pool.cluster.chunk index chunk } }

def step (pool : SendPool) : Op → Except Fault SendPool
  | .getChunks num => do
      let (_, taken, cluster) ← pool.cluster.getChunks [] num
      pure ⟨cluster, taken ++ pool.held⟩
  | .getBuffers blockSize => do
      let (_, taken, cluster) ← pool.cluster.getBuffers [] blockSize
      pure ⟨cluster, taken ++ pool.held⟩
  | .write index len => pure (pool.setChunk index ((pool.cluster.chunk index).write len).2)
  | .zeroFill index len => pure (pool.setChunk index ((pool.cluster.chunk index).zeroFill len).2)
  | .takeBack ck => pure ⟨pool.cluster.takeBack ck, pool.held.filter (· ∉ ck)⟩

/-- The runs that begin with one `fill(num)` on a new cluster. -/
def machine (memory : Memory) (bufferSize num : UInt32) : Machine SendPool Op Fault where
  start pool := (Cluster.new bufferSize).fill memory num = .ok pool.cluster ∧ pool.held = []
  enabled := Enabled
  step := step

inductive Side where
  | free
  | held

def side (pool : SendPool) : Side → List Nat
  | .free => pool.cluster.freeChunks
  | .held => pool.held

structure Inv (bufferSize num : UInt32) (pool : SendPool) : Prop where
  nonzero : bufferSize ≠ 0
  size : pool.cluster.bufferSize = bufferSize
  split : Exclusive (· < num.toNat) pool.side
  ready : ∀ c ∈ pool.cluster.freeChunks,
    (pool.cluster.chunk c).offset = 0 ∧ (pool.cluster.chunk c).bound = (pool.cluster.chunk c).bytes
  inside : ∀ c ∈ pool.held, (pool.cluster.chunk c).offset ≤ (pool.cluster.chunk c).bytes

variable {memory : Memory} {bufferSize num : UInt32} {pool : SendPool}

theorem Inv.start (hreg : memory.regMr 0 = false)
    (hbytes : bufferSize.toNat * num.toNat < 2 ^ 32)
    (h : (machine memory bufferSize num).start pool) : Inv bufferSize num pool := by
  obtain ⟨hfill, hheld⟩ := h
  obtain ⟨hnonzero, hsize, hfree, hready⟩ := Cluster.fill_spec hreg rfl hbytes hfill
  refine ⟨hnonzero, hsize, ?_, ?_, by simp [hheld]⟩
  · constructor
    · rintro (_ | _)
      · simp [side, hfree, List.nodup_range]
      · simp [side, hheld]
    · rintro (_ | _) (_ | _) a ha hb <;> simp_all [side]
    · rintro (_ | _) a ha <;> simp_all [side]
    · intro a ha
      exact ⟨.free, by simpa [side, hfree] using ha⟩
  · intro c hc
    rw [hfree] at hc
    exact hready c (by simpa using hc)

/-- An allocation that returns keeps the invariant, whatever its size. -/
theorem Inv.takes (h : Inv bufferSize num pool) {count : Nat}
    {result : Nat × List Nat × Cluster} (htakes : pool.cluster.Takes [] count result) :
    Inv bufferSize num ⟨result.2.2, result.2.1 ++ pool.held⟩ := by
  obtain ⟨hle, rfl⟩ := htakes
  have hsplit := List.take_append_drop count pool.cluster.freeChunks
  refine ⟨h.nonzero, h.size, ?_, ?_, ?_⟩
  · refine h.split.transfer .free .held (pool.cluster.freeChunks.take count) (by simp) ?_ ?_ ?_
    · simp [side, hsplit]
    · simp [side]
    · rintro (_ | _) hfree hheld
      · exact absurd rfl hfree
      · exact absurd rfl hheld
  · intro c hc
    exact h.ready c (List.mem_of_mem_drop hc)
  · intro c hc
    rcases List.mem_append.mp hc with htaken | hold
    · have hready := h.ready c (List.mem_of_mem_take (by simpa using htaken))
      simp [hready.1, UInt32.le_iff_toNat_le]
    · exact h.inside c hold

/-- Moving the cursor of a held chunk touches no free chunk. -/
theorem Inv.zeroFill (h : Inv bufferSize num pool) {index : Nat} (hheld : index ∈ pool.held)
    (len : UInt32) :
    Inv bufferSize num (pool.setChunk index ((pool.cluster.chunk index).zeroFill len).2) := by
  refine ⟨h.nonzero, h.size, h.split.congr (fun p => by cases p <;> exact .refl _), ?_, ?_⟩
  · intro c hc
    have hne : c ≠ index := by
      rintro rfl
      exact Side.noConfusion (h.split.apart (p := .free) (q := .held) hc hheld)
    simpa [setChunk, Function.update_of_ne hne] using h.ready c hc
  · intro c hc
    by_cases hne : c = index
    · subst hne
      simpa [setChunk] using Chunk.zeroFill_offset_le _ len (h.inside c hc)
    · simpa [setChunk, Function.update_of_ne hne] using h.inside c hc

private theorem takeBack_freeChunks (cluster : Cluster) (ck : List Nat) :
    (cluster.takeBack ck).freeChunks = ck.reverse ++ cluster.freeChunks := by
  induction ck generalizing cluster with
  | nil => rfl
  | cons index rest ih =>
      simp only [Cluster.takeBack, List.foldl_cons] at ih ⊢
      rw [ih]
      simp [Cluster.takeBackOne]

private theorem takeBack_bufferSize (cluster : Cluster) (ck : List Nat) :
    (cluster.takeBack ck).bufferSize = cluster.bufferSize := by
  induction ck generalizing cluster with
  | nil => rfl
  | cons index rest ih => exact ih (cluster.takeBackOne index)

/-- After `take_back` a header is reset if it was returned, and else untouched. -/
theorem takeBack_chunk (cluster : Cluster) (ck : List Nat) (c : Nat) :
    (cluster.takeBack ck).chunk c =
      if c ∈ ck then (cluster.chunk c).resetWriteChunk else cluster.chunk c := by
  induction ck generalizing cluster with
  | nil => rfl
  | cons index rest ih =>
      simp only [Cluster.takeBack, List.foldl_cons] at ih ⊢
      rw [ih]
      by_cases hc : c = index
      · subst hc
        simp [Cluster.takeBackOne, Chunk.resetWriteChunk]
      · simp [Cluster.takeBackOne, hc]

theorem Inv.takeBack (h : Inv bufferSize num pool) {ck : List Nat} (hnodup : ck.Nodup)
    (hheld : ∀ index ∈ ck, index ∈ pool.held) :
    Inv bufferSize num ⟨pool.cluster.takeBack ck, pool.held.filter (· ∉ ck)⟩ := by
  refine ⟨h.nonzero, (takeBack_bufferSize _ _).trans h.size, ?_, ?_, ?_⟩
  · refine h.split.transfer .held .free ck (by simp) ?_ ?_ ?_
    · have hmine : (pool.held.filter (· ∈ ck)).Perm ck := by
        apply (List.perm_ext_iff_of_nodup ((h.split.nodup .held).filter _) hnodup).mpr
        intro c
        simp only [List.mem_filter, decide_eq_true_eq]
        exact ⟨fun hc => hc.2, fun hc => ⟨hheld c hc, hc⟩⟩
      have hpart := (List.filter_append_perm (fun c => decide (c ∈ ck)) pool.held).symm
      simpa [side] using hpart.trans (hmine.append_right _)
    · simp only [side, takeBack_freeChunks]
      exact (List.reverse_perm ck).append_right _
    · rintro (_ | _) hheld' hfree
      · exact absurd rfl hfree
      · exact absurd rfl hheld'
  · intro c hc
    rw [takeBack_freeChunks, List.mem_append, List.mem_reverse] at hc
    rw [takeBack_chunk]
    by_cases hmem : c ∈ ck
    · rw [if_pos hmem]
      exact ⟨rfl, rfl⟩
    · rw [if_neg hmem]
      exact h.ready c (hc.resolve_left hmem)
  · intro c hc
    simp only [List.mem_filter, decide_eq_true_eq] at hc
    rw [takeBack_chunk, if_neg hc.2]
    exact h.inside c hc.1

theorem Inv.getBuffers (h : Inv bufferSize num pool) {blockSize : UInt64}
    (hblock : blockSize.toNat < 2 ^ 32) (chunks : List Nat) :
    Ends (pool.cluster.getBuffers chunks blockSize) (pool.cluster.Takes chunks
      ((blockSize.toNat + bufferSize.toNat - 1) / bufferSize.toNat))
      fun fault => fault = .abort ∧ pool.cluster.freeChunks.length <
        (blockSize.toNat + bufferSize.toNat - 1) / bufferSize.toNat := by
  have hnonzero : pool.cluster.bufferSize ≠ 0 := h.size ▸ h.nonzero
  have hends := Cluster.getBuffers_ends chunks hblock hnonzero
  rwa [h.size] at hends

/-- A step takes chunks that are free, fills a chunk that is held, or gives chunks back. -/
theorem step_cases {op : Op} {after : SendPool} (hsize : pool.cluster.bufferSize ≠ 0)
    (henabled : (∀ blockSize, op ≠ .getBuffers blockSize) → pool.Enabled op)
    (hstep : pool.step op = .ok after) :
    (∃ count result, pool.cluster.Takes [] count result ∧
      after = ⟨result.2.2, result.2.1 ++ pool.held⟩) ∨
    (∃ index ∈ pool.held, ∃ len,
      after = pool.setChunk index ((pool.cluster.chunk index).zeroFill len).2) ∨
    ∃ ck : List Nat, (ck.Nodup ∧ ∀ index ∈ ck, index ∈ pool.held) ∧
      after = ⟨pool.cluster.takeBack ck, pool.held.filter (· ∉ ck)⟩ := by
  cases op with
  | getChunks count =>
      obtain ⟨result, hrun, hafter⟩ := bind_eq_ok hstep
      have htakes := (Cluster.getChunks_ends [] count pool.cluster).value hrun
      exact .inl ⟨_, result, htakes, (Except.ok.inj hafter).symm⟩
  | getBuffers blockSize =>
      obtain ⟨result, hrun, hafter⟩ := bind_eq_ok hstep
      have htakes := (Cluster.getBuffers_takes [] blockSize pool.cluster hsize).value hrun
      exact .inl ⟨_, result, htakes, (Except.ok.inj hafter).symm⟩
  | write index len =>
      have hheld : index ∈ pool.held := henabled (by simp)
      exact .inr (.inl ⟨index, hheld, len, (Except.ok.inj hstep).symm⟩)
  | zeroFill index len =>
      have hheld : index ∈ pool.held := henabled (by simp)
      exact .inr (.inl ⟨index, hheld, len, (Except.ok.inj hstep).symm⟩)
  | takeBack ck =>
      exact .inr (.inr ⟨ck, henabled (by simp), (Except.ok.inj hstep).symm⟩)

theorem Inv.step (h : Inv bufferSize num pool) {op : Op} {after : SendPool}
    (henabled : pool.Enabled op) (hstep : pool.step op = .ok after) :
    Inv bufferSize num after := by
  have hsize : pool.cluster.bufferSize ≠ 0 := h.size ▸ h.nonzero
  rcases step_cases hsize (fun _ => henabled) hstep with
    ⟨count, result, htakes, rfl⟩ | ⟨index, hheld, len, rfl⟩ | ⟨ck, hback, rfl⟩
  · exact h.takes htakes
  · exact h.zeroFill hheld len
  · exact h.takeBack hback.1 hback.2

theorem reachable_inv (hreg : memory.regMr 0 = false)
    (hbytes : bufferSize.toNat * num.toNat < 2 ^ 32)
    (h : (machine memory bufferSize num).Reachable pool) : Inv bufferSize num pool :=
  h.invariant (fun _ hstart => Inv.start hreg hbytes hstart)
    (fun _ _ _ _ hinv henabled hstep => Inv.step hinv henabled hstep)

/-- `after` extends `before` by `count` distinct chunks that were free. -/
def Appends (cluster : Cluster) (count : Nat) (before after : List Nat) : Prop :=
  ∃ taken, after = before ++ taken ∧ taken.length = count ∧ taken.Nodup ∧
    ∀ c ∈ taken, c ∈ cluster.freeChunks

theorem Inv.appends (h : Inv bufferSize num pool) {count : Nat} {before : List Nat}
    {result : Nat × List Nat × Cluster} (htakes : pool.cluster.Takes before count result) :
    Appends pool.cluster count before result.2.1 := by
  obtain ⟨hle, rfl⟩ := htakes
  refine ⟨pool.cluster.freeChunks.take count, rfl, ?_, ?_, ?_⟩
  · rw [List.length_take, Nat.min_eq_left hle]
  · exact (List.take_sublist _ _).nodup (h.split.nodup .free)
  · intro c hc
    exact List.mem_of_mem_take hc

theorem Inv.perm_range (h : Inv bufferSize num pool) :
    (pool.cluster.freeChunks ++ pool.held).Perm (List.range num.toNat) := by
  refine (List.perm_ext_iff_of_nodup ?_ List.nodup_range).mpr ?_
  · refine List.nodup_append.mpr ⟨h.split.nodup .free, h.split.nodup .held, ?_⟩
    rintro a hfree b hheld rfl
    exact Side.noConfusion (h.split.apart (p := .free) (q := .held) hfree hheld)
  · intro c
    rw [List.mem_append, List.mem_range]
    constructor
    · rintro (hc | hc)
      · exact h.split.sound (p := .free) hc
      · exact h.split.sound (p := .held) hc
    · intro hc
      obtain ⟨side, hside⟩ := h.split.covers hc
      cases side with
      | free => exact .inl hside
      | held => exact .inr hside

/-- Every run after one `fill(num)`: free chunks are distinct, free and held
chunks together are the `num` chunks, free chunks are ready and held cursors are
inside their chunk, and each allocation appends exactly as many distinct free
chunks as it was asked for, unless fewer are free and it aborts. -/
theorem send_pool_invariant (memory : Memory) (bufferSize num : UInt32)
    (hreg : memory.regMr 0 = false) (hbytes : bufferSize.toNat * num.toNat < 2 ^ 32)
    (pool : SendPool) (h : (machine memory bufferSize num).Reachable pool) :
    pool.cluster.freeChunks.Nodup ∧
    (pool.cluster.freeChunks ++ pool.held).Perm (List.range num.toNat) ∧
    (∀ c ∈ pool.cluster.freeChunks, (pool.cluster.chunk c).offset = 0 ∧
      (pool.cluster.chunk c).bound = (pool.cluster.chunk c).bytes) ∧
    (∀ c ∈ pool.held, (pool.cluster.chunk c).offset ≤ (pool.cluster.chunk c).bytes) ∧
    (∀ chunks count, Ends (pool.cluster.getChunks chunks count)
      (fun result => Appends pool.cluster count chunks result.2.1)
      fun fault => fault = .abort ∧ pool.cluster.freeChunks.length < count) ∧
    (∀ chunks blockSize, blockSize.toNat < 2 ^ 32 →
      Ends (pool.cluster.getBuffers chunks blockSize)
        (fun result => Appends pool.cluster
          ((blockSize.toNat + bufferSize.toNat - 1) / bufferSize.toNat) chunks result.2.1)
        fun fault => fault = .abort ∧ pool.cluster.freeChunks.length <
          (blockSize.toNat + bufferSize.toNat - 1) / bufferSize.toNat) := by
  have hinv := reachable_inv hreg hbytes h
  refine ⟨hinv.split.nodup .free, hinv.perm_range, hinv.ready, hinv.inside, ?_, ?_⟩
  · intro chunks count
    exact (Cluster.getChunks_ends chunks count pool.cluster).mono
      (fun _ htakes => hinv.appends htakes) fun _ hfault => hfault
  · intro chunks blockSize hblock
    exact (hinv.getBuffers hblock chunks).mono (fun _ htakes => hinv.appends htakes)
      fun _ hfault => hfault

/-- Memory that refuses only the empty region. -/
def someMemory : Memory where
  malloc _ := some 4096
  regMr bytes := bytes ≠ 0

theorem send_pool_invariant_after_one_chunk :
    ∃ pool, (machine someMemory 4 2).Reachable pool ∧ pool.held = [1] ∧
      (pool.cluster.freeChunks ++ pool.held).Perm (List.range 2) := by
  have hfilled : (machine someMemory 4 2).Reachable ⟨_, []⟩ := .start ⟨rfl, rfl⟩
  have htaken := hfilled.next (Op.getChunks 1) trivial rfl
  exact ⟨_, htaken, rfl,
    (send_pool_invariant someMemory 4 2 (by decide) (by decide) _ htaken).2.1⟩

end SendPool

end RdmaCapsule.Core
