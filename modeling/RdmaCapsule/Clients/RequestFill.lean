import RdmaCapsule.Core.UniformPool

/-! A request is cut into the chunks that `get_send_buffers_by_size` returns for it. They are empty
and of one size, and just as many as the request needs. -/
namespace RdmaCapsule.Clients

open RdmaCapsule.Core RdmaCapsule.Foundation

/-- The ways in which a client stops the process. -/
inductive Stop where
  | pool (fault : Fault)
  | kassertBufferIndex
  | kassertBufferCount
  | kassertInflightSize
  | kassertInflightChunk
  | emptyVector
  deriving DecidableEq, Repr

/-- The send chunks, with the field `request_id` of each. -/
structure SendBuffers where
  cluster : Cluster
  requestId : Nat → UInt64

namespace SendBuffers

def setChunk (b : SendBuffers) (c : Nat) (chunk : Chunk) : SendBuffers :=
  { b with cluster := { b.cluster with chunk := Function.update b.cluster.chunk c chunk } }

def setRequestId (b : SendBuffers) (c : Nat) (id : UInt64) : SendBuffers :=
  { b with requestId := Function.update b.requestId c id }

def zeroFill (b : SendBuffers) (c : Nat) (len : UInt32) : UInt32 × SendBuffers :=
  let (writeLen, chunk) := (b.cluster.chunk c).zeroFill len
  (writeLen, b.setChunk c chunk)

end SendBuffers

/-- The loop of `SendBigRequests` over the buffers of one request, with its two `kassert`s.
`remainingSize` is an `int` there: the same 32 bits. -/
def fillRequest : List Nat → UInt32 → SendBuffers → Except Stop SendBuffers
  | [], _, _ => .error .kassertBufferIndex
  | c :: rest, remainingSize, b =>
      let (writeLen, b) := b.zeroFill c remainingSize
      let b := b.setRequestId c 0
      if remainingSize - writeLen = 0 then
        if rest = [] then .ok b else .error .kassertBufferCount
      else fillRequest rest (remainingSize - writeLen) b

/-- The lengths in the scatter entries of `post_work_request`. -/
def isgeLengths (cluster : Cluster) (txBuffers : List Nat) : List Nat :=
  txBuffers.map fun c => (cluster.chunk c).getOffset.toNat

/-- What the loop leaves: all chunks but the last are full, and together they have the bytes of
the request. -/
structure Split (chunks : List Nat) (size : Nat) (b b' : SendBuffers) : Prop where
  full : ∀ c ∈ chunks.dropLast, (b'.cluster.chunk c).full = true
  total : (isgeLengths b'.cluster chunks).sum = size
  ids : ∀ c ∈ chunks, b'.requestId c = 0
  others : ∀ c ∉ chunks, b'.cluster.chunk c = b.cluster.chunk c ∧ b'.requestId c = b.requestId c
  pool : ∃ chunk, b'.cluster = { b.cluster with chunk }

variable {bufferSize made : UInt32} {b b' : SendBuffers} {c : Nat} {chunks rest held : List Nat}

/-- A chunk that is ready takes as much as there is, up to its size. -/
theorem zeroFill_ready {chunk : Chunk} (hoffset : chunk.offset = 0) (len : UInt32) :
    (chunk.zeroFill len).1.toNat = min chunk.bytes.toNat len.toNat ∧
      (chunk.zeroFill len).2.offset = (chunk.zeroFill len).1 := by
  unfold Chunk.zeroFill
  rw [hoffset, UInt32.sub_zero]
  dsimp only
  rw [UInt32.zero_add]
  split
  · rename_i hle
    exact ⟨(Nat.min_eq_left (UInt32.le_iff_toNat_le.mp hle)).symm, rfl⟩
  · rename_i hle
    rw [UInt32.le_iff_toNat_le] at hle
    exact ⟨(Nat.min_eq_right (Nat.le_of_not_le hle)).symm, rfl⟩

/-- What one pass of the loop does to a chunk that is ready. -/
structure Fills (c : Nat) (len : Nat) (b b' : SendBuffers) : Prop where
  offset : (b'.cluster.chunk c).offset.toNat = min (b.cluster.chunk c).bytes.toNat len
  bytes : (b'.cluster.chunk c).bytes = (b.cluster.chunk c).bytes
  id : b'.requestId c = 0
  others : ∀ c' ≠ c, b'.cluster.chunk c' = b.cluster.chunk c' ∧ b'.requestId c' = b.requestId c'
  pool : ∃ chunk, b'.cluster = { b.cluster with chunk }

theorem zeroFill_fills (hoffset : (b.cluster.chunk c).offset = 0) (len : UInt32) :
    (b.zeroFill c len).1.toNat = min (b.cluster.chunk c).bytes.toNat len.toNat ∧
      Fills c len.toNat b ((b.zeroFill c len).2.setRequestId c 0) := by
  obtain ⟨hwrite, hafter⟩ := zeroFill_ready hoffset len
  refine ⟨hwrite, ?_, ?_, ?_, ?_, ⟨_, rfl⟩⟩
  · simp [SendBuffers.zeroFill, SendBuffers.setChunk, SendBuffers.setRequestId, hafter, hwrite]
  · simp [SendBuffers.zeroFill, SendBuffers.setChunk, SendBuffers.setRequestId]
  · simp [SendBuffers.setRequestId]
  · intro c' hne
    simp [SendBuffers.zeroFill, SendBuffers.setChunk, SendBuffers.setRequestId,
      Function.update_of_ne hne]

/-- Chunks of one size that are ready, and just enough of them. -/
theorem fillRequest_splits (hnodup : chunks.Nodup)
    (hready : ∀ c ∈ chunks, (b.cluster.chunk c).offset = 0 ∧
      (b.cluster.chunk c).bytes = bufferSize) {remainingSize : UInt32}
    (hmore : (chunks.length - 1) * bufferSize.toNat < remainingSize.toNat)
    (hfits : remainingSize.toNat ≤ chunks.length * bufferSize.toNat) :
    ∃ b', fillRequest chunks remainingSize b = .ok b' ∧
      Split chunks remainingSize.toNat b b' := by
  induction chunks generalizing remainingSize b with
  | nil =>
      simp only [List.length_nil, Nat.zero_mul] at hfits
      omega
  | cons c rest ih =>
      obtain ⟨hhead, hrest⟩ := List.nodup_cons.mp hnodup
      obtain ⟨hoffset, hbytes⟩ := hready c List.mem_cons_self
      obtain ⟨hwrite, hfills⟩ := zeroFill_fills hoffset remainingSize
      have hfilled := hfills.offset
      rw [hbytes] at hwrite hfilled
      rw [List.length_cons, Nat.add_sub_cancel] at hmore
      rw [List.length_cons, Nat.succ_mul] at hfits
      have hle : (b.zeroFill c remainingSize).1 ≤ remainingSize := by
        rw [UInt32.le_iff_toNat_le, hwrite]
        exact Nat.min_le_right _ _
      have hleft : (remainingSize - (b.zeroFill c remainingSize).1).toNat =
          remainingSize.toNat - min bufferSize.toNat remainingSize.toNat := by
        rw [UInt32.toNat_sub_of_le _ _ hle, hwrite]
      unfold fillRequest
      dsimp only
      by_cases hlast : rest = []
      · subst hlast
        simp only [List.length_nil, Nat.zero_mul, Nat.zero_add] at hmore hfits
        have hdone : remainingSize - (b.zeroFill c remainingSize).1 = 0 := by
          apply UInt32.toNat_inj.mp
          rw [hleft, UInt32.toNat_zero]
          omega
        refine ⟨_, by rw [if_pos hdone, if_pos rfl], by simp, ?_, ?_, ?_, hfills.pool⟩
        · simp only [isgeLengths, Chunk.getOffset, List.map_cons, List.map_nil, List.sum_cons,
            List.sum_nil, Nat.add_zero, hfilled]
          omega
        · intro c' hc'
          rw [List.mem_singleton.mp hc']
          exact hfills.id
        · intro c' hc'
          exact hfills.others c' (fun hsame => hc' (List.mem_singleton.mpr hsame))
      · have hpos := List.length_pos_of_ne_nil hlast
        have hone : bufferSize.toNat ≤ rest.length * bufferSize.toNat :=
          Nat.le_mul_of_pos_left _ hpos
        have hsub : (rest.length - 1) * bufferSize.toNat =
            rest.length * bufferSize.toNat - bufferSize.toNat := Nat.sub_one_mul _ _
        have hmin : min bufferSize.toNat remainingSize.toNat = bufferSize.toNat :=
          Nat.min_eq_left (by omega)
        rw [hmin] at hleft hfilled
        have hgo : ¬ remainingSize - (b.zeroFill c remainingSize).1 = 0 := by
          intro hzero
          rw [hzero, UInt32.toNat_zero] at hleft
          omega
        rw [if_neg hgo]
        have hready' : ∀ c' ∈ rest,
            ((((b.zeroFill c remainingSize).2.setRequestId c 0)).cluster.chunk c').offset = 0 ∧
            ((((b.zeroFill c remainingSize).2.setRequestId c 0)).cluster.chunk c').bytes =
              bufferSize := by
          intro c' hc'
          have hne : c' ≠ c := fun hsame => hhead (hsame ▸ hc')
          rw [(hfills.others c' hne).1]
          exact hready c' (List.mem_cons_of_mem _ hc')
        have hmore' : (rest.length - 1) * bufferSize.toNat <
            (remainingSize - (b.zeroFill c remainingSize).1).toNat := by
          rw [hleft]
          omega
        have hfits' : (remainingSize - (b.zeroFill c remainingSize).1).toNat ≤
            rest.length * bufferSize.toNat := by
          rw [hleft]
          omega
        obtain ⟨b', hrun, hsplit⟩ := ih hrest hready' hmore' hfits'
        obtain ⟨hsame, hid⟩ := hsplit.others c hhead
        refine ⟨b', hrun, ?_, ?_, ?_, ?_, ?_⟩
        · intro c' hc'
          rw [List.dropLast_cons_of_ne_nil hlast] at hc'
          rcases List.mem_cons.mp hc' with rfl | hold
          · rw [hsame, Chunk.full, beq_iff_eq, ← UInt32.toNat_inj, hfilled, hfills.bytes, hbytes]
          · exact hsplit.full c' hold
        · have htotal := hsplit.total
          simp only [isgeLengths, Chunk.getOffset, List.map_cons, List.sum_cons] at htotal ⊢
          rw [hsame, hfilled, htotal, hleft]
          omega
        · intro c' hc'
          rcases List.mem_cons.mp hc' with rfl | hold
          · exact hid.trans hfills.id
          · exact hsplit.ids c' hold
        · intro c' hc'
          rw [List.mem_cons, not_or] at hc'
          obtain ⟨hchunk, hids⟩ := hsplit.others c' hc'.2
          obtain ⟨hchunk₀, hids₀⟩ := hfills.others c' hc'.1
          exact ⟨hchunk.trans hchunk₀, hids.trans hids₀⟩
        · obtain ⟨chunk, hpool⟩ := hfills.pool
          obtain ⟨chunk', hpool'⟩ := hsplit.pool
          exact ⟨chunk', by rw [hpool', hpool]⟩

/-- The bytes of `n` requests, in 64 bits. -/
theorem toNat_mul_toUInt64 (n size : UInt32) :
    (n.toUInt64 * size.toUInt64).toNat = n.toNat * size.toNat := by
  have hlt : n.toNat * size.toNat < 2 ^ 64 := by
    have := Nat.mul_lt_mul'' n.toNat_lt size.toNat_lt
    omega
  rw [UInt64.toNat_mul, UInt32.toNat_toUInt64, UInt32.toNat_toUInt64, Nat.mod_eq_of_lt hlt]

/-- The chunks that a request of `size` bytes is given: as many as it needs and no more. -/
theorem ceil_div_bounds {size bytes : Nat} (hbytes : 0 < bytes) (hsize : 0 < size) :
    ((size + bytes - 1) / bytes - 1) * bytes < size ∧
      size ≤ (size + bytes - 1) / bytes * bytes := by
  have hdiv := Nat.div_add_mod (size + bytes - 1) bytes
  have hmod := Nat.mod_lt (size + bytes - 1) hbytes
  rw [Nat.mul_comm] at hdiv
  have hsub := Nat.sub_one_mul ((size + bytes - 1) / bytes) bytes
  have hpos : 0 < (size + bytes - 1) / bytes := Nat.div_pos (by omega) hbytes
  have hone := Nat.le_mul_of_pos_left bytes hpos
  omega

/-- A request is given chunks that its bytes fill up to the last one. -/
theorem getBuffers_fillRequest {pool : SendPool}
    (h : SendPool.Uniform bufferSize made pool) {s : UInt32} (hs : 1 ≤ s)
    (hfits : s.toNat ≤ pool.cluster.freeChunks.length * bufferSize.toNat)
    (requestId : Nat → UInt64) :
    ∃ chunks cluster b,
      pool.cluster.Takes [] chunks.length (chunks.length, chunks, cluster) ∧
      pool.cluster.getBuffers [] s.toUInt64 = .ok (chunks.length, chunks, cluster) ∧
      fillRequest chunks s ⟨cluster, requestId⟩ = .ok b ∧
      Split chunks s.toNat ⟨cluster, requestId⟩ b := by
  have hbytes : 0 < bufferSize.toNat :=
    UInt32.lt_iff_toNat_lt.mp (UInt32.pos_iff_ne_zero.mpr h.nonzero)
  have hspos : 0 < s.toNat := UInt32.le_iff_toNat_le.mp hs
  obtain ⟨hmore, henough⟩ := ceil_div_bounds hbytes hspos
  have hcount : (s.toNat + bufferSize.toNat - 1) / bufferSize.toNat ≤
      pool.cluster.freeChunks.length := by
    apply Nat.le_of_lt_succ
    apply (Nat.div_lt_iff_lt_mul hbytes).mpr
    rw [Nat.succ_mul]
    omega
  have hblock : s.toUInt64.toNat < 2 ^ 32 := by
    rw [UInt32.toNat_toUInt64]
    exact s.toNat_lt
  have hends := h.toInv.getBuffers hblock []
  rw [UInt32.toNat_toUInt64] at hends
  generalize (s.toNat + bufferSize.toNat - 1) / bufferSize.toNat = count at *
  cases hrun : pool.cluster.getBuffers [] s.toUInt64 with
  | error fault =>
      rw [hrun] at hends
      exact absurd hends.2 (Nat.not_lt.mpr hcount)
  | ok result =>
      have htakes := hends.value hrun
      obtain ⟨hnum, hlength, hnodup, hready⟩ := h.granted htakes
      obtain ⟨num, chunks, cluster⟩ := result
      dsimp only at hnum hlength hnodup hready
      subst hlength hnum
      obtain ⟨b, hfill, hsplit⟩ := fillRequest_splits (b := ⟨cluster, requestId⟩) hnodup hready
        hmore henough
      exact ⟨chunks, cluster, b, htakes, rfl, hfill, hsplit⟩

/-- What `get_send_buffers_by_size` returns holds the bytes it was asked for. -/
theorem getBuffers_fits {pool : SendPool} (h : SendPool.Uniform bufferSize made pool)
    {size : UInt32} (hsize : 0 < size) {result : Nat × List Nat × Cluster}
    (hrun : pool.cluster.getBuffers [] size.toUInt64 = .ok result) :
    size.toNat ≤ pool.cluster.freeChunks.length * bufferSize.toNat := by
  have hbytes : 0 < bufferSize.toNat :=
    UInt32.lt_iff_toNat_lt.mp (UInt32.pos_iff_ne_zero.mpr h.nonzero)
  have hblock : size.toUInt64.toNat < 2 ^ 32 := by
    rw [UInt32.toNat_toUInt64]
    exact size.toNat_lt
  obtain ⟨hle, -⟩ := (h.toInv.getBuffers hblock []).value hrun
  rw [UInt32.toNat_toUInt64] at hle
  exact (ceil_div_bounds hbytes (UInt32.lt_iff_toNat_lt.mp hsize)).2.trans
    (Nat.mul_le_mul_right _ hle)

theorem zeroFill_stocked (h : Stocked bufferSize ⟨b.cluster, held⟩) (hheld : c ∈ held)
    (len : UInt32) : Stocked bufferSize ⟨(b.zeroFill c len).2.cluster, held⟩ := by
  rcases h with ⟨-, -, -, hnone⟩ | ⟨made, huniform⟩
  · change held = [] at hnone
    rw [hnone] at hheld
    cases hheld
  · exact .inr ⟨made, huniform.zeroFill hheld len⟩

/-- In every state of the pool, a request that fits the free chunks ends the loop with both
`kassert`s true, all chunks but the last are full, and the scatter entries have its bytes. -/
theorem request_split_exact (memory : Memory) (bufferSize num : UInt32) (pool : SendPool)
    (h : (SendPool.anySize memory bufferSize num).Reachable pool) (s : UInt32) (hs : 1 ≤ s)
    (hfits : s.toNat ≤ pool.cluster.freeChunks.length * bufferSize.toNat)
    (requestId : Nat → UInt64) :
    ∃ chunks cluster b,
      pool.cluster.getBuffers [] s.toUInt64 = .ok (chunks.length, chunks, cluster) ∧
      fillRequest chunks s ⟨cluster, requestId⟩ = .ok b ∧
      (∀ c ∈ chunks.dropLast, (b.cluster.chunk c).full = true) ∧
      (isgeLengths b.cluster chunks).sum = s.toNat := by
  have hsize : bufferSize ≠ 0 := by
    rintro rfl
    rw [UInt32.toNat_zero, Nat.mul_zero] at hfits
    have : 1 ≤ s.toNat := UInt32.le_iff_toNat_le.mp hs
    omega
  obtain ⟨made, -, huniform⟩ := SendPool.uniform_of_reachable hsize h
  obtain ⟨chunks, cluster, b, -, hrun, hfill, hsplit⟩ :=
    getBuffers_fillRequest huniform hs hfits requestId
  exact ⟨chunks, cluster, b, hrun, hfill, hsplit.full, hsplit.total⟩

theorem request_split_exact_two_chunks :
    ∃ (pool : SendPool) (chunks : List Nat) (cluster : Cluster) (b : SendBuffers),
      pool.cluster.getBuffers [] (6 : UInt32).toUInt64 = .ok (chunks.length, chunks, cluster) ∧
      fillRequest chunks 6 ⟨cluster, fun _ => 0⟩ = .ok b ∧
      (∀ c ∈ chunks.dropLast, (b.cluster.chunk c).full = true) ∧
      (isgeLengths b.cluster chunks).sum = (6 : UInt32).toNat := by
  have hfilled : (SendPool.anySize SendPool.someMemory 4 2).Reachable ⟨_, []⟩ := .start ⟨rfl, rfl⟩
  have htaken := hfilled.next (.getChunks 1) trivial rfl
  have hheld : 1 ∈ [1] := List.mem_singleton_self 1
  have hall : ∀ c ∈ [1], c ∈ [1] := fun _ hc => hc
  have hfilling := htaken.next (.zeroFill 1 3) hheld rfl
  have hback := hfilling.next (.takeBack [1]) ⟨List.nodup_singleton 1, hall⟩ rfl
  exact ⟨_, request_split_exact SendPool.someMemory 4 2 _ hback 6 (by decide) (by decide)
    fun _ => 0⟩

end RdmaCapsule.Clients
