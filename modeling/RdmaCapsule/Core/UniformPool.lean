import RdmaCapsule.Core.SendPool

/-! A send pool whose users may ask for any number of bytes. Its region may be one that was counted
with fewer bits than it needs: its chunks are then fewer, and each of them is as large as any
other. -/
namespace RdmaCapsule.Core

open RdmaCapsule.Foundation

namespace Cluster

variable {bytes offset : UInt32} {base room index : Nat} {cluster result : Cluster}

/-- However many headers the loop of `fill` comes to construct, they are numbered in turn and
ready to be written. -/
theorem fillLoop_headers (h : fillLoop bytes base room offset index cluster = .ok result) :
    ∃ count ≤ room, result.bufferSize = cluster.bufferSize ∧
      result.freeChunks = (List.range' index count).reverse ++ cluster.freeChunks ∧
      ∀ c, if index ≤ c ∧ c < index + count then
        (result.chunk c).offset = 0 ∧ (result.chunk c).bytes = cluster.bufferSize ∧
          (result.chunk c).bound = cluster.bufferSize
        else result.chunk c = cluster.chunk c := by
  induction room generalizing offset index cluster with
  | zero =>
      unfold fillLoop at h
      split at h
      · cases h
      · cases h
        exact ⟨0, Nat.le_refl 0, rfl, by simp, fun c => by rw [if_neg (by omega)]⟩
  | succ room ih =>
      unfold fillLoop at h
      split at h
      · obtain ⟨count, hcount, hsize, hfree, hchunk⟩ := ih h
        refine ⟨count + 1, Nat.succ_le_succ hcount, hsize, ?_, fun c => ?_⟩
        · rw [hfree, List.range'_succ]
          simp [construct]
        · have hc := hchunk c
          by_cases hfirst : c = index
          · subst hfirst
            rw [if_neg (by omega)] at hc
            rw [if_pos (by omega), hc]
            simp [construct]
          · have hiff : (index + 1 ≤ c ∧ c < index + 1 + count) ↔
                (index ≤ c ∧ c < index + (count + 1)) := by omega
            simp only [hiff] at hc
            simpa [construct, Function.update_of_ne hfirst] using hc
      · cases h
        exact ⟨0, Nat.zero_le _, rfl, by simp, fun c => by rw [if_neg (by omega)]⟩

end Cluster

namespace SendPool

/-- The runs of a pool that may be asked for any number of bytes. -/
def anySize (memory : Memory) (bufferSize num : UInt32) : Machine SendPool Op Fault where
  start := (machine memory bufferSize num).start
  enabled pool op :=
    match op with
    | .getBuffers _ => True
    | op => pool.Enabled op
  step := step

/-- A pool of `made` chunks, each of the same size. -/
structure Uniform (bufferSize made : UInt32) (pool : SendPool) : Prop
    extends Inv bufferSize made pool where
  bytes : ∀ c < made.toNat, (pool.cluster.chunk c).bytes = bufferSize

variable {memory : Memory} {bufferSize num made : UInt32} {pool after : SendPool}

theorem Uniform.start (hsize : bufferSize ≠ 0)
    (h : (Cluster.new bufferSize).fill memory num = .ok pool.cluster) (hheld : pool.held = []) :
    ∃ made ≤ num, Uniform bufferSize made pool := by
  unfold Cluster.fill at h
  dsimp only at h
  split at h
  · cases h
  split at h
  · cases h
  split at h
  · obtain ⟨count, hcount, hpool, hfree, hchunk⟩ := Cluster.fillLoop_headers h
    have hmade : (UInt32.ofNat count).toNat = count :=
      UInt32.toNat_ofNat_of_lt' (Nat.lt_of_le_of_lt hcount num.toNat_lt)
    have hslot {c : Nat} (hc : c < count) : (pool.cluster.chunk c).offset = 0 ∧
        (pool.cluster.chunk c).bytes = bufferSize ∧
          (pool.cluster.chunk c).bound = bufferSize := by
      have := hchunk c
      rwa [if_pos ⟨Nat.zero_le c, by omega⟩] at this
    have hmem {c : Nat} : c ∈ pool.cluster.freeChunks ↔ c < count := by
      rw [hfree]
      simp [Cluster.new]
    refine ⟨.ofNat count, UInt32.le_iff_toNat_le.mpr (by rwa [hmade]),
      ⟨hsize, hpool, ?_, ?_, by simp [hheld]⟩, ?_⟩
    · constructor
      · rintro (_ | _)
        · simp [side, hfree, Cluster.new, List.nodup_range']
        · simp [side, hheld]
      · rintro (_ | _) (_ | _) a ha hb <;> simp_all [side]
      · rintro (_ | _) a ha
        · rw [hmade]
          exact hmem.mp ha
        · simp [side, hheld] at ha
      · intro a ha
        rw [hmade] at ha
        exact ⟨.free, hmem.mpr ha⟩
    · intro c hc
      obtain ⟨hoffset, hbytes, hbound⟩ := hslot (hmem.mp hc)
      exact ⟨hoffset, hbound.trans hbytes.symm⟩
    · intro c hc
      rw [hmade] at hc
      exact (hslot hc).2.1
  · cases h

theorem Uniform.takes (h : Uniform bufferSize made pool) {count : Nat}
    {result : Nat × List Nat × Cluster} (htakes : pool.cluster.Takes [] count result) :
    Uniform bufferSize made ⟨result.2.2, result.2.1 ++ pool.held⟩ := by
  refine ⟨h.toInv.takes htakes, ?_⟩
  obtain ⟨-, rfl⟩ := htakes
  exact h.bytes

/-- What an allocation gives out: distinct chunks, each empty and of the one size. -/
theorem Uniform.granted (h : Uniform bufferSize made pool) {count : Nat}
    {result : Nat × List Nat × Cluster} (htakes : pool.cluster.Takes [] count result) :
    result.1 = count ∧ result.2.1.length = count ∧ result.2.1.Nodup ∧
      ∀ c ∈ result.2.1, (result.2.2.chunk c).offset = 0 ∧
        (result.2.2.chunk c).bytes = bufferSize := by
  obtain ⟨hle, rfl⟩ := htakes
  refine ⟨rfl, by simpa using hle, ?_, fun c hc => ?_⟩
  · exact (List.take_sublist _ _).nodup (h.split.nodup .free)
  · have hfree : c ∈ pool.cluster.freeChunks := List.mem_of_mem_take hc
    exact ⟨(h.ready c hfree).1, h.bytes c (h.split.sound (p := .free) hfree)⟩

theorem Uniform.zeroFill (h : Uniform bufferSize made pool) {index : Nat}
    (hheld : index ∈ pool.held) (len : UInt32) :
    Uniform bufferSize made
      (pool.setChunk index ((pool.cluster.chunk index).zeroFill len).2) := by
  refine ⟨h.toInv.zeroFill hheld len, fun c hc => ?_⟩
  by_cases hne : c = index
  · subst hne
    simpa [setChunk] using h.bytes c hc
  · simpa [setChunk, Function.update_of_ne hne] using h.bytes c hc

theorem Uniform.takeBack (h : Uniform bufferSize made pool) {ck : List Nat} (hnodup : ck.Nodup)
    (hheld : ∀ index ∈ ck, index ∈ pool.held) :
    Uniform bufferSize made ⟨pool.cluster.takeBack ck, pool.held.filter (· ∉ ck)⟩ := by
  refine ⟨h.toInv.takeBack hnodup hheld, fun c hc => ?_⟩
  have hbytes := h.bytes c hc
  dsimp only
  rw [takeBack_chunk]
  split
  · exact hbytes
  · exact hbytes

theorem enabled_of_anySize {op : Op} (henabled : (anySize memory bufferSize num).enabled pool op)
    (hother : ∀ blockSize, op ≠ .getBuffers blockSize) : pool.Enabled op := by
  cases op with
  | getBuffers blockSize => exact absurd rfl (hother blockSize)
  | _ => exact henabled

theorem Uniform.step (h : Uniform bufferSize made pool) {op : Op}
    (henabled : (anySize memory bufferSize num).enabled pool op) (hstep : pool.step op = .ok after) :
    Uniform bufferSize made after := by
  have hsize : pool.cluster.bufferSize ≠ 0 := h.size ▸ h.nonzero
  rcases step_cases hsize (enabled_of_anySize henabled) hstep with
    ⟨count, result, htakes, rfl⟩ | ⟨index, hheld, len, rfl⟩ | ⟨ck, hback, rfl⟩
  · exact h.takes htakes
  · exact h.zeroFill hheld len
  · exact h.takeBack hback.1 hback.2

theorem uniform_of_reachable (hsize : bufferSize ≠ 0)
    (h : (anySize memory bufferSize num).Reachable pool) :
    ∃ made ≤ num, Uniform bufferSize made pool :=
  h.invariant (fun _ hstart => Uniform.start hsize hstart.1 hstart.2)
    fun _ _ _ _ ⟨made, hle, huniform⟩ henabled hstep =>
      ⟨made, hle, huniform.step henabled hstep⟩

end SendPool

variable {bufferSize made : UInt32} {chunks held : List Nat}

/-- A pool whose chunks are all of one size. Where that size is 0 there are none. -/
def Stocked (bufferSize : UInt32) (pool : SendPool) : Prop :=
  (bufferSize = 0 ∧ pool.cluster.bufferSize = 0 ∧ pool.cluster.freeChunks = [] ∧
    pool.held = []) ∨ ∃ made, SendPool.Uniform bufferSize made pool

theorem Stocked.start {memory : Memory} {num : UInt32} {pool : SendPool}
    (h : (Cluster.new bufferSize).fill memory num = .ok pool.cluster) (hheld : pool.held = []) :
    Stocked bufferSize pool := by
  by_cases hzero : bufferSize = 0
  · subst hzero
    unfold Cluster.fill at h
    dsimp only at h
    split at h
    · cases h
    split at h
    · cases h
    split at h
    · have hnone : ¬ (0 : UInt32) < (Cluster.new 0).bufferSize * num := by
        show ¬ (0 : UInt32) < 0 * num
        rw [UInt32.zero_mul]
        decide
      have hstop : ∀ base room cluster, Cluster.fillLoop ((Cluster.new 0).bufferSize * num)
          base room 0 0 cluster = .ok cluster := by
        rintro base (_ | room) cluster <;> rw [Cluster.fillLoop, if_neg hnone]
      have hsame := Except.ok.inj (h.symm.trans (hstop _ _ _))
      refine .inl ⟨rfl, ?_, ?_, hheld⟩
      · rw [hsame]
        rfl
      · rw [hsame]
        rfl
    · cases h
  · obtain ⟨made, -, huniform⟩ := SendPool.Uniform.start hzero h hheld
    exact .inr ⟨made, huniform⟩

theorem Stocked.uniform {pool : SendPool} (h : Stocked bufferSize pool)
    (hsize : bufferSize ≠ 0) : ∃ made, SendPool.Uniform bufferSize made pool := by
  rcases h with ⟨hzero, -⟩ | huniform
  · exact absurd hzero hsize
  · exact huniform

theorem Stocked.perm {cluster : Cluster} {held' : List Nat}
    (h : Stocked bufferSize ⟨cluster, held⟩) (hperm : held'.Perm held) :
    Stocked bufferSize ⟨cluster, held'⟩ := by
  rcases h with ⟨hzero, hsize, hfree, hheld⟩ | ⟨made, huniform⟩
  · subst hheld
    exact .inl ⟨hzero, hsize, hfree, hperm.eq_nil⟩
  · refine .inr ⟨made, ⟨huniform.nonzero, huniform.size, ?_, huniform.ready, ?_⟩, huniform.bytes⟩
    · refine huniform.split.congr fun side => ?_
      cases side with
      | free => exact .refl _
      | held => exact hperm
    · exact fun c hc => huniform.inside c (hperm.mem_iff.mp hc)

theorem Stocked.nodup {cluster : Cluster} (h : Stocked bufferSize ⟨cluster, held⟩) :
    held.Nodup := by
  rcases h with ⟨-, -, -, hheld⟩ | ⟨made, huniform⟩
  · change held = [] at hheld
    rw [hheld]
    exact List.nodup_nil
  · exact huniform.split.nodup .held

theorem Stocked.length_lt {cluster : Cluster} (h : Stocked bufferSize ⟨cluster, held⟩) :
    held.length < 2 ^ 32 := by
  rcases h with ⟨-, -, -, hheld⟩ | ⟨made, huniform⟩
  · change held = [] at hheld
    rw [hheld]
    decide
  · have hlength := huniform.toInv.perm_range.length_eq
    have hmade := made.toNat_lt
    rw [List.length_append, List.length_range] at hlength
    change cluster.freeChunks.length + held.length = _ at hlength
    omega

theorem Stocked.takes {cluster : Cluster} (h : Stocked bufferSize ⟨cluster, held⟩) {count : Nat}
    {result : Nat × List Nat × Cluster} (htakes : cluster.Takes [] count result) :
    Stocked bufferSize ⟨result.2.2, result.2.1 ++ held⟩ := by
  rcases h with ⟨hzero, hsize, hfree, hheld⟩ | ⟨made, huniform⟩
  · obtain ⟨-, rfl⟩ := htakes
    change cluster.freeChunks = [] at hfree
    change held = [] at hheld
    exact .inl ⟨hzero, hsize, by simp [hfree], by simp [hfree, hheld]⟩
  · exact .inr ⟨made, huniform.takes htakes⟩

theorem Stocked.takeBack {cluster : Cluster} (h : Stocked bufferSize ⟨cluster, held⟩)
    (hnodup : chunks.Nodup) (hheld : ∀ c ∈ chunks, c ∈ held) :
    Stocked bufferSize ⟨cluster.takeBack chunks, held.filter (· ∉ chunks)⟩ := by
  rcases h with ⟨hzero, hsize, hfree, hnone⟩ | ⟨made, huniform⟩
  · change held = [] at hnone
    subst hnone
    have : chunks = [] := List.eq_nil_iff_forall_not_mem.mpr fun c hc => by simpa using hheld c hc
    subst this
    exact .inl ⟨hzero, hsize, hfree, rfl⟩
  · exact .inr ⟨made, huniform.takeBack hnodup hheld⟩

/-- What `get_send_buffers_by_size` gives out, if it returns. -/
theorem Stocked.getBuffers {cluster cluster' : Cluster} {size : UInt32} {num : Nat}
    (h : Stocked bufferSize ⟨cluster, held⟩)
    (hrun : cluster.getBuffers [] size.toUInt64 = .ok (num, chunks, cluster')) :
    bufferSize ≠ 0 ∧
      chunks.length = (size.toNat + bufferSize.toNat - 1) / bufferSize.toNat ∧
      (∀ c ∈ chunks, (cluster'.chunk c).offset = 0 ∧ (cluster'.chunk c).bytes = bufferSize) ∧
      cluster'.chunk = cluster.chunk ∧ Stocked bufferSize ⟨cluster', chunks ++ held⟩ := by
  rcases h with ⟨-, hsize, -, -⟩ | ⟨made, huniform⟩
  · change cluster.bufferSize = 0 at hsize
    rw [Cluster.getBuffers, if_pos hsize] at hrun
    cases hrun
  · have hblock : size.toUInt64.toNat < 2 ^ 32 := by
      rw [UInt32.toNat_toUInt64]
      exact size.toNat_lt
    have htakes := (huniform.toInv.getBuffers hblock []).value hrun
    rw [UInt32.toNat_toUInt64] at htakes
    obtain ⟨-, hlength, -, hready⟩ := huniform.granted htakes
    exact ⟨huniform.nonzero, hlength, hready, htakes.chunk_eq,
      .inr ⟨made, huniform.takes htakes⟩⟩

section Places

/-! The chunks of a client that fills, posts and gives back: those it has filled, those posted and
those whose completions were handled. -/

variable {cluster : Cluster} {buffers posted completed : List Nat}

theorem Stocked.post (h : Stocked bufferSize ⟨cluster, buffers ++ (posted ++ completed)⟩) :
    Stocked bufferSize ⟨cluster, (posted ++ buffers) ++ completed⟩ := by
  apply h.perm
  rw [← List.append_assoc]
  exact List.perm_append_comm.append_right completed

theorem Stocked.complete {c : Nat}
    (h : Stocked bufferSize ⟨cluster, buffers ++ (posted ++ completed)⟩) (hc : c ∈ posted) :
    Stocked bufferSize ⟨cluster, buffers ++ (posted.erase c ++ c :: completed)⟩ := by
  apply h.perm
  apply List.Perm.append_left
  have hmiddle : (posted.erase c ++ c :: completed).Perm (c :: posted.erase c ++ completed) :=
    List.perm_middle
  exact hmiddle.trans ((List.perm_cons_erase hc).symm.append_right completed)

/-- No chunk is in two places. -/
theorem Stocked.apart (h : Stocked bufferSize ⟨cluster, buffers ++ (posted ++ completed)⟩)
    (hcompleted : ∀ c ∈ chunks, c ∈ completed) :
    (∀ c ∈ buffers, c ∉ chunks) ∧ ∀ c ∈ posted, c ∉ chunks := by
  obtain ⟨-, hrest, hbuffers⟩ := List.nodup_append.mp h.nodup
  obtain ⟨-, -, hposted⟩ := List.nodup_append.mp hrest
  constructor
  · intro c hc hmem
    exact hbuffers c hc c (List.mem_append_right _ (hcompleted c hmem)) rfl
  · intro c hc hmem
    exact hposted c hc c (hcompleted c hmem) rfl

theorem filter_not_mem_eq_self {rest : List Nat} (hapart : ∀ c ∈ rest, c ∉ chunks) :
    rest.filter (· ∉ chunks) = rest :=
  List.filter_eq_self.mpr fun c hc => decide_eq_true (hapart c hc)

theorem Stocked.giveBack (h : Stocked bufferSize ⟨cluster, buffers ++ (posted ++ completed)⟩)
    (hnodup : chunks.Nodup) (hcompleted : ∀ c ∈ chunks, c ∈ completed) :
    Stocked bufferSize
      ⟨cluster.takeBack chunks, buffers ++ (posted ++ completed.filter (· ∉ chunks))⟩ := by
  obtain ⟨hbuffers, hposted⟩ := h.apart hcompleted
  have hback := h.takeBack hnodup fun c hc =>
    List.mem_append_right _ (List.mem_append_right _ (hcompleted c hc))
  rwa [List.filter_append, List.filter_append, filter_not_mem_eq_self hbuffers,
    filter_not_mem_eq_self hposted] at hback

end Places

end RdmaCapsule.Core
