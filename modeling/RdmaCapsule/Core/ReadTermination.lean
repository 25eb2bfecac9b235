import RdmaCapsule.Core.Ownership
import RdmaCapsule.Core.ReadSpec
import RdmaCapsule.Foundation.Loop

/-! Whether the loop of `read_buffers` ends. It asks a chunk for the low 32 bits of what is missing;
where these are zero the chunk gives nothing, and the loop comes back to it. -/
namespace RdmaCapsule.Core

open RdmaCapsule.Foundation Segments

/-- What the loop of `read_buffers` works on: the chunks from `pchunk` on, and whether it has met
its `break`. -/
structure ReadState where
  chunks : List Nat
  readSize : UInt64
  broken : Bool
  world : World

/-- What the model of the loop with one step for each chunk returns. -/
def ReadState.result (st : ReadState) : UInt64 × List Nat × World :=
  (st.readSize, st.chunks, st.world)

namespace World

/-- A chunk that is read to its end goes back to the pool. -/
def returnChunk (config : Config) (k : Nat) (w : World) (c : Nat) : Except Fault World := do
  let w ← (w.setChunk c (w.ib.chunk c).resetReadChunk).recallChunkToPool c
  w.updatePostBacklog config k

def readPass (config : Config) (k : Nat) (len : UInt64) (st : ReadState) :
    Except Fault ReadState :=
  match st.chunks with
  | [] => .ok st
  | c :: rest => do
      let (tmp, chunk) := (st.world.ib.chunk c).zeroRead (len - st.readSize).toUInt32
      let readSize := st.readSize + tmp.toUInt64
      let w := st.world.setChunk c chunk
      if (w.ib.chunk c).getSize = 0 then
        let w ← w.returnChunk config k c
        pure ⟨rest, readSize, readSize = len, w⟩
      else pure ⟨c :: rest, readSize, readSize = len, w⟩

def readWhile (config : Config) (k : Nat) (len : UInt64) : Loop ReadState Fault where
  going st := !st.chunks.isEmpty && !st.broken
  body := readPass config k len

/-- The loop ends, and it has read what was wanted or all that there was. -/
def ReadEnds (config : Config) (k : Nat) (len : UInt64) (chunks : List Nat) (w : World) : Prop :=
  ∃ st, (readWhile config k len).Finishes ⟨chunks, 0, false, w⟩ st ∧
    st.readSize.toNat = min len.toNat (total (w.ib.sizes chunks))

/-- Giving these chunks back, one after another, does not stop the process. -/
def GivesBack (config : Config) (k : Nat) (w : World) (chunks : List Nat) : Prop :=
  ∃ w', chunks.foldlM (returnChunk config k) w = .ok w'

variable {w w' : World} {config : Config} {k c : Nat} {rest chunks : List Nat}
  {len readSize : UInt64}

theorem readWhile_body (config : Config) (k : Nat) (len : UInt64) :
    (readWhile config k len).body = readPass config k len := rfl

theorem setChunk_setChunk (w : World) (c : Nat) (chunk chunk' : Chunk) :
    (w.setChunk c chunk).setChunk c chunk' = w.setChunk c chunk' := by
  simp [World.setChunk, Infiniband.setChunk]

@[simp] theorem setChunk_self (w : World) (c : Nat) (chunk : Chunk) :
    (w.setChunk c chunk).ib.chunk c = chunk :=
  Function.update_self ..

@[simp] theorem setChunk_same (w : World) (c : Nat) : w.setChunk c (w.ib.chunk c) = w := by
  simp [World.setChunk, Infiniband.setChunk]

/-- Where the cursor was does not matter to a chunk that is given back. -/
theorem returnChunk_zeroRead (config : Config) (k : Nat) (w : World) (c : Nat) (n : UInt32) :
    (w.setChunk c ((w.ib.chunk c).zeroRead n).2).returnChunk config k c =
      w.returnChunk config k c := by
  unfold returnChunk
  rw [setChunk_setChunk, setChunk_self]
  rfl

theorem zeroRead_unfinished {chunk : Chunk} {n : UInt32} (h : n < chunk.getSize) :
    (chunk.zeroRead n).2.getSize ≠ 0 := by
  have hleft := (zeroRead_part h).2
  have hlt := UInt32.lt_iff_toNat_lt.mp h
  intro hzero
  rw [hzero, UInt32.toNat_zero] at hleft
  omega

/-- The bytes that one pass asks a chunk for. -/
def asked (len readSize : UInt64) : UInt32 := (len - readSize).toUInt32

theorem readPass_whole (config : Config) (k : Nat) (rest : List Nat)
    (h : (w.ib.chunk c).getSize ≤ asked len readSize) :
    readPass config k len ⟨c :: rest, readSize, false, w⟩ =
      w.returnChunk config k c >>= fun w' =>
        pure ⟨rest, readSize + (w.ib.chunk c).getSize.toUInt64,
          readSize + (w.ib.chunk c).getSize.toUInt64 = len, w'⟩ := by
  obtain ⟨hread, hzero⟩ := zeroRead_whole h
  unfold asked at hread hzero
  unfold readPass
  dsimp only
  rw [setChunk_self, if_pos hzero, returnChunk_zeroRead, hread]

theorem readPass_part (config : Config) (k : Nat) (rest : List Nat)
    (h : asked len readSize < (w.ib.chunk c).getSize) :
    readPass config k len ⟨c :: rest, readSize, false, w⟩ =
      .ok ⟨c :: rest, readSize + (asked len readSize).toUInt64,
        readSize + (asked len readSize).toUInt64 = len,
        w.setChunk c ((w.ib.chunk c).zeroRead (asked len readSize)).2⟩ := by
  obtain ⟨hread, -⟩ := zeroRead_part h
  have hunfinished := zeroRead_unfinished h
  unfold asked at hread hunfinished ⊢
  unfold readPass
  dsimp only
  rw [setChunk_self, if_neg hunfinished, hread]
  rfl

theorem readLoop_whole (config : Config) (k : Nat) (rest : List Nat)
    (h : (w.ib.chunk c).getSize ≤ asked len readSize) :
    readLoop config k len (c :: rest) readSize w =
      w.returnChunk config k c >>= fun w' =>
        if readSize + (w.ib.chunk c).getSize.toUInt64 = len then
          pure (readSize + (w.ib.chunk c).getSize.toUInt64, rest, w')
        else readLoop config k len rest (readSize + (w.ib.chunk c).getSize.toUInt64) w' := by
  obtain ⟨hread, hzero⟩ := zeroRead_whole h
  unfold asked at hread hzero
  rw [readLoop]
  dsimp only
  rw [if_pos hzero, hread]
  unfold returnChunk
  rw [bind_assoc]
  rfl

theorem readLoop_part_eq (config : Config) (k : Nat) (rest : List Nat)
    (h : asked len readSize < (w.ib.chunk c).getSize) :
    readLoop config k len (c :: rest) readSize w =
      if readSize + (asked len readSize).toUInt64 = len then
        .ok (len, c :: rest, w.setChunk c ((w.ib.chunk c).zeroRead (asked len readSize)).2)
      else .error .spins := by
  obtain ⟨hread, -⟩ := zeroRead_part h
  have hunfinished := zeroRead_unfinished h
  unfold asked at hread hunfinished ⊢
  rw [readLoop]
  dsimp only
  rw [if_neg hunfinished, hread]
  split
  · rename_i hall
    rw [hall]
    rfl
  · rfl

/-- A chunk that is asked for nothing is as it was. -/
theorem zeroRead_zero {chunk : Chunk} (h : chunk.getSize ≠ 0) : (chunk.zeroRead 0).2 = chunk := by
  have hpos : ¬ chunk.getSize ≤ 0 := by
    rw [UInt32.not_le]
    exact UInt32.pos_iff_ne_zero.mpr h
  unfold Chunk.zeroRead
  dsimp only
  rw [if_neg hpos, UInt32.add_zero]

/-- What is missing after a part of a chunk has no low bits. -/
theorem asked_part (len readSize : UInt64) :
    asked len (readSize + (asked len readSize).toUInt64) = 0 := by
  unfold asked
  rw [UInt64.toUInt32_sub, UInt64.toUInt32_add, UInt32.toUInt32_toUInt64, UInt64.toUInt32_sub,
    UInt32.add_comm, UInt32.sub_add_cancel, UInt32.sub_self]

/-- The pass after a part of a chunk repeats itself for ever. -/
theorem not_finishes_part (config : Config) (k : Nat) (rest : List Nat)
    (h : asked len readSize < (w.ib.chunk c).getSize)
    (hmore : readSize + (asked len readSize).toUInt64 ≠ len) (st : ReadState) :
    ¬ (readWhile config k len).Finishes ⟨c :: rest, readSize, false, w⟩ st := by
  have hunfinished := zeroRead_unfinished h
  have hasked := asked_part len readSize
  generalize hreadSize : readSize + (asked len readSize).toUInt64 = readSize' at hmore hasked
  generalize hw : w.setChunk c ((w.ib.chunk c).zeroRead (asked len readSize)).2 = w'
  have hchunk : w'.ib.chunk c = ((w.ib.chunk c).zeroRead (asked len readSize)).2 := by
    rw [← hw, setChunk_self]
  rw [Loop.finishes_of_going rfl]
  rintro ⟨next, hnext, hfinishes⟩
  have hstuck : next = ⟨c :: rest, readSize', false, w'⟩ := by
    rw [readWhile_body, readPass_part config k rest h, hreadSize, hw,
      decide_eq_false hmore] at hnext
    exact (Except.ok.inj hnext).symm
  have hagain : readPass config k len ⟨c :: rest, readSize', false, w'⟩ =
      .ok ⟨c :: rest, readSize', false, w'⟩ := by
    rw [readPass_part config k rest (by
      rw [hasked, hchunk]
      exact UInt32.pos_iff_ne_zero.mpr hunfinished), hasked, zeroRead_zero (hchunk ▸ hunfinished),
      setChunk_same, show readSize' + (0 : UInt32).toUInt64 = readSize' from UInt64.add_zero _,
      decide_eq_false hmore]
  refine Loop.not_finishes (· = ⟨c :: rest, readSize', false, w'⟩) ?_ ?_ hstuck hfinishes
  · rintro _ rfl
    rfl
  · rintro _ after rfl hafter
    exact (Except.ok.inj (hagain.symm.trans hafter)).symm

/-- The loop ends, and its model with one step for each chunk would return this. -/
def LoopReturns (config : Config) (k : Nat) (len : UInt64) (st : ReadState)
    (result : UInt64 × List Nat × World) : Prop :=
  ∃ after, (readWhile config k len).Finishes st after ∧ after.result = result

variable {st : ReadState} {result : UInt64 × List Nat × World}

theorem loopReturns_of_stopped (h : (readWhile config k len).going st = false) :
    LoopReturns config k len st result ↔ st.result = result := by
  constructor
  · rintro ⟨after, hfinishes, rfl⟩
    rw [(Loop.finishes_of_done h).mp hfinishes]
  · intro heq
    exact ⟨st, (Loop.finishes_of_done h).mpr rfl, heq⟩

theorem loopReturns_of_going (h : (readWhile config k len).going st = true) :
    LoopReturns config k len st result ↔
      ∃ next, readPass config k len st = .ok next ∧ LoopReturns config k len next result := by
  constructor
  · rintro ⟨after, hfinishes, heq⟩
    obtain ⟨next, hnext, hrest⟩ := (Loop.finishes_of_going h).mp hfinishes
    exact ⟨next, hnext, after, hrest, heq⟩
  · rintro ⟨next, hnext, after, hrest, heq⟩
    exact ⟨after, (Loop.finishes_of_going h).mpr ⟨next, hnext, hrest⟩, heq⟩

/-- The loop ends exactly where that model returns. -/
theorem readLoop_ok_iff (config : Config) (k : Nat) (len : UInt64) (chunks : List Nat)
    (readSize : UInt64) (w : World) (result : UInt64 × List Nat × World) :
    readLoop config k len chunks readSize w = .ok result ↔
      LoopReturns config k len ⟨chunks, readSize, false, w⟩ result := by
  induction chunks generalizing readSize w with
  | nil =>
      rw [loopReturns_of_stopped rfl]
      exact ⟨Except.ok.inj, congrArg Except.ok⟩
  | cons c rest ih =>
      by_cases hpart : asked len readSize < (w.ib.chunk c).getSize
      · rw [readLoop_part_eq config k rest hpart]
        by_cases hall : readSize + (asked len readSize).toUInt64 = len
        · rw [if_pos hall, loopReturns_of_going rfl, readPass_part config k rest hpart, hall]
          simp only [Except.ok.injEq, exists_eq_left']
          rw [loopReturns_of_stopped (by simp [readWhile])]
          rfl
        · rw [if_neg hall]
          constructor
          · intro h
            exact nomatch h
          · rintro ⟨after, hfinishes, -⟩
            exact absurd hfinishes (not_finishes_part config k rest hpart hall after)
      · have hwhole := UInt32.not_lt.mp hpart
        rw [readLoop_whole config k rest hwhole, loopReturns_of_going rfl,
          readPass_whole config k rest hwhole]
        cases w.returnChunk config k c with
        | error fault => simp [bind, Except.bind]
        | ok w' =>
            simp only [ok_bind, pure, Except.pure, Except.ok.injEq, exists_eq_left']
            generalize readSize + (w.ib.chunk c).getSize.toUInt64 = readSize'
            by_cases hall : readSize' = len
            · rw [if_pos hall, loopReturns_of_stopped (by simp [readWhile, hall])]
              exact ⟨Except.ok.inj, congrArg Except.ok⟩
            · rw [if_neg hall, decide_eq_false hall]
              exact ih readSize' w'

/-- A chunk that is given back leaves the others as they were. -/
theorem returnChunk_sizes (hc : c ∉ rest) (hmade : ∀ c' ∈ rest, c' < w.ib.made)
    (h : w.returnChunk config k c = .ok w') :
    w'.ib.sizes rest = w.ib.sizes rest ∧ w.ib.made ≤ w'.ib.made := by
  unfold returnChunk at h
  obtain ⟨w₁, hrecall, hupdate⟩ := bind_eq_ok h
  have hset : w.ib.Still [c] (w.setChunk c (w.ib.chunk c).resetReadChunk).ib :=
    Infiniband.still_setChunk (by simp) _
  have hrecalled := ((aside_recallChunkToPool k _ c).value hrecall).still
  have hupdated := ((aside_updatePostBacklog k config k w₁).value hupdate).still
  have hstill := hset.trans ((hrecalled.mono _).trans (hupdated.mono _))
  refine ⟨sizes_of_still rest hstill hmade fun c' hc' => ?_, hstill.made⟩
  rw [List.mem_singleton]
  rintro rfl
  exact hc hc'

theorem givesBack_cons (config : Config) (k : Nat) (w : World) (c : Nat) (rest : List Nat) :
    GivesBack config k w (c :: rest) ↔
      ∃ w', w.returnChunk config k c = .ok w' ∧ GivesBack config k w' rest := by
  unfold GivesBack
  rw [List.foldlM_cons]
  cases w.returnChunk config k c with
  | error fault => simp [bind, Except.bind]
  | ok w' => simp

theorem asked_toNat (hle : readSize.toNat ≤ len.toNat) :
    (asked len readSize).toNat = (len.toNat - readSize.toNat) % 2 ^ 32 := by
  rw [asked, UInt64.toNat_toUInt32, UInt64.toNat_sub_of_le _ _ (UInt64.le_iff_toNat_le.mpr hle)]

/-- The bytes of a pass are counted without overflow. -/
theorem toNat_readSize (n : UInt32) (hle : readSize.toNat + n.toNat ≤ len.toNat) :
    (readSize + n.toUInt64).toNat = readSize.toNat + n.toNat := by
  have hlen := len.toNat_lt
  rw [UInt64.toNat_add, UInt32.toNat_toUInt64]
  omega

theorem givesBack_nil (config : Config) (k : Nat) (w : World) : GivesBack config k w [] :=
  ⟨w, rfl⟩

/-- From a point of the loop on, it returns exactly where the low bits of what is missing are
enough and the chunks that it finishes can be given back. -/
def ReturnsIff (config : Config) (k : Nat) (len : UInt64) (chunks : List Nat)
    (readSize : UInt64) (w : World) : Prop :=
  (∃ result, readLoop config k len chunks readSize w = .ok result ∧ result.1.toNat =
      readSize.toNat + min (len.toNat - readSize.toNat) (total (w.ib.sizes chunks))) ↔
    Fits (len.toNat - readSize.toNat) (total (w.ib.sizes chunks)) ∧
      GivesBack config k w (done (min (len.toNat - readSize.toNat) (total (w.ib.sizes chunks)))
        (w.ib.sizes chunks))

theorem returnsIff_part (config : Config) (k : Nat) (rest : List Nat)
    (hle : readSize.toNat ≤ len.toNat) (hpart : asked len readSize < (w.ib.chunk c).getSize) :
    ReturnsIff config k len (c :: rest) readSize w := by
  have hasked := asked_toNat hle
  have hpart' := UInt32.lt_iff_toNat_lt.mp hpart
  have hlt := (w.ib.chunk c).getSize.toNat_lt
  have hsum := toNat_readSize (asked len readSize)
    (show readSize.toNat + _ ≤ len.toNat by omega)
  unfold ReturnsIff
  rw [sizes_cons, total_cons, readLoop_part_eq config k rest hpart]
  dsimp only
  by_cases hall : readSize + (asked len readSize).toUInt64 = len
  · rw [hall] at hsum
    rw [if_pos hall]
    refine iff_of_true ⟨_, rfl, ?_⟩ ⟨.inl (by omega), ?_⟩
    · dsimp only
      omega
    · rw [done, if_neg (by omega)]
      exact givesBack_nil config k w
  · have hne : (readSize + (asked len readSize).toUInt64).toNat ≠ len.toNat := fun heq =>
      hall (UInt64.toNat_inj.mp heq)
    rw [if_neg hall]
    refine iff_of_false ?_ ?_
    · rintro ⟨_, hreturns, -⟩
      cases hreturns
    · rintro ⟨hfits, -⟩
      unfold Fits at hfits
      omega

theorem returnsIff_whole (hnot : c ∉ rest) (hmade : ∀ c' ∈ rest, c' < w.ib.made)
    (hpositive : Positive (w.ib.sizes rest)) (hle : readSize.toNat ≤ len.toNat)
    (hwhole : (w.ib.chunk c).getSize ≤ asked len readSize)
    (hrest : ∀ w', w.ib.made ≤ w'.ib.made → w'.ib.sizes rest = w.ib.sizes rest →
      ReturnsIff config k len rest (readSize + (w.ib.chunk c).getSize.toUInt64) w') :
    ReturnsIff config k len (c :: rest) readSize w := by
  have hasked := asked_toNat hle
  have hwhole' := UInt32.le_iff_toNat_le.mp hwhole
  have hlt := (w.ib.chunk c).getSize.toNat_lt
  have hsum := toNat_readSize (w.ib.chunk c).getSize
    (show readSize.toNat + _ ≤ len.toNat by omega)
  unfold ReturnsIff at hrest ⊢
  rw [readLoop_whole config k rest hwhole, sizes_cons, total_cons]
  dsimp only
  generalize readSize + (w.ib.chunk c).getSize.toUInt64 = readSize' at hsum hrest ⊢
  generalize (w.ib.chunk c).getSize.toNat = size at hwhole' hlt hsum ⊢
  have hmin : min (len.toNat - readSize.toNat) (size + total (w.ib.sizes rest)) =
      size + min (len.toNat - readSize.toNat - size) (total (w.ib.sizes rest)) := by omega
  have hwant : len.toNat - readSize'.toNat = len.toNat - readSize.toNat - size := by omega
  rw [hmin, done, if_pos (Nat.le_add_right _ _), Nat.add_sub_cancel_left, givesBack_cons]
  cases hreturn : w.returnChunk config k c with
  | error fault => simp [bind, Except.bind]
  | ok w' =>
      obtain ⟨hsizes, hmade'⟩ := returnChunk_sizes hnot hmade hreturn
      have hrest' := hrest w' hmade' hsizes
      rw [hsizes, hwant, fits_cons (by omega), hsum, Nat.add_assoc] at hrest'
      simp only [ok_bind, Except.ok.injEq, exists_eq_left']
      by_cases hall : readSize' = len
      · have hnone : len.toNat - readSize.toNat - size = 0 := by
          rw [← hwant, hall, Nat.sub_self]
        rw [if_pos hall, hnone, Nat.zero_min, done_zero hpositive]
        refine iff_of_true ⟨_, rfl, by simpa using hsum⟩ ⟨.inl (by omega), ?_⟩
        exact givesBack_nil config k w'
      · rw [if_neg hall]
        exact hrest'

theorem returnsIff (config : Config) (k : Nat) (len : UInt64) (chunks : List Nat)
    (readSize : UInt64) (w : World) (hnodup : chunks.Nodup)
    (hmade : ∀ c ∈ chunks, c < w.ib.made) (hpositive : Positive (w.ib.sizes chunks))
    (hle : readSize.toNat ≤ len.toNat) : ReturnsIff config k len chunks readSize w := by
  induction chunks generalizing readSize w with
  | nil =>
      refine iff_of_true ⟨_, rfl, ?_⟩ ⟨.inr (Nat.zero_le _), w, rfl⟩
      simp [Infiniband.sizes]
  | cons c rest ih =>
      obtain ⟨hnot, hnodup'⟩ := List.nodup_cons.mp hnodup
      have hpositive' : Positive (w.ib.sizes rest) := fun seg hseg =>
        hpositive seg (List.mem_cons_of_mem _ hseg)
      by_cases hpart : asked len readSize < (w.ib.chunk c).getSize
      · exact returnsIff_part config k rest hle hpart
      · have hwhole := UInt32.not_lt.mp hpart
        have hmade' := fun c' hc' => hmade c' (List.mem_cons_of_mem c hc')
        refine returnsIff_whole hnot hmade' hpositive' hle hwhole fun w' hgrown hsizes => ?_
        have hroom := asked_toNat hle ▸ UInt32.le_iff_toNat_le.mp hwhole
        have hsum := toNat_readSize (w.ib.chunk c).getSize
          (show readSize.toNat + _ ≤ len.toNat by omega)
        exact ih _ w' hnodup' (fun c' hc' => (hmade' c' hc').trans_le hgrown)
          (hsizes ▸ hpositive') (by omega)

/-- The loop ends, with all that was wanted or all that there was, exactly where the length fits in
32 bits, or its low 32 bits are enough for all that is there, and the chunks that it finishes can
be given back. -/
theorem read_ends_iff (config : Config) (k : Nat) (len : UInt64) (chunks : List Nat) (w : World)
    (hnodup : chunks.Nodup) (hmade : ∀ c ∈ chunks, c < w.ib.made)
    (hpositive : Positive (w.ib.sizes chunks)) :
    ReadEnds config k len chunks w ↔ Fits len.toNat (total (w.ib.sizes chunks)) ∧
      GivesBack config k w (done (min len.toNat (total (w.ib.sizes chunks)))
        (w.ib.sizes chunks)) := by
  have hiff := returnsIff config k len chunks 0 w hnodup hmade hpositive (Nat.zero_le _)
  unfold ReturnsIff at hiff
  simp only [UInt64.toNat_zero, Nat.sub_zero, Nat.zero_add] at hiff
  rw [← hiff]
  unfold ReadEnds
  constructor
  · rintro ⟨st, hfinishes, hcount⟩
    exact ⟨st.result, (readLoop_ok_iff config k len chunks 0 w _).mpr ⟨st, hfinishes, rfl⟩, hcount⟩
  · rintro ⟨result, hreturns, hcount⟩
    obtain ⟨st, hfinishes, rfl⟩ := (readLoop_ok_iff config k len chunks 0 w result).mp hreturns
    exact ⟨st, hfinishes, hcount⟩

/-- A message of three bytes, read with a length whose low 32 bits are three. -/
theorem read_ends_iff_low_bits :
    ∃ w w' s, (machine smallConfig).Reachable w ∧ w.bufferPrefetch 0 = .ok w' ∧
      w'.socks 0 = some s ∧ ReadEnds smallConfig 0 4294967299 s.buffers w' := by
  have hfresh : (machine smallConfig).Reachable fresh := .start fresh_start
  have hcreated := hfresh.next (.create 0 1 false .created) ⟨rfl, rfl, by decide, by decide⟩ rfl
  have hpassed := hcreated.next (.handleRxEvent [⟨1, 0, 3, .success⟩])
    ⟨by decide, by simp; exact ⟨_, rfl, by decide⟩⟩ rfl
  refine ⟨_, _, _, hpassed, rfl, rfl, ?_⟩
  refine (read_ends_iff smallConfig 0 4294967299 [0] _ (by decide) ?_ ?_).mpr ⟨?_, _, rfl⟩
  · decide
  · intro seg hseg
    cases List.mem_singleton.mp hseg
    decide
  · exact .inr (by decide)

/-- A message of one byte, read with the length 2^32. -/
theorem read_never_ends :
    ∃ w w' s, (machine smallConfig).Reachable w ∧ w.bufferPrefetch 0 = .ok w' ∧
      w'.socks 0 = some s ∧ w'.ib.sizes s.buffers = [(0, 1)] ∧
      (∀ st, ¬ (readWhile smallConfig 0 4294967296).Finishes ⟨s.buffers, 0, false, w'⟩ st) ∧
      ¬ ReadEnds smallConfig 0 4294967296 s.buffers w' := by
  have hfresh : (machine smallConfig).Reachable fresh := .start fresh_start
  have hcreated := hfresh.next (.create 0 1 false .created) ⟨rfl, rfl, by decide, by decide⟩ rfl
  have hpassed := hcreated.next (.handleRxEvent [⟨1, 0, 1, .success⟩])
    ⟨by decide, by simp; exact ⟨_, rfl, by decide⟩⟩ rfl
  refine ⟨_, _, _, hpassed, rfl, rfl, rfl, fun st => ?_, ?_⟩
  · exact not_finishes_part smallConfig 0 [] (by decide) (by decide) st
  · rintro ⟨st, hfinishes, -⟩
    exact not_finishes_part smallConfig 0 [] (by decide) (by decide) st hfinishes

end World

end RdmaCapsule.Core
