import RdmaCapsule.Core.Cursors
import RdmaCapsule.Foundation.Segments

/-! What `read` returns. The chunks of a connection, those it has looked at and
those it has only been passed, are a stream in segments. `read` takes from its
front, gives back the chunks that it finishes and keeps the others. -/
namespace RdmaCapsule.Core

open RdmaCapsule.Foundation Segments

/-- The process ends while it posts the backlog. -/
def Fault.Posting (fault : Fault) : Prop := fault = .tempOverrun ∨ fault = .kassertPosted

/-- The chunks with what is unread of each. -/
def Infiniband.sizes (ib : Infiniband) (chunks : List Nat) : List (Nat × Nat) :=
  chunks.map fun c => (c, (ib.chunk c).getSize.toNat)

/-- The messages that have bytes. -/
def arrived (wc : List RxWc) : List (Nat × Nat) :=
  (wc.filter (·.byteLen ≠ 0)).map fun response => (response.chunk, response.byteLen.toNat)

namespace World

variable {w w' : World} {out : Slot → List Nat} {k q c : Nat} {s s' : Socket} {config : Config}

def unread (w : World) (k : Nat) : List (Nat × Nat) :=
  match w.socks k with
  | none => []
  | some s => w.ib.sizes s.buffers ++ arrived s.wc

theorem unread_of_sock (hs : w.socks k = some s) :
    w.unread k = w.ib.sizes s.buffers ++ arrived s.wc := by
  unfold unread
  rw [hs]

theorem sock_of_some (hs : w.socks k = some s) : w.sock k = .ok s := by
  unfold sock
  rw [hs]

theorem sockQp_of_some (hq : s.qp = some q) : sockQp s = .ok q := by
  unfold sockQp
  rw [hq]

theorem sizes_of_still {ib ib' : Infiniband} {touched : List Nat} (chunks : List Nat)
    (h : ib.Still touched ib') (hmade : ∀ c ∈ chunks, c < ib.made)
    (hnot : ∀ c ∈ chunks, c ∉ touched) : ib'.sizes chunks = ib.sizes chunks := by
  apply List.map_congr_left
  intro c hc
  rw [h.size c (hmade c hc) (hnot c hc)]

theorem sizes_append (ib : Infiniband) (chunks chunks' : List Nat) :
    ib.sizes (chunks ++ chunks') = ib.sizes chunks ++ ib.sizes chunks' := by
  simp [Infiniband.sizes]

theorem Held.made_of_out (h : w.Held out) {o : Slot} (hc : c ∈ out o) : c < w.ib.made :=
  h.placed.exclusive.sound (p := .out o) hc

/-- `recall_chunk_to_pool` puts the chunk at the head of the free list. -/
theorem Held.recall_free {o : Slot} {rest : List Nat}
    (h : w.Held (Function.update out o (c :: rest))) :
    ∃ ib, w.recallChunkToPool c = .ok { w with ib } ∧
      ({ w with ib } : World).Held (Function.update out o rest) ∧ w.ib.Still [] ib ∧
      ib.free = c :: w.ib.free := by
  obtain ⟨ib, hrun, hheld, _⟩ := h.recall
  refine ⟨ib, hrun, hheld, ((aside_recallChunkToPool 0 w c).value hrun).still, ?_⟩
  have hmem : c ∈ Function.update out o (c :: rest) o := by simp
  have hexact := h.placed.recallChunkToPool_out hmem
  unfold World.recallChunkToPool at hrun
  rw [hexact] at hrun
  have hib : { w.ib.clearQp c with free := c :: w.ib.free } = ib :=
    congrArg World.ib (Except.ok.inj hrun)
  rw [← hib]

theorem gotRemoteClose_idem (ep : Endpoint) :
    ep.gotRemoteClose.gotRemoteClose = ep.gotRemoteClose := by
  unfold Endpoint.gotRemoteClose
  split
  · simp
  · rfl

/-- The connection when `buffer_prefetch` has looked at some of its completions. -/
def lookedAt (s : Socket) (taken : List RxWc) : Socket :=
  { s with
    wc := []
    buffers := s.buffers ++ (taken.filter (·.byteLen ≠ 0)).map (·.chunk)
    ep := if taken.any (·.byteLen = 0) then s.ep.gotRemoteClose else s.ep }

structure Prefetched (k : Nat) (w : World) (s : Socket) (taken rest : List RxWc) (w' : World) :
    Prop where
  prefetching : Prefetching k w rest w'
  sock : w'.socks k = some (lookedAt s taken)
  sizes : w'.ib.sizes (lookedAt s taken).buffers = w.ib.sizes s.buffers ++ arrived taken
  free : w'.ib.free = ((taken.filter (·.byteLen = 0)).map (·.chunk)).reverse ++ w.ib.free

/-- A chunk that is being looked at is not among those to be read. -/
theorem Prefetched.apart {response : RxWc} {taken rest : List RxWc}
    (h : Prefetched k w s taken (response :: rest) w') (hc : c ∈ (lookedAt s taken).buffers) :
    c ≠ response.chunk ∧ c < w'.ib.made := by
  have hbuffers : c ∈ Function.update (w'.out noPolled) (.wc k)
      ((response :: rest).map (·.chunk)) (.buffers k) := by
    simpa [out_buffers h.sock] using hc
  refine ⟨?_, h.prefetching.held.made_of_out hbuffers⟩
  rintro rfl
  cases h.prefetching.held.placed.exclusive.apart (p := .out (.buffers k))
    (q := .out (.wc k)) (a := response.chunk) hbuffers (by simp [Infiniband.place])

theorem Prefetched.empty {response : RxWc} {taken rest : List RxWc}
    (h : Prefetched k w s taken (response :: rest) w') (hempty : response.byteLen = 0) :
    ∃ w'', ((w'.setChunk response.chunk
        ((w'.ib.chunk response.chunk).prepareRead response.byteLen).resetReadChunk).setSock k
        { lookedAt s taken with ep := (lookedAt s taken).ep.gotRemoteClose }).recallChunkToPool
          response.chunk = .ok w'' ∧
      Prefetched k w s (taken ++ [response]) rest w'' := by
  have hsame : { lookedAt s taken with ep := (lookedAt s taken).ep.gotRemoteClose } =
      lookedAt s (taken ++ [response]) := by
    simp only [lookedAt, List.filter_append, List.any_append]
    cases hany : taken.any (·.byteLen = 0) with
    | true => simp [hempty, gotRemoteClose_idem]
    | false => simp [hempty]
  have hbuffers : (lookedAt s (taken ++ [response])).buffers = (lookedAt s taken).buffers := by
    rw [← hsame]
  have hstep := h.prefetching.empty h.sock hempty
  have hcursor : (w'.setChunk response.chunk
      ((w'.ib.chunk response.chunk).prepareRead response.byteLen).resetReadChunk).Held
        (Function.update (w'.out noPolled) (.wc k) (response.chunk :: rest.map (·.chunk))) :=
    h.prefetching.held.setChunk rfl
  rw [hsame] at hstep ⊢
  have hset : ((w'.setChunk response.chunk
      ((w'.ib.chunk response.chunk).prepareRead response.byteLen).resetReadChunk).setSock k
        (lookedAt s (taken ++ [response]))).Held
        (Function.update (w'.out noPolled) (.wc k) (response.chunk :: rest.map (·.chunk))) :=
    hcursor.setSock (s := lookedAt s taken) h.sock rfl
  obtain ⟨ib, hrun, _, hstill, hfree⟩ := hset.recall_free
  have hmoved : w'.ib.Still [response.chunk] ib :=
    (Infiniband.still_setChunk (by simp) _).trans (hstill.mono _)
  refine ⟨_, hrun, hstep.value hrun, by simp, ?_, ?_⟩
  · rw [hbuffers]
    dsimp only
    rw [sizes_of_still _ hmoved (fun c hc => (h.apart hc).2)
      (fun c hc => by simpa using (h.apart hc).1), h.sizes]
    simp [arrived, hempty]
  · dsimp only
    rw [hfree]
    change response.chunk :: w'.ib.free = _
    rw [h.free]
    simp [hempty]

theorem Prefetched.data {response : RxWc} {taken rest : List RxWc}
    (h : Prefetched k w s taken (response :: rest) w') (hdata : response.byteLen ≠ 0) :
    Prefetched k w s (taken ++ [response]) rest ((w'.setChunk response.chunk
      ((w'.ib.chunk response.chunk).prepareRead response.byteLen)).setSock k
      { lookedAt s taken with
        buffers := (lookedAt s taken).buffers ++ [response.chunk] }) := by
  have hsame : { lookedAt s taken with
      buffers := (lookedAt s taken).buffers ++ [response.chunk] } =
      lookedAt s (taken ++ [response]) := by
    simp [lookedAt, hdata]
  have hnext := h.prefetching.data h.sock hdata
  rw [hsame] at hnext ⊢
  have hself : ((w'.setChunk response.chunk ((w'.ib.chunk response.chunk).prepareRead
      response.byteLen)).ib.chunk response.chunk).getSize = response.byteLen := by
    simp [World.setChunk, Infiniband.setChunk, getSize_prepareRead]
  refine ⟨hnext, by simp, ?_, ?_⟩
  · have hmoved : w'.ib.Still [response.chunk] (w'.setChunk response.chunk
        ((w'.ib.chunk response.chunk).prepareRead response.byteLen)).ib :=
      Infiniband.still_setChunk (by simp) _
    have hold := sizes_of_still (lookedAt s taken).buffers hmoved
      (fun c hc => (h.apart hc).2) (fun c hc => by simpa using (h.apart hc).1)
    have hbuffers : (lookedAt s (taken ++ [response])).buffers =
        (lookedAt s taken).buffers ++ [response.chunk] := by rw [← hsame]
    have hone : (w'.setChunk response.chunk ((w'.ib.chunk response.chunk).prepareRead
        response.byteLen)).ib.sizes [response.chunk] =
        [(response.chunk, response.byteLen.toNat)] :=
      congrArg (fun n : UInt32 => [(response.chunk, n.toNat)]) hself
    change Infiniband.sizes (w'.setChunk response.chunk _).ib _ = _
    rw [hbuffers, sizes_append, hold, h.sizes, hone]
    simp [arrived, hdata]
  · rw [List.filter_append]
    simp only [hdata, List.filter_cons, decide_false, Bool.false_eq_true, if_false,
      List.filter_nil, List.append_nil]
    exact h.free

theorem bufferPrefetch_prefetches (h : w.Held (w.out noPolled)) (hs : w.socks k = some s)
    (hstatus : ∀ response ∈ s.wc, response.status = .success) :
    ∃ w', w.bufferPrefetch k = .ok w' ∧ w'.Held (w'.out noPolled) ∧
      Prefetched k w s s.wc [] w' := by
  have hloop : Ends (w.bufferPrefetch k) (Prefetched k w s s.wc []) fun _ => False := by
    unfold World.bufferPrefetch
    rw [sock_of_some hs, ok_bind]
    have hstart : Prefetched k w s [] s.wc (w.setSock k { s with wc := [] }) := by
      refine ⟨⟨h.getWc hs, keeps_setSock hs { s with wc := [] } rfl rfl, s, { s with wc := [] }, hs,
        by simp, rfl, rfl⟩, ?_, ?_, rfl⟩
      · simp [lookedAt]
      · simp [lookedAt, arrived]
        rfl
    refine (Ends.foldlM (fun rest w' => ∃ taken, taken ++ rest = s.wc ∧
      Prefetched k w s taken rest w') ?_ s.wc _ ⟨[], rfl, hstart⟩).mono ?_ fun _ => id
    · rintro response rest w' ⟨taken, htaken, hpre⟩
      have hok : response.status = .success := hstatus response (by simp [← htaken])
      unfold World.prefetchOne
      rw [sock_of_some hpre.sock, ok_bind, if_neg (by simp [hok])]
      dsimp only
      by_cases hempty : response.byteLen = 0
      · rw [if_pos (by rw [getSize_prepareRead, hempty])]
        obtain ⟨w'', hrun, hnext⟩ := hpre.empty hempty
        rw [hrun]
        exact ⟨taken ++ [response], by simp [htaken], hnext⟩
      · rw [if_neg (by rwa [getSize_prepareRead])]
        exact ⟨taken ++ [response], by simp [htaken], hpre.data hempty⟩
    · rintro w' ⟨taken, htaken, hpre⟩
      rw [List.append_nil] at htaken
      rw [← htaken]
      exact hpre
  obtain ⟨w', hrun, hpre⟩ := hloop.returns
  exact ⟨w', hrun, ((h.bufferPrefetch k).value hrun).1, hpre⟩

theorem updatePostBacklog_ends (h : w.Held out) (config : Config) (hs : w.socks k = some s)
    (hq : s.qp = some q) :
    Ends (w.updatePostBacklog config k)
      (fun w' => w'.Held out ∧ Aside [] k w w' ∧ (w.NoBacklog k → w' = w))
      (fun fault => ¬ w.NoBacklog k ∧ fault.Posting) := by
  have hstops : Ends (w.updatePostBacklog config k) (fun _ => True)
      (fun fault => ¬ w.NoBacklog k ∧ fault.Posting) := by
    unfold World.updatePostBacklog
    rw [sock_of_some hs, ok_bind]
    split
    · trivial
    · rename_i hbacklog
      obtain ⟨_, qp, hqp, _⟩ := h.registered.socket (sockQps_of_some hs ▸ hq)
      rw [sockQp_of_some hq, ok_bind]
      refine Ends.bind ((h.placed.postChunksToRq hqp s.postBacklog).mono (fun _ _ => trivial) ?_)
        fun _ _ => trivial
      intro fault hfault
      exact ⟨fun hnone => hbacklog (hnone s hs), hfault⟩
  refine ((hstops.and (h.updatePostBacklog config k)).and
    (aside_updatePostBacklog k config k w)).mono ?_ fun _ => id
  rintro w' ⟨⟨_, hheld, _, hidle⟩, haside⟩
  exact ⟨hheld, haside, hidle⟩

/-- `zero_read` of a whole chunk. -/
theorem zeroRead_whole {chunk : Chunk} {len : UInt32} (h : chunk.getSize ≤ len) :
    (chunk.zeroRead len).1 = chunk.getSize ∧ (chunk.zeroRead len).2.getSize = 0 := by
  have hread : (chunk.zeroRead len).1 = chunk.getSize := if_pos h
  refine ⟨hread, ?_⟩
  change chunk.bound - (chunk.offset + (chunk.zeroRead len).1) = 0
  rw [hread, Chunk.getSize, UInt32.add_comm, UInt32.sub_add_cancel, UInt32.sub_self]

/-- `zero_read` of a part. -/
theorem zeroRead_part {chunk : Chunk} {len : UInt32} (h : len < chunk.getSize) :
    (chunk.zeroRead len).1 = len ∧
      (chunk.zeroRead len).2.getSize.toNat = chunk.getSize.toNat - len.toNat := by
  have hread : (chunk.zeroRead len).1 = len := if_neg (UInt32.not_le.mpr h)
  refine ⟨hread, ?_⟩
  have hsize : (chunk.zeroRead len).2.getSize = chunk.getSize - len := by
    change chunk.bound - (chunk.offset + (chunk.zeroRead len).1) = chunk.bound - chunk.offset - len
    rw [hread, UInt32.sub_eq_iff_eq_add, UInt32.add_comm chunk.offset, ← UInt32.add_assoc,
      UInt32.sub_add_cancel, UInt32.sub_add_cancel]
  rw [hsize]
  exact UInt32.toNat_sub_of_le _ _ (UInt32.le_of_lt h)

/-- What a run of the loop of `read_buffers` has done when it returns. -/
structure Consumed (out : Slot → List Nat) (k : Nat) (w : World) (chunks : List Nat) (n : Nat)
    (rest : List Nat) (w' : World) : Prop where
  held : w'.Held (Function.update out (.buffers k) rest)
  sizes : w'.ib.sizes rest = left n (w.ib.sizes chunks)
  free : w.NoBacklog k → w'.ib.free = (done n (w.ib.sizes chunks)).reverse ++ w.ib.free

/-- A chunk that is finished goes back to the pool. -/
theorem Consumed.finish {w₁ w₂ : World} {rest rest' : List Nat} {n size : Nat}
    (hsize : (w.ib.chunk c).getSize.toNat = size)
    (hsizes : w₁.ib.sizes rest = w.ib.sizes rest)
    (hfree : w.NoBacklog k → w₁.ib.free = c :: w.ib.free ∧ w₁.NoBacklog k)
    (h : Consumed out k w₁ rest n rest' w₂) : Consumed out k w (c :: rest) (size + n) rest' w₂ := by
  have hcons : w.ib.sizes (c :: rest) = (c, size) :: w.ib.sizes rest := by
    rw [← hsize]
    rfl
  refine ⟨h.held, ?_, ?_⟩
  · rw [h.sizes, hsizes, hcons, left, if_pos (Nat.le_add_right _ _), Nat.add_sub_cancel_left]
  · intro hnone
    obtain ⟨hfree₁, hnone₁⟩ := hfree hnone
    rw [h.free hnone₁, hfree₁, hsizes, hcons, done, if_pos (Nat.le_add_right _ _),
      Nat.add_sub_cancel_left]
    simp

/-- The low 32 bits of what is wanted, which is all that `zero_read` is told, are
enough. -/
def Fits (want available : Nat) : Prop := want < 2 ^ 32 ∨ available ≤ want % 2 ^ 32

theorem fits_cons {want size available : Nat} (h : size ≤ want % 2 ^ 32) :
    Fits (want - size) available ↔ Fits want (size + available) := by
  unfold Fits
  omega

theorem sizes_cons (ib : Infiniband) (c : Nat) (rest : List Nat) :
    ib.sizes (c :: rest) = (c, (ib.chunk c).getSize.toNat) :: ib.sizes rest := rfl

/-- The chunks behind the one that is read do not change with it. -/
theorem sizes_rest {ib : Infiniband} (h : w.Held (Function.update out (.buffers k) (c :: rest)))
    (hmoved : w.ib.Still [c] ib) : ib.sizes rest = w.ib.sizes rest := by
  have hnodup := h.placed.exclusive.nodup (.out (.buffers k))
  simp only [Infiniband.place, Function.update_self, List.nodup_cons] at hnodup
  refine sizes_of_still rest hmoved (fun c' hc' => ?_) (fun c' hc' => ?_)
  · exact h.made_of_out (o := .buffers k) (by simp [hc'])
  · rw [List.mem_singleton]
    rintro rfl
    exact hnodup.1 hc'

theorem toNat_want {len readSize : UInt64} (hlen : readSize.toNat < len.toNat) :
    (len - readSize).toUInt32.toNat = (len.toNat - readSize.toNat) % 2 ^ 32 := by
  rw [UInt64.toNat_toUInt32, UInt64.toNat_sub_of_le _ _ (UInt64.le_iff_toNat_le.mpr hlen.le)]

/-- The world after a finished chunk has gone back to the pool. -/
structure Finished (out : Slot → List Nat) (k q : Nat) (w : World) (c : Nat) (rest : List Nat)
    (w₁ : World) : Prop where
  held : w₁.Held (Function.update out (.buffers k) rest)
  sock : ∃ s, w₁.socks k = some s ∧ s.qp = some q
  sizes : w₁.ib.sizes rest = w.ib.sizes rest
  free : w.NoBacklog k → w₁.ib.free = c :: w.ib.free ∧ w₁.NoBacklog k

theorem recall_finishes (h : w.Held (Function.update out (.buffers k) (c :: rest)))
    (hs : w.socks k = some s) (hq : s.qp = some q) (config : Config) (chunk : Chunk)
    (hqp : chunk.qp = (w.ib.chunk c).qp) :
    ∃ w₁, (w.setChunk c chunk).recallChunkToPool c = .ok w₁ ∧
      Ends (w₁.updatePostBacklog config k) (Finished out k q w c rest)
        fun fault => ¬ w.NoBacklog k ∧ fault.Posting := by
  have hset : (w.setChunk c chunk).Held (Function.update out (.buffers k) (c :: rest)) :=
    h.setChunk hqp
  obtain ⟨ib, hrun, hheld, hstill, hfree⟩ := hset.recall_free
  refine ⟨_, hrun, (updatePostBacklog_ends hheld config (s := s) hs hq).mono ?_ fun _ => id⟩
  rintro w₁ ⟨hheld₁, haside, hidle⟩
  obtain ⟨s₁, hs₁, hqp₁, _⟩ := haside.sock s hs
  refine ⟨hheld₁, ⟨s₁, hs₁, hqp₁.trans hq⟩, ?_, ?_⟩
  · exact sizes_rest h ((Infiniband.still_setChunk (by simp) _).trans
      ((hstill.mono _).trans (haside.still.mono _)))
  · intro hnone
    rw [hidle hnone]
    exact ⟨hfree, hnone⟩

/-- What the loop of `read_buffers` returns: it takes what is wanted, or all there is. -/
def Takes (out : Slot → List Nat) (k : Nat) (w : World) (chunks : List Nat) (readSize want : Nat)
    (result : UInt64 × List Nat × World) : Prop :=
  result.1.toNat = readSize + min want (total (w.ib.sizes chunks)) ∧
    Consumed out k w chunks (min want (total (w.ib.sizes chunks))) result.2.1 result.2.2

theorem Takes.none (h : w.Held (Function.update out (.buffers k) chunks))
    (hpositive : Positive (w.ib.sizes chunks)) (readSize : UInt64) :
    Takes out k w chunks readSize.toNat 0 (readSize, chunks, w) := by
  unfold Takes
  rw [Nat.zero_min]
  refine ⟨rfl, h, (left_zero hpositive).symm, fun _ => ?_⟩
  rw [done_zero hpositive]
  rfl

/-- All that is wanted of a chunk, and no more than there is of it. -/
theorem Takes.part {readSize want : Nat} (chunk : Chunk)
    (h : w.Held (Function.update out (.buffers k) (c :: rest)))
    (hqp : chunk.qp = (w.ib.chunk c).qp) (hwant : want < (w.ib.chunk c).getSize.toNat)
    (hleft : chunk.getSize.toNat = (w.ib.chunk c).getSize.toNat - want) {readSize' : UInt64}
    (hsum : readSize'.toNat = readSize + want) :
    Takes out k w (c :: rest) readSize want (readSize', c :: rest, w.setChunk c chunk) := by
  have hmin : min want (total (w.ib.sizes (c :: rest))) = want := by
    rw [sizes_cons, total_cons]
    omega
  have hcursor : (w.ib.setChunk c chunk).chunk c = chunk := Function.update_self ..
  have hrest : (w.ib.setChunk c chunk).sizes rest = w.ib.sizes rest :=
    sizes_rest h (Infiniband.still_setChunk (by simp) chunk)
  unfold Takes
  rw [hmin]
  refine ⟨hsum, h.setChunk hqp, ?_, fun _ => ?_⟩
  · change (w.ib.setChunk c chunk).sizes (c :: rest) = _
    rw [sizes_cons, hcursor, hleft, hrest, sizes_cons, left, if_neg (by omega)]
  · rw [sizes_cons, done, if_neg (by omega)]
    rfl

/-- The chunk holds more than the low bits of what is wanted: all of that is taken, or the
loop never ends. -/
theorem readLoop_part (config : Config) {len readSize : UInt64}
    (h : w.Held (Function.update out (.buffers k) (c :: rest)))
    (hlen : readSize.toNat < len.toNat)
    (hpart : (len.toNat - readSize.toNat) % 2 ^ 32 < (w.ib.chunk c).getSize.toNat) :
    Ends (readLoop config k len (c :: rest) readSize w)
      (Takes out k w (c :: rest) readSize.toNat (len.toNat - readSize.toNat))
      fun fault =>
        ¬ Fits (len.toNat - readSize.toNat) (total (w.ib.sizes (c :: rest))) ∧ fault = .spins := by
  have hwant := toNat_want hlen
  have hlen64 : len.toNat < 2 ^ 64 := len.toNat_lt
  have hlt : (len - readSize).toUInt32 < (w.ib.chunk c).getSize := by
    rw [UInt32.lt_iff_toNat_lt, hwant]
    exact hpart
  obtain ⟨hread, hleft⟩ := zeroRead_part hlt
  rw [hwant] at hleft
  have hsum : (readSize + ((w.ib.chunk c).zeroRead (len - readSize).toUInt32).1.toUInt64).toNat =
      readSize.toNat + (len.toNat - readSize.toNat) % 2 ^ 32 := by
    rw [hread, UInt64.toNat_add, UInt32.toNat_toUInt64, hwant]
    omega
  have hunfinished : ((w.ib.chunk c).zeroRead (len - readSize).toUInt32).2.getSize ≠ 0 := by
    intro hzero
    rw [hzero, UInt32.toNat_zero] at hleft
    omega
  unfold World.readLoop
  dsimp only
  generalize readSize + _ = readSize' at hsum ⊢
  rw [if_neg hunfinished]
  split
  · rename_i hall
    have hwanted : (len.toNat - readSize.toNat) % 2 ^ 32 = len.toNat - readSize.toNat := by
      rw [hall] at hsum
      omega
    rw [hwanted] at hleft hpart hsum
    exact Takes.part ((w.ib.chunk c).zeroRead (len - readSize).toUInt32).2 h rfl hpart hleft hsum
  · rename_i hmore
    have hne : readSize'.toNat ≠ len.toNat := fun heq => hmore (UInt64.toNat_inj.mp heq)
    refine ⟨?_, rfl⟩
    rw [sizes_cons, total_cons]
    unfold Fits
    omega

/-- After a chunk that has been finished, what is still wanted. -/
theorem Takes.finish {w₁ : World} {readSize readSize' want : Nat}
    (hfinished : Finished out k q w c rest w₁) {size : Nat}
    (hsize : (w.ib.chunk c).getSize.toNat = size) (hle : size ≤ want)
    (hsum : readSize' = readSize + size) {result : UInt64 × List Nat × World}
    (h : Takes out k w₁ rest readSize' (want - size) result) :
    Takes out k w (c :: rest) readSize want result := by
  obtain ⟨hcount, hconsumed⟩ := h
  rw [hfinished.sizes] at hcount hconsumed
  have hboth : min want (total (w.ib.sizes (c :: rest))) =
      size + min (want - size) (total (w.ib.sizes rest)) := by
    rw [sizes_cons, total_cons, hsize]
    omega
  unfold Takes
  rw [hboth]
  exact ⟨by omega, hconsumed.finish hsize hfinished.sizes hfinished.free⟩

/-- The loop of `read_buffers` takes what is wanted, or all there is. -/
theorem readLoop_reads (config : Config) (k : Nat) (len : UInt64) (chunks : List Nat)
    (readSize : UInt64) (w : World) (h : w.Held (Function.update out (.buffers k) chunks))
    {s : Socket} (hs : w.socks k = some s) (hq : s.qp = some q)
    (hpositive : Positive (w.ib.sizes chunks)) (hlen : readSize.toNat < len.toNat) :
    Ends (readLoop config k len chunks readSize w)
      (Takes out k w chunks readSize.toNat (len.toNat - readSize.toNat))
      fun fault => ¬ w.NoBacklog k ∧ fault.Posting ∨
        ¬ Fits (len.toNat - readSize.toNat) (total (w.ib.sizes chunks)) ∧ fault = .spins := by
  induction chunks generalizing readSize w s with
  | nil =>
      refine ⟨by simp [Infiniband.sizes], h, rfl, fun _ => ?_⟩
      simp [Infiniband.sizes, done]
  | cons c rest ih =>
      by_cases hpart : (len.toNat - readSize.toNat) % 2 ^ 32 < (w.ib.chunk c).getSize.toNat
      · exact (readLoop_part config h hlen hpart).mono (fun _ => id) fun _ hstop => .inr hstop
      · have hwant := toNat_want hlen
        have hlen64 : len.toNat < 2 ^ 64 := len.toNat_lt
        generalize hsize : (w.ib.chunk c).getSize.toNat = size at hpart
        have hwhole : size ≤ (len.toNat - readSize.toNat) % 2 ^ 32 := by omega
        have hle : (w.ib.chunk c).getSize ≤ (len - readSize).toUInt32 := by
          rw [UInt32.le_iff_toNat_le, hwant, hsize]
          exact hwhole
        obtain ⟨hread, hzero⟩ := zeroRead_whole hle
        have hsum : (readSize + ((w.ib.chunk c).zeroRead
            (len - readSize).toUInt32).1.toUInt64).toNat = readSize.toNat + size := by
          rw [hread, UInt64.toNat_add, UInt32.toNat_toUInt64, hsize]
          omega
        unfold World.readLoop
        dsimp only
        generalize readSize + _ = readSize' at hsum ⊢
        obtain ⟨w₀, hrun, hupdate⟩ := recall_finishes h hs hq config
          ((w.ib.chunk c).zeroRead (len - readSize).toUInt32).2.resetReadChunk rfl
        rw [if_pos hzero, hrun, ok_bind]
        refine (hupdate.mono (fun _ => id) fun _ hstop => .inl hstop).bind ?_
        intro w₁ hfinished
        obtain ⟨s₁, hs₁, hq₁⟩ := hfinished.sock
        have hpositive₁ : Positive (w₁.ib.sizes rest) := hfinished.sizes ▸ fun seg hseg =>
          hpositive seg (List.mem_cons_of_mem _ hseg)
        split
        · rename_i hall
          have hwanted : len.toNat - readSize.toNat - size = 0 := by
            rw [← hall, hsum]
            omega
          refine Takes.finish hfinished hsize (by omega) hsum ?_
          rw [hwanted]
          exact .none hfinished.held hpositive₁ readSize'
        · rename_i hmore
          have hlen' : readSize'.toNat < len.toNat := by
            have hne : readSize'.toNat ≠ len.toNat := fun heq => hmore (UInt64.toNat_inj.mp heq)
            omega
          have hwant' : len.toNat - readSize'.toNat = len.toNat - readSize.toNat - size := by
            omega
          refine (ih readSize' w₁ hfinished.held hs₁ hq₁ hpositive₁ hlen').mono ?_ ?_
          · intro result htakes
            rw [hwant'] at htakes
            exact Takes.finish hfinished hsize (by omega) hsum htakes
          · rintro fault (⟨hbacklog, hposting⟩ | ⟨hfits, hspins⟩)
            · exact .inl ⟨fun hnone => hbacklog (hfinished.free hnone).2, hposting⟩
            · rw [hfinished.sizes, hwant', fits_cons hwhole] at hfits
              rw [sizes_cons, total_cons, hsize]
              exact .inr ⟨hfits, hspins⟩

/-- Connection `k` can be read: what it was passed succeeded, and no chunk that it
keeps is finished. -/
structure Reads (w : World) (k q : Nat) (s : Socket) : Prop where
  sock : w.socks k = some s
  qp : s.qp = some q
  success : ∀ response ∈ s.wc, response.status = .success
  positive : Positive (w.ib.sizes s.buffers)

theorem positive_arrived (wc : List RxWc) : Positive (arrived wc) := by
  intro seg hseg
  obtain ⟨response, hmem, rfl⟩ := List.mem_map.mp hseg
  have hne : response.byteLen ≠ 0 := by simpa using (List.mem_filter.mp hmem).2
  exact UInt32.lt_iff_toNat_lt.mp (UInt32.pos_iff_ne_zero.mpr hne)

theorem Reads.positive_unread (h : w.Reads k q s) : Positive (w.unread k) := by
  rw [unread_of_sock h.sock]
  exact h.positive.append (positive_arrived s.wc)

/-- What `read` has done to the connection after `n` bytes. -/
structure Took (k : Nat) (w : World) (s : Socket) (n : Nat) (w' : World) (s' : Socket) : Prop where
  sock : w'.socks k = some s'
  qp : s'.qp = s.qp
  wc : s'.wc = []
  sizes : w'.ib.sizes s'.buffers = left n (w.unread k)
  free : w.NoBacklog k → w'.ib.free = (done n (w.unread k)).reverse ++
    (((s.wc.filter (·.byteLen = 0)).map (·.chunk)).reverse ++ w.ib.free)

theorem Took.unread {n : Nat} (h : Took k w s n w' s') : w'.unread k = left n (w.unread k) := by
  rw [unread_of_sock h.sock, h.wc, h.sizes]
  exact List.append_nil _

theorem Took.reads {n : Nat} (h : Took k w s n w' s') (hreads : w.Reads k q s) :
    w'.Reads k q s' := by
  refine ⟨h.sock, h.qp.trans hreads.qp, by simp [h.wc], ?_⟩
  rw [h.sizes]
  exact hreads.positive_unread.left n

theorem readBuffers_reads (h : w.Held (w.out noPolled)) (hreads : w.Reads k q s)
    (config : Config) {len : UInt64} (hlen : 0 < len.toNat) :
    Ends (w.readBuffers config k len)
      (fun result => result.1.toNat = min len.toNat (total (w.unread k)) ∧
        ∃ s', s'.ep = (lookedAt s s.wc).ep ∧
          Took k w s (min len.toNat (total (w.unread k))) result.2 s')
      fun fault => ¬ w.NoBacklog k ∧ fault.Posting ∨
        ¬ Fits len.toNat (total (w.unread k)) ∧ fault = .spins := by
  obtain ⟨w₁, hrun, hheld₁, hpre⟩ := bufferPrefetch_prefetches h hreads.sock hreads.success
  have hnone₁ : w.NoBacklog k → w₁.NoBacklog k := fun hnone =>
    hnone.of_keeps hpre.prefetching.keeps
  have hsizes₁ : w₁.ib.sizes (lookedAt s s.wc).buffers = w.unread k := by
    rw [hpre.sizes, unread_of_sock hreads.sock]
  have hbuffers : Function.update (w₁.out noPolled) (.buffers k) (lookedAt s s.wc).buffers =
      w₁.out noPolled := by
    rw [Function.update_eq_self_iff, out_buffers hpre.sock]
  have hloop := readLoop_reads config k len (lookedAt s s.wc).buffers 0 w₁
    (hbuffers.symm ▸ hheld₁) hpre.sock hreads.qp (hsizes₁ ▸ hreads.positive_unread)
    (by simpa using hlen)
  simp only [UInt64.toNat_zero, Nat.sub_zero, hsizes₁] at hloop
  unfold World.readBuffers
  rw [hrun, ok_bind, sock_of_some hpre.sock, ok_bind]
  have haside := aside_readLoop config k k len (lookedAt s s.wc).buffers
    (fun c (hc : c ∈ (lookedAt s s.wc).buffers) => hc) 0 w₁
  refine ((hloop.and haside).mono (fun _ => id) ?_).bind ?_
  · rintro fault (⟨hbacklog, hposting⟩ | hspins)
    · exact .inl ⟨fun hnone => hbacklog (hnone₁ hnone), hposting⟩
    · exact .inr hspins
  · rintro ⟨readSize, rest, w₂⟩ ⟨⟨hcount, hconsumed⟩, haside⟩
    rw [hsizes₁, Nat.zero_add] at hcount
    rw [hsizes₁] at hconsumed
    obtain ⟨s₂, hs₂, hqp₂, hep₂, hwc₂, _⟩ := haside.sock _ hpre.sock
    dsimp only at hs₂
    dsimp only
    rw [sock_of_some hs₂, ok_bind]
    refine ⟨hcount, { s₂ with buffers := rest }, hep₂, by simp, hqp₂, hwc₂, ?_, ?_⟩
    · have hsizes := hconsumed.sizes
      rw [hsizes₁] at hsizes
      exact hsizes
    · intro hnone
      have hfree := hconsumed.free (hnone₁ hnone)
      rw [hsizes₁, hpre.free] at hfree
      exact hfree

theorem lookedAt_connected (s : Socket) (taken : List RxWc) :
    (lookedAt s taken).ep.connected = s.ep.connected := by
  unfold lookedAt Endpoint.gotRemoteClose
  dsimp only
  split
  · split
    · rfl
    · rfl
  · rfl

/-- A connection that is connected has nothing to do after `read_buffers`. -/
theorem afterRead_of_connected {ep : Endpoint} (h : ep.connected = true) (tx : Cluster)
    (answers : Answers) : ep.afterRead tx answers = .ok ep := by
  unfold Endpoint.afterRead
  rw [if_neg (by simp [h])]

/-- What `read` returns when `read_buffers` has read `n` bytes. -/
def readResult (ep : Endpoint) (n : Nat) : Int :=
  if n = 0 ∧ ep.error ≠ 0 then -ep.error else if n = 0 then -eagain else n

/-- `read` on a connection that comes as far as `read_buffers`. -/
theorem read_reads (h : w.Held (w.out noPolled)) (hreads : w.Reads k q s)
    (hbuffers : s.ep.readsBuffers = true) (config : Config) (answers : Answers) {len : UInt64}
    (hlen : 0 < len.toNat) :
    Ends (w.read config answers k len)
      (fun result => ∃ tx s', (lookedAt s s.wc).ep.afterRead tx answers = .ok s'.ep ∧
        Took k w s (min len.toNat (total (w.unread k))) result.2 s' ∧
        result.1 = readResult s'.ep (min len.toNat (total (w.unread k))))
      fun fault => ¬ w.NoBacklog k ∧ fault.Posting ∨
        ¬ Fits len.toNat (total (w.unread k)) ∧ fault = .spins ∨ s.ep.connected = false := by
  unfold World.read
  rw [sock_of_some hreads.sock, ok_bind, if_pos hbuffers]
  refine ((readBuffers_reads h hreads config hlen).mono (fun _ => id) ?_).bind ?_
  · rintro fault (hposting | hspins)
    · exact .inl hposting
    · exact .inr (.inl hspins)
  · rintro ⟨readSize, w₁⟩ ⟨hcount, s₁, hep₁, htook⟩
    have hafter : Ends ((lookedAt s s.wc).ep.afterRead w₁.tx answers)
        (fun ep => (lookedAt s s.wc).ep.afterRead w₁.tx answers = .ok ep)
        fun _ => s.ep.connected = false := by
      cases hconnected : s.ep.connected with
      | true =>
          rw [afterRead_of_connected ((lookedAt_connected s s.wc).trans hconnected)]
          rfl
      | false =>
          exact (ends_iff_forall.mpr fun _ hrun => hrun).mono (fun _ => id) fun _ _ => rfl
    dsimp only
    rw [sock_of_some htook.sock, ok_bind, sockQp_of_some (htook.qp.trans hreads.qp), ok_bind,
      hep₁]
    refine (hafter.mono (fun _ => id) fun _ hstop => .inr (.inr hstop)).bind fun ep hep => ?_
    refine ⟨w₁.tx, { s₁ with ep }, hep, ⟨by simp [World.setEndpoint], htook.qp, htook.wc,
      htook.sizes, htook.free⟩, ?_⟩
    have hzero : readSize = 0 ↔ min len.toNat (total (w.unread k)) = 0 := by
      rw [← hcount]
      exact ⟨fun h => by simp [h], fun h => UInt64.toNat_inj.mp h⟩
    dsimp only at hcount ⊢
    unfold readResult
    simp only [hzero, hcount]

end World

end RdmaCapsule.Core
