import RdmaCapsule.Core.Holding

/-! The operations of a connection on what it has received: `read`, `drain` and
the calls that leave the receive path alone. -/
namespace RdmaCapsule.Core

open RdmaCapsule.Foundation

namespace World

variable {w w' : World} {out : Slot → List Nat} {k q c : Nat} {s s' : Socket} {config : Config}

theorem Held.drain (h : w.Held (w.out noPolled)) (config : Config) (k : Nat) :
    Ends (w.drain config k)
      (fun w' => w'.Held (w'.out noPolled) ∧ (w.NoBacklog k → w.Keeps w')) Fault.Orderly := by
  unfold World.drain
  refine ends_sock ⟨by simp, by simp⟩ fun s hs => ?_
  have hs₁ : (w.setSock k { s with wc := [] }).socks k = some { s with wc := [] } := by
    simp [World.setSock]
  have hkeeps₁ : w.Keeps (w.setSock k { s with wc := [] }) :=
    keeps_setSock hs { s with wc := [] } rfl rfl
  generalize hw₁ : w.setSock k { s with wc := [] } = w₁ at hs₁ hkeeps₁
  have hloop : Ends (s.wc.foldlM (drainOne config k) w₁)
      (fun w' => w'.Held (Function.update (w₁.out noPolled) (.wc k) []) ∧ w₁.Resembles w' ∧
        (w.NoBacklog k → w.Keeps w')) Fault.Orderly := by
    refine Ends.foldlM (fun rest w' =>
      w'.Held (Function.update (w₁.out noPolled) (.wc k) (rest.map (·.chunk))) ∧
        w₁.Resembles w' ∧ (w.NoBacklog k → w.Keeps w')) ?_ s.wc w₁
      ⟨hw₁ ▸ h.getWc hs, .refl w₁, fun _ => hkeeps₁⟩
    rintro response rest w' ⟨hheld, hsame, hkeeps⟩
    unfold drainOne
    split
    · exact ⟨by simp, by simp⟩
    · obtain ⟨ib, hrun, hheld', hqps, _⟩ := hheld.recall
      rw [hrun]
      refine (hheld'.updatePostBacklog config k).mono ?_ fun _ hf => hf
      rintro w'' ⟨hheld'', hsame'', hidle⟩
      refine ⟨hheld'', hsame.trans hsame'', fun hnone => ?_⟩
      have hkeeps' := (hkeeps hnone).trans (keeps_setIb hqps)
      rwa [hidle (hnone.of_keeps hkeeps')]
  refine hloop.mono ?_ fun _ hf => hf
  rintro w' ⟨hheld, hsame, hkeeps⟩
  have hempty : Function.update (w₁.out noPolled) (.wc k) [] = w₁.out noPolled := by
    rw [Function.update_eq_self_iff, out_wc hs₁]
    rfl
  refine ⟨?_, hkeeps⟩
  rw [hsame.out_eq]
  exact hempty ▸ hheld

/-- Bytes in the first chunk that `read_buffers` will come to. -/
def nextUnread (w : World) (buffers : List Nat) (wc : List RxWc) : Option UInt32 :=
  match buffers with
  | c :: _ => some (w.ib.chunk c).getSize
  | [] => (wc.find? (·.byteLen ≠ 0)).map (·.byteLen)

theorem getSize_prepareRead (chunk : Chunk) (b : UInt32) : (chunk.prepareRead b).getSize = b := by
  simp [Chunk.prepareRead, Chunk.getSize]

/-- The state of `buffer_prefetch` for connection `k` with some completions still
to be looked at. -/
structure Prefetching (k : Nat) (w : World) (rest : List RxWc) (w' : World) : Prop where
  held : w'.Held (Function.update (w'.out noPolled) (.wc k) (rest.map (·.chunk)))
  keeps : w.Keeps w'
  sock : ∃ s s', w.socks k = some s ∧ w'.socks k = some s' ∧ s'.wc = [] ∧
    w'.nextUnread s'.buffers rest = w.nextUnread s.buffers s.wc

/-- The next chunk to be read is not that of a completion that is still to be looked at. -/
theorem Prefetching.head_ne {response : RxWc} {rest : List RxWc} {c : Nat} {buffers : List Nat}
    (h : Prefetching k w (response :: rest) w') (hs' : w'.socks k = some s')
    (hbuffers : s'.buffers = c :: buffers) : c ≠ response.chunk := by
  rintro rfl
  cases h.held.placed.exclusive.apart (p := .out (.buffers k)) (q := .out (.wc k))
    (a := response.chunk) (by simp [Infiniband.place, out_buffers hs', hbuffers])
    (by simp [Infiniband.place])

/-- An empty message goes back to the pool. -/
theorem Prefetching.empty {response : RxWc} {rest : List RxWc}
    (h : Prefetching k w (response :: rest) w') (hs' : w'.socks k = some s')
    (hempty : response.byteLen = 0) :
    Ends (((w'.setChunk response.chunk
        ((w'.ib.chunk response.chunk).prepareRead response.byteLen).resetReadChunk).setSock k
        { s' with ep := s'.ep.gotRemoteClose }).recallChunkToPool response.chunk)
      (Prefetching k w rest) Fault.Orderly := by
  obtain ⟨s, s'', hs, hs'', hwc, hunread⟩ := h.sock
  cases Option.some.inj (hs'.symm.trans hs'')
  have hcursor : (w'.setChunk response.chunk
      ((w'.ib.chunk response.chunk).prepareRead response.byteLen).resetReadChunk).Held _ :=
    h.held.setChunk rfl
  have hother : ∀ c, c ≠ response.chunk → (w'.setChunk response.chunk
      ((w'.ib.chunk response.chunk).prepareRead response.byteLen).resetReadChunk).ib.chunk c =
      w'.ib.chunk c := fun c hne => Function.update_of_ne hne ..
  have hkeeps₁ : w'.Keeps (w'.setChunk response.chunk
      ((w'.ib.chunk response.chunk).prepareRead response.byteLen).resetReadChunk) :=
    keeps_setIb rfl
  generalize hw₁ : w'.setChunk response.chunk _ = w₁ at hcursor hother hkeeps₁ ⊢
  have hs₁ : w₁.socks k = some s' := hw₁ ▸ hs'
  have hout : (w₁.setSock k { s' with ep := s'.ep.gotRemoteClose }).out noPolled =
      w'.out noPolled := by
    rw [out_setSock_same hs₁ { s' with ep := s'.ep.gotRemoteClose } rfl rfl, ← hw₁]
    rfl
  have hheld : (w₁.setSock k { s' with ep := s'.ep.gotRemoteClose }).Held _ :=
    hcursor.setSock hs₁ rfl
  obtain ⟨ib, hrun, hheld', hqps, hchunk⟩ := hheld.recall
  rw [hrun]
  refine ⟨hout.symm ▸ hheld', ((h.keeps.trans hkeeps₁).trans (keeps_setSock hs₁
    { s' with ep := s'.ep.gotRemoteClose } rfl rfl)).trans (keeps_setIb hqps), s,
    { s' with ep := s'.ep.gotRemoteClose }, hs, by simp, hwc, ?_⟩
  rw [← hunread]
  cases hbuffers : s'.buffers with
  | nil => simp [nextUnread, hempty]
  | cons c buffers =>
      have hne := h.head_ne hs' hbuffers
      have hsame : ib.chunk c = w'.ib.chunk c := (hchunk c hne).trans (hother c hne)
      simp [nextUnread, hsame]

/-- Any other message joins what is to be read. -/
theorem Prefetching.data {response : RxWc} {rest : List RxWc}
    (h : Prefetching k w (response :: rest) w') (hs' : w'.socks k = some s')
    (hdata : response.byteLen ≠ 0) :
    Prefetching k w rest ((w'.setChunk response.chunk
      ((w'.ib.chunk response.chunk).prepareRead response.byteLen)).setSock k
      { s' with buffers := s'.buffers ++ [response.chunk] }) := by
  obtain ⟨s, s'', hs, hs'', hwc, hunread⟩ := h.sock
  cases Option.some.inj (hs'.symm.trans hs'')
  have hcursor : (w'.setChunk response.chunk
      ((w'.ib.chunk response.chunk).prepareRead response.byteLen)).Held _ := h.held.setChunk rfl
  have hself : (w'.setChunk response.chunk ((w'.ib.chunk response.chunk).prepareRead
      response.byteLen)).ib.chunk response.chunk =
      (w'.ib.chunk response.chunk).prepareRead response.byteLen := Function.update_self ..
  have hother : ∀ c, c ≠ response.chunk → (w'.setChunk response.chunk
      ((w'.ib.chunk response.chunk).prepareRead response.byteLen)).ib.chunk c =
      w'.ib.chunk c := fun c hne => Function.update_of_ne hne ..
  have hkeeps₁ : w'.Keeps (w'.setChunk response.chunk
      ((w'.ib.chunk response.chunk).prepareRead response.byteLen)) := keeps_setIb rfl
  generalize hw₁ : w'.setChunk response.chunk _ = w₁ at hcursor hself hother hkeeps₁ ⊢
  have hs₁ : w₁.socks k = some s' := hw₁ ▸ hs'
  have hout : w₁.out noPolled = w'.out noPolled := by
    rw [← hw₁]
    rfl
  refine ⟨⟨hcursor.placed.moveOut (c := response.chunk) (.wc k) (.buffers k) (by simp) ?_ ?_ ?_,
    hcursor.registered.setSock hs₁ rfl⟩, (h.keeps.trans hkeeps₁).trans (keeps_setSock hs₁
    { s' with buffers := s'.buffers ++ [response.chunk] } rfl rfl), s,
    { s' with buffers := s'.buffers ++ [response.chunk] }, hs, by simp, hwc, ?_⟩
  · simp
  · rw [out_setSock, hout, Function.update_of_ne (by simp), Function.update_self,
      Function.update_of_ne (by simp), out_buffers hs']
    exact List.perm_append_comm
  · intro o hwc hbuffers
    rw [out_setSock, hout]
    simp [hwc, hbuffers]
  · rw [← hunread]
    cases hbuffers : s'.buffers with
    | nil =>
        change some (w₁.ib.chunk response.chunk).getSize = _
        rw [hself, getSize_prepareRead]
        simp [nextUnread, hdata]
    | cons c buffers =>
        exact congrArg (fun chunk : Chunk => some chunk.getSize)
          (hother c (h.head_ne hs' hbuffers))

theorem Prefetching.one {response : RxWc} {rest : List RxWc}
    (h : Prefetching k w (response :: rest) w') :
    Ends (prefetchOne k w' response) (Prefetching k w rest) Fault.Orderly := by
  unfold World.prefetchOne
  refine ends_sock ⟨by simp, by simp⟩ fun s' hs' => ?_
  split
  · exact ⟨by simp, by simp⟩
  · dsimp only
    split
    · rename_i hsize
      rw [getSize_prepareRead] at hsize
      exact h.empty hs' hsize
    · rename_i hsize
      rw [getSize_prepareRead] at hsize
      exact h.data hs' hsize

theorem Held.bufferPrefetch (h : w.Held (w.out noPolled)) (k : Nat) :
    Ends (w.bufferPrefetch k) (fun w' => w'.Held (w'.out noPolled) ∧ Prefetching k w [] w')
      Fault.Orderly := by
  unfold World.bufferPrefetch
  refine ends_sock ⟨by simp, by simp⟩ fun s hs => ?_
  refine Ends.mono (Ends.foldlM (Prefetching k w) (fun _ _ _ hone => hone.one) s.wc _
    ⟨h.getWc hs, keeps_setSock hs { s with wc := [] } rfl rfl, s, { s with wc := [] }, hs,
      by simp, rfl, rfl⟩) ?_ fun _ hf => hf
  intro w' hdone
  obtain ⟨_, s', _, hs', hwc, _⟩ := hdone.sock
  have hempty : Function.update (w'.out noPolled) (.wc k) [] = w'.out noPolled := by
    rw [Function.update_eq_self_iff, out_wc hs', hwc]
    rfl
  exact ⟨hempty ▸ hdone.held, hdone⟩

/-- A chunk with more bytes than are wanted is not read to the end. -/
theorem zeroRead_getSize_ne_zero {chunk : Chunk} {len : UInt32} (h : len < chunk.getSize) :
    (chunk.zeroRead len).2.getSize ≠ 0 := by
  have hread : (chunk.zeroRead len).1 = len := if_neg (UInt32.not_le.mpr h)
  intro hzero
  have hsize : chunk.bound - (chunk.offset + len) = 0 := by
    have : (chunk.zeroRead len).2.getSize =
        chunk.bound - (chunk.offset + (chunk.zeroRead len).1) := rfl
    rw [← hread, ← this, hzero]
  have hbound : chunk.bound = chunk.offset + len := by
    rwa [UInt32.sub_eq_iff_eq_add, UInt32.zero_add] at hsize
  have hall : chunk.getSize = len := by
    rw [Chunk.getSize, hbound, UInt32.add_comm, UInt32.add_sub_cancel]
  exact UInt32.lt_irrefl len (hall ▸ h)

/-- The loop of `read_buffers` over the chunks that are left. The backlog comes
into play only when a chunk is finished. -/
theorem Held.readLoop (config : Config) (k : Nat) (len : UInt64) (chunks : List Nat)
    (readSize : UInt64) (w : World) (h : w.Held (Function.update out (.buffers k) chunks)) :
    Ends (readLoop config k len chunks readSize w)
      (fun result => result.2.2.Held (Function.update out (.buffers k) result.2.1) ∧
        w.Resembles result.2.2 ∧
        ((w.NoBacklog k ∨ ∀ n, w.nextUnread chunks [] = some n →
          (len - readSize).toUInt32 < n) → w.Keeps result.2.2)) Fault.Orderly := by
  induction chunks generalizing readSize w with
  | nil => exact ⟨h, .refl w, fun _ => .refl w⟩
  | cons c rest ih =>
      unfold World.readLoop
      dsimp only
      split
      · rename_i hfinished
        have hcursor : (w.setChunk c ((w.ib.chunk c).zeroRead
            (len - readSize).toUInt32).2.resetReadChunk).Held _ := h.setChunk rfl
        obtain ⟨ib, hrun, hheld, hqps, _⟩ := hcursor.recall
        rw [hrun]
        refine (hheld.updatePostBacklog config k).bind ?_
        rintro w' ⟨hheld', hsame, hidle⟩
        have hsame' : w.Resembles w' := fun k => hsame k
        -- a chunk has been finished, so there must be no backlog
        have hkeeps : (w.NoBacklog k ∨ ∀ n, w.nextUnread (c :: rest) [] = some n →
            (len - readSize).toUInt32 < n) → w.NoBacklog k ∧ w.Keeps w' := by
          intro hcase
          have hnone : w.NoBacklog k := by
            refine hcase.resolve_right fun hpart => ?_
            exact zeroRead_getSize_ne_zero (hpart _ rfl) hfinished
          refine ⟨hnone, ?_⟩
          rw [hidle hnone]
          exact keeps_setIb hqps
        split
        · exact ⟨hheld', hsame', fun hcase => (hkeeps hcase).2⟩
        · refine (ih _ w' hheld').mono ?_ fun _ hf => hf
          rintro result ⟨hheld'', hsame'', hkeeps''⟩
          refine ⟨hheld'', hsame'.trans hsame'', fun hcase => ?_⟩
          obtain ⟨hnone, hkeep⟩ := hkeeps hcase
          exact hkeep.trans (hkeeps'' (.inl (hnone.of_keeps hkeep)))
      · have hcursor : (w.setChunk c ((w.ib.chunk c).zeroRead
            (len - readSize).toUInt32).2).Held _ := h.setChunk rfl
        split
        · exact ⟨hcursor, fun _ => rfl, fun _ => keeps_setIb rfl⟩
        · exact ⟨by simp, by simp⟩

/-- `read` on this connection does not finish a chunk, or finds no backlog. -/
def ReadsAside (w : World) (k : Nat) (len : UInt64) : Prop :=
  w.NoBacklog k ∨ ∀ s n, w.socks k = some s → w.nextUnread s.buffers s.wc = some n →
    len.toUInt32 < n

theorem Held.readBuffers (h : w.Held (w.out noPolled)) (config : Config) (k : Nat)
    (len : UInt64) :
    Ends (w.readBuffers config k len)
      (fun result => result.2.Held (result.2.out noPolled) ∧
        (w.ReadsAside k len → w.Keeps result.2)) Fault.Orderly := by
  unfold World.readBuffers
  refine (h.bufferPrefetch k).bind ?_
  rintro w₁ ⟨hheld, hdone⟩
  refine ends_sock ⟨by simp, by simp⟩ fun s hs => ?_
  have hbuffers : Function.update (w₁.out noPolled) (.buffers k) s.buffers = w₁.out noPolled := by
    rw [Function.update_eq_self_iff, out_buffers hs]
  refine (Held.readLoop config k len s.buffers 0 w₁ (hbuffers.symm ▸ hheld)).bind ?_
  rintro ⟨readSize, rest, w₂⟩ ⟨hheld₂, hsame, hkeeps₂⟩
  refine ends_sock ⟨by simp, by simp⟩ fun s₂ hs₂ => ?_
  obtain ⟨s', hs', hwc, -, -, -⟩ := hsame.sock hs
  cases Option.some.inj (hs₂.symm.trans hs')
  have hout : (w₂.setSock k { s₂ with buffers := rest }).out noPolled =
      Function.update (w₁.out noPolled) (.buffers k) rest := by
    rw [out_setSock, hsame.out_eq, hwc, ← out_wc hs noPolled, Function.update_eq_self]
  refine ⟨⟨hout ▸ hheld₂.placed, hheld₂.registered.setSock hs₂ rfl⟩, fun haside => ?_⟩
  refine (hdone.keeps.trans (hkeeps₂ ?_)).trans
    (keeps_setSock hs₂ { s₂ with buffers := rest } rfl rfl)
  rcases haside with hnone | hpart
  · exact .inl (hnone.of_keeps hdone.keeps)
  · obtain ⟨s₀, s₁, hs₀, hs₁, _, hunread⟩ := hdone.sock
    cases Option.some.inj (hs.symm.trans hs₁)
    refine .inr fun n hn => ?_
    simpa using hpart s₀ n hs₀ (hunread ▸ hn)

theorem Held.read (h : w.Held (w.out noPolled)) (config : Config) (answers : Answers) (k : Nat)
    (len : UInt64) :
    Ends (w.read config answers k len)
      (fun result => result.2.Held (result.2.out noPolled) ∧
        ((∀ s, w.socks k = some s → s.ep.readsBuffers = true → w.ReadsAside k len) →
          w.Keeps result.2)) Fault.Orderly := by
  unfold World.read
  refine ends_sock ⟨by simp, by simp⟩ fun s hs => ?_
  split
  · rename_i hreads
    refine (h.readBuffers config k len).bind ?_
    rintro ⟨readSize, w₁⟩ ⟨hheld, hkeeps⟩
    refine ends_sock ⟨by simp, by simp⟩ fun s₁ hs₁ => ?_
    refine ends_sockQp ⟨by simp, by simp⟩ fun q hq => ?_
    refine ((s₁.ep.afterRead_stops w₁.tx answers).mono (fun _ hv => hv)
      fun _ => orderly_of_stops).bind fun ep _ => ?_
    exact ⟨hheld.setEndpoint hs₁ hq ep, fun haside =>
      (hkeeps (haside s hs hreads)).trans (keeps_setEndpoint hs₁ q ep)⟩
  · exact ⟨h, fun _ => .refl w⟩

theorem Held.call (h : w.Held (w.out noPolled)) (k : Nat) (call : Endpoint.Call)
    (answers : Answers) :
    Ends (w.call k call answers) (fun w' => w'.Held (w'.out noPolled) ∧ w.Keeps w')
      Fault.Orderly := by
  unfold World.call
  refine ends_sock ⟨by simp, by simp⟩ fun s hs => ?_
  refine ends_sockQp ⟨by simp, by simp⟩ fun q hq => ?_
  refine ((s.ep.call_stops w.tx answers call).mono (fun _ hv => hv)
    fun _ => orderly_of_stops).bind fun result _ => ?_
  exact ⟨h.setEndpoint hs hq result.1, keeps_setEndpoint hs q result.1⟩

theorem Held.setTxcCallback (h : w.Held (w.out noPolled)) (k : Nat) :
    Ends (w.setTxcCallback k) (fun w' => w'.Held (w'.out noPolled) ∧ w.Keeps w')
      Fault.Orderly := by
  unfold World.setTxcCallback
  refine ends_sock ⟨by simp, by simp⟩ fun s hs => ?_
  rw [ends_pure, out_setSock_same hs { s with txcCallback := true } rfl rfl]
  exact ⟨h.setSock hs rfl, keeps_setSock hs { s with txcCallback := true } rfl rfl⟩

end World

end RdmaCapsule.Core
