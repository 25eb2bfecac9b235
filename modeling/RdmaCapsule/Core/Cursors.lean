import RdmaCapsule.Core.Ownership

/-! What an operation leaves alone. A chunk that a connection is reading keeps its
cursor while chunks are cut, posted, completed and given back; only `read` moves
cursors, and only those of its own connection. The containers of a connection
are changed by its own operations and by what `handle_rx_event` passes to it. -/
namespace RdmaCapsule.Core

open RdmaCapsule.Foundation

namespace Infiniband

variable {ib ib' ib'' : Infiniband} {touched : List Nat} {env : Env} {q c : Nat}

/-- Chunks that were there keep what is unread of them, apart from those `touched`. -/
structure Still (touched : List Nat) (ib ib' : Infiniband) : Prop where
  made : ib.made ≤ ib'.made
  size : ∀ c, c < ib.made → c ∉ touched → (ib'.chunk c).getSize = (ib.chunk c).getSize

theorem Still.refl (touched : List Nat) (ib : Infiniband) : Still touched ib ib :=
  ⟨Nat.le_refl _, fun _ _ _ => rfl⟩

theorem Still.trans (h : Still touched ib ib') (h' : Still touched ib' ib'') :
    Still touched ib ib'' := by
  refine ⟨h.made.trans h'.made, ?_⟩
  intro c hc hnot
  rw [h'.size c (hc.trans_le h.made) hnot, h.size c hc hnot]

theorem Still.mono (h : Still [] ib ib') (touched : List Nat) : Still touched ib ib' :=
  ⟨h.made, fun c hc _ => h.size c hc (by simp)⟩

theorem still_of_eq (hmade : ib'.made = ib.made) (hchunk : ib'.chunk = ib.chunk) :
    Still [] ib ib' :=
  ⟨hmade.ge, fun c _ _ => by rw [hchunk]⟩

theorem still_setChunk (hc : c ∈ touched) (chunk : Chunk) :
    Still touched ib (ib.setChunk c chunk) := by
  refine ⟨Nat.le_refl _, ?_⟩
  intro c' _ hnot
  have hne : c' ≠ c := by
    rintro rfl
    exact hnot hc
  simp [setChunk, hne]

/-- The queue pair of a chunk is not part of its cursor. -/
theorem still_setQp (ib : Infiniband) (c : Nat) (qp : Option Nat) :
    Still [] ib (ib.setChunk c { ib.chunk c with qp }) := by
  refine ⟨Nat.le_refl _, ?_⟩
  intro c' _ _
  by_cases hc : c' = c
  · subst hc
    simp [setChunk, Chunk.getSize]
  · simp [setChunk, hc]

theorem still_slowMalloc (env : Env) (ib : Infiniband) : Still [] ib (ib.slowMalloc env) := by
  refine ⟨Nat.le_add_right _ _, ?_⟩
  intro c hc _
  have hold : ¬ (ib.made ≤ c ∧ c < ib.made + env.block ib.mallocs) := by omega
  simp [slowMalloc, hold]

theorem still_getRxBuffer (env : Env) (ib : Infiniband) :
    Still [] ib (ib.getRxBuffer env).2 := by
  have hpool : Still [] ib (if ib.free.isEmpty then ib.slowMalloc env else ib) := by
    split
    · exact still_slowMalloc env ib
    · exact .refl [] ib
  unfold getRxBuffer
  dsimp only
  split
  · exact hpool
  · exact hpool.trans (still_of_eq rfl rfl)

theorem still_fillRequests (env : Env) (q left : Nat) (requests : List Nat) (ib : Infiniband) :
    Still [] ib (ib.fillRequests env q left requests).2 := by
  induction left generalizing requests ib with
  | zero => exact .refl [] ib
  | succ left ih =>
      have hrx := still_getRxBuffer env ib
      unfold fillRequests
      split
      · rename_i ib₁ heq
        rw [heq] at hrx
        exact hrx
      · rename_i c ib₁ heq
        rw [heq] at hrx
        refine hrx.trans (Still.trans ?_ (ih _ _))
        exact (still_setQp ib₁ c (some q)).trans (still_of_eq rfl rfl)

theorem still_removeRqWr (ib : Infiniband) (q c : Nat) :
    Ends (ib.removeRqWr q c) (Still [] ib) fun _ => True := by
  unfold removeRqWr
  split
  · trivial
  · split
    · exact still_of_eq rfl rfl
    · trivial

theorem still_releaseRxBuffer (ib : Infiniband) (c : Nat) :
    Ends (ib.releaseRxBuffer c) (Still [] ib) fun _ => True := by
  unfold releaseRxBuffer
  split
  · trivial
  · exact (still_setQp ib c none).trans (still_of_eq rfl rfl)

theorem still_recallChunkToPool (ib : Infiniband) (c : Nat) :
    Ends (ib.recallChunkToPool c) (Still [] ib) fun _ => True := by
  unfold recallChunkToPool
  split
  · exact still_releaseRxBuffer ib c
  · rename_i q _
    refine (still_removeRqWr ib q c).bind fun ib₁ hremoved => ?_
    exact (still_releaseRxBuffer ib₁ c).mono (fun _ hreleased => hremoved.trans hreleased)
      fun _ => id

theorem still_unpost (q : Nat) (ib : Infiniband) (c : Nat) :
    Ends (unpost q ib c) (Still [] ib) fun _ => True := by
  unfold unpost
  refine (still_removeRqWr ib q c).bind fun ib₁ hremoved => ?_
  have hcleared : Still [] ib (ib₁.clearQp c) := hremoved.trans (still_setQp ib₁ c none)
  exact (still_releaseRxBuffer _ c).mono (fun _ hreleased => hcleared.trans hreleased) fun _ => id

/-- A loop whose body leaves the cursors alone does so itself. -/
theorem still_foldlM {body : Infiniband → α → Except Fault Infiniband}
    (hbody : ∀ ib item, Ends (body ib item) (Still [] ib) fun _ => True) (items : List α)
    (ib : Infiniband) : Ends (items.foldlM body ib) (Still [] ib) fun _ => True := by
  refine Ends.foldlM (fun _ ib' => Still [] ib ib') ?_ items ib (.refl [] ib)
  intro item _ ib' hstill
  exact (hbody ib' item).mono (fun _ hnext => hstill.trans hnext) fun _ => id

theorem still_postChunksToRq (env : Env) (rqWrNum q : Nat) (ib : Infiniband) :
    Ends (ib.postChunksToRq env rqWrNum q) (fun result => Still [] ib result.2)
      fun _ => True := by
  have hfill := still_fillRequests env q rqWrNum [] ib
  unfold postChunksToRq
  split
  · trivial
  · split
    · trivial
    · generalize ib.fillRequests env q rqWrNum [] = filled at hfill ⊢
      obtain ⟨requests, ib₁⟩ := filled
      have hposted : Still [] ib (ib₁.ibvPostRecv env q requests).2 :=
        hfill.trans (still_of_eq rfl rfl)
      dsimp only
      split
      · exact hfill
      · split
        · trivial
        · split
          · trivial
          · generalize ib₁.ibvPostRecv env q requests = result at hposted ⊢
            obtain ⟨bad, ib₂⟩ := result
            cases bad with
            | none => exact hposted
            | some bad =>
                refine (still_foldlM (still_unpost q) (requests.drop bad).dropLast ib₂).bind
                  fun ib₃ hundone => ?_
                exact hposted.trans hundone

theorem still_deleteQp (ib : Infiniband) (q : Nat) :
    Ends (ib.deleteQp q) (Still [] ib) fun _ => True := by
  unfold deleteQp
  split
  · trivial
  · rename_i qp _
    refine (still_foldlM still_releaseRxBuffer qp.recvQueue ib).bind fun ib₁ hreleased => ?_
    exact hreleased.trans (still_of_eq rfl rfl)

end Infiniband

namespace World

variable {w w' w'' : World} {touched : List Nat} {k k' q c : Nat} {s s' : Socket}
  {config : Config} {polled : Nat → List RxWc}

/-- Nothing has been done to connection `k` and, apart from the chunks `touched`, to
the cursors. Its backlog may have changed. -/
structure Aside (touched : List Nat) (k : Nat) (w w' : World) : Prop where
  still : w.ib.Still touched w'.ib
  sock : ∀ s, w.socks k = some s → ∃ s', w'.socks k = some s' ∧ s'.qp = s.qp ∧ s'.ep = s.ep ∧
    s'.wc = s.wc ∧ s'.buffers = s.buffers

theorem Aside.refl (touched : List Nat) (k : Nat) (w : World) : Aside touched k w w :=
  ⟨.refl touched w.ib, fun s hs => ⟨s, hs, rfl, rfl, rfl, rfl⟩⟩

theorem Aside.trans (h : Aside touched k w w') (h' : Aside touched k w' w'') :
    Aside touched k w w'' := by
  refine ⟨h.still.trans h'.still, ?_⟩
  intro s hs
  obtain ⟨s', hs', hqp, hep, hwc, hbuffers⟩ := h.sock s hs
  obtain ⟨s'', hs'', hqp', hep', hwc', hbuffers'⟩ := h'.sock s' hs'
  exact ⟨s'', hs'', hqp'.trans hqp, hep'.trans hep, hwc'.trans hwc, hbuffers'.trans hbuffers⟩

theorem Aside.mono (h : Aside [] k w w') (touched : List Nat) : Aside touched k w w' :=
  ⟨h.still.mono touched, h.sock⟩

theorem aside_of_socks (hstill : w.ib.Still touched w'.ib) (hsocks : w'.socks = w.socks) :
    Aside touched k w w' :=
  ⟨hstill, fun s hs => ⟨s, hsocks ▸ hs, rfl, rfl, rfl, rfl⟩⟩

theorem aside_setSock (hk : k ≠ k') (s : Socket) : Aside touched k w (w.setSock k' s) := by
  refine ⟨.refl touched w.ib, ?_⟩
  intro s' hs'
  exact ⟨s', by simp [hk, hs'], rfl, rfl, rfl, rfl⟩

/-- The backlog of some connection changes. -/
theorem aside_backlog (hs : w.socks k' = some s) {ib : Infiniband} (hstill : w.ib.Still [] ib)
    (backlog : Nat) : Aside [] k w ({ w with ib }.setSock k' { s with postBacklog := backlog }) := by
  refine ⟨hstill, ?_⟩
  intro s' hs'
  by_cases hk : k = k'
  · subst hk
    cases hs.symm.trans hs'
    exact ⟨{ s with postBacklog := backlog }, by simp, rfl, rfl, rfl, rfl⟩
  · exact ⟨s', by simp [hk, hs'], rfl, rfl, rfl, rfl⟩

theorem aside_foldlM {body : World → α → Except Fault World}
    (hbody : ∀ w item, Ends (body w item) (Aside touched k w) fun _ => True) (items : List α)
    (w : World) : Ends (items.foldlM body w) (Aside touched k w) fun _ => True := by
  refine Ends.foldlM (fun _ w' => Aside touched k w w') ?_ items w (.refl touched k w)
  intro item _ w' haside
  exact (hbody w' item).mono (fun _ hnext => haside.trans hnext) fun _ => id

theorem aside_recallChunkToPool (k : Nat) (w : World) (c : Nat) :
    Ends (w.recallChunkToPool c) (Aside [] k w) fun _ => True := by
  unfold World.recallChunkToPool
  refine (w.ib.still_recallChunkToPool c).bind fun ib hstill => ?_
  exact aside_of_socks hstill rfl

theorem aside_postChunksToRq (k : Nat) (config : Config) (num k' : Nat) (w : World) :
    Ends (w.postChunksToRq config num k') (Aside [] k w) fun _ => True := by
  unfold World.postChunksToRq
  refine ends_sock trivial fun s hs => ?_
  refine ends_sockQp trivial fun q hq => ?_
  refine (w.ib.still_postChunksToRq config.toEnv num q).bind fun result hstill => ?_
  exact aside_backlog hs hstill _

theorem aside_updatePostBacklog (k : Nat) (config : Config) (k' : Nat) (w : World) :
    Ends (w.updatePostBacklog config k') (Aside [] k w) fun _ => True := by
  unfold World.updatePostBacklog
  refine ends_sock trivial fun s hs => ?_
  split
  · exact .refl [] k w
  · refine ends_sockQp trivial fun q hq => ?_
    refine (w.ib.still_postChunksToRq config.toEnv s.postBacklog q).bind fun result hstill => ?_
    exact aside_backlog hs hstill _

theorem aside_create (config : Config) (isServer : Bool) (answer : InitAnswer) (q : Nat)
    (hk : k ≠ k') : Ends (w.create config k' q isServer answer) (Aside [] k w) fun _ => True := by
  unfold World.create
  cases answer with
  | notCreated => trivial
  | notInit => trivial
  | created =>
      let qp : QueuePair := ⟨config.rxQueueLen, [], false, [], []⟩
      let ib₁ := { w.ib with qps := Function.update w.ib.qps q (some qp) }
      have hmade : w.ib.Still [] ib₁ := Infiniband.still_of_eq rfl rfl
      refine (ib₁.still_postChunksToRq config.toEnv config.rxQueueLen q).bind fun result hposted => ?_
      have hstill : w.ib.Still [] result.2 := hmade.trans hposted
      have hnew : ∀ ib s, w.ib.Still [] ib → Aside [] k w ({ w with ib }.setSock k' s) := by
        intro ib s hib
        have hsame : Aside [] k w { w with ib } := aside_of_socks hib rfl
        exact hsame.trans (aside_setSock hk s)
      dsimp only
      split
      · refine (result.2.still_deleteQp q).bind fun ib hdeleted => ?_
        exact hnew ib _ (hstill.trans hdeleted)
      · unfold World.registerQp
        split
        · trivial
        · have hsock := hnew result.2 ⟨some q, .new config isServer q, [], [], 0, false⟩ hstill
          exact ⟨hsock.still, hsock.sock⟩

theorem aside_setEndpoint (hk : k ≠ k') (s : Socket) (q : Nat) (ep : Endpoint) :
    Aside [] k w (w.setEndpoint k' s q ep) := by
  unfold World.setEndpoint
  refine Aside.trans (aside_setSock hk { s with ep }) ?_
  exact aside_of_socks (Infiniband.still_of_eq rfl rfl) rfl

theorem aside_call (call : Endpoint.Call) (answers : Answers) (hk : k ≠ k') :
    Ends (w.call k' call answers) (Aside [] k w) fun _ => True := by
  unfold World.call
  refine ends_sock trivial fun s hs => ?_
  refine ends_sockQp trivial fun q hq => ?_
  have hany : Ends (s.ep.call w.tx answers call) (fun _ => True) fun _ => True :=
    ends_iff_forall.mpr fun _ _ => trivial
  refine hany.bind fun result _ => ?_
  exact aside_setEndpoint hk s q result.1

theorem aside_setTxcCallback (k k' : Nat) (w : World) :
    Ends (w.setTxcCallback k') (Aside [] k w) fun _ => True := by
  unfold World.setTxcCallback
  refine ends_sock trivial fun s hs => ?_
  refine ⟨.refl [] w.ib, ?_⟩
  intro s' hs'
  by_cases hk : k = k'
  · subst hk
    cases hs.symm.trans hs'
    exact ⟨{ s with txcCallback := true }, by simp, rfl, rfl, rfl, rfl⟩
  · exact ⟨s', by simp [hk, hs'], rfl, rfl, rfl, rfl⟩

/-- What connection `k` may still read are chunks of this list. -/
def Within (touched : List Nat) (k : Nat) (w : World) : Prop :=
  ∀ s, w.socks k = some s → ∀ c ∈ s.buffers, c ∈ touched

theorem Within.of_buffers (hs : w.socks k = some s) (h : w.Within touched k)
    (hs' : w'.socks k = some s') (hbuffers : ∀ c ∈ s'.buffers, c ∈ s.buffers ∨ c ∈ touched) :
    w'.Within touched k := by
  intro s'' hs'' c hc
  cases hs'.symm.trans hs''
  exact (hbuffers c hc).elim (h s hs c) id

theorem aside_prefetchOne (hk : k ≠ k') {response : RxWc} (hmem : response.chunk ∈ touched)
    (hwithin : w.Within touched k') :
    Ends (w.prefetchOne k' response) (fun w' => Aside touched k w w' ∧ w'.Within touched k')
      fun _ => True := by
  unfold World.prefetchOne
  refine ends_sock trivial fun s hs => ?_
  have hcursor : ∀ chunk, Aside touched k w (w.setChunk response.chunk chunk) := fun chunk =>
    aside_of_socks (Infiniband.still_setChunk hmem chunk) rfl
  have hset : ∀ chunk s', Aside touched k w ((w.setChunk response.chunk chunk).setSock k' s') :=
    fun chunk s' => (hcursor chunk).trans (aside_setSock hk s')
  split
  · trivial
  · dsimp only
    split
    · refine (Ends.and (aside_recallChunkToPool k _ response.chunk)
        (aside_recallChunkToPool k' _ response.chunk)).mono ?_ fun _ => id
      rintro w' ⟨haside, hown⟩
      obtain ⟨s', hs', _, _, _, hbuffers⟩ := hown.sock { s with ep := s.ep.gotRemoteClose } (by simp)
      refine ⟨(hset _ _).trans (haside.mono touched), hwithin.of_buffers hs hs' ?_⟩
      intro c hc
      rw [hbuffers] at hc
      exact .inl hc
    · refine ⟨hset _ _, hwithin.of_buffers hs (Function.update_self _ _ _) ?_⟩
      intro c hc
      rcases List.mem_append.mp hc with hold | hnew
      · exact .inl hold
      · rw [List.mem_singleton.mp hnew]
        exact .inr hmem

theorem aside_bufferPrefetch (hk : k ≠ k') (hwithin : w.Within touched k')
    (hwc : ∀ s, w.socks k' = some s → ∀ response ∈ s.wc, response.chunk ∈ touched) :
    Ends (w.bufferPrefetch k') (fun w' => Aside touched k w w' ∧ w'.Within touched k')
      fun _ => True := by
  unfold World.bufferPrefetch
  refine ends_sock trivial fun s hs => ?_
  have htaken : (w.setSock k' { s with wc := [] }).Within touched k' :=
    hwithin.of_buffers hs (Function.update_self _ _ _) fun c hc => .inl hc
  refine Ends.mono (Ends.foldlM (fun rest w' => (∀ response ∈ rest, response.chunk ∈ touched) ∧
    Aside touched k w w' ∧ w'.Within touched k') ?_ s.wc _
    ⟨hwc s hs, aside_setSock hk _, htaken⟩) (fun _ hdone => hdone.2) fun _ => id
  rintro response rest w' ⟨hrest, haside, hwithin'⟩
  refine (aside_prefetchOne hk (hrest response List.mem_cons_self) hwithin').mono ?_ fun _ => id
  rintro w'' ⟨haside', hwithin''⟩
  exact ⟨fun response' hmem => hrest response' (List.mem_cons_of_mem _ hmem),
    haside.trans haside', hwithin''⟩

theorem aside_readLoop (config : Config) (k k' : Nat) (len : UInt64) (chunks : List Nat)
    (hchunks : ∀ c ∈ chunks, c ∈ touched) (readSize : UInt64) (w : World) :
    Ends (readLoop config k' len chunks readSize w)
      (fun result => Aside touched k w result.2.2) fun _ => True := by
  induction chunks generalizing readSize w with
  | nil => exact .refl touched k w
  | cons c rest ih =>
      have hrest : ∀ c' ∈ rest, c' ∈ touched := fun c' hc' =>
        hchunks c' (List.mem_cons_of_mem _ hc')
      have hcursor : ∀ chunk, Aside touched k w (w.setChunk c chunk) := fun chunk =>
        aside_of_socks (Infiniband.still_setChunk (hchunks c List.mem_cons_self) chunk) rfl
      unfold World.readLoop
      dsimp only
      split
      · refine (aside_recallChunkToPool k _ c).bind fun w₁ hrecalled => ?_
        refine (aside_updatePostBacklog k config k' w₁).bind fun w₂ hupdated => ?_
        have haside : Aside touched k w w₂ :=
          (hcursor _).trans ((hrecalled.trans hupdated).mono touched)
        split
        · exact haside
        · refine (ih hrest _ w₂).mono ?_ fun _ => id
          intro result hresult
          exact haside.trans hresult
      · split
        · exact hcursor _
        · trivial

/-- `read` moves the cursors of what it reads. -/
theorem aside_read (config : Config) (answers : Answers) (len : UInt64) (hk : k ≠ k') :
    Ends (w.read config answers k' len)
      (fun result => Aside (w.out noPolled (.wc k') ++ w.out noPolled (.buffers k')) k w result.2)
      fun _ => True := by
  generalize htouched : w.out noPolled (.wc k') ++ w.out noPolled (.buffers k') = touched
  unfold World.read
  refine ends_sock trivial fun s hs => ?_
  have hbuffers : ∀ c ∈ s.buffers, c ∈ touched := by
    intro c hc
    rw [← htouched, out_buffers hs]
    exact List.mem_append_right _ hc
  have hwc : ∀ response ∈ s.wc, response.chunk ∈ touched := by
    intro response hresponse
    rw [← htouched, out_wc hs]
    exact List.mem_append_left _ (List.mem_map_of_mem hresponse)
  have hwithin : w.Within touched k' := by
    intro s' hs'
    cases hs.symm.trans hs'
    exact hbuffers
  have hreadBuffers : Ends (w.readBuffers config k' len)
      (fun result => Aside touched k w result.2) fun _ => True := by
    unfold World.readBuffers
    refine (aside_bufferPrefetch hk hwithin ?_).bind ?_
    · intro s' hs'
      cases hs.symm.trans hs'
      exact hwc
    · rintro w₁ ⟨haside₁, hwithin₁⟩
      refine ends_sock trivial fun s₁ hs₁ => ?_
      refine (aside_readLoop config k k' len s₁.buffers (hwithin₁ s₁ hs₁) 0 w₁).bind ?_
      rintro ⟨readSize, rest, w₂⟩ haside₂
      refine ends_sock trivial fun s₂ hs₂ => ?_
      exact (haside₁.trans haside₂).trans (aside_setSock hk _)
  split
  · refine hreadBuffers.bind ?_
    rintro ⟨readSize, w₁⟩ haside
    refine ends_sock trivial fun s₁ hs₁ => ?_
    refine ends_sockQp trivial fun q hq => ?_
    have hany : Ends (s₁.ep.afterRead w₁.tx answers) (fun _ => True) fun _ => True :=
      ends_iff_forall.mpr fun _ _ => trivial
    refine hany.bind fun ep _ => ?_
    exact haside.trans ((aside_setEndpoint hk s₁ q ep).mono touched)
  · exact .refl touched k w

theorem aside_drain (config : Config) (hk : k ≠ k') :
    Ends (w.drain config k') (Aside [] k w) fun _ => True := by
  unfold World.drain
  refine ends_sock trivial fun s hs => ?_
  refine (aside_foldlM (k := k) ?_ s.wc _).mono
    (fun _ haside => (aside_setSock hk _).trans haside) fun _ => id
  intro w' response
  unfold World.drainOne
  split
  · trivial
  · refine (aside_recallChunkToPool k w' response.chunk).bind fun w₁ hrecalled => ?_
    exact (aside_updatePostBacklog k config k' w₁).mono
      (fun _ hupdated => hrecalled.trans hupdated) fun _ => id

theorem aside_handleTxEvent (k : Nat) (cqe : List TxWc) (w : World) :
    Ends (w.handleTxEvent cqe) (Aside [] k w) fun _ => True := by
  unfold World.handleTxEvent
  refine Ends.bind (Ends.foldlM (fun _ state => Aside [] k w state.1) ?_ cqe (w, [])
    (.refl [] k w)) ?_
  · rintro response _ ⟨w', txChunks⟩ haside
    have hsame : ∀ w'', w''.ib = w'.ib → w''.socks = w'.socks → Aside [] k w w'' := by
      intro w'' hib hsocks
      exact haside.trans (aside_of_socks (hib ▸ .refl [] w'.ib) hsocks)
    unfold World.handleTxOne
    dsimp only
    split
    · exact hsame _ (enqueueDeadQp_ib w' _) (enqueueDeadQp_socks w' _)
    · split
      · trivial
      · have hany : Ends (w'.getConnLockless response.qpNum) (fun _ => True) fun _ => True :=
          ends_iff_forall.mpr fun _ _ => trivial
        refine hany.bind fun conn _ => ?_
        cases conn with
        | none => trivial
        | some k'' =>
            refine ends_sock trivial fun s hs => ?_
            split
            · trivial
            · split
              · split
                · exact hsame _ rfl rfl
                · trivial
              · split
                · exact hsame _ rfl rfl
                · trivial
  · rintro ⟨w', txChunks⟩ haside
    refine haside.trans ?_
    unfold World.postTxBuffer
    dsimp only
    split
    · exact .refl [] k w'
    · exact aside_of_socks (.refl [] _) rfl

theorem aside_scheduleQpDestroy (k : Nat) (switched : Bool) (q : Nat) (w : World) :
    Ends (w.scheduleQpDestroy switched q) (Aside [] k w) fun _ => True := by
  unfold World.scheduleQpDestroy
  split
  · exact .refl [] k w
  · split
    · trivial
    · rename_i qp _
      have hstill : w.ib.Still [] (toDead switched q qp w.ib).2 := by
        unfold World.toDead
        split
        · exact .refl [] w.ib
        · split
          · exact Infiniband.still_of_eq rfl rfl
          · exact .refl [] w.ib
      split
      · rename_i ib heq
        rw [heq] at hstill
        exact aside_of_socks hstill rfl
      · rename_i ib heq
        rw [heq] at hstill
        exact aside_of_socks hstill rfl

theorem aside_destroy (switched : Bool) (hk : k ≠ k') :
    Ends (w.destroy switched k') (Aside [] k w) fun _ => True := by
  unfold World.destroy
  refine ends_sock trivial fun s hs => ?_
  refine (aside_scheduleQpDestroy k switched _ w).bind fun w₁ haside₁ => ?_
  refine (aside_foldlM (aside_recallChunkToPool k) _ w₁).bind fun w₂ haside₂ => ?_
  refine (aside_foldlM (aside_recallChunkToPool k) _ w₂).bind fun w₃ haside₃ => ?_
  refine ((haside₁.trans haside₂).trans haside₃).trans ⟨.refl [] _, ?_⟩
  intro s' hs'
  exact ⟨s', by simp [hk, hs'], rfl, rfl, rfl, rfl⟩

theorem aside_idle (k : Nat) (w : World) : Ends w.idle (Aside [] k w) fun _ => True := by
  unfold World.idle
  refine (aside_foldlM (k := k) ?_ w.deadQueuePairs _).mono
    (fun _ haside => ⟨haside.still, haside.sock⟩) fun _ => id
  intro w' q
  unfold World.deleteDead
  refine (w'.ib.still_deleteQp q).bind fun ib hstill => ?_
  exact aside_of_socks hstill rfl

/-- The calls of a connection leave its containers alone. -/
theorem call_own (hs : w.socks k = some s) (call : Endpoint.Call) (answers : Answers) :
    Ends (w.call k call answers)
      (fun w' => w.ib.Still [] w'.ib ∧ ∃ result, s.ep.call w.tx answers call = .ok result ∧
        w'.socks k = some { s with ep := result.1 }) fun _ => True := by
  unfold World.call
  refine ends_sock trivial fun s' hs' => ?_
  cases hs.symm.trans hs'
  refine ends_sockQp trivial fun q hq => ?_
  have hrun : Ends (s.ep.call w.tx answers call)
      (fun result => s.ep.call w.tx answers call = .ok result) fun _ => True :=
    ends_iff_forall.mpr fun _ hrun => hrun
  refine hrun.bind fun result hresult => ?_
  exact ⟨Infiniband.still_of_eq rfl rfl, result, hresult, by simp [World.setEndpoint]⟩

/-- Inside a batch: what has been collected for connection `k`. -/
theorem handleRxOne_collects {response : RxWc} (hreg : w.Registered)
    (hsock : w.sockQps k = some q) :
    Ends (handleRxOne config (w, polled) response)
      (fun state => Aside [] k w state.1 ∧ response.status = .success ∧
        state.2 k = polled k ++ [response].filter (·.qpNum = q)) fun _ => True := by
  obtain ⟨conn, hrun, hconn, hunused⟩ := hreg.getConnLockless response.qpNum
  unfold handleRxOne
  dsimp only
  rw [hrun, ok_bind]
  split
  · rename_i hstatus
    cases conn with
    | none =>
        have hne : response.qpNum ≠ q := by
          rintro rfl
          exact hunused rfl k hsock
        refine (aside_recallChunkToPool k w response.chunk).bind fun w₁ haside => ?_
        exact ⟨haside, hstatus, by simp [hne]⟩
    | some k' =>
        obtain ⟨hsock', hgetQp⟩ := hconn k' rfl
        have hpolled : Function.update polled k' (polled k' ++ [response]) k =
            polled k ++ [response].filter (·.qpNum = q) := by
          by_cases hk : k = k'
          · subst hk
            cases hsock.symm.trans hsock'
            simp
          · have hne : response.qpNum ≠ q := by
              rintro rfl
              exact hk (hreg.sockQp_inj hsock' hsock)
            simp [hk, hne]
        rw [hgetQp]
        refine (aside_postChunksToRq k config 1 k' w).bind fun w₁ haside => ?_
        refine (w₁.ib.still_removeRqWr response.qpNum response.chunk).bind fun ib hstill => ?_
        refine ⟨haside.trans (aside_of_socks ?_ rfl), hstatus, hpolled⟩
        exact hstill.trans (ib.still_setQp response.chunk none)
  · have hany : Ends (w.recallChunkToPool response.chunk) (fun _ => True) fun _ => True :=
      ends_iff_forall.mpr fun _ _ => trivial
    exact hany.bind fun _ _ => trivial

/-- A batch passes to a connection the completions of its queue pair, in their order. -/
theorem handleRxEvent_passes (h : w.Held (w.out noPolled)) (config : Config) (cqe : List RxWc)
    (henabled : w.Enabled (.handleRxEvent cqe)) (hs : w.socks k = some s) (hq : s.qp = some q) :
    Ends ((w.completeRx cqe).handleRxEvent config cqe)
      (fun w' => w.ib.Still [] w'.ib ∧ (∀ response ∈ cqe, response.status = .success) ∧
        ∃ s', w'.socks k = some s' ∧ s'.qp = s.qp ∧ s'.ep = s.ep ∧ s'.buffers = s.buffers ∧
          s'.wc = s.wc ++ cqe.filter (·.qpNum = q)) fun _ => True := by
  obtain ⟨hnodup, hposted⟩ := henabled
  have hcompleted : Aside [] k w (w.completeRx cqe) :=
    aside_of_socks (Infiniband.still_of_eq rfl rfl) rfl
  unfold World.handleRxEvent
  refine Ends.bind (Ends.foldlM (fun rest state => Polling rest state ∧ Aside [] k w state.1 ∧
    (∃ front, front ++ rest = cqe ∧ state.2 k = front.filter (·.qpNum = q) ∧
      ∀ response ∈ front, response.status = .success)) ?_ cqe _
    ⟨⟨h.completeRx cqe, hnodup, fun response hmem =>
      due_completeRx h.registered hmem (hposted response hmem), fun _ hne => absurd rfl hne⟩,
      hcompleted, [], rfl, rfl, by simp⟩) ?_
  · rintro response rest ⟨w', polled⟩ ⟨hpolling, haside, front, hcqe, hcollected, hsuccess⟩
    obtain ⟨s', hs', hqp, _⟩ := haside.sock s hs
    have hsock : w'.sockQps k = some q := (sockQps_of_some hs').trans (hqp.trans hq)
    have hpolling' : Ends (handleRxOne config (w', polled) response) (Polling rest)
        fun _ => True := (hpolling.one config).mono (fun _ hnext => hnext.1) fun _ _ => trivial
    refine (hpolling'.and (handleRxOne_collects hpolling.held.registered hsock)).mono ?_
      fun _ => id
    rintro ⟨w'', polled''⟩ ⟨hnext, haside', hstatus, hone⟩
    refine ⟨hnext, haside.trans haside', front ++ [response], by simp [hcqe], ?_, ?_⟩
    · dsimp only at hone hcollected ⊢
      rw [hone, hcollected, List.filter_append]
    · intro response' hmem
      rcases List.mem_append.mp hmem with hold | hnew
      · exact hsuccess response' hold
      · rw [List.mem_singleton.mp hnew]
        exact hstatus
  · rintro ⟨w', polled⟩ ⟨_, haside, front, hcqe, hcollected, hsuccess⟩
    rw [List.append_nil] at hcqe
    subst hcqe
    obtain ⟨s', hs', hqp, hep, hwc, hbuffers⟩ := haside.sock s hs
    have hpassed : (w'.passWc polled).socks k = some { s' with wc := s'.wc ++ polled k } := by
      have hs' : w'.socks k = some s' := hs'
      simp [World.passWc, hs']
    refine ⟨haside.still, hsuccess, { s' with wc := s'.wc ++ polled k }, hpassed, hqp, hep,
      hbuffers, ?_⟩
    dsimp only at hcollected ⊢
    rw [hwc, hcollected]

end World

end RdmaCapsule.Core
