import RdmaCapsule.Core.SendCompletions
import RdmaCapsule.Core.UniformPool

/-! The counter `inflight` of the dispatcher. One of the three ways to obtain send chunks raises it,
and each chunk that is returned lowers it, whatever way it was obtained. -/
namespace RdmaCapsule.Core

open RdmaCapsule.Foundation

namespace World

variable {w w' w'' : World} {k q : Nat} {config : Config}

/-- The send pool and its counter are as they were. -/
def SameSends (w w' : World) : Prop := w'.tx = w.tx ∧ w'.inflight = w.inflight

theorem SameSends.trans (h : w.SameSends w') (h' : w'.SameSends w'') : w.SameSends w'' :=
  ⟨h'.1.trans h.1, h'.2.trans h.2⟩

theorem sameSends_recallChunkToPool (w : World) (c : Nat) :
    Ends (w.recallChunkToPool c) w.SameSends fun _ => True :=
  (ends_true _).bind fun _ _ => ⟨rfl, rfl⟩

theorem sameSends_foldlM {body : World → α → Except Fault World}
    (hbody : ∀ w item, Ends (body w item) w.SameSends fun _ => True) (items : List α) (w : World) :
    Ends (items.foldlM body w) w.SameSends fun _ => True := by
  refine Ends.foldlM (fun _ => w.SameSends) ?_ items w ⟨rfl, rfl⟩
  intro item rest w' hsame
  exact (hbody w' item).mono (fun _ hnext => hsame.trans hnext) fun _ _ => trivial

theorem sameSends_postChunksToRq (config : Config) (num k : Nat) (w : World) :
    Ends (w.postChunksToRq config num k) w.SameSends fun _ => True :=
  (ends_true _).bind fun _ _ => (ends_true _).bind fun _ _ => (ends_true _).bind fun _ _ =>
    ⟨rfl, rfl⟩

theorem sameSends_updatePostBacklog (config : Config) (k : Nat) (w : World) :
    Ends (w.updatePostBacklog config k) w.SameSends fun _ => True := by
  refine (ends_true _).bind fun s _ => ?_
  split
  · exact ⟨rfl, rfl⟩
  · exact (ends_true _).bind fun _ _ => (ends_true _).bind fun _ _ => ⟨rfl, rfl⟩

theorem sameSends_registerQp (w : World) (q k : Nat) :
    Ends (w.registerQp q k) w.SameSends fun _ => True := by
  unfold registerQp
  split
  · trivial
  · exact ⟨rfl, rfl⟩

theorem sameSends_create (config : Config) (k q : Nat) (isServer : Bool) (answer : InitAnswer)
    (w : World) : Ends (w.create config k q isServer answer) w.SameSends fun _ => True := by
  cases answer with
  | created =>
      unfold create
      refine (ends_true _).bind ?_
      rintro ⟨rqWrs, ib⟩ -
      dsimp only
      split
      · exact (ends_true _).bind fun _ _ => ⟨rfl, rfl⟩
      · exact sameSends_registerQp _ _ _
  | notCreated => trivial
  | notInit => trivial

theorem sameSends_prefetchOne (k : Nat) (w : World) (response : RxWc) :
    Ends (w.prefetchOne k response) w.SameSends fun _ => True := by
  refine (ends_true _).bind fun s _ => ?_
  split
  · trivial
  · dsimp only
    split
    · exact sameSends_recallChunkToPool _ _
    · exact ⟨rfl, rfl⟩

theorem sameSends_bufferPrefetch (k : Nat) (w : World) :
    Ends (w.bufferPrefetch k) w.SameSends fun _ => True :=
  (ends_true _).bind fun _ _ => sameSends_foldlM (sameSends_prefetchOne k) _ _

theorem sameSends_readLoop (config : Config) (k : Nat) (len : UInt64) (chunks : List Nat)
    (readSize : UInt64) (w : World) :
    Ends (readLoop config k len chunks readSize w) (fun result => w.SameSends result.2.2)
      fun _ => True := by
  induction chunks generalizing readSize w with
  | nil => exact ⟨rfl, rfl⟩
  | cons c rest ih =>
      unfold readLoop
      dsimp only
      split
      · refine (sameSends_recallChunkToPool _ c).bind fun w₁ hrecalled => ?_
        refine (sameSends_updatePostBacklog config k w₁).bind fun w₂ hposted => ?_
        have hsame : w.SameSends w₂ := SameSends.trans hrecalled hposted
        split
        · exact hsame
        · exact (ih _ w₂).mono (fun _ hnext => hsame.trans hnext) fun _ _ => trivial
      · split
        · exact ⟨rfl, rfl⟩
        · trivial

theorem sameSends_readBuffers (config : Config) (k : Nat) (len : UInt64) (w : World) :
    Ends (w.readBuffers config k len) (fun result => w.SameSends result.2) fun _ => True := by
  refine (sameSends_bufferPrefetch k w).bind fun w₁ hfetched => ?_
  refine (ends_true _).bind fun s₁ _ => ?_
  refine (sameSends_readLoop config k len s₁.buffers 0 w₁).bind ?_
  rintro ⟨readSize, rest, w₂⟩ hread
  exact (ends_true _).bind fun _ _ => hfetched.trans hread

theorem sameSends_read (config : Config) (answers : Answers) (k : Nat) (len : UInt64)
    (w : World) :
    Ends (w.read config answers k len) (fun result => w.SameSends result.2) fun _ => True := by
  refine (ends_true _).bind fun s _ => ?_
  split
  · refine (sameSends_readBuffers config k len w).bind ?_
    rintro ⟨readSize, w₁⟩ hread
    exact (ends_true _).bind fun _ _ => (ends_true _).bind fun _ _ =>
      (ends_true _).bind fun _ _ => hread
  · exact ⟨rfl, rfl⟩

theorem sameSends_drain (config : Config) (k : Nat) (w : World) :
    Ends (w.drain config k) w.SameSends fun _ => True := by
  refine (ends_true _).bind fun s _ => sameSends_foldlM (fun w' response => ?_) s.wc _
  unfold drainOne
  split
  · trivial
  · refine (sameSends_recallChunkToPool _ _).bind fun w₁ hrecalled => ?_
    exact (sameSends_updatePostBacklog config k w₁).mono
      (fun _ hposted => SameSends.trans hrecalled hposted) fun _ _ => trivial

theorem sameSends_handleRxOne (config : Config) (state : World × (Nat → List RxWc))
    (response : RxWc) :
    Ends (handleRxOne config state response) (fun after => state.1.SameSends after.1)
      fun _ => True := by
  obtain ⟨w, polled⟩ := state
  refine (ends_true _).bind fun conn _ => ?_
  dsimp only
  split
  · split
    · exact (sameSends_recallChunkToPool _ _).bind fun _ hsame => hsame
    · refine (sameSends_postChunksToRq config 1 _ w).bind fun w₁ hposted => ?_
      split
      · exact hposted
      · exact (ends_true _).bind fun _ _ => hposted
  · exact (ends_true _).bind fun _ _ => trivial

theorem sameSends_handleRxEvent (config : Config) (cqe : List RxWc) (w : World) :
    Ends (w.handleRxEvent config cqe) w.SameSends fun _ => True := by
  have hloop : Ends (cqe.foldlM (handleRxOne config) (w, fun _ => []))
      (fun state => w.SameSends state.1) fun _ => True := by
    refine Ends.foldlM (fun _ (state : World × (Nat → List RxWc)) => w.SameSends state.1) ?_ cqe _
      ⟨rfl, rfl⟩
    intro response rest state hsame
    exact (sameSends_handleRxOne config state response).mono (fun _ hnext => hsame.trans hnext)
      fun _ _ => trivial
  refine hloop.bind ?_
  rintro ⟨w₁, polled⟩ hsame
  exact hsame

theorem sameSends_scheduleQpDestroy (switched : Bool) (q : Nat) (w : World) :
    Ends (w.scheduleQpDestroy switched q) w.SameSends fun _ => True := by
  unfold scheduleQpDestroy
  split
  · exact ⟨rfl, rfl⟩
  · split
    · trivial
    · split
      · exact ⟨rfl, rfl⟩
      · exact ⟨rfl, rfl⟩

theorem sameSends_destroy (switched : Bool) (k : Nat) (w : World) :
    Ends (w.destroy switched k) w.SameSends fun _ => True := by
  refine (ends_true _).bind fun s _ => ?_
  refine (sameSends_scheduleQpDestroy switched _ w).bind fun w₁ hscheduled => ?_
  refine (sameSends_foldlM sameSends_recallChunkToPool _ w₁).bind fun w₂ hwc => ?_
  refine (sameSends_foldlM sameSends_recallChunkToPool _ w₂).bind fun w₃ hbuffers => ?_
  exact (hscheduled.trans hwc).trans hbuffers

theorem sameSends_deleteDead (w : World) (q : Nat) :
    Ends (w.deleteDead q) w.SameSends fun _ => True :=
  (ends_true _).bind fun _ _ => ⟨rfl, rfl⟩

theorem sameSends_idle (w : World) : Ends w.idle w.SameSends fun _ => True :=
  sameSends_foldlM sameSends_deleteDead _ _

theorem sameSends_call (k : Nat) (call : Endpoint.Call) (answers : Answers) (w : World) :
    Ends (w.call k call answers) w.SameSends fun _ => True := by
  refine (ends_true _).bind fun s _ => (ends_true _).bind fun q _ => (ends_true _).bind ?_
  rintro ⟨ep, r⟩ -
  exact ⟨rfl, rfl⟩

theorem sameSends_setTxcCallback (k : Nat) (w : World) :
    Ends (w.setTxcCallback k) w.SameSends fun _ => True :=
  (ends_true _).bind fun _ _ => ⟨rfl, rfl⟩

/-- Only `handle_tx_event` returns send chunks. -/
theorem sameSends_step (config : Config) (w : World) (op : Op)
    (hop : ∀ cqe, op ≠ .handleTxEvent cqe) :
    Ends (w.step config op) w.SameSends fun _ => True := by
  cases op with
  | create k q isServer answer => exact sameSends_create config k q isServer answer w
  | call k call answers => exact sameSends_call k call answers w
  | setTxcCallback k => exact sameSends_setTxcCallback k w
  | read k len answers =>
      refine (sameSends_read config answers k len w).bind ?_
      rintro ⟨r, w₁⟩ hread
      exact hread
  | drain k => exact sameSends_drain config k w
  | updatePostBacklog k => exact sameSends_updatePostBacklog config k w
  | handleRxEvent cqe => exact sameSends_handleRxEvent config cqe (w.completeRx cqe)
  | handleTxEvent cqe => exact absurd rfl (hop cqe)
  | destroy k switched => exact sameSends_destroy switched k w
  | idle => exact sameSends_idle w

theorem sameSends_enqueueDeadQp (w : World) (q : Nat) : w.SameSends (w.enqueueDeadQp q) := by
  unfold enqueueDeadQp
  split
  · exact ⟨rfl, rfl⟩
  · exact ⟨rfl, rfl⟩

/-- The loop over a batch of send completions collects the data chunks. -/
theorem sameSends_handleTxOne (state : World × List Nat) (response : TxWc) :
    Ends (handleTxOne state response)
      (fun after => state.1.SameSends after.1 ∧
        after.2 = state.2 ++ (dataChunk response).toList) fun _ => True := by
  obtain ⟨w, txChunks⟩ := state
  obtain ⟨q, wr, status⟩ := response
  cases wr with
  | beacon => exact ⟨sameSends_enqueueDeadQp w q, by simp [dataChunk]⟩
  | send wr =>
      unfold handleTxOne
      dsimp only
      split
      · trivial
      · refine (ends_true _).bind fun conn _ => ?_
        cases conn with
        | none => trivial
        | some k =>
            refine (ends_true _).bind fun s _ => ?_
            split
            · trivial
            · cases wr with
              | chunk index =>
                  dsimp only
                  split
                  · exact ⟨⟨rfl, rfl⟩, rfl⟩
                  · trivial
              | fin q' =>
                  dsimp only
                  split
                  · exact ⟨⟨rfl, rfl⟩, (List.append_nil txChunks).symm⟩
                  · trivial

theorem handleTxLoop (cqe : List TxWc) (state : World × List Nat) :
    Ends (cqe.foldlM handleTxOne state)
      (fun after => state.1.SameSends after.1 ∧ after.2 = state.2 ++ dataChunks cqe)
      fun _ => True := by
  induction cqe generalizing state with
  | nil => exact ⟨⟨rfl, rfl⟩, by simp [dataChunks]⟩
  | cons response rest ih =>
      rw [List.foldlM_cons]
      refine (sameSends_handleTxOne state response).bind fun next hnext => ?_
      obtain ⟨hsame, hchunks⟩ := hnext
      refine (ih next).mono (fun after hafter => ?_) fun _ _ => trivial
      refine ⟨hsame.trans hafter.1, ?_⟩
      rw [hafter.2, hchunks]
      cases hchunk : dataChunk response <;> simp [dataChunks, hchunk]

/-- A batch that is handled returns its data chunks and lowers the counter by their number. -/
theorem handleTxEvent_returns (cqe : List TxWc) (w : World) :
    Ends (w.handleTxEvent cqe)
      (fun w' => w'.tx = w.tx.takeBack (dataChunks cqe) ∧
        w'.inflight = w.inflight - UInt64.ofNat (dataChunks cqe).length) fun _ => True := by
  refine (handleTxLoop cqe (w, [])).bind ?_
  rintro ⟨w₁, txChunks⟩ ⟨⟨htx, hinflight⟩, hchunks⟩
  dsimp only at htx hinflight hchunks
  subst hchunks
  show Ends (.ok (w₁.postTxBuffer ([] ++ dataChunks cqe))) _ _
  rw [List.nil_append]
  refine ⟨by rw [postTxBuffer_tx, htx], ?_⟩
  unfold postTxBuffer
  split
  · rename_i hnone
    rw [hnone, hinflight]
    exact (UInt64.sub_zero _).symm
  · rw [hinflight]

/-- The chunk of a send. -/
def sentChunk : TxWr → Option Nat
  | .send (.chunk index) => some index
  | _ => none

theorem dataChunk_eq (response : TxWc) : dataChunk response = sentChunk response.wr := by
  obtain ⟨q, wr, status⟩ := response
  rcases wr with (_ | _) | _ <;> rfl

/-- The sends that are posted are of chunks that have been obtained, each of them once. -/
structure SentOnce (w : World) (obtained : List Nat) : Prop where
  obtained : ∀ {q qp}, w.ib.qps q = some qp → ∀ c ∈ qp.sends.filterMap sentChunk, c ∈ obtained
  once : ∀ {q qp}, w.ib.qps q = some qp → (qp.sends.filterMap sentChunk).Nodup
  apart : ∀ {q q' qp qp' c}, w.ib.qps q = some qp → w.ib.qps q' = some qp' →
    c ∈ qp.sends.filterMap sentChunk → c ∈ qp'.sends.filterMap sentChunk → q = q'

theorem nodup_filterMap_of_queues {cqe : List TxWc}
    (honce : ∀ q, (dataChunks (cqe.filter (·.qpNum = q))).Nodup)
    (hapart : ∀ response ∈ cqe, ∀ response' ∈ cqe, ∀ c, dataChunk response = some c →
      dataChunk response' = some c → response.qpNum = response'.qpNum) :
    (dataChunks cqe).Nodup := by
  induction cqe with
  | nil => exact List.nodup_nil
  | cons response rest ih =>
      have hrest : (dataChunks rest).Nodup := by
        refine ih (fun q => ?_) fun r hr r' hr' => hapart r (List.mem_cons_of_mem _ hr) r'
          (List.mem_cons_of_mem _ hr')
        exact (((List.sublist_cons_self response rest).filter _).filterMap dataChunk).nodup
          (honce q)
      cases hchunk : dataChunk response with
      | none => simpa [dataChunks, hchunk] using hrest
      | some c =>
          have hcons : dataChunks (response :: rest) = c :: dataChunks rest := by
            simp [dataChunks, hchunk]
          rw [hcons, List.nodup_cons]
          refine ⟨fun hmem => ?_, hrest⟩
          obtain ⟨response', hresponse', hsame⟩ := List.mem_filterMap.mp hmem
          have hq := hapart response List.mem_cons_self response'
            (List.mem_cons_of_mem _ hresponse') c hchunk hsame
          have hqueue := honce response.qpNum
          rw [List.filter_cons_of_pos (by simp), dataChunks, List.filterMap_cons, hchunk,
            List.nodup_cons] at hqueue
          refine hqueue.1 (List.mem_filterMap.mpr ⟨response', ?_, hsame⟩)
          exact List.mem_filter.mpr ⟨hresponse', by simp [hq]⟩

/-- A batch of completions has each data chunk once, and it has been obtained. -/
theorem SentOnce.batch {obtained : List Nat} (h : w.SentOnce obtained) {cqe : List TxWc}
    (henabled : w.Enabled (.handleTxEvent cqe)) :
    (dataChunks cqe).Nodup ∧ ∀ c ∈ dataChunks cqe, c ∈ obtained := by
  have hqueue {response : TxWc} (hmem : response ∈ cqe) :
      ∃ qp, w.ib.qps response.qpNum = some qp ∧
        dataChunks (cqe.filter (·.qpNum = response.qpNum)) <+: qp.sends.filterMap sentChunk := by
    obtain ⟨qp, hqp, hprefix⟩ := henabled response hmem
    refine ⟨qp, hqp, ?_⟩
    have hmap := List.IsPrefix.filterMap sentChunk hprefix
    rw [List.filterMap_map] at hmap
    have hfun : (sentChunk ∘ fun response : TxWc => response.wr) = dataChunk := by
      funext r
      exact (dataChunk_eq r).symm
    rwa [hfun] at hmap
  have hmine {response : TxWc} {c : Nat} (hmem : response ∈ cqe)
      (hc : dataChunk response = some c) :
      ∃ qp, w.ib.qps response.qpNum = some qp ∧ c ∈ qp.sends.filterMap sentChunk := by
    obtain ⟨qp, hqp, hprefix⟩ := hqueue hmem
    refine ⟨qp, hqp, hprefix.subset (List.mem_filterMap.mpr ⟨response, ?_, hc⟩)⟩
    exact List.mem_filter.mpr ⟨hmem, by simp⟩
  constructor
  · refine nodup_filterMap_of_queues (fun q => ?_) ?_
    · by_cases hnone : cqe.filter (·.qpNum = q) = []
      · rw [hnone]
        exact List.nodup_nil
      · obtain ⟨response, hresponse⟩ := List.exists_mem_of_ne_nil _ hnone
        obtain ⟨hmem, hq⟩ := List.mem_filter.mp hresponse
        have hq' : response.qpNum = q := by simpa using hq
        subst hq'
        obtain ⟨qp, hqp, hprefix⟩ := hqueue hmem
        exact hprefix.sublist.nodup (h.once hqp)
    · intro response hmem response' hmem' c hc hc'
      obtain ⟨qp, hqp, hsent⟩ := hmine hmem hc
      obtain ⟨qp', hqp', hsent'⟩ := hmine hmem' hc'
      exact h.apart hqp hqp' hsent hsent'
  · intro c hc
    obtain ⟨response, hmem, hchunk⟩ := List.mem_filterMap.mp hc
    obtain ⟨qp, hqp, hsent⟩ := hmine hmem hchunk
    exact h.obtained hqp c hsent

end World

/-- The process, and the send chunks that have been obtained and not been returned. -/
structure Books where
  world : World
  obtained : List Nat

namespace Books

inductive Op where
  | getRegedMem (bytes : UInt64)
  | getSendBuffersByNum (num : Nat)
  | getSendBuffersBySize (bytes : UInt64)
  | world (op : Core.Op)

/-- An `int` that is added to an unsigned counter of 64 bits. -/
def extend (r : UInt32) : UInt64 := r.toInt32.toInt64.toUInt64

/-- `get_reged_mem`: what the pool returns is an `int`. -/
def getRegedMem (b : Books) (bytes : UInt64) : Except Fault Books := do
  let (r, taken, tx) ← b.world.tx.getBuffers [] bytes
  pure ⟨{ b.world with tx, inflight := b.world.inflight + extend (UInt32.ofNat r) },
    taken ++ b.obtained⟩

def getSendBuffersByNum (b : Books) (num : Nat) : Except Fault Books := do
  let (_, taken, tx) ← b.world.tx.getChunks [] num
  pure ⟨{ b.world with tx }, taken ++ b.obtained⟩

def getSendBuffersBySize (b : Books) (bytes : UInt64) : Except Fault Books := do
  let (_, taken, tx) ← b.world.tx.getBuffers [] bytes
  pure ⟨{ b.world with tx }, taken ++ b.obtained⟩

/-- The chunks that a step of the process returns. -/
def returned : Core.Op → List Nat
  | .handleTxEvent cqe => World.dataChunks cqe
  | _ => []

def step (config : Config) (b : Books) : Op → Except Fault Books
  | .getRegedMem bytes => b.getRegedMem bytes
  | .getSendBuffersByNum num => b.getSendBuffersByNum num
  | .getSendBuffersBySize bytes => b.getSendBuffersBySize bytes
  | .world op => do
      let world ← b.world.step config op
      pure ⟨world, b.obtained.filter (· ∉ returned op)⟩

/-- The application sends what it has obtained, once. -/
def Enabled (b : Books) : Op → Prop
  | .world op => b.world.Enabled op ∧ b.world.SentOnce b.obtained
  | _ => True

def machine (config : Config) (memory : Memory) (bufferSize num : UInt32) :
    Machine Books Op Fault where
  start b := b.world.Start ∧ (Cluster.new bufferSize).fill memory num = .ok b.world.tx ∧
    b.world.inflight = 0 ∧ b.obtained = []
  enabled := Enabled
  step := step config

/-- The counter is the number of chunks that have been obtained and not been returned. -/
def Exact (b : Books) : Prop := b.world.inflight.toNat = b.obtained.length

/-- The chunks that a call takes are counted: `get_reged_mem` takes fewer than 2^31, and the other
two take none. -/
def Counted (b : Books) : Op → Prop
  | .getRegedMem bytes =>
      (Cluster.chunkBufferNumber bytes b.world.tx.bufferSize).toNat < 2 ^ 31
  | .getSendBuffersByNum num => num = 0
  | .getSendBuffersBySize bytes =>
      (Cluster.chunkBufferNumber bytes b.world.tx.bufferSize).toNat = 0
  | .world _ => True

variable {config : Config} {memory : Memory} {bufferSize num : UInt32} {b b' : Books}

/-- The chunks obtained and the free ones are those of the pool. -/
def Stock (bufferSize : UInt32) (b : Books) : Prop :=
  Stocked bufferSize ⟨b.world.tx, b.obtained⟩

theorem extend_toBitVec (r : UInt32) : (extend r).toBitVec = r.toBitVec.signExtend 64 := rfl

theorem extend_toNat {r : UInt32} (h : r.toNat < 2 ^ 31) : (extend r).toNat = r.toNat := by
  have hmsb : r.toBitVec.msb = false := by
    rw [BitVec.msb_eq_false_iff_two_mul_lt, UInt32.toNat_toBitVec]
    omega
  rw [← UInt64.toNat_toBitVec, extend_toBitVec, BitVec.toNat_signExtend, hmsb]
  simp

theorem extend_toNat_of_le {r : UInt32} (h : 2 ^ 31 ≤ r.toNat) :
    (extend r).toNat = 2 ^ 64 - 2 ^ 32 + r.toNat := by
  have hmsb : r.toBitVec.msb = true := by
    rw [BitVec.msb_eq_true_iff_two_mul_ge, UInt32.toNat_toBitVec]
    omega
  have hlt := r.toNat_lt
  rw [← UInt64.toNat_toBitVec, extend_toBitVec, BitVec.toNat_signExtend, if_pos hmsb]
  simp
  omega

/-- A call that gives out chunks and adds to the counter. -/
def obtain (b : Books) (result : Nat × List Nat × Cluster) (added : UInt64) : Books :=
  ⟨{ b.world with tx := result.2.2, inflight := b.world.inflight + added },
    result.2.1 ++ b.obtained⟩

theorem Stock.obtain (h : b.Stock bufferSize) {count : Nat} {result : Nat × List Nat × Cluster}
    (htakes : b.world.tx.Takes [] count result) (added : UInt64) :
    (b.obtain result added).Stock bufferSize :=
  Stocked.takes h htakes

/-- The counter stays exact when what is added is what is taken. -/
theorem exact_obtain_iff (h : b.Exact) {count : Nat} {result : Nat × List Nat × Cluster}
    (htakes : b.world.tx.Takes [] count result) {added : UInt64} :
    (b.obtain result added).Exact ↔
      (b.obtained.length + added.toNat) % 2 ^ 64 = b.obtained.length + count := by
  unfold Exact at h ⊢
  unfold obtain
  rw [UInt64.toNat_add, h, List.length_append, htakes.length_eq, Nat.add_comm count]

theorem getBuffers_takes {bytes : UInt64} {result : Nat × List Nat × Cluster}
    (hrun : b.world.tx.getBuffers [] bytes = .ok result) :
    b.world.tx.Takes [] (Cluster.chunkBufferNumber bytes b.world.tx.bufferSize).toNat result := by
  by_cases hsize : b.world.tx.bufferSize = 0
  · rw [Cluster.getBuffers, if_pos hsize] at hrun
    cases hrun
  · exact (Cluster.getBuffers_takes [] bytes b.world.tx hsize).value hrun

/-- `get_reged_mem` counts what it takes, unless its `int` turns negative. -/
theorem exact_getRegedMem_iff (hstock : b.Stock bufferSize) (h : b.Exact) {bytes : UInt64}
    (hstep : b.getRegedMem bytes = .ok b') :
    b'.Stock bufferSize ∧ (b'.Exact ↔ b.Counted (.getRegedMem bytes)) := by
  obtain ⟨result, hrun, hafter⟩ := bind_eq_ok hstep
  have htakes := getBuffers_takes hrun
  have hr : result.1 = (Cluster.chunkBufferNumber bytes b.world.tx.bufferSize).toNat := by
    rw [htakes.2]
  have hb' : b' = b.obtain result (extend (Cluster.chunkBufferNumber bytes
      b.world.tx.bufferSize)) := by
    rw [← Except.ok.inj hafter, hr, UInt32.ofNat_toNat]
    rfl
  have hstock' := hstock.obtain htakes (extend (Cluster.chunkBufferNumber bytes
    b.world.tx.bufferSize))
  have hlength : b.obtained.length +
      (Cluster.chunkBufferNumber bytes b.world.tx.bufferSize).toNat < 2 ^ 32 := by
    have hlt := Stocked.length_lt hstock'
    rwa [obtain, List.length_append, htakes.length_eq, Nat.add_comm] at hlt
  subst hb'
  refine ⟨hstock', ?_⟩
  rw [exact_obtain_iff h htakes]
  unfold Counted
  dsimp only
  by_cases hsmall : (Cluster.chunkBufferNumber bytes b.world.tx.bufferSize).toNat < 2 ^ 31
  · rw [extend_toNat hsmall]
    omega
  · rw [extend_toNat_of_le (Nat.le_of_not_lt hsmall)]
    omega

/-- The other two calls count nothing. -/
theorem exact_uncounted_iff (hstock : b.Stock bufferSize) (h : b.Exact) {count : Nat}
    {result : Nat × List Nat × Cluster} (htakes : b.world.tx.Takes [] count result) :
    (b.obtain result 0).Stock bufferSize ∧ ((b.obtain result 0).Exact ↔ count = 0) := by
  have hlt := Stocked.length_lt hstock
  refine ⟨hstock.obtain htakes 0, ?_⟩
  rw [exact_obtain_iff h htakes, UInt64.toNat_zero, Nat.add_zero]
  omega

theorem obtain_zero (b : Books) (result : Nat × List Nat × Cluster) :
    b.obtain result 0 = ⟨{ b.world with tx := result.2.2 }, result.2.1 ++ b.obtained⟩ := by
  rw [obtain, UInt64.add_zero]

theorem returned_le (h : b.Exact) {cqe : List TxWc}
    (henabled : b.Enabled (.world (.handleTxEvent cqe))) :
    (World.dataChunks cqe).length ≤ b.world.inflight.toNat := by
  obtain ⟨hnodup, hobtained⟩ := henabled.2.batch henabled.1
  rw [h]
  exact (hnodup.subperm hobtained).length_le

/-- What is left of a list when some of its elements are taken out. -/
theorem length_filter_not_mem {chunks held : List Nat} (hheld : held.Nodup) (hnodup : chunks.Nodup)
    (hmem : ∀ c ∈ chunks, c ∈ held) :
    (held.filter (· ∉ chunks)).length = held.length - chunks.length := by
  have hperm : (held.filter (· ∈ chunks)).Perm chunks := by
    refine (List.perm_ext_iff_of_nodup (hheld.filter _) hnodup).mpr fun c => ?_
    simpa using hmem c
  have hsplit := List.length_eq_length_filter_add (l := held) (· ∈ chunks)
  have hlength := hperm.length_eq
  simp only [decide_not] at hsplit ⊢
  omega

theorem exact_world (hstock : b.Stock bufferSize) (h : b.Exact) {op : Core.Op}
    (henabled : b.Enabled (.world op)) (hstep : b.step config (.world op) = .ok b') :
    b'.Stock bufferSize ∧ b'.Exact := by
  obtain ⟨w, hrun, hafter⟩ := bind_eq_ok hstep
  cases Except.ok.inj hafter
  by_cases hop : ∃ cqe, op = .handleTxEvent cqe
  · obtain ⟨cqe, rfl⟩ := hop
    have hle := returned_le h henabled
    obtain ⟨hnodup, hobtained⟩ := henabled.2.batch henabled.1
    obtain ⟨htx, hinflight⟩ := (World.handleTxEvent_returns cqe _).value hrun
    constructor
    · unfold Stock
      dsimp only
      rw [htx]
      exact Stocked.takeBack hstock hnodup hobtained
    · have hlt := Stocked.length_lt hstock
      have hleft : (b.obtained.filter (· ∉ returned (.handleTxEvent cqe))).length =
          b.obtained.length - (World.dataChunks cqe).length :=
        length_filter_not_mem (Stocked.nodup hstock) hnodup hobtained
      have hcount : (UInt64.ofNat (World.dataChunks cqe).length).toNat =
          (World.dataChunks cqe).length := by
        refine UInt64.toNat_ofNat_of_lt' (hle.trans_lt ?_)
        rw [h]
        exact hlt.trans (by decide)
      have hdown : UInt64.ofNat (World.dataChunks cqe).length ≤ b.world.inflight := by
        rwa [UInt64.le_iff_toNat_le, hcount]
      calc w.inflight.toNat
          = (b.world.inflight - UInt64.ofNat (World.dataChunks cqe).length).toNat := by
            rw [hinflight]
            rfl
        _ = b.obtained.length - (World.dataChunks cqe).length := by
            rw [UInt64.toNat_sub_of_le _ _ hdown, hcount, h]
        _ = _ := hleft.symm
  · have hnone : returned op = [] := by
      cases op with
      | handleTxEvent cqe => exact absurd ⟨cqe, rfl⟩ hop
      | _ => rfl
    have hsame := (World.sameSends_step config b.world op fun cqe heq => hop ⟨cqe, heq⟩).value hrun
    have hobtained : b.obtained.filter (· ∉ returned op) = b.obtained := by simp [hnone]
    constructor
    · unfold Stock
      dsimp only
      rw [hobtained, hsame.1]
      exact hstock
    · unfold Exact
      dsimp only
      rw [hobtained, hsame.2]
      exact h

/-- One step: the pool stays whole, and the counter is exact afterwards if and only if the step
counts what it takes. -/
theorem exact_step_iff (hstock : b.Stock bufferSize) (h : b.Exact) {op : Op}
    (henabled : b.Enabled op) (hstep : b.step config op = .ok b') :
    b'.Stock bufferSize ∧ (b'.Exact ↔ b.Counted op) := by
  cases op with
  | getRegedMem bytes => exact exact_getRegedMem_iff hstock h hstep
  | getSendBuffersByNum count =>
      obtain ⟨result, hrun, hafter⟩ := bind_eq_ok hstep
      rw [← Except.ok.inj hafter]
      have htakes := (Cluster.getChunks_ends [] count b.world.tx).value hrun
      have hiff := exact_uncounted_iff hstock h htakes
      rw [obtain_zero] at hiff
      exact hiff
  | getSendBuffersBySize bytes =>
      obtain ⟨result, hrun, hafter⟩ := bind_eq_ok hstep
      rw [← Except.ok.inj hafter]
      have hiff := exact_uncounted_iff hstock h (getBuffers_takes hrun)
      rw [obtain_zero] at hiff
      exact hiff
  | world op =>
      obtain ⟨hstock', hexact⟩ := exact_world hstock h henabled hstep
      exact ⟨hstock', fun _ => trivial, fun _ => hexact⟩

theorem exact_of_reachable
    (h : ((machine config memory bufferSize num).restrict Counted).Reachable b) :
    b.Stock bufferSize ∧ b.Exact := by
  have hstart (first : Books) (hfirst : (machine config memory bufferSize num).start first) :
      first.Stock bufferSize ∧ first.Exact := by
    obtain ⟨-, hfill, hzero, hnone⟩ := hfirst
    refine ⟨Stocked.start hfill hnone, ?_⟩
    rw [Exact, hzero, hnone]
    rfl
  refine h.invariant hstart fun before op after _ hbefore henabled hstep => ?_
  obtain ⟨hstock, hiff⟩ := exact_step_iff hbefore.1 hbefore.2 henabled.1 hstep
  exact ⟨hstock, hiff.mpr henabled.2⟩

/-- In every run whose calls count what they take, the counter is the number of chunks that have
been obtained and not been returned, and no batch of completions takes it below 0. The first call
that does not count what it takes leaves the counter wrong. -/
theorem inflight_exact_iff_counted (config : Config) (memory : Memory) (bufferSize num : UInt32)
    (b : Books) (h : ((machine config memory bufferSize num).restrict Counted).Reachable b) :
    b.Exact ∧
      (∀ cqe, b.Enabled (.world (.handleTxEvent cqe)) →
        (World.dataChunks cqe).length ≤ b.world.inflight.toNat) ∧
      ∀ op b', b.Enabled op → b.step config op = .ok b' → (b'.Exact ↔ b.Counted op) := by
  obtain ⟨hstock, hexact⟩ := exact_of_reachable h
  refine ⟨hexact, fun cqe henabled => returned_le hexact henabled, ?_⟩
  intro op b' henabled hstep
  exact (exact_step_iff hstock hexact henabled hstep).2

/-- A process whose pool has two send chunks. -/
def fresh (tx : Cluster) : Books := ⟨{ World.fresh with tx }, []⟩

theorem fresh_start {tx : Cluster} (h : (Cluster.new 4).fill SendPool.someMemory 2 = .ok tx) :
    (machine World.smallConfig SendPool.someMemory 4 2).start (fresh tx) :=
  ⟨World.fresh_start, h, rfl, rfl⟩

theorem inflight_exact_iff_counted_two_chunks :
    ∃ b, ((machine World.smallConfig SendPool.someMemory 4 2).restrict Counted).Reachable b ∧
      b.obtained = [1, 0] ∧ b.world.inflight = 2 ∧ b.Exact := by
  have hfresh : ((machine World.smallConfig SendPool.someMemory 4 2).restrict Counted).Reachable
      (fresh _) := .start (fresh_start rfl)
  have hfew : (Cluster.chunkBufferNumber 8 4).toNat < 2 ^ 31 := by decide
  have htaken := hfresh.next (.getRegedMem 8) ⟨trivial, hfew⟩ rfl
  exact ⟨_, htaken, rfl, rfl,
    (inflight_exact_iff_counted World.smallConfig SendPool.someMemory 4 2 _ htaken).1⟩

theorem sentOnce_one_queue {w : World} {qp : QueuePair} {obtained : List Nat}
    (hqp : w.ib.qps 1 = some qp) (hzero : w.ib.qps 0 = none)
    (hmore : ∀ q, w.ib.qps (q + 2) = none)
    (hsent : ∀ c ∈ qp.sends.filterMap World.sentChunk, c ∈ obtained)
    (hnodup : (qp.sends.filterMap World.sentChunk).Nodup) : w.SentOnce obtained := by
  have hq {q : Nat} {qp' : QueuePair} (hqp' : w.ib.qps q = some qp') : q = 1 ∧ qp' = qp := by
    match q, hqp' with
    | 0, hqp' => exact nomatch hzero.symm.trans hqp'
    | 1, hqp' => exact ⟨rfl, Option.some.inj (hqp'.symm.trans hqp)⟩
    | q + 2, hqp' => exact nomatch (hmore q).symm.trans hqp'
  constructor
  · intro q qp' hqp'
    obtain ⟨-, rfl⟩ := hq hqp'
    exact hsent
  · intro q qp' hqp'
    obtain ⟨-, rfl⟩ := hq hqp'
    exact hnodup
  · intro q q' qp₁ qp₂ c h h' _ _
    exact (hq h).1.trans (hq h').1.symm

theorem reachable_posted :
    ∃ b w, (machine World.smallConfig SendPool.someMemory 4 2).Reachable b ∧ b.obtained = [1] ∧
      b.world.SentOnce b.obtained ∧
      b.world.ib.qps 1 = some ⟨1, [0], false, [0], [.send (.chunk 1)]⟩ ∧
      b.world.step World.smallConfig (.handleTxEvent [⟨1, .send (.chunk 1), .success⟩]) = .ok w ∧
      w.inflight = 18446744073709551615 := by
  have hfresh : (machine World.smallConfig SendPool.someMemory 4 2).Reachable (fresh _) :=
    .start (fresh_start rfl)
  have htaken := hfresh.next (.getSendBuffersByNum 1) trivial rfl
  have hcreated := htaken.next (.world (.create 0 1 false .created))
    ⟨⟨rfl, rfl, by decide, by decide⟩, by constructor <;> intros <;> contradiction⟩ rfl
  have hset := hcreated.next (.world (.setTxcCallback 0))
    ⟨trivial, sentOnce_one_queue rfl rfl (fun _ => rfl) (by decide) (by decide)⟩ rfl
  have hup := hset.next (.world (.call 0 (.handleConnection (.message World.answer)) .good))
    ⟨trivial, sentOnce_one_queue rfl rfl (fun _ => rfl) (by decide) (by decide)⟩ rfl
  have hposted := hup.next (.world (.call 0 (.sendChunks [1]) .good))
    ⟨trivial, sentOnce_one_queue rfl rfl (fun _ => rfl) (by decide) (by decide)⟩ rfl
  exact ⟨_, _, hposted, rfl, sentOnce_one_queue rfl rfl (fun _ => rfl) (by decide) (by decide),
    rfl, rfl, rfl⟩

/-- A chunk that was obtained by number is sent and completed: the counter goes below 0. -/
theorem inflight_not_exact :
    ∃ b, (machine World.smallConfig SendPool.someMemory 4 2).Reachable b ∧ b.obtained = [] ∧
      b.world.inflight = 18446744073709551615 := by
  obtain ⟨b, w, hposted, hobtained, honce, hqp, hrun, hinflight⟩ := reachable_posted
  have henabled : b.Enabled (.world (.handleTxEvent [⟨1, .send (.chunk 1), .success⟩])) := by
    refine ⟨fun response hmem => ?_, honce⟩
    cases List.mem_singleton.mp hmem
    exact ⟨_, hqp, by decide⟩
  have hstep : b.step World.smallConfig
      (.world (.handleTxEvent [⟨1, .send (.chunk 1), .success⟩])) = .ok ⟨w, []⟩ := by
    unfold step
    dsimp only
    rw [hrun, ok_bind, hobtained]
    rfl
  exact ⟨_, hposted.next (.world (.handleTxEvent [⟨1, .send (.chunk 1), .success⟩])) henabled hstep,
    rfl, hinflight⟩

end Books

end RdmaCapsule.Core
