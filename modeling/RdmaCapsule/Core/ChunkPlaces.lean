import RdmaCapsule.Core.ReceiveQueue

/-! Where a receive chunk is, as seen below the dispatcher: in the free list, in
the `recv_queue` of a queue pair, or in some container of the caller, of which
nothing is assumed here. Each function keeps a chunk in exactly one place and
the back pointer `chunk->qp` in step with the queues. -/
namespace RdmaCapsule.Core

open RdmaCapsule.Foundation

inductive Place (O : Type) where
  | free
  | rq (q : Nat)
  | out (o : O)

/-- What the back pointer of a chunk in this place is. -/
def Place.qp : Place O → Option Nat
  | .rq q => some q
  | _ => none

/-- What verbs still has to complete are requests in the queue, each once. -/
def QueuePair.Sound (qp : QueuePair) : Prop :=
  qp.posted.Nodup ∧ ∀ c ∈ qp.posted, c ∈ qp.recvQueue

/-- A queue pair before and after `count` requests were added. -/
structure Reposted (qp qp' : QueuePair) (count : Nat) : Prop where
  maxRecvWr : qp'.maxRecvWr = qp.maxRecvWr
  dead : qp'.dead = qp.dead
  sends : qp'.sends = qp.sends
  length : qp'.recvQueue.length = qp.recvQueue.length + count
  keeps : ∀ c ∈ qp.recvQueue, c ∈ qp'.recvQueue
  /-- The requests added are new. -/
  fresh : ∀ c ∈ qp.recvQueue, c ∈ qp'.posted → c ∈ qp.posted
  sound : qp.Sound → qp'.Sound

theorem Reposted.nothing (qp : QueuePair) : Reposted qp qp 0 :=
  ⟨rfl, rfl, rfl, rfl, fun _ hc => hc, fun _ _ hc => hc, id⟩

/-- The first `count` new requests are posted; `queue` is what is left of the
old and the new requests, and has those posted. -/
theorem Reposted.intro {qp : QueuePair} {taken accepted : List Nat} (queue : List Nat) {count : Nat}
    (hnodup : (qp.recvQueue ++ taken).Nodup) (hsub : accepted.Sublist taken)
    (hlength : queue.length = qp.recvQueue.length + count)
    (hold : ∀ c ∈ qp.recvQueue, c ∈ queue) (hnew : ∀ c ∈ accepted, c ∈ queue) :
    Reposted qp { qp with recvQueue := queue, posted := qp.posted ++ accepted } count := by
  obtain ⟨_, htaken, hdisjoint⟩ := List.nodup_append.mp hnodup
  refine ⟨rfl, rfl, rfl, hlength, hold, ?_, ?_⟩
  · intro c hc hposted
    refine (List.mem_append.mp hposted).resolve_right fun hnew => ?_
    exact hdisjoint c hc c (hsub.subset hnew) rfl
  rintro ⟨hposted, hin⟩
  refine ⟨List.nodup_append.mpr ⟨hposted, hsub.nodup htaken, ?_⟩, ?_⟩
  · intro c hc c' hc'
    exact hdisjoint c (hin c hc) c' (hsub.subset hc')
  · intro c hc
    rcases List.mem_append.mp hc with hc | hc
    · exact hold c (hin c hc)
    · exact hnew c hc

namespace Infiniband

def recvQueue (ib : Infiniband) (q : Nat) : List Nat :=
  ((ib.qps q).map (·.recvQueue)).getD []

def place (ib : Infiniband) (out : O → List Nat) : Place O → List Nat
  | .free => ib.free
  | .rq q => ib.recvQueue q
  | .out o => out o

structure Placed (ib : Infiniband) (out : O → List Nat) : Prop where
  exclusive : Exclusive (· < ib.made) (ib.place out)
  qpField : ∀ {p c}, c ∈ ib.place out p → (ib.chunk c).qp = p.qp

variable {ib ib' : Infiniband} {out out' : O → List Nat} {q c : Nat} {qp : QueuePair} {env : Env}

theorem recvQueue_of_some (h : ib.qps q = some qp) : ib.recvQueue q = qp.recvQueue := by
  simp [recvQueue, h]

@[simp] theorem setChunk_qps (ib : Infiniband) (c : Nat) (chunk : Chunk) :
    (ib.setChunk c chunk).qps = ib.qps := rfl

@[simp] theorem clearQp_qps (ib : Infiniband) (c : Nat) : (ib.clearQp c).qps = ib.qps := rfl

@[simp] theorem modifyQp_qps (ib : Infiniband) (q : Nat) (f : QueuePair → QueuePair) :
    (ib.modifyQp q f).qps = Function.update ib.qps q ((ib.qps q).map f) := rfl

theorem recvQueue_congr (h : ib'.qps q = ib.qps q) : ib'.recvQueue q = ib.recvQueue q := by
  unfold recvQueue
  rw [h]

theorem Placed.qp_iff (h : ib.Placed out) (hc : c < ib.made) (q : Nat) :
    (ib.chunk c).qp = some q ↔ c ∈ ib.recvQueue q := by
  constructor
  · intro hqp
    obtain ⟨p, hp⟩ := h.exclusive.covers hc
    have hplace := (h.qpField hp).symm.trans hqp
    cases p with
    | free => exact nomatch hplace
    | rq q' => exact Option.some.inj hplace ▸ hp
    | out o => exact nomatch hplace
  · exact fun hmem => h.qpField (p := .rq q) hmem

theorem Placed.not_free_of_rq (h : ib.Placed out) (hq : c ∈ ib.recvQueue q) : c ∉ ib.free :=
  fun hfree => nomatch h.exclusive.apart (p := .rq q) (q := .free) hq hfree

theorem Placed.not_free_of_out (h : ib.Placed out) {o : O} (ho : c ∈ out o) : c ∉ ib.free :=
  fun hfree => nomatch h.exclusive.apart (p := .out o) (q := .free) ho hfree

/-- Chunks move from one place to another; the back pointer of those that moved
is that of the new place, and of the others the old one. -/
theorem Placed.transfer (h : ib.Placed out) (src dst : Place O) (moved : List Nat)
    (hne : src ≠ dst) (hmade : ib'.made = ib.made)
    (hsrc : (ib.place out src).Perm (moved ++ ib'.place out' src))
    (hdst : (ib'.place out' dst).Perm (moved ++ ib.place out dst))
    (hrest : ∀ p, p ≠ src → p ≠ dst → ib'.place out' p = ib.place out p)
    (hmoved : ∀ c ∈ moved, (ib'.chunk c).qp = dst.qp)
    (hkept : ∀ c, c ∉ moved → (ib'.chunk c).qp = (ib.chunk c).qp) : ib'.Placed out' := by
  have hperm : ∀ p, p ≠ src → p ≠ dst → (ib'.place out' p).Perm (ib.place out p) :=
    fun p hp hq => hrest p hp hq ▸ .refl _
  constructor
  · rw [hmade]
    exact h.exclusive.transfer src dst moved hne hsrc hdst hperm
  · intro p c hc
    rcases h.exclusive.origin hsrc hdst hne hperm hc with ⟨rfl, hm⟩ | ⟨hm, hold⟩
    · exact hmoved c hm
    · exact (hkept c hm).trans (h.qpField hold)

/-- Nothing moves. -/
theorem Placed.congr (h : ib.Placed out) (hmade : ib'.made = ib.made) (hfree : ib'.free = ib.free)
    (hrq : ∀ q, ib'.recvQueue q = ib.recvQueue q) (hout : ∀ o, (out' o).Perm (out o))
    (hqp : ∀ c, (ib'.chunk c).qp = (ib.chunk c).qp) : ib'.Placed out' := by
  have hplace : ∀ p, (ib'.place out' p).Perm (ib.place out p) := by
    intro p
    cases p with
    | free => exact .of_eq hfree
    | rq q => exact .of_eq (hrq q)
    | out o => exact hout o
  constructor
  · rw [hmade]
    exact h.exclusive.congr hplace
  · intro p c hc
    exact (hqp c).trans (h.qpField ((hplace p).mem_iff.mp hc))

/-- A new block of the pool: its chunks are free and belong to no queue. -/
theorem Placed.slowMalloc (h : ib.Placed out) (env : Env) : (ib.slowMalloc env).Placed out := by
  constructor
  · refine h.exclusive.grow .free (List.range' ib.made (env.block ib.mallocs))
      ?_ List.nodup_range' ?_ (.refl _) ?_
    · intro c
      simp only [Infiniband.slowMalloc, List.mem_range'_1]
      omega
    · intro c hc
      simp only [List.mem_range'_1] at hc
      omega
    · intro p hp
      cases p with
      | free => exact absurd rfl hp
      | rq q => rfl
      | out o => rfl
  · intro p c hc
    by_cases hnew : ib.made ≤ c ∧ c < ib.made + env.block ib.mallocs
    · have hchunk : (ib.slowMalloc env).chunk c = ⟨none, env.rdmaBufferSize, 0, 0, 0⟩ :=
        if_pos hnew
      rw [hchunk]
      cases p with
      | free => rfl
      | rq q => exact absurd (h.exclusive.sound (p := .rq q) hc) (Nat.not_lt.mpr hnew.1)
      | out o => rfl
    · have hchunk : (ib.slowMalloc env).chunk c = ib.chunk c := if_neg hnew
      rw [hchunk]
      cases p with
      | free =>
          rcases List.mem_append.mp hc with hfresh | hold
          · exact absurd (List.mem_range'_1.mp hfresh) hnew
          · exact h.qpField (p := .free) hold
      | rq q => exact h.qpField (p := .rq q) hc
      | out o => exact h.qpField (p := .out o) hc

/-- The part of the placement that an operation on the free list, one queue and
the containers of the caller leaves alone. -/
private theorem recvQueue_other (hqps : ∀ q', q' ≠ q → ib'.qps q' = ib.qps q') {q' : Nat}
    (hne : Place.rq (O := O) q' ≠ .rq q) : ib'.recvQueue q' = ib.recvQueue q' :=
  recvQueue_congr (hqps q' fun heq => hne (congrArg Place.rq heq))

/-- The head of the free list becomes a request of `q`. -/
theorem Placed.enqueue (h : ib.Placed out) {rest : List Nat} (hfree : ib.free = c :: rest)
    (hqp : ib.qps q = some qp) :
    ((({ ib with free := rest } : Infiniband).setChunk c ((ib.chunk c).setQp q)).addRqWr q c).Placed
      out := by
  refine h.transfer .free (.rq q) [c] (by simp) rfl ?_ ?_ ?_ ?_ ?_
  · exact .of_eq hfree
  · simp only [place, recvQueue, addRqWr, modifyQp_qps, setChunk_qps, hqp]
    simp
  · intro p hp hq
    cases p with
    | free => exact absurd rfl hp
    | rq q' =>
        refine recvQueue_other (fun q'' hne => ?_) hq
        simp [addRqWr, Function.update_of_ne hne]
    | out o => rfl
  · intro c' hc'
    cases List.mem_singleton.mp hc'
    simp [addRqWr, setChunk, modifyQp, Place.qp]
  · intro c' hc'
    have hne : c' ≠ c := by simpa using hc'
    simp [addRqWr, setChunk, modifyQp, Function.update_of_ne hne]

/-- `remove_rq_wr` followed by `clear_qp`: the caller now holds the chunk. -/
theorem Placed.dequeue (h : ib.Placed out) (hqp : ib.qps q = some qp) (hc : c ∈ qp.recvQueue)
    (o : O) (hout : (out' o).Perm (c :: out o)) (hother : ∀ o', o' ≠ o → out' o' = out o') :
    ((ib.modifyQp q fun qp => { qp with recvQueue := qp.recvQueue.erase c }).clearQp c).Placed
      out' := by
  refine h.transfer (.rq q) (.out o) [c] (by simp) rfl ?_ ?_ ?_ ?_ ?_
  · simp only [place, recvQueue, clearQp_qps, modifyQp_qps, hqp]
    simpa using List.perm_cons_erase hc
  · exact hout
  · intro p hp ho
    cases p with
    | free => rfl
    | rq q' =>
        refine recvQueue_other (fun q'' hne => ?_) hp
        simp [Function.update_of_ne hne]
    | out o' => exact hother o' fun heq => ho (congrArg Place.out heq)
  · intro c' hc'
    cases List.mem_singleton.mp hc'
    simp [clearQp, setChunk, Place.qp]
  · intro c' hc'
    have hne : c' ≠ c := by simpa using hc'
    simp [clearQp, setChunk, modifyQp, Function.update_of_ne hne]

/-- `release_rx_buffer` of a chunk that the caller holds. -/
theorem Placed.release (h : ib.Placed out) (o : O) (hout : (out o).Perm (c :: out' o))
    (hother : ∀ o', o' ≠ o → out' o' = out o') :
    ({ ib.clearQp c with free := c :: ib.free } : Infiniband).Placed out' := by
  refine h.transfer (.out o) .free [c] (by simp) rfl hout (.refl _) ?_ ?_ ?_
  · intro p hp hfree
    cases p with
    | free => exact absurd rfl hfree
    | rq q => rfl
    | out o' => exact hother o' fun heq => hp (congrArg Place.out heq)
  · intro c' hc'
    cases List.mem_singleton.mp hc'
    simp [clearQp, setChunk, Place.qp]
  · intro c' hc'
    have hne : c' ≠ c := by simpa using hc'
    simp [clearQp, setChunk, Function.update_of_ne hne]

/-- Requests of `q` go back to the free list. -/
theorem Placed.recycle (h : ib.Placed out) (moved : List Nat) (hmade : ib'.made = ib.made)
    (hqps : ∀ q', q' ≠ q → ib'.qps q' = ib.qps q')
    (hrq : (ib.recvQueue q).Perm (moved ++ ib'.recvQueue q))
    (hfree : ib'.free.Perm (moved ++ ib.free)) (hmoved : ∀ c ∈ moved, (ib'.chunk c).qp = none)
    (hkept : ∀ c, c ∉ moved → (ib'.chunk c).qp = (ib.chunk c).qp) : ib'.Placed out := by
  refine h.transfer (.rq q) .free moved (by simp) hmade hrq hfree ?_ hmoved hkept
  intro p hp hfree
  cases p with
  | free => exact absurd rfl hfree
  | rq q' => exact recvQueue_other hqps hp
  | out o => rfl

theorem removeRqWr_eq (hqp : ib.qps q = some qp) (hc : c ∈ qp.recvQueue) :
    ib.removeRqWr q c =
      .ok (ib.modifyQp q fun qp => { qp with recvQueue := qp.recvQueue.erase c }) := by
  unfold removeRqWr
  rw [hqp]
  exact if_pos hc

theorem Placed.recallChunkToPool_out (h : ib.Placed out) {o : O} (ho : c ∈ out o) :
    ib.recallChunkToPool c = .ok { ib.clearQp c with free := c :: ib.free } := by
  have hqp : (ib.chunk c).qp = none := h.qpField (p := .out o) ho
  unfold recallChunkToPool
  rw [hqp]
  exact if_neg (h.not_free_of_out ho)

/-- `recall_chunk_to_pool` of a chunk that the caller holds. -/
theorem Placed.recall (h : ib.Placed out) (o : O) (hout : (out o).Perm (c :: out' o))
    (hother : ∀ o', o' ≠ o → out' o' = out o') :
    ∃ ib', ib.recallChunkToPool c = .ok ib' ∧ ib'.Placed out' ∧ ib'.qps = ib.qps ∧
      ∀ c', c' ≠ c → ib'.chunk c' = ib.chunk c' :=
  ⟨_, h.recallChunkToPool_out (hout.mem_iff.mpr List.mem_cons_self), h.release o hout hother, rfl,
    fun _ hne => Function.update_of_ne hne ..⟩

/-- A chunk passes from one container of the caller to another. -/
theorem Placed.moveOut (h : ib.Placed out) (o o' : O) (hne : o ≠ o')
    (hsrc : (out o).Perm (c :: out' o)) (hdst : (out' o').Perm (c :: out o'))
    (hother : ∀ o'', o'' ≠ o → o'' ≠ o' → out' o'' = out o'') : ib.Placed out' := by
  refine h.transfer (.out o) (.out o') [c] (by simpa using hne) rfl hsrc hdst ?_ ?_ ?_
  · intro p hp hq
    cases p with
    | free => rfl
    | rq q => rfl
    | out o'' =>
        exact hother o'' (fun heq => hp (congrArg Place.out heq))
          fun heq => hq (congrArg Place.out heq)
  · intro c' hc'
    cases List.mem_singleton.mp hc'
    exact h.qpField (p := .out o) (hsrc.mem_iff.mpr List.mem_cons_self)
  · exact fun _ _ => rfl

/-- The requests of `q` without `c`, which is free again. -/
private theorem Placed.dropRequest (h : ib.Placed out) (hqp : ib.qps q = some qp)
    (hc : c ∈ qp.recvQueue) (hqp' : ib'.qps = Function.update ib.qps q
      (some { qp with recvQueue := qp.recvQueue.erase c })) (hfree : ib'.free = c :: ib.free)
    (hmade : ib'.made = ib.made)
    (hchunk : ∀ c', (ib'.chunk c').qp = if c' = c then none else (ib.chunk c').qp) :
    ib'.Placed out := by
  refine h.recycle (q := q) [c] hmade ?_ ?_ (.of_eq hfree) ?_ ?_
  · intro q' hne
    rw [hqp', Function.update_of_ne hne]
  · simp only [recvQueue, hqp', hqp, Function.update_self]
    exact List.perm_cons_erase hc
  · intro c' hc'
    rw [hchunk, if_pos (List.mem_singleton.mp hc')]
  · intro c' hc'
    rw [hchunk, if_neg (by simpa using hc')]

theorem Placed.recallChunkToPool_rq (h : ib.Placed out) (hqp : ib.qps q = some qp)
    (hc : c ∈ qp.recvQueue) : ∃ ib', ib.recallChunkToPool c = .ok ib' ∧ ib'.Placed out ∧
      ib'.qps = Function.update ib.qps q
        (some { qp with recvQueue := qp.recvQueue.erase c }) := by
  have hmem : c ∈ ib.recvQueue q := recvQueue_of_some hqp ▸ hc
  have hfield : (ib.chunk c).qp = some q := h.qpField (p := .rq q) hmem
  have hrun : ib.recallChunkToPool c =
      .ok { (ib.modifyQp q fun qp => { qp with recvQueue := qp.recvQueue.erase c }).clearQp c with
        free := c :: ib.free } := by
    unfold recallChunkToPool
    rw [hfield]
    change (ib.removeRqWr q c >>= _) = _
    rw [removeRqWr_eq hqp hc]
    exact if_neg (h.not_free_of_rq hmem)
  refine ⟨_, hrun, h.dropRequest hqp hc ?_ rfl rfl ?_, ?_⟩
  · simp [clearQp, hqp]
  · intro c'
    simp only [clearQp, setChunk, modifyQp, Function.update_apply]
    split <;> rfl
  · simp [clearQp, hqp]

theorem Placed.unpost (h : ib.Placed out) (hqp : ib.qps q = some qp) (hc : c ∈ qp.recvQueue) :
    ∃ ib', unpost q ib c = .ok ib' ∧ ib'.Placed out ∧
      ib'.qps = Function.update ib.qps q
        (some { qp with recvQueue := qp.recvQueue.erase c }) := by
  have hmem : c ∈ ib.recvQueue q := recvQueue_of_some hqp ▸ hc
  have hrun : Infiniband.unpost q ib c =
      .ok { ((ib.modifyQp q fun qp =>
        { qp with recvQueue := qp.recvQueue.erase c }).clearQp c).clearQp c with
        free := c :: ib.free } := by
    unfold Infiniband.unpost
    rw [removeRqWr_eq hqp hc]
    exact if_neg (h.not_free_of_rq hmem)
  refine ⟨_, hrun, h.dropRequest hqp hc ?_ rfl rfl ?_, ?_⟩
  · simp [clearQp, hqp]
  · intro c'
    by_cases hcc : c' = c <;> simp [clearQp, setChunk, modifyQp, hcc]
  · simp [clearQp, hqp]

/-- Releasing a list of chunks, none of them free and none twice. -/
private theorem release_all (l : List Nat) (ib : Infiniband) (hnodup : l.Nodup)
    (hfree : ∀ c ∈ l, c ∉ ib.free) :
    ∃ ib', l.foldlM releaseRxBuffer ib = .ok ib' ∧ ib'.free = l.reverse ++ ib.free ∧
      ib'.made = ib.made ∧ ib'.qps = ib.qps ∧
      ∀ c, (ib'.chunk c).qp = if c ∈ l then none else (ib.chunk c).qp := by
  induction l generalizing ib with
  | nil => exact ⟨ib, rfl, rfl, rfl, rfl, fun _ => rfl⟩
  | cons c rest ih =>
      obtain ⟨hhead, hrest⟩ := List.nodup_cons.mp hnodup
      have hone : ib.releaseRxBuffer c = .ok { ib.clearQp c with free := c :: ib.free } :=
        if_neg (hfree c List.mem_cons_self)
      obtain ⟨ib', hrun, hlist, hmade, hqps, hchunk⟩ :=
        ih { ib.clearQp c with free := c :: ib.free } hrest (by
          intro c' hc' hmem
          rcases List.mem_cons.mp hmem with rfl | hold
          · exact hhead hc'
          · exact hfree c' (List.mem_cons_of_mem _ hc') hold)
      refine ⟨ib', ?_, ?_, hmade, hqps, ?_⟩
      · rw [List.foldlM_cons, hone]
        exact hrun
      · simp [hlist]
      · intro c'
        rw [hchunk c']
        by_cases hcc : c' = c
        · simp [hcc, clearQp, setChunk]
        · simp [hcc, clearQp, setChunk]

theorem Placed.deleteQp (h : ib.Placed out) (hqp : ib.qps q = some qp) :
    ∃ ib', ib.deleteQp q = .ok ib' ∧ ib'.Placed out ∧ ib'.qps = Function.update ib.qps q none := by
  have hself := recvQueue_of_some hqp
  obtain ⟨ib', hrun, hfree, hmade, hqps, hchunk⟩ :=
    release_all qp.recvQueue ib (hself ▸ h.exclusive.nodup (.rq q))
      fun c hc => h.not_free_of_rq (q := q) (hself ▸ hc)
  have hdelete : ib.deleteQp q = .ok { ib' with qps := Function.update ib'.qps q none } := by
    unfold Infiniband.deleteQp
    rw [hqp]
    change (qp.recvQueue.foldlM releaseRxBuffer ib >>= _) = _
    rw [hrun]
    rfl
  refine ⟨_, hdelete, ?_, by rw [hqps]⟩
  refine h.recycle (q := q) qp.recvQueue hmade ?_ ?_ ?_ ?_ ?_
  · intro q' hne
    simp [Function.update_of_ne hne, hqps]
  · simp [recvQueue, hqp]
  · rw [hfree]
    exact (List.reverse_perm _).append_right _
  · intro c hc
    rw [hchunk, if_pos hc]
  · intro c hc
    rw [hchunk, if_neg hc]

theorem Placed.getRxBuffer (h : ib.Placed out) (env : Env) :
    (∃ ib', ib.getRxBuffer env = (none, ib') ∧ ib'.Placed out ∧ ib'.qps = ib.qps ∧
        ib'.posts = ib.posts) ∨
      ∃ (c : Nat) (ib₀ : Infiniband) (rest : List Nat),
        ib.getRxBuffer env = (some c, { ib₀ with free := rest }) ∧ ib₀.Placed out ∧
        ib₀.qps = ib.qps ∧ ib₀.posts = ib.posts ∧ ib₀.free = c :: rest := by
  have hpool : ∃ ib₀ : Infiniband, (if ib.free.isEmpty then ib.slowMalloc env else ib) = ib₀ ∧
      ib₀.Placed out ∧ ib₀.qps = ib.qps ∧ ib₀.posts = ib.posts := by
    by_cases hempty : ib.free.isEmpty
    · exact ⟨_, if_pos hempty, h.slowMalloc env, rfl, rfl⟩
    · exact ⟨_, if_neg hempty, h, rfl, rfl⟩
  obtain ⟨ib₀, hib₀, hplaced, hqps, hposts⟩ := hpool
  unfold Infiniband.getRxBuffer
  cases hfree : ib₀.free with
  | nil =>
      refine .inl ⟨ib₀, ?_, hplaced, hqps, hposts⟩
      simp only [hib₀, hfree]
  | cons c rest =>
      refine .inr ⟨c, ib₀, rest, ?_, hplaced, hqps, hposts, hfree⟩
      simp only [hib₀, hfree]

/-- The loop that fills the work requests adds them to the queue as it goes. -/
theorem Placed.fillRequests (env : Env) (left : Nat) (requests : List Nat) {qp : QueuePair}
    (h : ib.Placed out) (hqp : ib.qps q = some qp) :
    ∃ taken ib', fillRequests env q left requests ib = (requests ++ taken, ib') ∧
      taken.length ≤ left ∧ ib'.Placed out ∧ ib'.posts = ib.posts ∧
      ib'.qps = Function.update ib.qps q
        (some { qp with recvQueue := qp.recvQueue ++ taken }) := by
  induction left generalizing requests ib qp with
  | zero =>
      refine ⟨[], ib, by simp [Infiniband.fillRequests], Nat.le_refl _, h, rfl, ?_⟩
      rw [List.append_nil, ← hqp, Function.update_eq_self]
  | succ left ih =>
      unfold Infiniband.fillRequests
      rcases h.getRxBuffer env with ⟨ib₁, hrx, hplaced, hqps, hposts⟩ |
        ⟨c, ib₀, rest, hrx, hplaced, hqps₀, hposts, hfree⟩
      · refine ⟨[], ib₁, by simp [hrx], Nat.zero_le _, hplaced, hposts, ?_⟩
        rw [List.append_nil, hqps, ← hqp, Function.update_eq_self]
      · have hqp₀ : ib₀.qps q = some qp := hqps₀ ▸ hqp
        have hqp₁ : ((({ ib₀ with free := rest } : Infiniband).setChunk c
            ((ib₀.chunk c).setQp q)).addRqWr q c).qps q =
            some { qp with recvQueue := qp.recvQueue ++ [c] } := by
          simp [addRqWr, hqp₀]
        obtain ⟨taken, ib', hrun, hlength, hplaced', hposts', hqps'⟩ :=
          ih (requests ++ [c]) (hplaced.enqueue hfree hqp₀) hqp₁
        refine ⟨c :: taken, ib', ?_, Nat.succ_le_succ hlength, hplaced', hposts'.trans hposts, ?_⟩
        · simpa [hrx] using hrun
        · rw [hqps']
          simp [addRqWr, hqps₀]

/-- The loop that takes back requests that were not posted. -/
theorem Placed.unpostAll (undone : List Nat) {qp : QueuePair} (h : ib.Placed out)
    (hqp : ib.qps q = some qp) (hnodup : undone.Nodup) (hmem : ∀ c ∈ undone, c ∈ qp.recvQueue) :
    ∃ ib' queue, undone.foldlM (Infiniband.unpost q) ib = .ok ib' ∧ ib'.Placed out ∧
      ib'.qps = Function.update ib.qps q (some { qp with recvQueue := queue }) ∧
      queue.length + undone.length = qp.recvQueue.length ∧
      ∀ c ∈ qp.recvQueue, c ∉ undone → c ∈ queue := by
  induction undone generalizing ib qp with
  | nil =>
      refine ⟨ib, qp.recvQueue, rfl, h, ?_, rfl, fun c hc _ => hc⟩
      rw [← hqp, Function.update_eq_self]
  | cons c rest ih =>
      obtain ⟨hhead, hrest⟩ := List.nodup_cons.mp hnodup
      have hc := hmem c List.mem_cons_self
      obtain ⟨ib₁, hrun₁, hplaced₁, hqps₁⟩ := h.unpost hqp hc
      have hqp₁ : ib₁.qps q = some { qp with recvQueue := qp.recvQueue.erase c } := by
        simp [hqps₁]
      have hmem₁ : ∀ c' ∈ rest, c' ∈ qp.recvQueue.erase c := by
        intro c' hc'
        have hne : c' ≠ c := fun heq => hhead (heq ▸ hc')
        exact (List.mem_erase_of_ne hne).mpr (hmem c' (List.mem_cons_of_mem _ hc'))
      obtain ⟨ib', queue, hrun, hplaced, hqps, hlength, hkeeps⟩ := ih hplaced₁ hqp₁ hrest hmem₁
      refine ⟨ib', queue, ?_, hplaced, by rw [hqps, hqps₁, Function.update_idem], ?_, ?_⟩
      · rw [List.foldlM_cons, hrun₁]
        exact hrun
      · have := List.length_erase_of_mem hc
        have := List.length_pos_of_mem hc
        simp only [List.length_cons] at *
        omega
      · intro c' hc' hnot
        rw [List.mem_cons, not_or] at hnot
        exact hkeeps c' ((List.mem_erase_of_ne hnot.1).mpr hc') hnot.2

/-- What `post_chunks_to_rq` has done when it returns. -/
structure Posts (env : Env) (ib : Infiniband) (out : O → List Nat) (q : Nat) (qp : QueuePair)
    (rqWrNum : Nat) (result : Nat × Infiniband) : Prop where
  placed : result.2.Placed out
  le : result.1 ≤ rqWrNum
  /-- Only a failure of verbs before the last request leaves a part of them. -/
  whole : (∀ bad, env.postRecv ib.posts = some bad → rqWrNum ≤ bad + 1) →
    result.1 = 0 ∨ result.1 = rqWrNum
  queue : ∃ qp', result.2.qps = Function.update ib.qps q (some qp') ∧ Reposted qp qp' result.1

private theorem Placed.rollback {taken : List Nat} {bad : Nat} (h : ib.Placed out)
    (hqp : ib.qps q = some { qp with
      recvQueue := qp.recvQueue ++ taken, posted := qp.posted ++ taken.take bad })
    (hnodup : (qp.recvQueue ++ taken).Nodup) :
    ∃ ib' qp', (taken.drop bad).dropLast.foldlM (Infiniband.unpost q) ib = .ok ib' ∧
      ib'.Placed out ∧ ib'.qps = Function.update ib.qps q (some qp') ∧
      Reposted qp qp' (taken.length - (taken.drop bad).dropLast.length) := by
  obtain ⟨_, htaken, hdisjoint⟩ := List.nodup_append.mp hnodup
  have hsub : (taken.drop bad).dropLast.Sublist (taken.drop bad) := List.dropLast_sublist _
  have hundone : ∀ c ∈ (taken.drop bad).dropLast, c ∈ taken := fun c hc =>
    List.mem_of_mem_drop (hsub.subset hc)
  have hapart := List.nodup_append.mp (List.take_append_drop bad taken ▸ htaken)
  obtain ⟨ib', queue, hrun, hplaced, hqps, hlength, hkeeps⟩ :=
    h.unpostAll (taken.drop bad).dropLast hqp (hsub.nodup hapart.2.1)
      fun c hc => List.mem_append_right _ (hundone c hc)
  refine ⟨ib', _, hrun, hplaced, hqps,
    Reposted.intro queue hnodup (List.take_sublist bad taken) ?_ ?_ ?_⟩
  · simp only [List.length_append, List.length_dropLast, List.length_drop] at hlength ⊢
    omega
  · intro c hc
    exact hkeeps c (List.mem_append_left _ hc) fun hu => hdisjoint c hc c (hundone c hu) rfl
  · intro c hc
    exact hkeeps c (List.mem_append_right _ (List.mem_of_mem_take hc))
      fun hu => hapart.2.2 c hc c (hsub.subset hu) rfl

theorem Placed.postChunksToRq (h : ib.Placed out) (hqp : ib.qps q = some qp) (rqWrNum : Nat) :
    Ends (ib.postChunksToRq env rqWrNum q) (Posts env ib out q qp rqWrNum)
      (fun fault => fault = .tempOverrun ∨ fault = .kassertPosted) := by
  obtain ⟨taken, ib₁, hfill, hle, hplaced₁, hposts₁, hqps₁⟩ := h.fillRequests env rqWrNum [] hqp
  have hqp₁ : ib₁.qps q = some { qp with recvQueue := qp.recvQueue ++ taken } := by simp [hqps₁]
  have hnodup : (qp.recvQueue ++ taken).Nodup := by
    have := hplaced₁.exclusive.nodup (.rq q)
    rwa [place, recvQueue_of_some hqp₁] at this
  unfold Infiniband.postChunksToRq
  simp only [hqp, hfill, List.nil_append]
  by_cases hzero : rqWrNum = 0
  · simp [hzero]
  by_cases hempty : taken = []
  · subst hempty
    rw [if_neg hzero, if_pos rfl, ends_ok]
    exact ⟨hplaced₁, Nat.zero_le _, fun _ => .inl rfl, qp, by simpa using hqps₁, .nothing qp⟩
  by_cases hover : qp.maxRecvWr < taken.length
  · simp [hzero, hempty, hover]
  by_cases hfull : taken.length = rqWrNum
  · rw [if_neg hzero, if_neg hempty, if_neg hover, if_neg (not_not_intro hfull)]
    have hplaced₂ : (ib₁.ibvPostRecv env q taken).2.Placed out := by
      refine hplaced₁.congr rfl rfl (fun q' => ?_) (fun _ => .refl _) (fun _ => rfl)
      by_cases hq : q' = q
      · subst hq
        simp [recvQueue, ibvPostRecv, hqp₁]
      · exact recvQueue_congr (by simp [ibvPostRecv, Function.update_of_ne hq])
    cases hbad : (env.postRecv ib₁.posts).filter (· < taken.length) with
    | none =>
        simp only [ibvPostRecv, hbad] at hplaced₂ ⊢
        refine ⟨hplaced₂, Nat.le_refl _, fun _ => .inr rfl, _, ?_,
          Reposted.intro (qp.recvQueue ++ taken) hnodup (.refl taken) ?_ ?_ ?_⟩
        · simp [hqps₁]
        · simp [hfull]
        · exact fun c hc => List.mem_append_left _ hc
        · exact fun c hc => List.mem_append_right _ hc
    | some bad =>
        have hqp₂ : (ib₁.ibvPostRecv env q taken).2.qps q = some { qp with
            recvQueue := qp.recvQueue ++ taken, posted := qp.posted ++ taken.take bad } := by
          simp [ibvPostRecv, hbad, hqp₁]
        simp only [ibvPostRecv, hbad] at hplaced₂ hqp₂ ⊢
        obtain ⟨ib', qp', hrun, hplaced, hqps, hreposted⟩ := hplaced₂.rollback hqp₂ hnodup
        rw [hfull] at hreposted
        rw [hrun]
        refine ⟨hplaced, Nat.sub_le _ _, fun hwhole => .inr ?_, qp', ?_, hreposted⟩
        · obtain ⟨hbad₁, _⟩ := Option.filter_eq_some_iff.mp hbad
          have := hwhole bad (hposts₁ ▸ hbad₁)
          simp only [List.length_dropLast, List.length_drop]
          omega
        · rw [hqps]
          simp [hqps₁]
  · rw [if_neg hzero, if_neg hempty, if_neg hover, if_pos hfull, ends_error]
    exact .inr rfl

end Infiniband

end RdmaCapsule.Core
