import Mathlib
import RdmaCapsule.Core.ReceiveQueue

/-! `post_chunks_to_rq` by itself: the pool may supply fewer chunks than are asked for, and
verbs may take fewer than are in the chain. What is returned and what stays in `recv_queue` is
compared with what was posted. -/
namespace RdmaCapsule.Core.Infiniband

open RdmaCapsule.Foundation

variable {env : Env} {ib ib' : Infiniband} {q : Nat} {qp : QueuePair}

/-- The chunks that `get_rx_buffer` gives when it is called `n` times, or until it gives
none. -/
def supply (env : Env) : Nat → Infiniband → List Nat
  | 0, _ => []
  | n + 1, ib =>
      match ib.getRxBuffer env with
      | (none, _) => []
      | (some c, ib) => c :: supply env n ib

/-- Index at which `ibv_post_recv` stops in a chain of `length` requests. -/
def refused (env : Env) (ib : Infiniband) (length : Nat) : Option Nat :=
  (env.postRecv ib.posts).filter (· < length)

/-- Without a chunk, nothing is done. With some, those that verbs has taken are added to the
queue and counted, and the others are in the pool again. -/
def PostsExactly (env : Env) (ib : Infiniband) (q : Nat) (qp : QueuePair) (rqWrNum : Nat) : Prop :=
  let chunks := supply env rqWrNum ib
  let k := (refused env ib chunks.length).getD chunks.length
  if chunks = [] then
    ∃ mallocs, ib.postChunksToRq env rqWrNum q = .ok (0, { ib with mallocs })
  else
    ∃ ib', ib.postChunksToRq env rqWrNum q = .ok (k, ib') ∧
      ib'.qps q = some { qp with
        recvQueue := qp.recvQueue ++ chunks.take k, posted := qp.posted ++ chunks.take k } ∧
      ∀ c ∈ chunks.drop k, (ib'.chunk c).qp = none ∧ c ∈ ib'.free

/-- The free list, and what the allocator will be asked. -/
def SamePool (ib ib' : Infiniband) : Prop :=
  ib.free = ib'.free ∧ ib.made = ib'.made ∧ ib.mallocs = ib'.mallocs

theorem SamePool.getRxBuffer (h : SamePool ib ib') (env : Env) :
    (ib.getRxBuffer env).1 = (ib'.getRxBuffer env).1 ∧
      SamePool (ib.getRxBuffer env).2 (ib'.getRxBuffer env).2 := by
  obtain ⟨hfree, hmade, hmallocs⟩ := h
  have hpool : SamePool (if ib.free.isEmpty then ib.slowMalloc env else ib)
      (if ib'.free.isEmpty then ib'.slowMalloc env else ib') := by
    rw [hfree]
    split
    · simp only [SamePool, slowMalloc, hfree, hmade, hmallocs, and_self]
    · exact ⟨hfree, hmade, hmallocs⟩
  unfold Infiniband.getRxBuffer
  dsimp only
  rw [hpool.1]
  split
  · exact ⟨rfl, hpool⟩
  · exact ⟨rfl, rfl, hpool.2⟩

theorem SamePool.supply (h : SamePool ib ib') (env : Env) (n : Nat) :
    supply env n ib = supply env n ib' := by
  induction n generalizing ib ib' with
  | zero => rfl
  | succ n ih =>
      obtain ⟨hchunk, hpool⟩ := h.getRxBuffer env
      unfold Infiniband.supply
      generalize ib.getRxBuffer env = given at hchunk hpool
      generalize ib'.getRxBuffer env = given' at hchunk hpool
      obtain ⟨chunk, ib₁⟩ := given
      obtain ⟨chunk', ib₁'⟩ := given'
      cases hchunk
      cases chunk with
      | none => rfl
      | some c => exact congrArg (c :: ·) (ih hpool)

theorem slowMalloc_none (hblock : env.block ib.mallocs = 0) :
    ib.slowMalloc env = { ib with mallocs := ib.mallocs + 1 } := by
  have hnone (c : Nat) : ¬ (ib.made ≤ c ∧ c < ib.made) := by omega
  simp only [slowMalloc, hblock, hnone, if_false, List.range'_zero, List.nil_append, Nat.add_zero]

/-- A pool that gives nothing has asked the allocator in vain. -/
theorem getRxBuffer_none (h : ib.getRxBuffer env = (none, ib')) :
    ∃ mallocs, ib' = { ib with mallocs } := by
  unfold Infiniband.getRxBuffer at h
  dsimp only at h
  split at h
  · rename_i hdry
    cases h
    by_cases hempty : ib.free.isEmpty
    · rw [if_pos hempty] at hdry ⊢
      have hblock : env.block ib.mallocs = 0 := by
        simpa [slowMalloc, List.isEmpty_iff.mp hempty] using hdry
      exact ⟨_, slowMalloc_none hblock⟩
    · rw [if_neg hempty] at hdry
      exact absurd (by simp [hdry]) hempty
  · cases h

/-- The loop that fills the work requests takes what the pool supplies. -/
theorem fillRequests_supply (env : Env) (left : Nat) (requests : List Nat)
    (hqp : ib.qps q = some qp) :
    ∃ ib', fillRequests env q left requests ib = (requests ++ supply env left ib, ib') ∧
      ib'.posts = ib.posts ∧
      ib'.qps q = some { qp with recvQueue := qp.recvQueue ++ supply env left ib } := by
  induction left generalizing requests ib qp with
  | zero => exact ⟨ib, by simp [fillRequests, supply], rfl, by simpa [supply] using hqp⟩
  | succ left ih =>
      unfold fillRequests supply
      have hqps : (ib.getRxBuffer env).2.qps = ib.qps ∧
          (ib.getRxBuffer env).2.posts = ib.posts := by
        unfold getRxBuffer slowMalloc
        dsimp only
        split <;> split <;> exact ⟨rfl, rfl⟩
      generalize ib.getRxBuffer env = given at hqps
      obtain ⟨chunk, ib₁⟩ := given
      obtain ⟨hqps, hposts⟩ := hqps
      dsimp only at hqps hposts
      cases chunk with
      | none => exact ⟨ib₁, by simp, hposts, by simpa [hqps] using hqp⟩
      | some c =>
          have hqp₁ : ((ib₁.setChunk c ((ib₁.chunk c).setQp q)).addRqWr q c).qps q =
              some { qp with recvQueue := qp.recvQueue ++ [c] } := by
            simp [addRqWr, modifyQp, setChunk, hqps, hqp]
          have hpool : SamePool ((ib₁.setChunk c ((ib₁.chunk c).setQp q)).addRqWr q c) ib₁ :=
            ⟨rfl, rfl, rfl⟩
          obtain ⟨ib', hrun, hposts', hqps'⟩ := ih (requests ++ [c]) hqp₁
          rw [hpool.supply] at hrun hqps'
          refine ⟨ib', ?_, hposts'.trans hposts, ?_⟩
          · simpa using hrun
          · simpa using hqps'

theorem fillRequests_none (hn : 0 < rqWrNum) (h : supply env rqWrNum ib = []) :
    ∃ mallocs, fillRequests env q rqWrNum [] ib = ([], { ib with mallocs }) := by
  cases rqWrNum with
  | zero => omega
  | succ n =>
      unfold supply at h
      unfold fillRequests
      cases hgiven : ib.getRxBuffer env with
      | mk chunk ib₁ =>
          rw [hgiven] at h
          cases chunk with
          | none =>
              obtain ⟨mallocs, rfl⟩ := getRxBuffer_none hgiven
              exact ⟨mallocs, rfl⟩
          | some c => cases h

theorem ibvPostRecv_eq (env : Env) (q : Nat) (chunks : List Nat) (ib : Infiniband) :
    (ibvPostRecv env q chunks ib).1 = refused env ib chunks.length ∧
      (ibvPostRecv env q chunks ib).2.qps = (ib.modifyQp q fun qp => { qp with
        posted := qp.posted ++
          chunks.take ((refused env ib chunks.length).getD chunks.length) }).qps :=
  ⟨rfl, rfl⟩

variable {chunks : List Nat}

/-- A chain that is shorter than asked for, or longer than the array, stops the process. -/
theorem postChunksToRq_stops (hqp : ib.qps q = some qp) (hn : 0 < rqWrNum)
    (hfill : ib.fillRequests env q rqWrNum [] = (chunks, ib')) (hsome : chunks ≠ [])
    (hchain : chunks.length ≠ rqWrNum ∨ qp.maxRecvWr < rqWrNum) :
    ∃ fault, ib.postChunksToRq env rqWrNum q = .error fault := by
  unfold postChunksToRq
  rw [hqp]
  dsimp only
  rw [if_neg hn.ne', hfill]
  dsimp only
  rw [if_neg hsome]
  by_cases hover : qp.maxRecvWr < chunks.length
  · exact ⟨_, if_pos hover⟩
  · have hshort : chunks.length ≠ rqWrNum := by
      rcases hchain with hshort | hroom
      · exact hshort
      · omega
    exact ⟨_, by rw [if_neg hover, if_pos hshort]⟩

/-- A chain as long as asked for goes to verbs. -/
theorem postChunksToRq_eq (hqp : ib.qps q = some qp) (hn : 0 < chunks.length)
    (hroom : chunks.length ≤ qp.maxRecvWr)
    (hfill : ib.fillRequests env q chunks.length [] = (chunks, ib')) :
    ib.postChunksToRq env chunks.length q =
      match refused env ib' chunks.length with
      | none => .ok (chunks.length, (ib'.ibvPostRecv env q chunks).2)
      | some bad =>
          (((chunks.drop bad).dropLast).foldlM (unpost q) (ib'.ibvPostRecv env q chunks).2).bind
            fun ib => .ok (chunks.length - ((chunks.drop bad).dropLast).length, ib) := by
  unfold postChunksToRq
  rw [hqp]
  dsimp only
  rw [if_neg hn.ne', hfill]
  dsimp only
  rw [if_neg (List.ne_nil_of_length_pos hn), if_neg (by omega), if_neg (not_not_intro rfl)]
  have hbad := (ibvPostRecv_eq env q chunks ib').1
  rw [← hbad]
  generalize ib'.ibvPostRecv env q chunks = posted
  obtain ⟨result, ib₂⟩ := posted
  cases result <;> rfl

/-- `post_chunks_to_rq` posts, keeps and reports the same chunks exactly when the pool gives
none, or when it gives all, the queue pair has room for so many work requests, and verbs takes
them all. -/
theorem post_chunks_exact_iff (env : Env) (ib : Infiniband) (q : Nat) (qp : QueuePair)
    (hqp : ib.qps q = some qp) (rqWrNum : Nat) (hn : 0 < rqWrNum) :
    PostsExactly env ib q qp rqWrNum ↔
      supply env rqWrNum ib = [] ∨
        (supply env rqWrNum ib).length = rqWrNum ∧ rqWrNum ≤ qp.maxRecvWr ∧
          refused env ib rqWrNum = none := by
  unfold PostsExactly
  dsimp only
  by_cases hnone : supply env rqWrNum ib = []
  · rw [if_pos hnone]
    refine iff_of_true ?_ (.inl hnone)
    obtain ⟨mallocs, hfill⟩ := fillRequests_none (q := q) hn hnone
    exact ⟨mallocs, by simp [postChunksToRq, hqp, hn.ne', hfill]⟩
  rw [if_neg hnone, or_iff_right hnone]
  obtain ⟨ib₁, hfill, hposts, hqp₁⟩ := fillRequests_supply env rqWrNum [] hqp
  rw [List.nil_append] at hfill
  generalize supply env rqWrNum ib = chunks at hnone hfill hqp₁
  by_cases hchain : chunks.length = rqWrNum ∧ rqWrNum ≤ qp.maxRecvWr
  · obtain ⟨rfl, hroom⟩ := hchain
    have hsame : refused env ib₁ chunks.length = refused env ib chunks.length := by
      rw [refused, refused, hposts]
    have hrun := postChunksToRq_eq hqp hn hroom hfill
    have hqps := (ibvPostRecv_eq env q chunks ib₁).2
    rw [hsame] at hrun hqps
    cases hrefused : refused env ib chunks.length with
    | none =>
        rw [hrefused] at hrun hqps
        refine iff_of_true ⟨_, hrun, ?_, by simp⟩ ⟨rfl, hroom, rfl⟩
        rw [hqps]
        simp [modifyQp, hqp₁]
    | some bad =>
        have hbad : bad < chunks.length := by
          simpa using (Option.filter_eq_some_iff.mp hrefused).2
        refine iff_of_false ?_ (by simp)
        rintro ⟨ib', hrun', -⟩
        rw [hrun, hrefused] at hrun'
        obtain ⟨ib₃, -, hreturn⟩ := bind_eq_ok hrun'
        have hcount := congrArg Prod.fst (Except.ok.inj hreturn)
        -- the last request is counted whether or not it was posted
        simp only [List.length_dropLast, List.length_drop, Option.getD_some] at hcount
        omega
  · refine iff_of_false ?_ fun h => hchain ⟨h.1, h.2.1⟩
    rintro ⟨ib', hrun, -⟩
    obtain ⟨fault, hstops⟩ := postChunksToRq_stops hqp hn hfill hnone (by omega)
    cases hstops.symm.trans hrun

/-- A pool of one chunk that the allocator will not refill, and a queue pair with room for
four requests. -/
def oneChunk : Infiniband where
  free := [0]
  made := 1
  chunk := fun _ => ⟨none, 4096, 0, 0, 0⟩
  qps := fun _ => some ⟨4, [], false, [], []⟩
  mallocs := 0
  posts := 0

def refusing (bad : Option Nat) : Env := ⟨4096, 4, fun _ => 0, fun _ => bad⟩

/-- One chunk is asked for, and verbs takes it. -/
theorem post_chunks_exact_iff_one :
    PostsExactly (refusing none) oneChunk 7 ⟨4, [], false, [], []⟩ 1 :=
  (post_chunks_exact_iff (refusing none) oneChunk 7 _ rfl 1 (by decide)).mpr
    (.inr ⟨rfl, by decide, rfl⟩)

/-- Two chunks are asked for and the pool has one: the process stops. One is asked for and
verbs refuses it: one is reported, and it stays in the queue, not posted. -/
theorem post_chunks_not_exact :
    ¬ PostsExactly (refusing none) oneChunk 7 ⟨4, [], false, [], []⟩ 2 ∧
      oneChunk.postChunksToRq (refusing none) 2 7 = .error .kassertPosted ∧
      ¬ PostsExactly (refusing (some 0)) oneChunk 7 ⟨4, [], false, [], []⟩ 1 ∧
      ∃ ib', oneChunk.postChunksToRq (refusing (some 0)) 1 7 = .ok (1, ib') ∧
        ib'.qps 7 = some ⟨4, [0], false, [], []⟩ := by
  refine ⟨?_, rfl, ?_, _, rfl, rfl⟩
  · rintro ⟨ib', hrun, -⟩
    cases hrun
  · rintro ⟨ib', hrun, -⟩
    have hcount : 1 = 0 := congrArg Prod.fst (Except.ok.inj hrun)
    exact absurd hcount one_ne_zero

end RdmaCapsule.Core.Infiniband
