import RdmaCapsule.Core.Endpoint

/-! The ways to `ibv_post_send`, and what becomes of the chunks of a batch that
verbs does not take to its end. Nothing in them returns a chunk to the pool:
they read the pool of send chunks and do not change it. -/
namespace RdmaCapsule.Core

open RdmaCapsule.Foundation

namespace Endpoint

variable {tx : Cluster} {answers : Answers} {ep : Endpoint}

/-- The calls that come to `post_work_request`. -/
inductive SendCall where
  | sendChunks (chunks : List Nat)
  | send (bl : BufferList)
  | submit

/-- The chunks that `submit` posts for a pending list. -/
def chunksOf (tx : Cluster) (bl : BufferList) : List Nat :=
  bl.bufferList.map fun buffer => tx.getChunkByBuffer buffer.cur

/-- A list that is not empty, of buffers in the pool of send chunks. -/
def Submits (tx : Cluster) (bl : BufferList) : Prop :=
  bl.len ≠ 0 ∧ ∀ buffer ∈ bl.bufferList, tx.isMyBuffer buffer.cur = true

namespace SendCall

def run (tx : Cluster) (answers : Answers) (ep : Endpoint) :
    SendCall → Except Fault (Int × Endpoint)
  | .sendChunks chunks => ep.sendChunks answers chunks
  | .send bl => ep.send tx answers bl
  | .submit => ep.submit tx answers

def txBuffers (tx : Cluster) (ep : Endpoint) : SendCall → List Nat
  | .sendChunks chunks => chunks
  | .send bl => chunksOf tx (ep.pendingBl.append bl)
  | .submit => chunksOf tx ep.pendingBl

/-- The call comes as far as `ibv_post_send`. -/
def Posts (tx : Cluster) (ep : Endpoint) : SendCall → Prop
  | .sendChunks _ => ep.connected = true
  | .send bl => ep.error = 0 ∧ bl.len ≠ 0 ∧ ep.connected = true ∧
      Submits tx (ep.pendingBl.append bl)
  | .submit => ep.error = 0 ∧ Submits tx ep.pendingBl

end SendCall

/-- A call that returned `r` reports a failure, and each chunk that was not
posted is free or still queued. -/
def LosesNone (tx : Cluster) (unposted : List Nat) (r : Int) (ep : Endpoint) : Prop :=
  r < 0 ∧ ∀ c ∈ unposted, c ∈ tx.freeChunks ∨ c ∈ chunksOf tx ep.pendingBl

theorem mapM_txChunk (buffers : List Buffer)
    (h : ∀ buffer ∈ buffers, tx.isMyBuffer buffer.cur = true) :
    buffers.mapM (txChunk tx) = .ok (buffers.map fun buffer => tx.getChunkByBuffer buffer.cur) := by
  induction buffers with
  | nil => rfl
  | cons buffer rest ih =>
      have hhead : txChunk tx buffer = .ok (tx.getChunkByBuffer buffer.cur) :=
        if_pos (h buffer List.mem_cons_self)
      rw [List.mapM_cons, hhead, ih fun buffer hmem => h buffer (List.mem_cons_of_mem _ hmem)]
      rfl

/-- Verbs stops at the request with index `bad`. -/
theorem postWorkRequest_of_bad (chunks : List Nat) {bad errno : Nat}
    (hpost : answers.post = some (bad, errno)) (hbad : bad < chunks.length) :
    ep.postWorkRequest answers chunks =
      .ok (-errno, { ep with posted := ep.posted ++ (chunks.take bad).map .chunk }) := by
  have hne : chunks ≠ [] := by
    rintro rfl
    exact absurd hbad (Nat.not_lt_zero bad)
  have hstop : answers.post.filter (·.1 < (chunks.map SendWr.chunk).length) =
      some (bad, errno) := by
    simp [hpost, Option.filter, hbad]
  unfold postWorkRequest ibvPostSend
  rw [if_neg hne, hstop, List.map_take]

/-- The pending list is gone, whatever `submit` returns. -/
theorem submit_of_bad (ep : Endpoint) {bad errno : Nat} (herror : ep.error = 0)
    (hsubmits : Submits tx ep.pendingBl) (hpost : answers.post = some (bad, errno))
    (hbad : bad < (chunksOf tx ep.pendingBl).length) :
    ∃ r, ep.submit tx answers = .ok (r, { ep with
      posted := ep.posted ++ ((chunksOf tx ep.pendingBl).take bad).map .chunk
      pendingBl := ep.pendingBl.clear }) := by
  unfold submit
  rw [if_neg (by simp [herror]), if_neg hsubmits.1, mapM_txChunk _ hsubmits.2]
  change ∃ r, (ep.postWorkRequest answers (chunksOf tx ep.pendingBl) >>= _) = _
  rw [postWorkRequest_of_bad _ hpost hbad]
  simp only [ok_bind]
  split
  · exact ⟨_, rfl⟩
  · exact ⟨_, rfl⟩

/-- The chunk at which verbs stopped is nowhere. -/
theorem not_losesNone_of_cleared {chunks : List Nat} {bad : Nat} {r : Int} {ep' : Endpoint}
    (hbad : bad < chunks.length) (hheld : ∀ c ∈ chunks, c ∉ tx.freeChunks)
    (hcleared : ep'.pendingBl.bufferList = []) : ¬ LosesNone tx (chunks.drop bad) r ep' := by
  rintro ⟨_, hkept⟩
  have hmem : chunks[bad] ∈ chunks.drop bad := by
    rw [List.drop_eq_getElem_cons hbad]
    exact List.mem_cons_self
  rcases hkept _ hmem with hfree | hqueued
  · exact hheld _ (List.getElem_mem hbad) hfree
  · simp [chunksOf, hcleared] at hqueued

/-- Whenever verbs stops within a batch, `send` of chunks reports success, and
`send` of buffers and `submit` drop the chunks that were not posted. -/
theorem failed_post_loses_chunks (tx : Cluster) (answers : Answers) (ep : Endpoint)
    (call : SendCall) (bad errno : Nat) (hposts : call.Posts tx ep)
    (hpost : answers.post = some (bad, errno)) (hbad : bad < (call.txBuffers tx ep).length)
    (hheld : ∀ c ∈ call.txBuffers tx ep, c ∉ tx.freeChunks) :
    ∃ r ep', call.run tx answers ep = .ok (r, ep') ∧
      ¬ LosesNone tx ((call.txBuffers tx ep).drop bad) r ep' := by
  cases call with
  | sendChunks chunks =>
      have hconnected : ep.connected = true := hposts
      have hrun : ep.sendChunks answers chunks =
          .ok (0, { ep with posted := ep.posted ++ (chunks.take bad).map .chunk }) := by
        unfold sendChunks
        rw [if_neg (by simp [hconnected]), postWorkRequest_of_bad chunks hpost hbad]
        rfl
      exact ⟨0, _, hrun, fun hnone => absurd hnone.1 (Int.lt_irrefl 0)⟩
  | submit =>
      obtain ⟨r, hrun⟩ := submit_of_bad ep hposts.1 hposts.2 hpost hbad
      exact ⟨r, _, hrun, not_losesNone_of_cleared hbad hheld rfl⟩
  | send bl =>
      obtain ⟨herror, hlen, hconnected, hsubmits⟩ := hposts
      obtain ⟨r, hsubmit⟩ := submit_of_bad { ep with pendingBl := ep.pendingBl.append bl }
        herror hsubmits hpost hbad
      have hrun : ∃ r' ep', ep.send tx answers bl = .ok (r', ep') ∧
          ep'.pendingBl.bufferList = [] := by
        unfold send
        rw [if_neg (by simp [herror]), if_neg hlen]
        dsimp only
        rw [if_neg (by simp [hconnected]), hsubmit]
        simp only [ok_bind]
        split
        · exact ⟨_, _, rfl, rfl⟩
        · exact ⟨_, _, rfl, rfl⟩
      obtain ⟨r', ep', hrun, hcleared⟩ := hrun
      exact ⟨r', ep', hrun, not_losesNone_of_cleared hbad hheld hcleared⟩

/-- A pool of two chunks, with none left in it. -/
def emptyPool : Cluster := { Cluster.new 4 with numChunk := 2, base := some 0, endAddr := 8 }

/-- A connected client with both chunks in its pending list. -/
def loadedClient : Endpoint where
  isServer := false
  connected := true
  error := 0
  active := true
  readHandler := true
  peerQpn := 2
  localCmMeta := ⟨0, 1, 520, 2, Vector.replicate 16 0⟩
  peerCmMeta := ⟨0, 2, 520, 1, Vector.replicate 16 0⟩
  mcGroup := ⟨0, 0, 0, 0⟩
  attr := ⟨.rts, 2, 520, 520, Vector.replicate 16 0, 0⟩
  transitions := [.rtr, .rts]
  pendingBl := ⟨[⟨0, 0, 4⟩, ⟨4, 4, 4⟩], 8⟩
  posted := []

/-- Verbs takes one request and has no memory for the second. -/
def stopsAtSecond : Answers := ⟨true, true, some (1, 12), none⟩

theorem failed_post_loses_chunks_of_pending_list :
    chunksOf emptyPool loadedClient.pendingBl = [0, 1] ∧
      ∃ r ep', loadedClient.submit emptyPool stopsAtSecond = .ok (r, ep') ∧
        ¬ LosesNone emptyPool [1] r ep' :=
  ⟨by decide, failed_post_loses_chunks emptyPool stopsAtSecond loadedClient .submit 1 12
    ⟨rfl, by decide, by decide⟩ rfl (by decide) (by decide)⟩

/-- Chunk 1 is not posted, not free and not queued, and `send` returns zero. -/
theorem chunk_lost_and_not_reported :
    ∃ ep', { loadedClient with pendingBl := .empty }.sendChunks stopsAtSecond [0, 1] =
        .ok (0, ep') ∧
      ep'.posted = [.chunk 0] ∧ 1 ∉ emptyPool.freeChunks ∧ 1 ∉ chunksOf emptyPool ep'.pendingBl ∧
      ¬ LosesNone emptyPool [1] 0 ep' :=
  ⟨_, rfl, rfl, by decide, by decide, fun hnone => absurd hnone.1 (Int.lt_irrefl 0)⟩

end Endpoint

end RdmaCapsule.Core
