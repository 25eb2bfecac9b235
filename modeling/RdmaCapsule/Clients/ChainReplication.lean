import RdmaCapsule.Clients.RequestFill

/-! A middle replica of the chain forwards a request when it has reserved a slot of the send queue
for each of its chunks. The slots come free when earlier chunks complete, and its own chunks are
posted only after the last reservation. -/
namespace RdmaCapsule.Clients.ChainReplication

open RdmaCapsule.Core RdmaCapsule.Foundation

/-- `TX_QUEUE_LEN` -/
def txQueueLen : UInt64 := 128

/-- A call of `SendRequests` is in its loop, or has left it and not sent the buffers. -/
inductive Phase where
  | idle
  | sending (request : UInt32) (buffers : List Nat) (bufferIndex : Nat)
      (sendingRequestSize : UInt32)
  | ended (request : UInt32) (buffers : List Nat)

structure Client where
  buffers : SendBuffers
  numInflightChunk : UInt64
  requestId : UInt64
  phase : Phase
  posted : List Nat
  completed : List Nat

namespace Client

/-- `SendRequests` is called and gets its buffers. -/
def sendRequests (client : Client) (sendingRequestSize : UInt32) : Except Stop Client :=
  match client.buffers.cluster.getBuffers [] sendingRequestSize.toUInt64 with
  | .error fault => .error (.pool fault)
  | .ok (_, buffers, cluster) =>
      .ok { client with
        buffers := { client.buffers with cluster }
        phase := .sending sendingRequestSize buffers 0 sendingRequestSize }

/-- One test of the loop and the iteration after it. -/
def iterate (client : Client) : Except Stop Client :=
  match client.phase with
  | .sending request buffers bufferIndex sendingRequestSize =>
      if sendingRequestSize = 0 then
        if bufferIndex = buffers.length then .ok { client with phase := .ended request buffers }
        else .error .kassertBufferCount
      else if client.numInflightChunk < txQueueLen then
        match buffers[bufferIndex]? with
        | none => .error .kassertBufferIndex
        | some c =>
            let (writeLen, b) := client.buffers.zeroFill c sendingRequestSize
            .ok { client with
              buffers := b
              numInflightChunk := client.numInflightChunk + 1
              phase := .sending request buffers (bufferIndex + 1) (sendingRequestSize - writeLen) }
      else .ok client
  | _ => .ok client

/-- After the loop: the last buffer gets the id, and `server.send` succeeds. -/
def send (client : Client) : Except Stop Client :=
  match client.phase with
  | .ended _ buffers =>
      match buffers.getLast? with
      | none => .error .emptyVector
      | some back =>
          .ok { client with
            buffers := client.buffers.setRequestId back client.requestId
            requestId := client.requestId + 1
            posted := client.posted ++ buffers
            phase := .idle }
  | _ => .ok client

def onSendCompletion (client : Client) (c : Nat) : Except Stop Client :=
  if client.numInflightChunk ≥ 1 then
    .ok { client with
      numInflightChunk := client.numInflightChunk - 1
      posted := client.posted.erase c
      completed := c :: client.completed }
  else .error .kassertInflightChunk

def postTxBuffer (client : Client) (chunks : List Nat) : Client :=
  { client with
    buffers := { client.buffers with cluster := client.buffers.cluster.takeBack chunks }
    completed := client.completed.filter (· ∉ chunks) }

end Client

inductive Op where
  | sendRequests (sendingRequestSize : UInt32)
  | iterate
  | send
  | completion (c : Nat)
  | postTxBuffer (chunks : List Nat)

/-- One thread makes the calls, one after the other. -/
def Enabled (client : Client) : Op → Prop
  | .sendRequests _ => client.phase = .idle
  | .iterate => True
  | .send => True
  | .completion c => c ∈ client.posted
  | .postTxBuffer chunks => chunks.Nodup ∧ ∀ c ∈ chunks, c ∈ client.completed

def step (client : Client) : Op → Except Stop Client
  | .sendRequests sendingRequestSize => client.sendRequests sendingRequestSize
  | .iterate => client.iterate
  | .send => client.send
  | .completion c => client.onSendCompletion c
  | .postTxBuffer chunks => .ok (client.postTxBuffer chunks)

def machine (memory : Memory) (bufferSize num : UInt32) : Machine Client Op Stop where
  start client :=
    (Cluster.new bufferSize).fill memory num = .ok client.buffers.cluster ∧
      client.numInflightChunk = 0 ∧ client.requestId = 0 ∧ client.phase = .idle ∧
      client.posted = [] ∧ client.completed = []
  enabled := Enabled
  step := step

/-- The loop runs on while nothing else happens. -/
def iterations : Nat → Client → Except Stop Client
  | 0, client => .ok client
  | n + 1, client => client.iterate >>= iterations n

/-- The loop ends, and its `kassert`s are true. -/
def Finishes (client : Client) (request : UInt32) (buffers : List Nat) : Prop :=
  ∃ n client', iterations n client = .ok client' ∧ client'.phase = .ended request buffers

/-- The chunks that a request of this size has. -/
def chunkCount (bufferSize request : UInt32) : Nat :=
  (request.toNat + bufferSize.toNat - 1) / bufferSize.toNat

namespace Phase

/-- The buffers that the call holds. -/
def buffers : Phase → List Nat
  | .idle => []
  | .sending _ buffers _ _ => buffers
  | .ended _ buffers => buffers

/-- The slots that the call has reserved. -/
def slots : Phase → Nat
  | .idle => 0
  | .sending _ _ bufferIndex _ => bufferIndex
  | .ended _ buffers => buffers.length

end Phase

/-- All chunks that are not back in the pool. -/
def Client.held (client : Client) : List Nat :=
  client.phase.buffers ++ (client.posted ++ client.completed)

variable {bufferSize request sendingRequestSize : UInt32} {client client' : Client}
  {buffers chunks : List Nat} {bufferIndex : Nat}

/-- How far the loop is: the buffers from `bufferIndex` on are ready for what is left. -/
structure Sending (bufferSize request : UInt32) (cluster : Cluster) (buffers : List Nat)
    (bufferIndex : Nat) (sendingRequestSize : UInt32) : Prop where
  nonzero : bufferSize ≠ 0
  count : buffers.length = chunkCount bufferSize request
  index : bufferIndex ≤ buffers.length
  left : sendingRequestSize.toNat = request.toNat - bufferIndex * bufferSize.toNat
  ready : ∀ c ∈ buffers.drop bufferIndex,
    (cluster.chunk c).offset = 0 ∧ (cluster.chunk c).bytes = bufferSize

structure Inv (bufferSize : UInt32) (client : Client) : Prop where
  pool : Stocked bufferSize ⟨client.buffers.cluster, client.held⟩
  slots : client.numInflightChunk.toNat = client.posted.length + client.phase.slots
  limit : client.numInflightChunk.toNat ≤ 128
  sending : ∀ {request buffers bufferIndex sendingRequestSize},
    client.phase = .sending request buffers bufferIndex sendingRequestSize →
    Sending bufferSize request client.buffers.cluster buffers bufferIndex sendingRequestSize

theorem chunkCount_le_iff (hnonzero : bufferSize ≠ 0) {n : Nat} :
    chunkCount bufferSize request ≤ n ↔ request.toNat ≤ n * bufferSize.toNat := by
  have hpos : 0 < bufferSize.toNat :=
    UInt32.lt_iff_toNat_lt.mp (UInt32.pos_iff_ne_zero.mpr hnonzero)
  rw [chunkCount, Nat.div_le_iff_le_mul_add_pred hpos, Nat.mul_comm]
  omega

/-- The loop leaves when it has used every buffer, and not before. -/
theorem Sending.left_eq_zero_iff {cluster : Cluster}
    (h : Sending bufferSize request cluster buffers bufferIndex sendingRequestSize) :
    sendingRequestSize = 0 ↔ bufferIndex = buffers.length := by
  have hindex := h.index
  have hcount := h.count
  rw [← UInt32.toNat_inj, h.left, UInt32.toNat_zero, Nat.sub_eq_zero_iff_le,
    ← chunkCount_le_iff h.nonzero]
  omega

/-- The next buffer is ready, and takes what is left or is filled. -/
theorem Sending.next {b : SendBuffers}
    (h : Sending bufferSize request b.cluster buffers bufferIndex sendingRequestSize)
    (hnodup : buffers.Nodup) (hleft : sendingRequestSize ≠ 0) :
    ∃ c, buffers[bufferIndex]? = some c ∧
      Sending bufferSize request (b.zeroFill c sendingRequestSize).2.cluster buffers
        (bufferIndex + 1) (sendingRequestSize - (b.zeroFill c sendingRequestSize).1) := by
  have hlt : bufferIndex < buffers.length :=
    lt_of_le_of_ne h.index fun hall => hleft (h.left_eq_zero_iff.mpr hall)
  have hdrop := List.drop_eq_getElem_cons hlt
  refine ⟨buffers[bufferIndex], List.getElem?_eq_getElem hlt, h.nonzero, h.count, hlt, ?_, ?_⟩
  · obtain ⟨hoffset, hbytes⟩ := h.ready buffers[bufferIndex] (by rw [hdrop]; exact List.mem_cons_self)
    have hwrite := (zeroFill_fills hoffset sendingRequestSize).1
    rw [hbytes] at hwrite
    have hle : (b.zeroFill buffers[bufferIndex] sendingRequestSize).1 ≤ sendingRequestSize := by
      rw [UInt32.le_iff_toNat_le, hwrite]
      exact Nat.min_le_right _ _
    rw [UInt32.toNat_sub_of_le _ _ hle, hwrite, h.left, Nat.succ_mul]
    omega
  · intro c hc
    have hparts := hdrop ▸ (List.drop_sublist bufferIndex buffers).nodup hnodup
    have hne : c ≠ buffers[bufferIndex] := fun hsame =>
      (List.nodup_cons.mp hparts).1 (hsame ▸ hc)
    have hready := h.ready c (by rw [hdrop]; exact List.mem_cons_of_mem _ hc)
    simpa [SendBuffers.zeroFill, SendBuffers.setChunk, Function.update_of_ne hne] using hready

theorem Sending.congr {cluster cluster' : Cluster}
    (h : Sending bufferSize request cluster buffers bufferIndex sendingRequestSize)
    (hsame : ∀ c ∈ buffers, cluster'.chunk c = cluster.chunk c) :
    Sending bufferSize request cluster' buffers bufferIndex sendingRequestSize := by
  refine ⟨h.nonzero, h.count, h.index, h.left, fun c hc => ?_⟩
  rw [hsame c (List.mem_of_mem_drop hc)]
  exact h.ready c hc

theorem Inv.start {memory : Memory} {num : UInt32}
    (h : (machine memory bufferSize num).start client) : Inv bufferSize client := by
  obtain ⟨hfill, hinflight, -, hphase, hposted, hcompleted⟩ := h
  have hheld : client.held = [] := by
    rw [Client.held, hphase, hposted, hcompleted]
    rfl
  refine ⟨Stocked.start hfill hheld, ?_, ?_, fun hsending => ?_⟩
  · rw [hinflight, hphase, hposted]
    rfl
  · rw [hinflight]
    exact Nat.zero_le _
  · rw [hphase] at hsending
    cases hsending

theorem Inv.sendRequests (h : Inv bufferSize client) (hphase : client.phase = .idle) :
    Ends (client.sendRequests sendingRequestSize) (Inv bufferSize)
      fun stop => ∃ fault, stop = .pool fault := by
  have hpool := h.pool
  have hslots := h.slots
  rw [Client.held, hphase] at hpool
  rw [hphase] at hslots
  unfold Client.sendRequests
  split
  · rename_i fault _
    exact ⟨fault, rfl⟩
  · rename_i num buffers cluster hrun
    obtain ⟨hnonzero, hcount, hready, -, hstocked⟩ := hpool.getBuffers hrun
    refine ⟨hstocked, hslots, h.limit, fun hsending => ?_⟩
    cases hsending
    exact ⟨hnonzero, hcount, Nat.zero_le _, by simp, by simpa using hready⟩

/-- One iteration reserves a slot and fills a buffer, leaves the loop, or waits. -/
theorem Inv.iterate (h : Inv bufferSize client) :
    Ends client.iterate (Inv bufferSize) fun _ => False := by
  have hpool := h.pool
  have hslots := h.slots
  rw [Client.held] at hpool
  unfold Client.iterate
  split
  · rename_i request buffers bufferIndex sendingRequestSize hphase
    have hsending := h.sending hphase
    rw [hphase] at hpool hslots
    have hnodup := (List.nodup_append.mp hpool.nodup).1
    split
    · rename_i hzero
      have hall := hsending.left_eq_zero_iff.mp hzero
      rw [if_pos hall]
      refine ⟨hpool, ?_, h.limit, fun hnext => by cases hnext⟩
      rw [hall] at hslots
      exact hslots
    · rename_i hleft
      split
      · rename_i hfree
        obtain ⟨c, hc, hnext⟩ := hsending.next hnodup hleft
        have hmem : c ∈ buffers := List.mem_of_getElem? hc
        have hlt : client.numInflightChunk.toNat < 128 := UInt64.lt_iff_toNat_lt.mp hfree
        have hone : (client.numInflightChunk + 1).toNat = client.numInflightChunk.toNat + 1 := by
          rw [UInt64.toNat_add]
          exact Nat.mod_eq_of_lt (by simp; omega)
        simp only [hc]
        refine ⟨zeroFill_stocked hpool (List.mem_append_left _ hmem) _, ?_, ?_, fun hsame => ?_⟩
        · show (client.numInflightChunk + 1).toNat = client.posted.length + (bufferIndex + 1)
          rw [hone, hslots]
          exact Nat.add_assoc _ _ _
        · show (client.numInflightChunk + 1).toNat ≤ 128
          omega
        · cases hsame
          exact hnext
      · exact h
  · exact h

theorem Inv.send (h : Inv bufferSize client) :
    Ends client.send (Inv bufferSize) fun stop => stop = .emptyVector := by
  have hpool := h.pool
  have hslots := h.slots
  rw [Client.held] at hpool
  unfold Client.send
  split
  · rename_i request buffers hphase
    rw [hphase] at hpool hslots
    split
    · rfl
    · refine ⟨hpool.post, ?_, h.limit, fun hnext => by cases hnext⟩
      rw [hslots]
      simp [Phase.slots]
  · exact h

theorem Inv.onSendCompletion (h : Inv bufferSize client) {c : Nat} (hc : c ∈ client.posted) :
    Ends (client.onSendCompletion c) (Inv bufferSize) fun _ => False := by
  have hslots := h.slots
  have hpos := List.length_pos_of_mem hc
  have hone : (1 : UInt64) ≤ client.numInflightChunk := by
    rw [UInt64.le_iff_toNat_le]
    show 1 ≤ _
    omega
  have hsub : (client.numInflightChunk - 1).toNat = client.numInflightChunk.toNat - 1 :=
    UInt64.toNat_sub_of_le _ _ hone
  unfold Client.onSendCompletion
  rw [if_pos hone]
  refine ⟨h.pool.complete hc, ?_, ?_, h.sending⟩
  · show (client.numInflightChunk - 1).toNat =
      (client.posted.erase c).length + client.phase.slots
    rw [hsub, List.length_erase_of_mem hc]
    omega
  · show (client.numInflightChunk - 1).toNat ≤ 128
    rw [hsub]
    exact (Nat.sub_le _ _).trans h.limit

theorem Inv.postTxBuffer (h : Inv bufferSize client) (hnodup : chunks.Nodup)
    (hcompleted : ∀ c ∈ chunks, c ∈ client.completed) :
    Inv bufferSize (client.postTxBuffer chunks) := by
  obtain ⟨hbuffers, -⟩ := h.pool.apart hcompleted
  refine ⟨h.pool.giveBack hnodup hcompleted, h.slots, h.limit, fun hphase => ?_⟩
  refine (h.sending hphase).congr fun c hc => ?_
  change client.phase = _ at hphase
  rw [hphase] at hbuffers
  exact (SendPool.takeBack_chunk _ _ _).trans (if_neg (hbuffers c hc))

theorem Inv.step (h : Inv bufferSize client) {op : Op} (henabled : Enabled client op) :
    Ends (step client op) (Inv bufferSize)
      fun stop => (∃ fault, stop = .pool fault) ∨ stop = .emptyVector := by
  cases op with
  | sendRequests sendingRequestSize =>
      exact (h.sendRequests henabled).mono (fun _ hinv => hinv) fun _ hpool => .inl hpool
  | iterate => exact h.iterate.mono (fun _ hinv => hinv) fun _ hfalse => hfalse.elim
  | send => exact h.send.mono (fun _ hinv => hinv) fun _ hempty => .inr hempty
  | completion c =>
      exact (h.onSendCompletion henabled).mono (fun _ hinv => hinv) fun _ hfalse => hfalse.elim
  | postTxBuffer chunks => exact h.postTxBuffer henabled.1 henabled.2

theorem inv_of_reachable {memory : Memory} {num : UInt32}
    (h : (machine memory bufferSize num).Reachable client) : Inv bufferSize client :=
  h.invariant (fun _ hstart => Inv.start hstart)
    fun _ _ _ _ hinv henabled hrun => (hinv.step henabled).value hrun

/-- The loop is at a state where all earlier chunks have completed. -/
structure Alone (bufferSize request : UInt32) (buffers : List Nat) (bufferIndex : Nat)
    (sendingRequestSize : UInt32) (client : Client) : Prop where
  inv : Inv bufferSize client
  phase : client.phase = .sending request buffers bufferIndex sendingRequestSize
  posted : client.posted = []

theorem Alone.slots (h : Alone bufferSize request buffers bufferIndex sendingRequestSize client) :
    client.numInflightChunk.toNat = bufferIndex := by
  have hslots := h.inv.slots
  rwa [h.phase, h.posted, List.length_nil, Nat.zero_add] at hslots

/-- The loop leaves, waits for a slot that none but itself has, or goes on. -/
theorem Alone.iterate
    (h : Alone bufferSize request buffers bufferIndex sendingRequestSize client) :
    ∃ client', client.iterate = .ok client' ∧
      ((bufferIndex = buffers.length ∧ client'.phase = .ended request buffers) ∨
        (bufferIndex = 128 ∧ bufferIndex ≠ buffers.length ∧ client' = client) ∨
        (bufferIndex < 128 ∧ bufferIndex < buffers.length ∧ ∃ sendingRequestSize',
          Alone bufferSize request buffers (bufferIndex + 1) sendingRequestSize' client')) := by
  have hsending := h.inv.sending h.phase
  have hnodup : buffers.Nodup := by
    have hpool := h.inv.pool.nodup
    rw [Client.held, h.phase] at hpool
    exact (List.nodup_append.mp hpool).1
  have hslots := h.slots
  have hlimit := h.inv.limit
  obtain ⟨client', hrun, hinv⟩ := h.inv.iterate.returns
  refine ⟨client', hrun, ?_⟩
  unfold Client.iterate at hrun
  rw [h.phase] at hrun
  dsimp only at hrun
  by_cases hleft : sendingRequestSize = 0
  · have hall := hsending.left_eq_zero_iff.mp hleft
    rw [if_pos hleft, if_pos hall] at hrun
    cases hrun
    exact .inl ⟨hall, rfl⟩
  · have hmore : bufferIndex ≠ buffers.length :=
      fun hall => hleft (hsending.left_eq_zero_iff.mpr hall)
    rw [if_neg hleft] at hrun
    by_cases hfree : client.numInflightChunk < txQueueLen
    · have hlt : client.numInflightChunk.toNat < 128 := UInt64.lt_iff_toNat_lt.mp hfree
      obtain ⟨c, hc, -⟩ := hsending.next hnodup hleft
      rw [if_pos hfree, hc] at hrun
      cases hrun
      exact .inr (.inr ⟨by omega, lt_of_le_of_ne hsending.index hmore, _, hinv, rfl, h.posted⟩)
    · have hge : 128 ≤ client.numInflightChunk.toNat :=
        Nat.not_lt.mp fun hlt => hfree (UInt64.lt_iff_toNat_lt.mpr hlt)
      rw [if_neg hfree] at hrun
      cases hrun
      exact .inr (.inl ⟨by omega, hmore, rfl⟩)

theorem Alone.finishes {left : Nat}
    (h : Alone bufferSize request buffers bufferIndex sendingRequestSize client)
    (hleft : buffers.length = bufferIndex + left) (hcount : buffers.length ≤ 128) :
    Finishes client request buffers := by
  induction left generalizing bufferIndex sendingRequestSize client with
  | zero =>
      obtain ⟨client', hrun, hnext⟩ := h.iterate
      rcases hnext with ⟨-, hphase⟩ | ⟨-, hmore, -⟩ | ⟨-, hlt, -⟩
      · exact ⟨1, client', by simp [iterations, hrun], hphase⟩
      · exact absurd hleft.symm hmore
      · omega
  | succ left ih =>
      obtain ⟨client', hrun, hnext⟩ := h.iterate
      rcases hnext with ⟨hall, -⟩ | ⟨hfull, -, -⟩ | ⟨-, -, sendingRequestSize', halone⟩
      · omega
      · omega
      · obtain ⟨n, client'', hrest, hphase⟩ := ih halone (by omega)
        refine ⟨n + 1, client'', ?_, hphase⟩
        simp only [iterations, hrun]
        exact hrest

/-- With more buffers than slots the loop waits for itself. -/
theorem Alone.not_ended {n : Nat}
    (h : Alone bufferSize request buffers bufferIndex sendingRequestSize client)
    (hcount : 128 < buffers.length) (hrun : iterations n client = .ok client') :
    ∃ bufferIndex' sendingRequestSize',
      Alone bufferSize request buffers bufferIndex' sendingRequestSize' client' := by
  induction n generalizing bufferIndex sendingRequestSize client with
  | zero =>
      cases hrun
      exact ⟨_, _, h⟩
  | succ n ih =>
      obtain ⟨next, hstep, hnext⟩ := h.iterate
      simp only [iterations, hstep] at hrun
      have hslots := h.slots
      have hlimit := h.inv.limit
      rcases hnext with ⟨hall, -⟩ | ⟨-, -, rfl⟩ | ⟨-, -, sendingRequestSize', halone⟩
      · omega
      · exact ih h hrun
      · exact ih halone hrun

theorem Alone.finishes_iff
    (h : Alone bufferSize request buffers bufferIndex sendingRequestSize client) :
    Finishes client request buffers ↔ chunkCount bufferSize request ≤ 128 := by
  have hsending := h.inv.sending h.phase
  rw [← hsending.count]
  constructor
  · rintro ⟨n, client', hrun, hphase⟩
    by_contra hmore
    obtain ⟨_, _, halone⟩ := h.not_ended (Nat.lt_of_not_le hmore) hrun
    rw [halone.phase] at hphase
    cases hphase
  · intro hcount
    exact h.finishes (Nat.add_sub_cancel' hsending.index).symm hcount

/-- In every state of a call whose earlier chunks have all completed, the loop ends after finitely
many iterations with its `kassert`s true if and only if the request has at most `TX_QUEUE_LEN`
chunks. -/
theorem forwarding_finishes_iff (memory : Memory) (bufferSize num : UInt32) (client : Client)
    (h : (machine memory bufferSize num).Reachable client) (request : UInt32)
    (buffers : List Nat) (bufferIndex : Nat) (sendingRequestSize : UInt32)
    (hphase : client.phase = .sending request buffers bufferIndex sendingRequestSize)
    (hposted : client.posted = []) :
    Finishes client request buffers ↔ chunkCount bufferSize request ≤ txQueueLen.toNat :=
  Alone.finishes_iff ⟨inv_of_reachable h, hphase, hposted⟩

theorem forwarding_finishes_two_chunks :
    ∃ client, (machine SendPool.someMemory 4 2).Reachable client ∧ Finishes client 6 [1, 0] := by
  have hstart : (machine SendPool.someMemory 4 2).Reachable
      ⟨⟨_, fun _ => 0⟩, 0, 0, .idle, [], []⟩ := .start ⟨rfl, rfl, rfl, rfl, rfl, rfl⟩
  have hcalled := hstart.next (.sendRequests 6) rfl rfl
  exact ⟨_, hcalled, (forwarding_finishes_iff SendPool.someMemory 4 2 _ hcalled 6 [1, 0] 0 6 rfl
    rfl).mpr (by decide)⟩

/-- A request of 129 chunks, which the pool has. -/
theorem forwarding_waits_for_itself :
    ∃ client buffers, (machine SendPool.someMemory 1 1024).Reachable client ∧
      client.phase = .sending 129 buffers 0 129 ∧ client.posted = [] ∧
      ¬ Finishes client 129 buffers := by
  obtain ⟨cluster, hfill, -, -, hfree, -⟩ := Cluster.fillLoop_spec 1024 4096 1024 0 0
    { Cluster.new 1 with numChunk := 1024, base := some 4096, endAddr := 4096 + 1024 }
    (by decide) (by decide) (by decide)
  have hfilled : (Cluster.new 1).fill SendPool.someMemory 1024 = .ok cluster := by
    have hbytes : (Cluster.new 1).bufferSize * 1024 = 1024 := by decide
    have hnum : (1024 : UInt32).toNat = 1024 := by decide
    simp only [Cluster.fill, hbytes, hnum, SendPool.someMemory]
    rw [if_neg (by decide), if_pos (by decide)]
    exact hfill
  have hstart : (machine SendPool.someMemory 1 1024).Reachable
      ⟨⟨cluster, fun _ => 0⟩, 0, 0, .idle, [], []⟩ := .start ⟨hfilled, rfl, rfl, rfl, rfl, rfl⟩
  obtain ⟨made, -, huniform⟩ : ∃ made ≤ 1024, SendPool.Uniform 1 made ⟨cluster, []⟩ :=
    SendPool.Uniform.start (by decide) hfilled rfl
  have hroom : (129 : UInt32).toNat ≤ cluster.freeChunks.length * (1 : UInt32).toNat := by
    rw [hfree]
    simp [Cluster.new]
  obtain ⟨buffers, after, -, -, hrun, -⟩ := getBuffers_fillRequest huniform
    (s := 129) (by decide) hroom fun _ => 0
  have hcalled : (machine SendPool.someMemory 1 1024).Reachable
      ⟨⟨after, fun _ => 0⟩, 0, 0, .sending 129 buffers 0 129, [], []⟩ := by
    refine hstart.next (.sendRequests 129) rfl ?_
    show Client.sendRequests _ _ = _
    unfold Client.sendRequests
    dsimp only
    rw [hrun]
  refine ⟨_, buffers, hcalled, rfl, rfl, fun hfinishes => ?_⟩
  have halone : Alone 1 129 buffers 0 129
      ⟨⟨after, fun _ => 0⟩, 0, 0, .sending 129 buffers 0 129, [], []⟩ :=
    ⟨inv_of_reachable hcalled, rfl, rfl⟩
  exact absurd (halone.finishes_iff.mp hfinishes) (by decide)

end RdmaCapsule.Clients.ChainReplication
