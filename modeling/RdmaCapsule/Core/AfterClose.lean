import RdmaCapsule.Core.TwoParty

/-! A connection after its end. `close`, `shutdown`, `fault` and a message of no
bytes set `error`, and nothing takes it back. `submit` and the `send` of buffers
look at it; the `send` of chunks looks at `connected`, which the same operations
leave or make true. -/
namespace RdmaCapsule.Core

open RdmaCapsule.Foundation

def SendWr.isFin : SendWr → Bool
  | .chunk _ => false
  | .fin _ => true

namespace Endpoint

variable {tx : Cluster} {answers : Answers} {ep ep' ep'' : Endpoint}

inductive Use where
  | call (call : Call) (answers : Answers)
  | read (closed : Bool) (answers : Answers)

def use (tx : Cluster) (ep : Endpoint) : Use → Except Fault Endpoint
  | .call call answers => do
      let (ep, _) ← ep.call tx answers call
      pure ep
  | .read closed answers => ep.read tx answers closed

/-- One connection, used in any order. -/
def machine (tx : Cluster) : Machine Endpoint Use Fault where
  start := Initial
  enabled _ _ := True
  step := use tx

/-- Chunks are given to `send` only while it may post them, or before it would. -/
def Mindful (ep : Endpoint) : Use → Prop
  | .call (.sendChunks _) _ => ep.error = 0 ∨ ep.connected = false
  | _ => True

/-- Data is posted, and none after an error. -/
structure SendsData (ep ep' : Endpoint) : Prop where
  error : ep'.error = ep.error
  posted : ∃ data, ep'.posted = ep.posted ++ data ∧ (∀ wr ∈ data, wr.isFin = false) ∧
    (ep.error ≠ 0 → data = [])

/-- What a step may add to the sends: data, and at the end of the connection its
last message. -/
structure Advances (ep ep' : Endpoint) : Prop where
  error : ep.error ≠ 0 → ep'.error ≠ 0
  posted : ∃ data fins, ep'.posted = ep.posted ++ (data ++ fins) ∧
    (∀ wr ∈ data, wr.isFin = false) ∧ (ep.error ≠ 0 → data = [] ∧ fins = []) ∧
    (fins = [] ∨ fins.length = 1 ∧ ep.error = 0 ∧ ep'.error ≠ 0)

theorem SendsData.same (herror : ep'.error = ep.error) (hposted : ep'.posted = ep.posted) :
    SendsData ep ep' := by
  refine ⟨herror, [], ?_, ?_, fun _ => rfl⟩
  · simp [hposted]
  · simp

theorem SendsData.trans (h : SendsData ep ep') (h' : SendsData ep' ep'') :
    SendsData ep ep'' := by
  obtain ⟨data, hposted, hdata, hnone⟩ := h.posted
  obtain ⟨data', hposted', hdata', hnone'⟩ := h'.posted
  refine ⟨h'.error.trans h.error, data ++ data', ?_, ?_, ?_⟩
  · rw [hposted', hposted, List.append_assoc]
  · intro wr hwr
    exact (List.mem_append.mp hwr).elim (hdata wr) (hdata' wr)
  · intro herror
    rw [hnone herror, hnone' (h.error ▸ herror)]
    rfl

/-- Other fields have changed before. -/
theorem SendsData.after (h : SendsData ep' ep'') (herror : ep'.error = ep.error)
    (hposted : ep'.posted = ep.posted) : SendsData ep ep'' :=
  (SendsData.same herror hposted).trans h

theorem SendsData.advances (h : SendsData ep ep') : Advances ep ep' := by
  obtain ⟨data, hposted, hdata, hnone⟩ := h.posted
  refine ⟨fun herror => h.error ▸ herror, data, [], ?_, hdata, ?_, .inl rfl⟩
  · rw [List.append_nil, hposted]
  · intro herror
    exact ⟨hnone herror, rfl⟩

theorem Advances.of_error (herror : ep.error ≠ 0 → ep'.error ≠ 0)
    (hposted : ep'.posted = ep.posted) : Advances ep ep' := by
  refine ⟨herror, [], [], ?_, ?_, fun _ => ⟨rfl, rfl⟩, .inl rfl⟩
  · simp [hposted]
  · simp

theorem Advances.fault (h : SendsData ep ep') : Advances ep ep'.fault := by
  obtain ⟨data, hposted, hdata, hnone⟩ := h.posted
  have hset : ep'.fault.error ≠ 0 := by simp [Endpoint.fault, econnreset]
  refine ⟨fun _ => hset, data, [], ?_, hdata, ?_, .inl rfl⟩
  · rw [List.append_nil]
    exact hposted
  · intro herror
    exact ⟨hnone herror, rfl⟩

theorem ibvPostSend_posted (answer : Option (Nat × Nat)) (requests : List SendWr)
    (ep : Endpoint) : (ep.ibvPostSend answer requests).2.error = ep.error ∧
      ∃ n, (ep.ibvPostSend answer requests).2.posted = ep.posted ++ requests.take n := by
  unfold ibvPostSend
  split
  · exact ⟨rfl, requests.length, by simp⟩
  · exact ⟨rfl, _, rfl⟩

theorem postWorkRequest_data (herror : ep.error = 0) (answers : Answers) (txBuffers : List Nat) :
    Ends (ep.postWorkRequest answers txBuffers) (fun result => SendsData ep result.2)
      fun _ => True := by
  unfold postWorkRequest
  split
  · trivial
  · obtain ⟨hkept, n, hposted⟩ :=
      ibvPostSend_posted answers.post (txBuffers.map SendWr.chunk) ep
    refine ⟨hkept, _, hposted, ?_, fun hne => absurd herror hne⟩
    intro wr hwr
    obtain ⟨c, _, rfl⟩ := List.mem_map.mp (List.mem_of_mem_take hwr)
    rfl

theorem submit_data (tx : Cluster) (answers : Answers) (ep : Endpoint) :
    Ends (ep.submit tx answers) (fun result => SendsData ep result.2) fun _ => True := by
  unfold submit
  split
  · exact .same rfl rfl
  · rename_i herror
    have herror : ep.error = 0 := by simpa using herror
    split
    · exact .same rfl rfl
    · have hchunks : Ends (ep.pendingBl.bufferList.mapM (txChunk tx)) (fun _ => True)
          fun _ => True := ends_iff_forall.mpr fun _ _ => trivial
      refine hchunks.bind fun txBuffers _ => ?_
      refine (postWorkRequest_data herror answers txBuffers).bind fun result hdata => ?_
      dsimp only
      split
      · exact hdata.trans (.same rfl rfl)
      · exact hdata.trans (.same rfl rfl)

theorem activate_data (tx : Cluster) (answers : Answers) (ep : Endpoint) :
    Ends (ep.activate tx answers) (fun result => SendsData ep result.2) fun _ => True := by
  unfold activate
  dsimp only
  split
  · exact .same rfl rfl
  · split
    · exact .same rfl rfl
    · split
      · refine (submit_data tx answers _).bind fun result hdata => ?_
        have hsent : SendsData ep result.2 := hdata.after rfl rfl
        exact hsent.trans (.same rfl rfl)
      · exact .same rfl rfl

theorem mustActivate_data (tx : Cluster) (answers : Answers) (ep : Endpoint) :
    Ends (ep.mustActivate tx answers) (SendsData ep) fun _ => True := by
  unfold mustActivate
  refine (activate_data tx answers ep).bind fun result hdata => ?_
  dsimp only
  split
  · exact hdata
  · trivial

theorem SendsData.sendOrFault (h : SendsData ep ep') (answers : Answers) :
    Advances ep (ep'.sendOrFault answers).1 := by
  unfold Endpoint.sendOrFault
  split
  · exact .fault h
  · exact h.advances

theorem handleConnection_advances (tx : Cluster) (answers : Answers) (recv : Recv)
    (ep : Endpoint) :
    Ends (ep.handleConnection tx answers recv) (fun result => Advances ep result.1)
      fun _ => True := by
  have hself : SendsData ep ep := .same rfl rfl
  unfold handleConnection
  cases recv with
  | error errno =>
      dsimp only
      split
      · exact hself.advances
      · exact Advances.fault hself
  | disconnected => exact Advances.fault hself
  | badLength => exact Advances.fault hself
  | message msg =>
      have htold : SendsData ep { ep with peerCmMeta := msg.cm } := .same rfl rfl
      dsimp only
      split
      · exact Advances.fault htold
      · split
        · refine (mustActivate_data tx answers _).bind fun ep' hdata => ?_
          exact (htold.trans hdata).sendOrFault answers
        · split
          · split
            · exact htold.advances
            · refine (mustActivate_data tx answers _).bind fun ep' hdata => ?_
              exact (htold.trans hdata).sendOrFault answers
          · refine (submit_data tx answers _).bind fun result hdata => ?_
            have hsent : SendsData ep result.2 := hdata.after rfl rfl
            exact hsent.advances

theorem handleConnectionEstablished_advances (needSetFault : Bool) (answers : Answers)
    (ep : Endpoint) : Advances ep (ep.handleConnectionEstablished needSetFault answers).1 := by
  have hself : SendsData ep ep := .same rfl rfl
  have htold : SendsData ep { ep with localCmMeta.peerQpn := 0 } := .same rfl rfl
  unfold handleConnectionEstablished
  split
  · split
    · exact Advances.fault hself
    · exact hself.advances
  · dsimp only
    split
    · split
      · exact Advances.fault htold
      · exact htold.advances
    · exact htold.advances

theorem send_data (tx : Cluster) (answers : Answers) (bl : BufferList) (ep : Endpoint) :
    Ends (ep.send tx answers bl) (fun result => SendsData ep result.2) fun _ => True := by
  unfold send
  split
  · exact .same rfl rfl
  · split
    · exact .same rfl rfl
    · dsimp only
      split
      · exact .same rfl rfl
      · refine (submit_data tx answers _).bind fun result hdata => ?_
        split
        · exact hdata.after rfl rfl
        · exact hdata.after rfl rfl

theorem sendChunks_data (hmindful : ep.error = 0 ∨ ep.connected = false) (answers : Answers)
    (chunks : List Nat) :
    Ends (ep.sendChunks answers chunks) (fun result => SendsData ep result.2)
      fun _ => True := by
  unfold sendChunks
  split
  · exact .same rfl rfl
  · rename_i hconnected
    have herror : ep.error = 0 := hmindful.resolve_right (by simpa using hconnected)
    exact (postWorkRequest_data herror answers chunks).bind fun result hdata => hdata

/-- The last message is sent by a connection without an error, and leaves one. -/
theorem close_advances (answers : Answers) (ep : Endpoint) : Advances ep (ep.close answers) := by
  unfold close
  dsimp only
  split
  · rename_i herror
    obtain ⟨_, n, hposted⟩ :=
      ibvPostSend_posted answers.post [.fin ep.localCmMeta.localQpn.toNat] ep
    refine ⟨fun hne => absurd herror hne, [], _, hposted, by simp, fun hne => absurd herror hne, ?_⟩
    cases n with
    | zero => exact .inl rfl
    | succ n => exact .inr ⟨by simp, herror, by simp [econnreset]⟩
  · exact .of_error (fun _ => by simp [econnreset]) rfl

theorem read_advances (tx : Cluster) (answers : Answers) (closed : Bool) (ep : Endpoint) :
    Ends (ep.read tx answers closed) (Advances ep) fun _ => True := by
  have hclosed : Advances ep (if closed then ep.gotRemoteClose else ep) := by
    unfold gotRemoteClose
    split
    · split
      · exact .of_error (fun _ => by simp [econnreset]) rfl
      · exact .of_error id rfl
    · exact .of_error id rfl
  have hposted : (if closed then ep.gotRemoteClose else ep).posted = ep.posted := by
    unfold gotRemoteClose
    split
    · split <;> rfl
    · rfl
  unfold read
  split
  · generalize (if closed then ep.gotRemoteClose else ep) = ep₁ at hclosed hposted
    unfold afterRead
    split
    · refine (submit_data tx answers _).bind fun result hdata => ?_
      obtain ⟨data, hposted', hdata', hnone⟩ := hdata.posted
      refine ⟨fun herror => ?_, data, [], ?_, hdata', fun herror => ?_, .inl rfl⟩
      · rw [hdata.error]
        exact hclosed.error herror
      · rw [List.append_nil, hposted']
        exact congrArg (· ++ data) hposted
      · exact ⟨hnone (hclosed.error herror), rfl⟩
    · exact hclosed
  · exact .of_error id rfl

theorem call_advances (tx : Cluster) {call : Call} (hmindful : ep.Mindful (.call call answers)) :
    Ends (ep.call tx answers call) (fun result => Advances ep result.1) fun _ => True := by
  cases call with
  | handleConnectionEstablished needSetFault =>
      exact handleConnectionEstablished_advances needSetFault answers ep
  | handleConnection recv => exact handleConnection_advances tx answers recv ep
  | sendChunks chunks =>
      exact (sendChunks_data hmindful answers chunks).bind fun _ hdata => hdata.advances
  | send bl => exact (send_data tx answers bl ep).bind fun _ hdata => hdata.advances
  | submit => exact (submit_data tx answers ep).bind fun _ hdata => hdata.advances
  | close => exact close_advances answers ep
  | fault => exact .of_error (fun _ => by simp [Endpoint.fault, econnreset]) rfl

theorem use_advances (tx : Cluster) {use : Use} (hmindful : ep.Mindful use) :
    Ends (ep.use tx use) (Advances ep) fun _ => True := by
  cases use with
  | call call answers => exact (call_advances tx hmindful).bind fun _ hstep => hstep
  | read closed answers => exact read_advances tx answers closed ep

def finsPosted (ep : Endpoint) : Nat := ep.posted.countP SendWr.isFin

/-- The last message is posted once, and only when there is an error. -/
structure FinOnce (ep : Endpoint) : Prop where
  none : ep.error = 0 → ep.finsPosted = 0
  once : ep.finsPosted ≤ 1

theorem FinOnce.start (h : ep.Initial) : ep.FinOnce := by
  have hzero : ep.finsPosted = 0 := by simp [finsPosted, h.posted]
  exact ⟨fun _ => hzero, by omega⟩

theorem FinOnce.step (h : ep.FinOnce) (hstep : Advances ep ep') : ep'.FinOnce := by
  obtain ⟨data, fins, hposted, hdata, hnone, hfins⟩ := hstep.posted
  have hcount : ep'.finsPosted = ep.finsPosted + fins.countP SendWr.isFin := by
    have hzero : data.countP SendWr.isFin = 0 := by
      rw [List.countP_eq_zero]
      intro wr hwr
      simp [hdata wr hwr]
    unfold finsPosted
    rw [hposted, List.countP_append, List.countP_append, hzero]
    omega
  rcases hfins with rfl | ⟨hlength, herror, hended⟩
  · have hsame : ep'.finsPosted = ep.finsPosted := by simpa using hcount
    constructor
    · intro hzero
      rw [hsame]
      apply h.none
      by_contra hne
      exact hstep.error hne hzero
    · rw [hsame]
      exact h.once
  · have hle : fins.countP SendWr.isFin ≤ fins.length := List.countP_le_length
    have hbefore := h.none herror
    constructor
    · intro hzero
      exact absurd hzero hended
    · omega

/-- The runs in which chunks are given to `send` with care. -/
abbrev mindful (tx : Cluster) : Machine Endpoint Use Fault := (machine tx).restrict Mindful

theorem finOnce_of_reachable (h : (mindful tx).Reachable ep) : ep.FinOnce := by
  apply h.invariant
  · intro first hfirst
    exact .start hfirst
  · intro before use after _ hbefore henabled hrun
    exact hbefore.step ((use_advances tx henabled.2).value hrun)

/-- After an error no run posts anything. -/
theorem posted_of_error (herror : ep.error ≠ 0)
    (hrun : Relation.ReflTransGen (mindful tx).Next ep ep') :
    ep'.error ≠ 0 ∧ ep'.posted = ep.posted := by
  induction hrun with
  | refl => exact ⟨herror, rfl⟩
  | tail _ hnext ih =>
      obtain ⟨use, henabled, hstep⟩ := hnext
      have hadvances := (use_advances tx henabled.2).value hstep
      obtain ⟨data, fins, hposted, _, hnone, _⟩ := hadvances.posted
      obtain ⟨rfl, rfl⟩ := hnone ih.1
      refine ⟨hadvances.error ih.1, ?_⟩
      rw [hposted, ih.2]
      simp

theorem send_of_error (herror : ep.error ≠ 0) (tx : Cluster) (answers : Answers)
    (bl : BufferList) : ∃ r, ep.send tx answers bl = .ok (r, ep) ∧ r < 0 := by
  refine ⟨_, if_pos herror, ?_⟩
  split
  · simp [epipe]
  · omega

/-- In every run in which chunks are given to `send` only without an error or
before the connection is there, the last message is posted at most once, and
after an error nothing more is posted and each `send` returns a negative value. -/
theorem nothing_sent_after_error (tx : Cluster) (ep : Endpoint)
    (h : (mindful tx).Reachable ep) :
    ep.finsPosted ≤ 1 ∧
    (ep.error ≠ 0 → ∀ ep', Relation.ReflTransGen (mindful tx).Next ep ep' →
      ep'.posted = ep.posted ∧
      (∀ answers bl, ∃ r, ep'.send tx answers bl = .ok (r, ep') ∧ r < 0) ∧
      (∀ answers chunks, ep'.Mindful (.call (.sendChunks chunks) answers) →
        ∃ r, ep'.sendChunks answers chunks = .ok (r, ep') ∧ r < 0)) := by
  refine ⟨(finOnce_of_reachable h).once, ?_⟩
  intro herror ep' hrun
  obtain ⟨herror', hposted⟩ := posted_of_error herror hrun
  refine ⟨hposted, fun answers bl => send_of_error herror' tx answers bl, ?_⟩
  intro answers chunks hmindful
  have hconnected : ep'.connected = false := hmindful.resolve_left herror'
  refine ⟨-1, ?_, by omega⟩
  unfold sendChunks
  rw [if_pos (by simp [hconnected])]

/-- The client before its handshake. -/
def newClient : Endpoint := TwoParty.newEndpoint false

theorem newClient_initial : newClient.Initial := ⟨rfl, rfl, rfl, rfl, rfl, rfl⟩

/-- The answer of queue pair 34. -/
def serverAnswer : Recv := .message ⟨⟨0, 34, 5, 17, Vector.replicate 16 0⟩, ⟨0, 0, 0, 0⟩⟩

theorem nothing_sent_after_error_of_closed_client :
    ∃ ep, (mindful (.new 0)).Reachable ep ∧ ep.connected = true ∧ ep.error ≠ 0 ∧
      ep.finsPosted = 1 ∧ ep.finsPosted ≤ 1 ∧
      ∀ answers bl, ∃ r, ep.send (.new 0) answers bl = .ok (r, ep) ∧ r < 0 := by
  have hnew : (mindful (.new 0)).Reachable newClient := .start newClient_initial
  have hconnected := hnew.next (.call (.handleConnection serverAnswer) .good) ⟨trivial, trivial⟩ rfl
  have hclosed := hconnected.next (.call .close .good) ⟨trivial, trivial⟩ rfl
  obtain ⟨honce, hafter⟩ := nothing_sent_after_error (.new 0) _ hclosed
  exact ⟨_, hclosed, rfl, by decide, by decide, honce, (hafter (by decide) _ .refl).2.1⟩

/-- A closed connection posts chunk 0 behind its last message and reports success. -/
theorem chunk_posted_after_close :
    ∃ ep ep', (machine (.new 0)).Reachable ep ∧ ep.error ≠ 0 ∧
      ep.posted = [.fin 17] ∧ ep.sendChunks .good [0] = .ok (0, ep') ∧
      ep'.posted = [.fin 17, .chunk 0] := by
  have hnew : (machine (.new 0)).Reachable newClient := .start newClient_initial
  have hconnected := hnew.next (.call (.handleConnection serverAnswer) .good) trivial rfl
  have hclosed := hconnected.next (.call .close .good) trivial rfl
  exact ⟨_, _, hclosed, by decide, rfl, rfl, rfl⟩

end Endpoint

end RdmaCapsule.Core
