import RdmaCapsule.Core.AfterClose
import RdmaCapsule.Core.RemoteClose

/-! Data from one process to another. Verbs joins the queue pairs of two connections: what is
posted at one end is passed at the other, each message once and in order, whenever a receive is
posted there. Both processes go on with whatever else they do. A chunk is as long as it is filled
when it is posted; the message that closes a connection has no bytes. -/
namespace RdmaCapsule.Core

open RdmaCapsule.Foundation Segments

structure Transfer where
  sender : World
  receiver : World
  /-- The lengths of the messages on their way, oldest first. -/
  wire : List UInt32
  /-- Those of all messages that verbs has accepted from the one connection. -/
  sent : List UInt32
  /-- Those of all messages that the other one was passed. -/
  passed : List UInt32
  /-- The bytes that `read` has returned there. -/
  returned : Nat

namespace Transfer

inductive Op where
  | sender (op : Core.Op)
  /-- `get_send_buffers_by_num` and `get_send_buffers_by_size`. -/
  | getChunks (num : Nat)
  | getBuffers (bytes : UInt64)
  | zeroFill (c : Nat) (len : UInt32)
  | receiver (op : Core.Op)

/-- `sge.length` of a work request. -/
def length (tx : Cluster) : SendWr → UInt32
  | .chunk index => (tx.chunk index).getOffset
  | .fin _ => 0

/-- The lengths of what a step has posted for connection `k`. -/
def postedBy (k : Nat) (w w' : World) : List UInt32 :=
  match w.socks k, w'.socks k with
  | some s, some s' => (s'.ep.posted.drop s.ep.posted.length).map (length w.tx)
  | _, _ => []

/-- The lengths of the messages that a step passes to the connection of `q`. -/
def lengths (q : Nat) (op : Core.Op) : List UInt32 := (World.passedBy q op).map (·.byteLen)

def setTx (st : Transfer) (tx : Cluster) : Transfer :=
  { st with sender := { st.sender with tx } }

/-- The sender is connection `k` of its process, the receiver connection `k'` with queue pair
`q'` of its own. -/
def step (config config' : Config) (k k' q' : Nat) (st : Transfer) : Op → Except Fault Transfer
  | .sender op => do
      let w ← st.sender.step config op
      let new := postedBy k st.sender w
      pure { st with sender := w, wire := st.wire ++ new, sent := st.sent ++ new }
  | .getChunks num => do
      let (_, _, tx) ← st.sender.tx.getChunks [] num
      pure (st.setTx tx)
  | .getBuffers bytes => do
      let (_, _, tx) ← st.sender.tx.getBuffers [] bytes
      pure (st.setTx tx)
  | .zeroFill c len =>
      let tx := st.sender.tx
      pure (st.setTx { tx with chunk := Function.update tx.chunk c ((tx.chunk c).zeroFill len).2 })
  | .receiver op => do
      let w ← st.receiver.step config' op
      let new := lengths q' op
      pure { st with
        receiver := w
        wire := st.wire.drop new.length
        passed := st.passed ++ new
        returned := st.returned + Stream.returnedBy config' k' st.receiver op }

/-- A connection is kept, and `read` wants something. -/
def Keeps (k : Nat) : Core.Op → Prop
  | .read k' len _ => k' = k → 0 < len.toNat
  | .drain k' => k' ≠ k
  | .destroy k' _ => k' ≠ k
  | _ => True

/-- Verbs passes the oldest messages that are on their way. -/
def Enabled (k k' q' : Nat) (st : Transfer) : Op → Prop
  | .sender op => st.sender.Enabled op ∧ Keeps k op
  | .receiver op => st.receiver.Enabled op ∧ Keeps k' op ∧ lengths q' op <+: st.wire
  | _ => True

def Start (config config' : Config) (k q k' q' : Nat) (st : Transfer) : Prop :=
  (World.machine config).Reachable st.sender ∧ st.sender.Unused k q ∧
    (∀ s, st.sender.socks k = some s → s.ep.posted = []) ∧
    (World.machine config').Reachable st.receiver ∧ st.receiver.Unused k' q' ∧
    st.wire = [] ∧ st.sent = [] ∧ st.passed = [] ∧ st.returned = 0

def machine (config config' : Config) (k q k' q' : Nat) : Machine Transfer Op Fault where
  start := Start config config' k q k' q'
  enabled := Enabled k k' q'
  step := step config config' k k' q'

def bytes (lengths : List UInt32) : Nat := (lengths.map (·.toNat)).sum

structure Sound (k q k' q' : Nat) (st : Transfer) : Prop where
  heldSender : st.sender.Held (st.sender.out World.noPolled)
  heldReceiver : st.receiver.Held (st.receiver.out World.noPolled)
  sender : ∃ s, st.sender.Reads k q s ∧ s.ep.posted.length = st.sent.length
  receiver : ∃ s, st.receiver.Reads k' q' s
  inOrder : st.sent = st.passed ++ st.wire
  counted : st.returned + total (st.receiver.unread k') = bytes st.passed

end Transfer

namespace Endpoint

variable {tx : Cluster} {answers : Answers} {ep ep' ep'' : Endpoint}

theorem SendsData.grows (h : SendsData ep ep') : ep.posted <+: ep'.posted := by
  obtain ⟨data, hposted, -⟩ := h.posted
  exact ⟨data, hposted.symm⟩

theorem Advances.grows (h : Advances ep ep') : ep.posted <+: ep'.posted := by
  obtain ⟨data, fins, hposted, -⟩ := h.posted
  exact ⟨data ++ fins, hposted.symm⟩

theorem sendChunks_grows (answers : Answers) (chunks : List Nat) (ep : Endpoint) :
    Ends (ep.sendChunks answers chunks) (fun result => ep.posted <+: result.2.posted)
      fun _ => True := by
  unfold sendChunks
  split
  · exact List.prefix_rfl
  · unfold postWorkRequest
    split
    · trivial
    · obtain ⟨-, n, hposted⟩ := ibvPostSend_posted answers.post (chunks.map SendWr.chunk) ep
      exact ⟨_, hposted.symm⟩

/-- No call takes back what was posted. -/
theorem call_grows (tx : Cluster) (answers : Answers) (call : Call) (ep : Endpoint) :
    Ends (ep.call tx answers call) (fun result => ep.posted <+: result.1.posted)
      fun _ => True := by
  by_cases hmindful : ep.Mindful (.call call answers)
  · exact (call_advances tx hmindful).mono (fun _ hadvances => hadvances.grows) fun _ => id
  · cases call with
    | sendChunks chunks => exact (sendChunks_grows answers chunks ep).bind fun _ hgrows => hgrows
    | _ => exact absurd trivial hmindful

theorem gotRemoteClose_posted (ep : Endpoint) : ep.gotRemoteClose.posted = ep.posted := by
  unfold gotRemoteClose
  split
  · rfl
  · rfl

theorem afterRead_grows (tx : Cluster) (answers : Answers) (ep : Endpoint) :
    Ends (ep.afterRead tx answers) (fun ep' => ep.posted <+: ep'.posted) fun _ => True := by
  unfold afterRead
  split
  · refine (submit_data tx answers _).bind fun result hdata => ?_
    have hsent : SendsData ep result.2 := hdata.after rfl rfl
    exact hsent.grows
  · exact List.prefix_rfl

end Endpoint

namespace Transfer

variable {config config' : Config} {k q k' q' : Nat} {st st' : Transfer} {op : Core.Op}
  {w : World} {s : Socket}

theorem lookedAt_posted (s : Socket) (taken : List RxWc) :
    (World.lookedAt s taken).ep.posted = s.ep.posted := by
  unfold World.lookedAt
  dsimp only
  split
  · exact s.ep.gotRemoteClose_posted
  · rfl

theorem bytes_append (lengths lengths' : List UInt32) :
    bytes (lengths ++ lengths') = bytes lengths + bytes lengths' := by
  simp [bytes]

/-- Messages of no bytes count for nothing. -/
theorem total_arrived (wc : List RxWc) :
    total (arrived wc) = bytes (wc.map (·.byteLen)) := by
  induction wc with
  | nil => rfl
  | cons response rest ih =>
      have hcons : arrived (response :: rest) = arrived [response] ++ arrived rest := by
        simp [arrived, List.filter_cons]
        split <;> rfl
      have hone : total (arrived [response]) = response.byteLen.toNat := by
        by_cases hempty : response.byteLen = 0
        · simp [arrived, hempty]
        · simp [arrived, hempty]
      rw [hcons, total_append, ih, hone]
      simp [bytes]

/-- Whatever a process does that keeps a connection, the connection can be read afterwards, what
was posted for it is still posted, and what it has been passed is returned or still unread. -/
theorem keeps_step {w' : World} (h : w.Reads k q s) (hheld : w.Held (w.out World.noPolled))
    (henabled : w.Enabled op) (hkeeps : Keeps k op) (hrun : w.step config op = .ok w') :
    ∃ s', w'.Reads k q s' ∧ s.ep.posted <+: s'.ep.posted ∧
      Stream.returnedBy config k w op + total (w'.unread k) =
        total (w.unread k) + bytes (lengths q op) := by
  have hpassed {s' : Socket} {more : List RxWc} (hpasses : World.Passes k q w s more w' s') :
      total (w'.unread k) = total (w.unread k) + bytes (more.map (·.byteLen)) := by
    rw [hpasses.unread, total_append, total_arrived]
  by_cases hread : ∃ len answers, op = .read k len answers
  · obtain ⟨len, answers, rfl⟩ := hread
    obtain ⟨⟨r, w₁⟩, hread, hw'⟩ := bind_eq_ok hrun
    cases hw'
    have hreturned : Stream.returnedBy config k w (.read k len answers) = r.toNat := by
      simp [Stream.returnedBy, hread]
    have hnone : bytes (lengths q (.read k len answers)) = 0 := rfl
    rw [hreturned, hnone]
    cases hbuffers : s.ep.readsBuffers with
    | true =>
        obtain ⟨tx, s', hafter, htook, hr⟩ :=
          (World.read_reads hheld h hbuffers config answers (hkeeps rfl)).value hread
        dsimp only at htook hr ⊢
        refine ⟨s', htook.reads h, ?_, ?_⟩
        · have hgrows := (Endpoint.afterRead_grows tx answers _).value hafter
          rwa [lookedAt_posted] at hgrows
        · rw [htook.unread, total_left, hr, World.readResult_toNat]
          omega
    | false =>
        obtain ⟨rfl, rfl⟩ := World.read_early h.sock hbuffers hread
        exact ⟨s, h, List.prefix_rfl, Nat.zero_add _⟩
  · rw [Stream.returnedBy_other (fun len answers heq => hread ⟨len, answers, heq⟩) w,
      Nat.zero_add]
    rcases h.step_cases hheld henabled hrun with ⟨s', hep, hpasses⟩ |
      ⟨call, answers, result, s', rfl, hcall, hep, hpasses⟩ | hread' | rfl | ⟨switched, rfl⟩
    · exact ⟨s', hpasses.reads, by rw [hep], hpassed hpasses⟩
    · refine ⟨s', hpasses.reads, ?_, hpassed hpasses⟩
      rw [hep]
      exact (s.ep.call_grows w.tx answers call).value hcall
    · exact absurd hread' hread
    · exact absurd rfl hkeeps
    · exact absurd rfl hkeeps

theorem Sound.start (h : Start config config' k q k' q' st) : st.Sound k q k' q' := by
  obtain ⟨hsender, hunused, hposted, hreceiver, hunused', hwire, hsent, hpassed, hreturned⟩ := h
  obtain ⟨s, hreads, -, -⟩ := hunused.reads
  obtain ⟨s', hreads', -, hunread⟩ := hunused'.reads
  refine ⟨World.held_of_reachable hsender, World.held_of_reachable hreceiver,
    ⟨s, hreads, ?_⟩, ⟨s', hreads'⟩, ?_, ?_⟩
  · rw [hposted s hreads.sock, hsent]
    rfl
  · rw [hsent, hpassed, hwire]
    rfl
  · rw [hreturned, hunread, hpassed]
    rfl

theorem Sound.sends (h : st.Sound k q k' q') (henabled : st.sender.Enabled op)
    (hkeeps : Keeps k op) (hrun : st.sender.step config op = .ok w) :
    Sound k q k' q' { st with
      sender := w
      wire := st.wire ++ postedBy k st.sender w
      sent := st.sent ++ postedBy k st.sender w } := by
  obtain ⟨s, hreads, hlength⟩ := h.sender
  obtain ⟨s', hreads', ⟨new, hnew⟩, -⟩ := keeps_step hreads h.heldSender henabled hkeeps hrun
  have hposted : postedBy k st.sender w = new.map (length st.sender.tx) := by
    unfold postedBy
    rw [hreads.sock, hreads'.sock]
    dsimp only
    rw [← hnew, List.drop_left]
  refine ⟨(h.heldSender.step config op henabled).value hrun, h.heldReceiver, ⟨s', hreads', ?_⟩,
    h.receiver, ?_, h.counted⟩
  · rw [← hnew, hposted]
    simp [hlength]
  · rw [h.inOrder, List.append_assoc]

theorem Sound.receives (h : st.Sound k q k' q') (henabled : st.receiver.Enabled op)
    (hkeeps : Keeps k' op) (hoffered : lengths q' op <+: st.wire)
    (hrun : st.receiver.step config' op = .ok w) :
    Sound k q k' q' { st with
      receiver := w
      wire := st.wire.drop (lengths q' op).length
      passed := st.passed ++ lengths q' op
      returned := st.returned + Stream.returnedBy config' k' st.receiver op } := by
  obtain ⟨s, hreads⟩ := h.receiver
  obtain ⟨s', hreads', -, hcount⟩ := keeps_step hreads h.heldReceiver henabled hkeeps hrun
  obtain ⟨rest, hrest⟩ := hoffered
  refine ⟨h.heldSender, (h.heldReceiver.step config' op henabled).value hrun, h.sender,
    ⟨s', hreads'⟩, ?_, ?_⟩
  · dsimp only
    rw [h.inOrder, ← hrest, List.drop_left, List.append_assoc]
  · have hcounted := h.counted
    dsimp only
    rw [bytes_append]
    omega

/-- The send pool is no part of what is passed. -/
theorem Sound.setTx (h : st.Sound k q k' q') (tx : Cluster) : (st.setTx tx).Sound k q k' q' := by
  obtain ⟨s, hreads, hlength⟩ := h.sender
  exact ⟨⟨h.heldSender.placed, h.heldSender.registered⟩, h.heldReceiver,
    ⟨s, ⟨hreads.sock, hreads.qp, hreads.success, hreads.positive⟩, hlength⟩, h.receiver,
    h.inOrder, h.counted⟩

theorem sound_of_reachable (h : (machine config config' k q k' q').Reachable st) :
    st.Sound k q k' q' := by
  refine h.invariant (fun _ hfirst => .start hfirst) ?_
  intro before op after _ hsound henabled hrun
  cases op with
  | sender op =>
      obtain ⟨w, hstep, hafter⟩ := bind_eq_ok hrun
      cases hafter
      exact hsound.sends henabled.1 henabled.2 hstep
  | getChunks num =>
      obtain ⟨⟨num', chunks, tx⟩, -, hafter⟩ := bind_eq_ok hrun
      cases hafter
      exact hsound.setTx tx
  | getBuffers bytes =>
      obtain ⟨⟨num', chunks, tx⟩, -, hafter⟩ := bind_eq_ok hrun
      cases hafter
      exact hsound.setTx tx
  | zeroFill c len =>
      cases hrun
      exact hsound.setTx _
  | receiver op =>
      obtain ⟨w, hstep, hafter⟩ := bind_eq_ok hrun
      cases hafter
      exact hsound.receives henabled.1 henabled.2.1 henabled.2.2 hstep

end Transfer

end RdmaCapsule.Core
