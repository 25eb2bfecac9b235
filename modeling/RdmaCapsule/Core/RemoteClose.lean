import RdmaCapsule.Core.ReceiveStream

/-! The remote close. The peer closes by a message of no bytes. `buffer_prefetch`
notes it in `error`, but only where the connection is connected already; a server
whose first `read` finds the message becomes connected in that same `read`, after
the prefetch, and nothing remembers the message. -/
namespace RdmaCapsule.Core

open RdmaCapsule.Foundation Segments

namespace Endpoint

variable {ep : Endpoint} {tx : Cluster} {answers : Answers}

/-- The endpoint knows that its peer has closed. -/
structure Reset (ep : Endpoint) : Prop where
  active : ep.active = true
  connected : ep.connected = true
  error : ep.error = econnreset

theorem Reset.fault (h : ep.Reset) : ep.fault.Reset := ⟨h.active, rfl, rfl⟩

theorem Reset.error_ne_zero (h : ep.Reset) : ep.error ≠ 0 := by
  rw [h.error]
  decide

theorem Reset.ibvPostSend (h : ep.Reset) (answer : Option (Nat × Nat))
    (requests : List SendWr) : (ep.ibvPostSend answer requests).2.Reset := by
  unfold Endpoint.ibvPostSend
  split
  · exact ⟨h.active, h.connected, h.error⟩
  · exact ⟨h.active, h.connected, h.error⟩

theorem Reset.submit (h : ep.Reset) : Ends (ep.submit tx answers) (fun result => result.2.Reset)
    fun _ => True := by
  unfold Endpoint.submit
  rw [if_pos h.error_ne_zero]
  exact h

theorem Reset.send (h : ep.Reset) (bl : BufferList) :
    Ends (ep.send tx answers bl) (fun result => result.2.Reset) fun _ => True := by
  unfold Endpoint.send
  rw [if_pos h.error_ne_zero]
  exact h

theorem Reset.sendChunks (h : ep.Reset) (chunks : List Nat) :
    Ends (ep.sendChunks answers chunks) (fun result => result.2.Reset) fun _ => True := by
  unfold Endpoint.sendChunks
  rw [if_neg (by simp [h.connected])]
  unfold Endpoint.postWorkRequest
  split
  · trivial
  · exact h.ibvPostSend answers.post _

theorem Reset.handleConnection (h : ep.Reset) (recv : Recv) :
    Ends (ep.handleConnection tx answers recv) (fun result => result.1.Reset) fun _ => True := by
  unfold Endpoint.handleConnection
  cases recv with
  | error errno =>
      rw [ends_ok]
      dsimp only
      split
      · exact h
      · exact h.fault
  | disconnected => exact h.fault
  | badLength => exact h.fault
  | message msg =>
      dsimp only
      rw [if_pos h.connected]
      exact ⟨h.active, rfl, rfl⟩

theorem Reset.handleConnectionEstablished (h : ep.Reset) (needSetFault : Bool) :
    (ep.handleConnectionEstablished needSetFault answers).1.Reset := by
  unfold Endpoint.handleConnectionEstablished
  rw [if_pos h.connected]
  dsimp only
  split
  · exact h.fault
  · exact h

/-- Only the local side can make an endpoint forget it. -/
theorem Reset.call {call : Call} (h : ep.Reset) (hclose : call ≠ .close) :
    Ends (ep.call tx answers call) (fun result => result.1.Reset) fun _ => True := by
  cases call with
  | handleConnectionEstablished needSetFault => exact h.handleConnectionEstablished needSetFault
  | handleConnection recv => exact h.handleConnection recv
  | sendChunks chunks => exact (h.sendChunks chunks).bind fun _ hresult => hresult
  | send bl => exact (h.send bl).bind fun _ hresult => hresult
  | submit => exact h.submit.bind fun _ hresult => hresult
  | close => exact absurd rfl hclose
  | fault => exact h.fault

theorem Reset.gotRemoteClose (h : ep.Reset) : ep.gotRemoteClose.Reset := by
  unfold Endpoint.gotRemoteClose
  rw [if_pos h.connected]
  exact ⟨h.active, h.connected, rfl⟩

theorem gotRemoteClose_reset (hactive : ep.active = true) (hconnected : ep.connected = true) :
    ep.gotRemoteClose.Reset := by
  unfold Endpoint.gotRemoteClose
  rw [if_pos hconnected]
  exact ⟨hactive, hconnected, rfl⟩

end Endpoint

/-- The process, and whether `read` has taken a message of no bytes from the queue of one
connection. -/
structure Closing where
  w : World
  fin : Bool

namespace Closing

variable {config : Config} {k q : Nat} {st st' : Closing} {op : Op} {s : Socket}

/-- `read` comes as far as `read_buffers` and finds a message of no bytes. -/
def takesFin (k : Nat) (w : World) : Op → Bool
  | .read k' _ _ => k' = k && (w.socks k).any fun s =>
      s.ep.readsBuffers && s.wc.any (·.byteLen = 0)
  | _ => false

def Start (config : Config) (k q : Nat) (st : Closing) : Prop :=
  (World.machine config).Reachable st.w ∧ st.w.Unused k q ∧ st.fin = false

/-- The connection is not closed locally, and `read` wants something. -/
def Open (k : Nat) : Op → Prop
  | .call k' call _ => k' = k → call ≠ .close
  | .read k' len _ => k' = k → 0 < len.toNat
  | .drain k' => k' ≠ k
  | .destroy k' _ => k' ≠ k
  | _ => True

def step (config : Config) (k : Nat) (st : Closing) (op : Op) : Except Fault Closing := do
  let w ← st.w.step config op
  pure ⟨w, st.fin || takesFin k st.w op⟩

def machine (config : Config) (k q : Nat) : Machine Closing Op Fault where
  start := Start config k q
  enabled st op := st.w.Enabled op ∧ Open k op
  step := step config k

/-- A `read` that finds the message runs on a connection that is connected. -/
def Connected (k : Nat) (st : Closing) (op : Op) : Prop :=
  takesFin k st.w op = true → ∀ s, st.w.socks k = some s → s.ep.connected = true

/-- A `read` returns bytes while there are some, and then `-ECONNRESET`. It can fail to
return in two ways: where it has a backlog to post, and where the low bits of what it wants
are less than there is. -/
def Tells (config : Config) (k : Nat) (w : World) : Prop :=
  ∀ (len : UInt64) (answers : Answers), 0 < len.toNat →
    Ends (w.read config answers k len)
      (fun result => result.2.unread k = left (min len.toNat (total (w.unread k))) (w.unread k) ∧
        result.1 = if total (w.unread k) = 0 then -(econnreset : Int)
          else (min len.toNat (total (w.unread k)) : Nat))
      fun fault => ¬ w.NoBacklog k ∧ fault.Posting ∨
        ¬ World.Fits len.toNat (total (w.unread k)) ∧ fault = .spins

theorem world_reachable_of_closing (h : (machine config k q).Reachable st) :
    (World.machine config).Reachable st.w := by
  refine h.project Closing.w (fun _ hstart => hstart.1) ?_
  intro before op after henabled hrun
  obtain ⟨w, hstep, hafter⟩ := bind_eq_ok hrun
  cases hafter
  exact ⟨henabled.1, hstep⟩

/-- The invariant of the runs: what was taken is known. -/
def Sound (k q : Nat) (st : Closing) : Prop :=
  ∃ s, st.w.Reads k q s ∧ (st.fin = true → s.ep.Reset)

theorem Sound.start (h : Start config k q st) : st.Sound k q := by
  obtain ⟨_, hunused, hfin⟩ := h
  obtain ⟨s, hreads, _⟩ := hunused.reads
  exact ⟨s, hreads, fun hyes => nomatch hfin.symm.trans hyes⟩

theorem lookedAt_reset (h : s.ep.Reset) (taken : List RxWc) :
    (World.lookedAt s taken).ep.Reset := by
  unfold World.lookedAt
  dsimp only
  split
  · exact h.gotRemoteClose
  · exact h

/-- Where a `read` takes the message, the connection is active. -/
theorem takesFin_read {len : UInt64} {answers : Answers} (hs : st.w.socks k = some s)
    (h : takesFin k st.w (.read k len answers) = true) :
    s.ep.readsBuffers = true ∧ s.wc.any (·.byteLen = 0) = true := by
  simpa [takesFin, hs] using h

theorem Sound.read {len : UInt64} {answers : Answers} (h : st.Sound k q)
    (hheld : st.w.Held (st.w.out World.noPolled)) (hlen : 0 < len.toNat)
    (hconnected : Connected k st (.read k len answers))
    (hrun : step config k st (.read k len answers) = .ok st') : st'.Sound k q := by
  obtain ⟨w₁, hstep, hst'⟩ := bind_eq_ok hrun
  cases hst'
  obtain ⟨⟨r, w'⟩, hread, hw'⟩ := bind_eq_ok hstep
  cases hw'
  obtain ⟨s, hreads, hreset⟩ := h
  cases hbuffers : s.ep.readsBuffers with
  | true =>
      obtain ⟨tx, s', hafter, htook, _⟩ :=
        (World.read_reads hheld hreads hbuffers config answers hlen).value hread
      refine ⟨s', htook.reads hreads, fun hfin => ?_⟩
      have hlooked : (World.lookedAt s s.wc).ep.Reset := by
        rcases Bool.or_eq_true_iff.mp hfin with hbefore | hnow
        · exact lookedAt_reset (hreset hbefore) s.wc
        · have hyes := hconnected hnow s hreads.sock
          have hany := (takesFin_read hreads.sock hnow).2
          have hactive : s.ep.active = true := (Bool.and_eq_true_iff.mp hbuffers).1
          unfold World.lookedAt
          dsimp only
          rw [if_pos hany]
          exact Endpoint.gotRemoteClose_reset hactive hyes
      rw [World.afterRead_of_connected hlooked.connected] at hafter
      rwa [← Except.ok.inj hafter]
  | false =>
      obtain ⟨_, rfl⟩ := World.read_early hreads.sock hbuffers hread
      refine ⟨s, hreads, fun hfin => ?_⟩
      rcases Bool.or_eq_true_iff.mp hfin with hbefore | hnow
      · exact hreset hbefore
      · exact nomatch hbuffers.symm.trans (takesFin_read hreads.sock hnow).1

theorem takesFin_other (hread : ∀ len answers, op ≠ .read k len answers) (w : World) :
    takesFin k w op = false := by
  cases op with
  | read k' len answers =>
      have hk : k' ≠ k := by
        rintro rfl
        exact hread len answers rfl
      simp [takesFin, hk]
  | _ => rfl

theorem Sound.step (h : st.Sound k q) (hheld : st.w.Held (st.w.out World.noPolled))
    (henabled : (machine config k q).enabled st op) (hconnected : Connected k st op)
    (hrun : step config k st op = .ok st') : st'.Sound k q := by
  by_cases hread : ∃ len answers, op = .read k len answers
  · obtain ⟨len, answers, rfl⟩ := hread
    exact h.read hheld (henabled.2 rfl) hconnected hrun
  · have hnot : takesFin k st.w op = false :=
      takesFin_other (fun len answers heq => hread ⟨len, answers, heq⟩) st.w
    obtain ⟨w, hstep, hst'⟩ := bind_eq_ok hrun
    cases hst'
    rw [hnot, Bool.or_false]
    obtain ⟨s, hreads, hreset⟩ := h
    rcases hreads.step_cases hheld henabled.1 hstep with ⟨s', hep, hpasses⟩ |
      ⟨call, answers, result, s', rfl, hcall, hep, hpasses⟩ | hread' | rfl | ⟨switched, rfl⟩
    · exact ⟨s', hpasses.reads, fun hfin => hep ▸ hreset hfin⟩
    · refine ⟨s', hpasses.reads, fun hfin => ?_⟩
      rw [hep]
      exact ((hreset hfin).call (henabled.2 rfl)).value hcall
    · exact absurd hread' hread
    · exact absurd rfl henabled.2
    · exact absurd rfl henabled.2

theorem sound_of_reachable_connected
    (h : ((machine config k q).restrict (Connected k)).Reachable st) : st.Sound k q := by
  refine h.invariant (fun _ hstart => .start hstart) ?_
  intro before op after hreachable hsound henabled hrun
  have hworld := world_reachable_of_closing hreachable.of_restrict
  exact hsound.step (World.held_of_reachable hworld) henabled.1 henabled.2 hrun

/-- In every run in which a `read` that finds the message runs on a connection that is
connected, a connection of which `read` has taken it tells so from then on. -/
theorem remote_close_kept (config : Config) (k q : Nat) (st : Closing)
    (h : ((machine config k q).restrict (Connected k)).Reachable st) (hfin : st.fin = true) :
    Tells config k st.w := by
  intro len answers hlen
  have hheld := World.held_of_reachable (world_reachable_of_closing h.of_restrict)
  obtain ⟨s, hreads, hreset⟩ := sound_of_reachable_connected h
  have hep := hreset hfin
  refine (World.read_connected hheld hreads hep.active hep.connected config answers hlen).mono ?_
    fun _ => id
  rintro result ⟨s', hep', htook, hr⟩
  have hreset' : s'.ep.Reset := hep' ▸ lookedAt_reset hep s.wc
  refine ⟨htook.unread, ?_⟩
  rw [hr]
  unfold World.readResult
  by_cases hnone : total (st.w.unread k) = 0
  · rw [if_pos hnone, if_pos ⟨by omega, hreset'.error_ne_zero⟩, hreset'.error]
  · rw [if_neg hnone, if_neg (by omega), if_neg (by omega)]

/-- A client that has read two bytes of a message and taken the one that closes. -/
theorem remote_close_kept_by_client :
    ∃ st, ((machine World.smallConfig 0 1).restrict (Connected 0)).Reachable st ∧
      st.fin = true ∧ st.w.unread 0 = [(0, 1)] ∧ Tells World.smallConfig 0 st.w := by
  have hfresh : (World.machine World.smallConfig).Reachable World.fresh := .start World.fresh_start
  have hcreated := hfresh.next (.create 0 1 false .created) ⟨rfl, rfl, by decide, by decide⟩ rfl
  have hstart : ((machine World.smallConfig 0 1).restrict (Connected 0)).Reachable ⟨_, false⟩ :=
    .start ⟨hcreated, ⟨_, rfl, rfl, rfl, rfl⟩, rfl⟩
  have hconnected := hstart.next (.call 0 (.handleConnection
    (.message ⟨⟨0, 2, 520, 1, Vector.replicate 16 0⟩, ⟨0, 0, 0, 0⟩⟩)) .good)
    ⟨⟨trivial, fun _ => nofun⟩, nofun⟩ rfl
  have hdata := hconnected.next (.handleRxEvent [⟨1, 0, 3, .success⟩])
    ⟨⟨⟨by decide, by simp; exact ⟨_, rfl, by decide⟩⟩, trivial⟩, nofun⟩ rfl
  have hclosed := hdata.next (.handleRxEvent [⟨1, 1, 0, .success⟩])
    ⟨⟨⟨by decide, by simp; exact ⟨_, rfl, by decide⟩⟩, trivial⟩, nofun⟩ rfl
  have hread := hclosed.next (.read 0 2 .good)
    ⟨⟨trivial, fun _ => by decide⟩, fun _ s hs => by cases hs; rfl⟩ rfl
  exact ⟨_, hread, rfl, rfl, remote_close_kept World.smallConfig 0 1 _ hread rfl⟩

/-- A server that the message reaches before its first `read` returns `-EAGAIN` ever after. -/
theorem remote_close_lost :
    ∃ st w', (machine World.smallConfig 0 1).Reachable st ∧ st.fin = true ∧
      st.w.NoBacklog 0 ∧ st.w.read World.smallConfig .good 0 1 = .ok (-eagain, w') ∧
      ¬ Tells World.smallConfig 0 st.w := by
  have hfresh : (World.machine World.smallConfig).Reachable World.fresh := .start World.fresh_start
  have hcreated := hfresh.next (.create 0 1 true .created) ⟨rfl, rfl, by decide, by decide⟩ rfl
  have hstart : (machine World.smallConfig 0 1).Reachable ⟨_, false⟩ :=
    .start ⟨hcreated, ⟨_, rfl, rfl, rfl, rfl⟩, rfl⟩
  have hactive := hstart.next (.call 0 (.handleConnection
    (.message ⟨⟨0, 2, 520, 0, Vector.replicate 16 0⟩, ⟨0, 0, 0, 0⟩⟩)) .good)
    ⟨trivial, fun _ => nofun⟩ rfl
  have hclosed := hactive.next (.handleRxEvent [⟨1, 0, 0, .success⟩])
    ⟨⟨by decide, by simp; exact ⟨_, rfl, by decide⟩⟩, trivial⟩ rfl
  have hread := hclosed.next (.read 0 1 .good) ⟨trivial, fun _ => by decide⟩ rfl
  refine ⟨_, _, hread, rfl, ?_, rfl, ?_⟩
  · intro s hs
    cases hs
    rfl
  · intro htells
    exact absurd (htells 1 .good (by decide)).2 (by decide)

end Closing

end RdmaCapsule.Core
