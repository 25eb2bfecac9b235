import RdmaCapsule.Clients.Chain

/-! Whether the chain goes on. A polling thread looks at `IsReady` only after a read that returns
data. Where the clients are ready before the data comes, a chain in which nothing moves has
finished all its requests; where one is late, the chain can stop for good. -/
namespace RdmaCapsule.Clients.Chain

open RdmaCapsule.Foundation

variable {layout : Layout} {system system' : System} {stream follower node num : Nat}

/-- Outside its inner loop a thread has less than a message in `read_len`. -/
structure Prompt (layout : Layout) (system : System) : Prop where
  ready : ∀ stream < layout.followers, (system.pollers stream).looping = true →
    (system.clients (stream + 1)).ready
  rest : ∀ stream ≤ layout.followers, (system.pollers stream).looping = false →
    (system.pollers stream).readLen < layout.unit stream
  releasing : system.release ≠ .idle → (system.pollers layout.followers).looping = true

namespace Prompt

theorem of_same (h : Prompt layout system)
    (hready : ∀ node, (system.clients node).ready → (system'.clients node).ready)
    (hpollers : ∀ stream, (system'.pollers stream).looping = (system.pollers stream).looping ∧
      (system'.pollers stream).readLen = (system.pollers stream).readLen)
    (hrelease : system'.release = system.release) : Prompt layout system' := by
  refine ⟨fun stream hstream hloop => ?_, fun stream hstream hloop => ?_, fun hbusy => ?_⟩
  · rw [(hpollers stream).1] at hloop
    exact hready _ (h.ready stream hstream hloop)
  · rw [(hpollers stream).1] at hloop
    rw [(hpollers stream).2]
    exact h.rest stream hstream hloop
  · rw [hrelease] at hbusy
    rw [(hpollers layout.followers).1]
    exact h.releasing hbusy

/-- A thread comes into its loop, or leaves it with less than a message. -/
theorem setPoller (h : Prompt layout system) {poller : Poller}
    (hready : stream < layout.followers → poller.looping = true →
      (system.clients (stream + 1)).ready)
    (hrest : poller.looping = false → poller.readLen < layout.unit stream)
    (hreleasing : stream = layout.followers → system.release ≠ .idle → poller.looping = true) :
    Prompt layout (system.setPoller stream poller) := by
  have hpoller : ∀ stream', (system.setPoller stream poller).pollers stream' =
      if stream' = stream then poller else system.pollers stream' := by
    intro stream'
    exact Function.update_apply ..
  refine ⟨fun stream' hstream' => ?_, fun stream' hstream' => ?_, fun hbusy => ?_⟩
  · rw [hpoller]
    split
    · rename_i hsame
      subst hsame
      exact hready hstream'
    · exact h.ready stream' hstream'
  · rw [hpoller]
    split
    · rename_i hsame
      subst hsame
      exact hrest
    · exact h.rest stream' hstream'
  · rw [hpoller]
    split
    · rename_i hsame
      exact hreleasing hsame.symm hbusy
    · exact h.releasing hbusy

theorem send (h : Prompt layout system) (size : Nat) :
    Prompt layout (system.send node num size) := by
  refine h.of_same (fun node' hnode' => ?_) (fun stream => ?_) rfl
  · show (Function.update system.clients node _ node').ready
    by_cases hsame : node' = node
    · subst hsame
      rw [Function.update_self]
      exact hnode'
    · rw [Function.update_of_ne hsame]
      exact hnode'
  · show (Function.update system.pollers node _ stream).looping = _ ∧
      (Function.update system.pollers node _ stream).readLen = _
    by_cases hsame : stream = node
    · subst hsame
      rw [Function.update_self]
      exact ⟨rfl, rfl⟩
    · rw [Function.update_of_ne hsame]
      exact ⟨rfl, rfl⟩

theorem start (h : (machine layout).start system) (hfits : Fits layout) :
    Prompt layout system := by
  obtain ⟨-, hpollers, -, hrelease, -⟩ := h
  refine ⟨fun stream _ hloop => ?_, fun stream _ _ => ?_, fun hbusy => absurd hrelease hbusy⟩
  · rw [hpollers] at hloop
    cases hloop
  · rw [hpollers]
    exact Inv.unit_pos hfits

theorem readyToSend (h : Prompt layout system) : Prompt layout (system.readyToSend node) := by
  refine h.of_same (fun node' hnode' => ?_) (fun _ => ⟨rfl, rfl⟩) rfl
  show (Function.update system.clients node _ node').ready
  by_cases hsame : node' = node
  · subst hsame
    rw [Function.update_self]
  · rw [Function.update_of_ne hsame]
    exact hnode'

theorem sendStep (h : Prompt layout system) :
    Ends (sendStep layout system) (Prompt layout) fun _ => True := by
  have hsame : ∀ {system' : System}, system'.clients = system.clients →
      system'.pollers = system.pollers → system'.release = system.release →
      Prompt layout system' := fun hclients hpollers hrelease =>
    h.of_same (fun _ hnode => by rwa [hclients]) (fun _ => by rw [hpollers]; exact ⟨rfl, rfl⟩)
      hrelease
  unfold Chain.sendStep
  split
  · exact h
  · unfold System.loadInflightSize
    split
    · exact hsame rfl rfl rfl
    · exact h
  · unfold System.addInflightSize
    split
    · trivial
    · exact hsame rfl rfl rfl
  · exact (h.send _).of_same (fun _ hnode => hnode) (fun _ => ⟨rfl, rfl⟩) rfl
  · unfold System.sendBigRequestsHead
    split
    · split
      · exact (h.send _).of_same (fun _ hnode => hnode) (fun _ => ⟨rfl, rfl⟩) rfl
      · trivial
    · exact hsame rfl rfl rfl

theorem read (h : Prompt layout system) {rs : Int}
    (hallowed : stream < layout.followers → (system.clients (stream + 1)).ready) :
    Ends (system.read stream rs) (Prompt layout) fun _ => True := by
  unfold System.read
  dsimp only
  split
  · split
    · refine h.setPoller (fun hstream _ => hallowed hstream) (fun hloop => ?_) fun _ _ => rfl
      cases hloop
    · trivial
  · split
    · trivial
    · exact h

theorem headPoll (h : Prompt layout system)
    (hloop : (system.pollers layout.followers).looping = true) :
    Ends (system.headPoll layout) (Prompt layout) fun _ => True := by
  unfold System.headPoll
  dsimp only
  split
  · rename_i hrelease
    split
    · exact ⟨h.ready, h.rest, fun _ => hloop⟩
    · rename_i hread
      refine h.setPoller (fun hlt => absurd hlt (Nat.lt_irrefl _)) (fun _ => ?_)
        fun _ hbusy => absurd hrelease hbusy
      rw [Layout.unit_followers]
      exact Nat.not_le.mp hread
  · rename_i hrelease
    split
    · exact ⟨h.ready, h.rest, fun _ => hloop⟩
    · trivial
  · have hset : Prompt layout (system.setPoller layout.followers
        { system.pollers layout.followers with
          readLen := (system.pollers layout.followers).readLen - ackSize.toNat }) := by
      refine h.setPoller (fun hlt => absurd hlt (Nat.lt_irrefl _)) (fun hleft => ?_)
        fun _ _ => hloop
      rw [show _ = true from hloop] at hleft
      cases hleft
    exact ⟨hset.ready, hset.rest, fun hbusy => absurd rfl hbusy⟩

theorem forwardPoll (h : Prompt layout system) (hfollower : follower < layout.followers)
    (hloop : (system.pollers follower).looping = true) (sendingRequestSize : UInt32) :
    Prompt layout (system.forwardPoll layout follower sendingRequestSize) := by
  have hready := h.ready follower hfollower hloop
  unfold System.forwardPoll
  dsimp only
  split
  · refine Prompt.send (h.setPoller (fun _ _ => hready) (fun hleft => ?_) fun hsame => ?_) _
    · rw [show _ = true from hloop] at hleft
      cases hleft
    · exact absurd hsame (Nat.ne_of_lt hfollower)
  · rename_i htest
    refine h.setPoller (fun _ hleft => by cases hleft) (fun _ => ?_) fun hsame =>
      absurd hsame (Nat.ne_of_lt hfollower)
    rw [Layout.unit_of_lt hfollower]
    exact Nat.not_le.mp fun hread => htest ⟨hread, hready⟩

theorem step (h : Prompt layout system) {op : Op} (henabled : Enabled layout system op)
    (hallowed : PromptRead layout system op) :
    Ends (step layout system op) (Prompt layout) fun _ => True := by
  cases op with
  | readyToSend node => exact h.readyToSend
  | sendRequests => exact h.sendStep
  | read stream rs => exact h.read hallowed
  | poll stream =>
      obtain ⟨hstream, hloop⟩ := henabled
      show Ends (pollStep layout system stream) _ _
      unfold pollStep
      split
      · rename_i hhead
        subst hhead
        exact h.headPoll hloop
      · rename_i hne
        have hlt := Nat.lt_of_le_of_ne hstream hne
        split
        · exact h.forwardPoll hlt hloop _
        · exact h.forwardPoll hlt hloop _

end Prompt

/-- The window is used up, and no stream holds anything that would wake a reader. -/
structure Stuck (layout : Layout) (system : System) : Prop where
  sender : system.sender = .loading
  full : layout.inflightThreshold < system.inflightSize
  streams : ∀ stream ≤ layout.followers, (system.pollers stream).stream = 0
  pollers : ∀ stream ≤ layout.followers, (system.pollers stream).looping = false
  unfinished : system.receiveId = 0

theorem Stuck.step (h : Stuck layout system) {op : Op} (henabled : Enabled layout system op) :
    Ends (step layout system op) (Stuck layout) fun _ => True := by
  cases op with
  | readyToSend node =>
      have hnode : node ≠ 0 := by
        intro hzero
        have hwaiting := henabled.2 hzero
        rw [h.sender] at hwaiting
        cases hwaiting
      refine ⟨?_, h.full, h.streams, h.pollers, h.unfinished⟩
      show (if node = 0 then Sender.loading else system.sender) = _
      rw [if_neg hnode]
      exact h.sender
  | sendRequests =>
      show Ends (sendStep layout system) _ _
      unfold sendStep
      rw [h.sender]
      show Stuck layout (system.loadInflightSize layout)
      unfold System.loadInflightSize
      rw [if_neg (UInt64.not_le.mpr h.full)]
      exact h
  | read stream rs =>
      obtain ⟨hstream, -, hrs, -⟩ := henabled
      have hnone : ¬ 0 < rs := by
        have hempty := h.streams stream hstream
        omega
      show Ends (system.read stream rs) _ _
      unfold System.read
      dsimp only
      rw [if_neg hnone]
      split
      · trivial
      · exact h
  | poll stream =>
      obtain ⟨hstream, hloop⟩ := henabled
      rw [h.pollers stream hstream] at hloop
      cases hloop

/-- Only the head's client is ready. Of its first round, this much is posted and not read. -/
structure Late (layout : Layout) (sender : Sender) (left : Nat) (system : System) : Prop where
  reachable : (machine layout).Reachable system
  sender : system.sender = sender
  full : system.inflightSize = layout.inflightTotal
  first : (system.pollers 0).stream = left ∧ (system.pollers 0).looping = false
  rest : ∀ stream ≠ 0, (system.pollers stream).stream = 0 ∧
    (system.pollers stream).looping = false
  head : (system.clients 0).ready = true
  unready : (system.clients 1).ready = false
  unfinished : system.receiveId = 0

namespace Late

variable {left n : Nat} {sender sender' : Sender}

theorem post (h : Late layout sender left system)
    (hstep : Chain.sendStep layout system =
      .ok { system.send 0 num layout.kRequestSize.toNat with sender := sender' }) :
    ∃ system', Late layout sender' (left + num * layout.kRequestSize.toNat) system' := by
  refine ⟨_, h.reachable.next .sendRequests trivial hstep, rfl, h.full, ?_, fun stream hne => ?_,
    ?_, ?_, h.unfinished⟩
  · show (Function.update system.pollers 0 _ 0).stream = _ ∧
      (Function.update system.pollers 0 _ 0).looping = _
    rw [Function.update_self]
    exact ⟨congrArg (· + _) h.first.1, h.first.2⟩
  · show (Function.update system.pollers 0 _ stream).stream = _ ∧
      (Function.update system.pollers 0 _ stream).looping = _
    rw [Function.update_of_ne hne]
    exact h.rest stream hne
  · show (Function.update system.clients 0 _ 0).ready = _
    rw [Function.update_self]
    exact h.head
  · show (Function.update system.clients 0 { system.clients 0 with
      requestId := (system.clients 0).requestId + UInt64.ofNat num } 1).ready = _
    rw [Function.update_of_ne Nat.one_ne_zero]
    exact h.unready

end Late

end RdmaCapsule.Clients.Chain
