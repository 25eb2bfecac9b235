import RdmaCapsule.Foundation.Machine
import RdmaCapsule.Foundation.Outcome
import RdmaCapsule.Foundation.Relay

/-! The chain as a whole. The head, the middle nodes and the tail form a ring of byte streams: node
`i` writes stream `i`, the node after it reads that stream, and the last stream brings the acks of
the tail back to the head. Every thread runs at its own pace, and a read returns any part of what
its stream holds. All bytes are zero, so a stream is its length. -/
namespace RdmaCapsule.Clients.Chain

open RdmaCapsule.Foundation

/-- `ACK_SIZE` -/
def ackSize : UInt32 := 64

def kMaxBufferSize : Int := 256 * 1048576

inductive Stop where
  | kassertInflightSize
  | divideByZero
  | intOverflow
  | abort
  deriving DecidableEq

/-- All nodes have the same configuration; the last follower is the tail. -/
structure Layout where
  followers : Nat
  kRequestSize : UInt32
  kNumRequest : UInt32
  rdmaBufferSizeBytes : UInt32

namespace Layout

def inflightThreshold (layout : Layout) : UInt64 :=
  (layout.kNumRequest / 2).toUInt64 * layout.kRequestSize.toUInt64

def inflightTotal (layout : Layout) : UInt64 :=
  layout.kNumRequest.toUInt64 * layout.kRequestSize.toUInt64

/-- The size of one message on a stream. -/
def unit (layout : Layout) (stream : Nat) : Nat :=
  if stream < layout.followers then layout.kRequestSize.toNat else ackSize.toNat

end Layout

structure Client where
  ready : Bool
  requestId : UInt64

/-- The polling thread that reads a stream, and what the stream holds. -/
structure Poller where
  stream : Nat
  readLen : Nat
  looping : Bool
  received : Nat

/-- Where the thread of the head's client is in `SendSmallRequestsHead` or `SendBigRequestsHead`. -/
inductive Sender where
  | waiting
  | loading
  | loaded (inflightSizeValue : UInt64)
  | sendingSmall (sendingDataNum : UInt64)
  | sendingBig (requestIndex : Nat) (sendingDataSize : UInt64)

/-- Where `HeadPoll` is in the body of its loop. -/
inductive Release where
  | idle
  | logged
  | checked
  deriving DecidableEq

/-- `history` only records: the requests that the head has counted as in flight, posted, logged as
finished and released are its credit and its places `0`, `followers + 1` and `followers + 2`;
follower `i` has forwarded those of place `i`. -/
structure System where
  clients : Nat → Client
  pollers : Nat → Poller
  sender : Sender
  release : Release
  inflightSize : UInt64
  receiveId : UInt64
  history : Relay

namespace System

def setPoller (system : System) (stream : Nat) (poller : Poller) : System :=
  { system with pollers := Function.update system.pollers stream poller }

/-- A client sends messages of this size, and takes an id for each. -/
def send (system : System) (node num size : Nat) : System :=
  { system with
    clients := Function.update system.clients node
      { system.clients node with
        requestId := (system.clients node).requestId + UInt64.ofNat num }
    pollers := Function.update system.pollers node
      { system.pollers node with stream := (system.pollers node).stream + num * size }
    history := system.history.passBy node num }

def readyToSend (system : System) (node : Nat) : System :=
  { system with
    clients := Function.update system.clients node { system.clients node with ready := true }
    sender := if node = 0 then .loading else system.sender }

/-- The test of the inner `while` of both sending loops. -/
def loadInflightSize (layout : Layout) (system : System) : System :=
  if system.inflightSize ≤ layout.inflightThreshold then
    { system with sender := .loaded system.inflightSize }
  else system

def addInflightSize (layout : Layout) (system : System) (inflightSizeValue : UInt64) :
    Except Stop System :=
  if layout.kRequestSize = 0 then .error .divideByZero
  else
    let sendingDataNum :=
      (layout.inflightTotal - inflightSizeValue) / layout.kRequestSize.toUInt64
    let sendingDataSize := sendingDataNum * layout.kRequestSize.toUInt64
    .ok { system with
      inflightSize := system.inflightSize + sendingDataSize
      sender := if layout.rdmaBufferSizeBytes < layout.kRequestSize then
          .sendingBig 0 sendingDataSize
        else .sendingSmall sendingDataNum
      history := { system.history with
        credit := system.history.credit + sendingDataNum.toNat } }

/-- All requests of a round in one `send`. -/
def sendSmallRequestsHead (layout : Layout) (system : System) (sendingDataNum : UInt64) :
    System :=
  { system.send 0 sendingDataNum.toNat layout.kRequestSize.toNat with sender := .loading }

/-- One iteration of the loop over the requests of a round, or its end. -/
def sendBigRequestsHead (layout : Layout) (system : System) (requestIndex : Nat)
    (sendingDataSize : UInt64) : Except Stop System :=
  if requestIndex < (sendingDataSize / layout.kRequestSize.toUInt64).toNat then
    if requestIndex + 1 < 2 ^ 31 then
      .ok { system.send 0 1 layout.kRequestSize.toNat with
        sender := .sendingBig (requestIndex + 1) sendingDataSize }
    else .error .intOverflow
  else .ok { system with sender := .loading }

/-- One `read` of a polling thread, before its inner loop. -/
def read (system : System) (stream : Nat) (rs : Int) : Except Stop System :=
  let poller := system.pollers stream
  if 0 < rs then
    if poller.readLen + rs.toNat < 2 ^ 31 then
      .ok (system.setPoller stream
        { stream := poller.stream - rs.toNat
          readLen := poller.readLen + rs.toNat
          looping := true
          received := poller.received + rs.toNat })
    else .error .intOverflow
  else if rs ≠ -11 ∧ rs ≠ -104 then .error .abort
  else .ok system

def finishTimeLog (layout : Layout) (system : System) : System :=
  { system with
    receiveId := system.receiveId + 1
    history := system.history.passBy (layout.followers + 1) 1 }

/-- `InflightRelease` after its `kassert`. -/
def subInflightSize (layout : Layout) (system : System) : System :=
  { system with
    inflightSize := system.inflightSize - layout.kRequestSize.toUInt64
    history := system.history.passBy (layout.followers + 2) 1 }

/-- The inner loop of the head. -/
def headPoll (layout : Layout) (system : System) : Except Stop System :=
  let poller := system.pollers layout.followers
  match system.release with
  | .idle =>
      if ackSize.toNat ≤ poller.readLen then
        .ok { system.finishTimeLog layout with release := .logged }
      else .ok (system.setPoller layout.followers { poller with looping := false })
  | .logged =>
      if layout.kRequestSize.toUInt64 ≤ system.inflightSize then
        .ok { system with release := .checked }
      else .error .kassertInflightSize
  | .checked =>
      .ok { (system.subInflightSize layout).setPoller layout.followers
          { poller with readLen := poller.readLen - ackSize.toNat } with release := .idle }

/-- The inner loop of a follower, which sends a message of this size for each request. -/
def forwardPoll (layout : Layout) (system : System) (follower : Nat)
    (sendingRequestSize : UInt32) : System :=
  let poller := system.pollers follower
  if layout.kRequestSize.toNat ≤ poller.readLen ∧ (system.clients (follower + 1)).ready then
    (system.setPoller follower
      { poller with readLen := poller.readLen - layout.kRequestSize.toNat }).send
        (follower + 1) 1 sendingRequestSize.toNat
  else system.setPoller follower { poller with looping := false }

def midPoll (layout : Layout) (system : System) (follower : Nat) : System :=
  system.forwardPoll layout follower layout.kRequestSize

def tailPoll (layout : Layout) (system : System) (follower : Nat) : System :=
  system.forwardPoll layout follower ackSize

end System

inductive Op where
  | readyToSend (node : Nat)
  | sendRequests
  | read (stream : Nat) (rs : Int)
  | poll (stream : Nat)

def Enabled (layout : Layout) (system : System) : Op → Prop
  | .readyToSend node => node ≤ layout.followers ∧ (node = 0 → system.sender = .waiting)
  | .sendRequests => True
  | .read stream rs =>
      stream ≤ layout.followers ∧ (system.pollers stream).looping = false ∧
        rs ≤ (system.pollers stream).stream ∧ rs ≤ kMaxBufferSize
  | .poll stream => stream ≤ layout.followers ∧ (system.pollers stream).looping = true

/-- The next atomic access of the head's client. -/
def sendStep (layout : Layout) (system : System) : Except Stop System :=
  match system.sender with
  | .waiting => .ok system
  | .loading => .ok (system.loadInflightSize layout)
  | .loaded inflightSizeValue => system.addInflightSize layout inflightSizeValue
  | .sendingSmall sendingDataNum => .ok (system.sendSmallRequestsHead layout sendingDataNum)
  | .sendingBig requestIndex sendingDataSize =>
      system.sendBigRequestsHead layout requestIndex sendingDataSize

/-- `StartPollThread` chooses the loop by the role of the node. -/
def pollStep (layout : Layout) (system : System) (stream : Nat) : Except Stop System :=
  if stream = layout.followers then system.headPoll layout
  else if stream + 1 = layout.followers then .ok (system.tailPoll layout stream)
  else .ok (system.midPoll layout stream)

def step (layout : Layout) (system : System) : Op → Except Stop System
  | .readyToSend node => .ok (system.readyToSend node)
  | .sendRequests => sendStep layout system
  | .read stream rs => system.read stream rs
  | .poll stream => pollStep layout system stream

def machine (layout : Layout) : Machine System Op Stop where
  start system :=
    (∀ node, system.clients node = ⟨false, 0⟩) ∧
      (∀ stream, system.pollers stream = ⟨0, 0, false, 0⟩) ∧
      system.sender = .waiting ∧ system.release = .idle ∧
      system.inflightSize = 0 ∧ system.receiveId = 0 ∧
      system.history = ⟨0, fun _ => 0⟩
  enabled := Enabled layout
  step := step layout

/-- How many messages of a stream its reader has dealt with. -/
def consumed (layout : Layout) (history : Relay) (stream : Nat) : Nat :=
  if stream < layout.followers then history.passed (stream + 1)
  else history.passed (layout.followers + 2)

variable {layout : Layout} {system system' : System} {stream follower node num : Nat}

/-- What was written to a stream, is in it or has been read; what was read, has been dealt with or
is counted in `read_len`. -/
structure Linked (layout : Layout) (poller : Poller) (history : Relay) (stream : Nat) : Prop where
  sent : poller.received + poller.stream = history.passed stream * layout.unit stream
  taken : poller.received = consumed layout history stream * layout.unit stream + poller.readLen

/-- What the sending loop knows about the requests that it has counted as in flight. -/
def Planned (layout : Layout) (history : Relay) : Sender → Prop
  | .waiting => history.credit = history.passed 0
  | .loading => history.credit = history.passed 0
  | .loaded inflightSizeValue =>
      history.credit = history.passed 0 ∧ ∃ n ≤ layout.kNumRequest.toNat,
        inflightSizeValue.toNat = n * layout.kRequestSize.toNat ∧
        history.credit ≤ history.passed (layout.followers + 2) + n
  | .sendingSmall sendingDataNum => history.credit = history.passed 0 + sendingDataNum.toNat
  | .sendingBig requestIndex sendingDataSize =>
      ∃ n ≤ layout.kNumRequest.toNat, sendingDataSize.toNat = n * layout.kRequestSize.toNat ∧
        history.credit + requestIndex = history.passed 0 + n

structure Inv (layout : Layout) (system : System) : Prop where
  ordered : system.history.Ordered (layout.followers + 2) layout.kNumRequest.toNat
  inflight : system.inflightSize.toNat +
      system.history.passed (layout.followers + 2) * layout.kRequestSize.toNat =
    system.history.credit * layout.kRequestSize.toNat
  linked : ∀ stream ≤ layout.followers,
    Linked layout (system.pollers stream) system.history stream
  requestIds : ∀ node ≤ layout.followers,
    (system.clients node).requestId = UInt64.ofNat (system.history.passed node)
  receiveId : system.receiveId =
    UInt64.ofNat (system.history.passed (layout.followers + 1))
  release : system.history.passed (layout.followers + 1) =
    system.history.passed (layout.followers + 2) + if system.release = .idle then 0 else 1
  acked : system.release ≠ .idle → ackSize.toNat ≤ (system.pollers layout.followers).readLen
  planned : Planned layout system.history system.sender

/-- The configurations for which no counter of the code overflows. -/
structure Fits (layout : Layout) : Prop where
  followers : 0 < layout.followers
  positive : 0 < layout.kRequestSize.toNat
  requests : layout.kNumRequest.toNat * layout.kRequestSize.toNat < 2 ^ 31
  acks : layout.kNumRequest.toNat * ackSize.toNat < 2 ^ 31

namespace Layout

theorem inflightTotal_toNat :
    layout.inflightTotal.toNat = layout.kNumRequest.toNat * layout.kRequestSize.toNat := by
  have hnum := layout.kNumRequest.toNat_lt
  have hsize := layout.kRequestSize.toNat_lt
  rw [inflightTotal, UInt64.toNat_mul, UInt32.toNat_toUInt64, UInt32.toNat_toUInt64]
  refine Nat.mod_eq_of_lt ?_
  calc layout.kNumRequest.toNat * layout.kRequestSize.toNat
      < 2 ^ 32 * 2 ^ 32 := Nat.mul_lt_mul'' hnum hsize
    _ = 2 ^ 64 := by norm_num

/-- The loaded value counts whole requests, so the division leaves nothing over. -/
theorem sendingDataNum_toNat {inflightSizeValue : UInt64} {n : Nat}
    (hpos : 0 < layout.kRequestSize.toNat)
    (hvalue : inflightSizeValue.toNat = n * layout.kRequestSize.toNat)
    (hn : n ≤ layout.kNumRequest.toNat) :
    ((layout.inflightTotal - inflightSizeValue) / layout.kRequestSize.toUInt64).toNat =
      layout.kNumRequest.toNat - n := by
  have hle : inflightSizeValue ≤ layout.inflightTotal := by
    rw [UInt64.le_iff_toNat_le, hvalue, inflightTotal_toNat]
    exact Nat.mul_le_mul_right _ hn
  rw [UInt64.toNat_div, UInt64.toNat_sub_of_le _ _ hle, hvalue, inflightTotal_toNat,
    UInt32.toNat_toUInt64, ← Nat.sub_mul]
  exact Nat.mul_div_cancel _ hpos

theorem kRequestSize_ne_zero (hpos : 0 < layout.kRequestSize.toNat) :
    layout.kRequestSize ≠ 0 := by
  intro hzero
  rw [hzero] at hpos
  exact absurd hpos (by decide)

theorem unit_of_lt (h : stream < layout.followers) :
    layout.unit stream = layout.kRequestSize.toNat := if_pos h

theorem unit_followers : layout.unit layout.followers = ackSize.toNat :=
  if_neg (Nat.lt_irrefl _)

end Layout

theorem consumed_of_lt {history : Relay} (h : stream < layout.followers) :
    consumed layout history stream = history.passed (stream + 1) := if_pos h

theorem consumed_followers {history : Relay} :
    consumed layout history layout.followers = history.passed (layout.followers + 2) :=
  if_neg (Nat.lt_irrefl _)

theorem Linked.congr {poller : Poller} {history history' : Relay}
    (h : Linked layout poller history stream)
    (hpassed : history'.passed stream = history.passed stream)
    (hconsumed : consumed layout history' stream = consumed layout history stream) :
    Linked layout poller history' stream :=
  ⟨by rw [hpassed]; exact h.sent, by rw [hconsumed]; exact h.taken⟩

/-- What a reader has dealt with and what it counts fits into what was written. -/
theorem Linked.readLen_le {poller : Poller} {history : Relay}
    (h : Linked layout poller history stream) :
    consumed layout history stream * layout.unit stream + poller.readLen + poller.stream =
      history.passed stream * layout.unit stream := by
  rw [← h.taken]
  exact h.sent

/-- A whole message in `read_len` is one that was written and not dealt with. -/
theorem Linked.consumed_lt {poller : Poller} {history : Relay}
    (h : Linked layout poller history stream) (hpos : 0 < layout.unit stream)
    (hread : layout.unit stream ≤ poller.readLen) :
    consumed layout history stream < history.passed stream := by
  have hle := h.readLen_le
  refine Nat.lt_of_mul_lt_mul_right (a := layout.unit stream) ?_
  omega

/-- Later releases leave the plan of the sending loop alone. -/
theorem Planned.mono {history history' : Relay} {sender : Sender}
    (h : Planned layout history sender) (hcredit : history'.credit = history.credit)
    (hposted : history'.passed 0 = history.passed 0)
    (hreleased : history.passed (layout.followers + 2) ≤
      history'.passed (layout.followers + 2)) : Planned layout history' sender := by
  cases sender with
  | waiting | loading | sendingSmall | sendingBig =>
      unfold Planned at h ⊢
      rw [hcredit, hposted]
      exact h
  | loaded inflightSizeValue =>
      obtain ⟨hall, n, hn, hvalue, hle⟩ := h
      refine ⟨by rw [hcredit, hposted, hall], n, hn, hvalue, ?_⟩
      rw [hcredit]
      exact hle.trans (Nat.add_le_add_right hreleased n)

namespace Inv

theorem start (h : (machine layout).start system) : Inv layout system := by
  obtain ⟨hclients, hpollers, hsender, hrelease, hinflight, hreceive, hhistory⟩ := h
  refine ⟨?_, ?_, fun stream _ => ?_, fun node _ => ?_, ?_, ?_, fun hbusy => ?_, ?_⟩
  · rw [hhistory]
    exact ⟨fun _ _ => le_rfl, le_rfl, Nat.zero_le _⟩
  · rw [hhistory, hinflight]
    simp
  · rw [hhistory, hpollers]
    exact ⟨by simp, by simp [consumed]⟩
  · rw [hhistory, hclients]
    rfl
  · rw [hhistory, hreceive]
    rfl
  · rw [hhistory, hrelease]
    rfl
  · exact absurd hrelease hbusy
  · rw [hhistory, hsender]
    rfl

theorem unit_pos (hfits : Fits layout) : 0 < layout.unit stream := by
  unfold Layout.unit
  split
  · exact hfits.positive
  · decide

/-- The bytes on the way of a stream and in `read_len` fit into an `int`. -/
theorem readLen_lt (h : Inv layout system) (hfits : Fits layout)
    (hstream : stream ≤ layout.followers) :
    (system.pollers stream).readLen + (system.pollers stream).stream < 2 ^ 31 := by
  have hlink := (h.linked stream hstream).readLen_le
  have hconsumed : system.history.passed stream ≤
      consumed layout system.history stream + layout.kNumRequest.toNat := by
    unfold consumed
    split
    · exact h.ordered.passed_le_add_window (by omega) (by omega)
    · exact h.ordered.passed_le_add_window (by omega) le_rfl
  have hwindow : layout.kNumRequest.toNat * layout.unit stream < 2 ^ 31 := by
    unfold Layout.unit
    split
    · exact hfits.requests
    · exact hfits.acks
  have hmul := Nat.mul_le_mul_right (layout.unit stream) hconsumed
  rw [Nat.add_mul] at hmul
  omega

theorem readyToSend (h : Inv layout system)
    (hhead : node = 0 → system.sender = .waiting) : Inv layout (system.readyToSend node) := by
  refine ⟨h.ordered, h.inflight, h.linked, fun node' hnode' => ?_, h.receiveId, h.release, h.acked,
    ?_⟩
  · show (Function.update system.clients node _ node').requestId = _
    by_cases hsame : node' = node
    · subst hsame
      rw [Function.update_self]
      exact h.requestIds node' hnode'
    · rw [Function.update_of_ne hsame]
      exact h.requestIds node' hnode'
  · have hplanned := h.planned
    show Planned layout system.history (if node = 0 then .loading else system.sender)
    split
    · rename_i hzero
      rw [hhead hzero] at hplanned
      exact hplanned
    · exact hplanned

theorem loadInflightSize (h : Inv layout system) (hsender : system.sender = .loading) :
    Inv layout (system.loadInflightSize layout) := by
  have hplanned := h.planned
  rw [hsender] at hplanned
  unfold System.loadInflightSize
  split
  · rename_i hle
    refine ⟨h.ordered, h.inflight, h.linked, h.requestIds, h.receiveId, h.release, h.acked,
      hplanned, system.history.credit - system.history.passed (layout.followers + 2), ?_, ?_, ?_⟩
    · have hwindow := h.ordered.window
      omega
    · rw [Nat.sub_mul]
      have hinflight := h.inflight
      omega
    · show system.history.credit ≤ system.history.passed _ +
        (system.history.credit - system.history.passed _)
      omega
  · exact h

theorem addInflightSize (h : Inv layout system) (hfits : Fits layout)
    {inflightSizeValue : UInt64} (hsender : system.sender = .loaded inflightSizeValue) :
    Ends (system.addInflightSize layout inflightSizeValue) (Inv layout) fun _ => False := by
  have hplanned := h.planned
  rw [hsender] at hplanned
  obtain ⟨hposted, n, hn, hvalue, hcredit⟩ := hplanned
  have hpos := hfits.positive
  have hsmall := hfits.requests
  have hne := Layout.kRequestSize_ne_zero hpos
  have hnum := Layout.sendingDataNum_toNat hpos hvalue hn
  have hmul : (layout.kNumRequest.toNat - n) * layout.kRequestSize.toNat ≤
      layout.kNumRequest.toNat * layout.kRequestSize.toNat :=
    Nat.mul_le_mul_right _ (Nat.sub_le _ _)
  have hsize : ((layout.inflightTotal - inflightSizeValue) / layout.kRequestSize.toUInt64 *
      layout.kRequestSize.toUInt64).toNat =
      (layout.kNumRequest.toNat - n) * layout.kRequestSize.toNat := by
    rw [UInt64.toNat_mul, hnum, UInt32.toNat_toUInt64]
    exact Nat.mod_eq_of_lt (by omega)
  have hinflight := h.inflight
  have hcounted : system.history.credit * layout.kRequestSize.toNat ≤
      (system.history.passed (layout.followers + 2) + n) * layout.kRequestSize.toNat :=
    Nat.mul_le_mul_right _ hcredit
  rw [Nat.add_mul] at hcounted
  have hfull : n * layout.kRequestSize.toNat + (layout.kNumRequest.toNat - n) *
      layout.kRequestSize.toNat = layout.kNumRequest.toNat * layout.kRequestSize.toNat := by
    rw [← Nat.add_mul, Nat.add_sub_cancel' hn]
  have hadd : (system.inflightSize + (layout.inflightTotal - inflightSizeValue) /
      layout.kRequestSize.toUInt64 * layout.kRequestSize.toUInt64).toNat =
      system.inflightSize.toNat +
        (layout.kNumRequest.toNat - n) * layout.kRequestSize.toNat := by
    rw [UInt64.toNat_add, hsize]
    exact Nat.mod_eq_of_lt (by omega)
  unfold System.addInflightSize
  rw [if_neg hne]
  refine ⟨h.ordered.step (.take _ ?_), ?_, fun stream hstream => (h.linked stream hstream).congr
    rfl rfl, h.requestIds, h.receiveId, h.release, h.acked, ?_⟩
  · rw [hnum]
    omega
  · show (system.inflightSize + _).toNat + _ = (system.history.credit + UInt64.toNat _) * _
    rw [hadd, hnum, Nat.add_mul, ← hinflight]
    exact Nat.add_right_comm _ _ _
  · show Planned layout _ (if _ then Sender.sendingBig 0 _ else .sendingSmall _)
    split
    · refine ⟨layout.kNumRequest.toNat - n, Nat.sub_le _ _, hsize, ?_⟩
      show system.history.credit + UInt64.toNat _ + 0 = _
      rw [hnum, hposted]
      rfl
    · show system.history.credit + _ = system.history.passed 0 + _
      rw [hposted]

/-- The head's client posts requests that it has counted as in flight. -/
theorem post (h : Inv layout system) (hfits : Fits layout) {sender : Sender}
    (hnum : system.history.passed 0 + num ≤ system.history.credit)
    (hplanned : Planned layout (system.history.passBy 0 num) sender) :
    Inv layout { system.send 0 num layout.kRequestSize.toNat with sender := sender } := by
  have hpassed : ∀ place, (system.history.passBy 0 num).passed (place + 1) =
      system.history.passed (place + 1) :=
    fun place => Relay.passBy_of_ne (Nat.succ_ne_zero place)
  have hconsumed : ∀ stream, consumed layout (system.history.passBy 0 num) stream =
      consumed layout system.history stream := by
    intro stream
    unfold consumed
    rw [hpassed, hpassed]
  refine ⟨h.ordered.step (.start num hnum), ?_, fun stream hstream => ?_, fun node hnode => ?_, ?_,
    ?_, fun hbusy => ?_, hplanned⟩
  · show _ + (system.history.passBy 0 num).passed _ * _ = _
    rw [hpassed]
    exact h.inflight
  · have hlink := h.linked stream hstream
    show Linked layout (Function.update system.pollers 0 _ stream)
      (system.history.passBy 0 num) stream
    by_cases hsame : stream = 0
    · subst hsame
      rw [Function.update_self]
      refine ⟨?_, ?_⟩
      · show _ + (_ + num * layout.kRequestSize.toNat) = _
        rw [Relay.passBy_self, ← Nat.add_assoc, hlink.sent, Nat.add_mul,
          Layout.unit_of_lt hfits.followers]
      · rw [hconsumed]
        exact hlink.taken
    · rw [Function.update_of_ne hsame]
      exact hlink.congr (Relay.passBy_of_ne hsame) (hconsumed stream)
  · show (Function.update system.clients 0 _ node).requestId =
      UInt64.ofNat ((system.history.passBy 0 num).passed node)
    by_cases hsame : node = 0
    · subst hsame
      rw [Function.update_self, Relay.passBy_self, UInt64.ofNat_add, ← h.requestIds 0 hnode]
    · rw [Function.update_of_ne hsame, Relay.passBy_of_ne hsame]
      exact h.requestIds node hnode
  · show _ = UInt64.ofNat ((system.history.passBy 0 num).passed _)
    rw [hpassed]
    exact h.receiveId
  · show (system.history.passBy 0 num).passed _ = (system.history.passBy 0 num).passed _ + _
    rw [hpassed, hpassed]
    exact h.release
  · show _ ≤ (Function.update system.pollers 0 _ layout.followers).readLen
    rw [Function.update_of_ne (Nat.ne_of_gt hfits.followers)]
    exact h.acked hbusy

theorem sendSmallRequestsHead (h : Inv layout system) (hfits : Fits layout)
    {sendingDataNum : UInt64} (hsender : system.sender = .sendingSmall sendingDataNum) :
    Inv layout (system.sendSmallRequestsHead layout sendingDataNum) := by
  have hplanned := h.planned
  rw [hsender] at hplanned
  refine h.post hfits (le_of_eq hplanned.symm) ?_
  show system.history.credit = (system.history.passBy 0 _).passed 0
  rw [Relay.passBy_self]
  exact hplanned

theorem sendBigRequestsHead (h : Inv layout system) (hfits : Fits layout) {requestIndex : Nat}
    {sendingDataSize : UInt64}
    (hsender : system.sender = .sendingBig requestIndex sendingDataSize) :
    Ends (system.sendBigRequestsHead layout requestIndex sendingDataSize) (Inv layout)
      fun _ => False := by
  have hplanned := h.planned
  rw [hsender] at hplanned
  obtain ⟨n, hn, hsize, hposted⟩ := hplanned
  have hpos := hfits.positive
  have hcount : (sendingDataSize / layout.kRequestSize.toUInt64).toNat = n := by
    rw [UInt64.toNat_div, hsize, UInt32.toNat_toUInt64]
    exact Nat.mul_div_cancel _ hpos
  have hlimit : n < 2 ^ 31 :=
    ((Nat.le_mul_of_pos_right n hpos).trans (Nat.mul_le_mul_right _ hn)).trans_lt hfits.requests
  have hstarted := h.ordered.started
  unfold System.sendBigRequestsHead
  rw [hcount]
  split
  · rename_i hmore
    rw [if_pos (by omega)]
    refine h.post hfits (by omega) ⟨n, hn, hsize, ?_⟩
    show system.history.credit + (requestIndex + 1) = (system.history.passBy 0 1).passed 0 + n
    rw [Relay.passBy_self]
    omega
  · refine ⟨h.ordered, h.inflight, h.linked, h.requestIds, h.receiveId, h.release, h.acked, ?_⟩
    show system.history.credit = system.history.passed 0
    omega

/-- A reader's own bookkeeping. -/
theorem setPoller (h : Inv layout system) {poller : Poller}
    (hlink : stream ≤ layout.followers → Linked layout poller system.history stream)
    (hread : (system.pollers stream).readLen ≤ poller.readLen) :
    Inv layout (system.setPoller stream poller) := by
  refine ⟨h.ordered, h.inflight, fun stream' hstream' => ?_, h.requestIds, h.receiveId, h.release,
    fun hbusy => ?_, h.planned⟩
  · show Linked layout (Function.update system.pollers stream poller stream') _ _
    by_cases hsame : stream' = stream
    · subst hsame
      rw [Function.update_self]
      exact hlink hstream'
    · rw [Function.update_of_ne hsame]
      exact h.linked stream' hstream'
  · show _ ≤ (Function.update system.pollers stream poller layout.followers).readLen
    have hacked := h.acked hbusy
    by_cases hsame : layout.followers = stream
    · rw [hsame] at hacked ⊢
      rw [Function.update_self]
      exact hacked.trans hread
    · rw [Function.update_of_ne hsame]
      exact hacked

theorem read (h : Inv layout system) (hfits : Fits layout) {rs : Int}
    (hstream : stream ≤ layout.followers) (hrs : rs ≤ (system.pollers stream).stream) :
    Ends (system.read stream rs) (Inv layout)
      fun stop => stop = .abort ∧ rs ≤ 0 ∧ rs ≠ -11 ∧ rs ≠ -104 := by
  have hroom := h.readLen_lt hfits hstream
  have hlink := h.linked stream hstream
  unfold System.read
  dsimp only
  split
  · rename_i hpos
    have hcast : (rs.toNat : Int) = rs := Int.toNat_of_nonneg hpos.le
    rw [if_pos (by omega)]
    refine h.setPoller (fun _ => ⟨?_, ?_⟩) (Nat.le_add_right _ _)
    · rw [← hlink.sent]
      show _ + rs.toNat + (_ - rs.toNat) = _
      omega
    · show _ + rs.toNat = _ + (_ + rs.toNat)
      rw [hlink.taken]
      exact Nat.add_assoc _ _ _
  · rename_i hneg
    split
    · rename_i hother
      exact ⟨rfl, Int.not_lt.mp hneg, hother⟩
    · exact h

theorem finishTimeLog (h : Inv layout system) (hfits : Fits layout)
    (hrelease : system.release = .idle)
    (hread : ackSize.toNat ≤ (system.pollers layout.followers).readLen) :
    Inv layout { system.finishTimeLog layout with release := .logged } := by
  have hlink := h.linked layout.followers le_rfl
  have hlast : system.history.passed (layout.followers + 1) =
      system.history.passed (layout.followers + 2) := by
    rw [h.release, if_pos hrelease]
    rfl
  have hlt := hlink.consumed_lt (unit_pos hfits)
    (by rw [Layout.unit_followers]; exact hread)
  rw [consumed_followers, ← hlast] at hlt
  have hother : ∀ place ≠ layout.followers + 1,
      (system.history.passBy (layout.followers + 1) 1).passed place =
        system.history.passed place := fun place hne => Relay.passBy_of_ne hne
  have hconsumed : ∀ stream, consumed layout (system.history.passBy (layout.followers + 1) 1)
      stream = consumed layout system.history stream := by
    intro stream
    unfold consumed
    split
    · exact hother _ (by omega)
    · exact hother _ (by omega)
  refine ⟨h.ordered.step (.pass layout.followers (by omega) hlt), ?_, fun stream hstream =>
    (h.linked stream hstream).congr (hother _ (by omega)) (hconsumed stream),
    fun node hnode => ?_, ?_, ?_, fun _ => hread, ?_⟩
  · show _ + (system.history.passBy _ 1).passed _ * _ = _
    rw [hother _ (by omega)]
    exact h.inflight
  · show _ = UInt64.ofNat ((system.history.passBy _ 1).passed node)
    rw [hother _ (by omega)]
    exact h.requestIds node hnode
  · show system.receiveId + 1 = UInt64.ofNat ((system.history.passBy _ 1).passed _)
    rw [Relay.passBy_self, UInt64.ofNat_add, ← h.receiveId]
    rfl
  · show (system.history.passBy _ 1).passed _ = (system.history.passBy _ 1).passed _ + 1
    rw [Relay.passBy_self, hother _ (by omega), hlast]
  · exact h.planned.mono rfl (hother 0 (Nat.succ_ne_zero _).symm) Relay.passed_le_passBy

/-- A request that the head has logged is still counted as in flight. -/
theorem kRequestSize_le_inflightSize (h : Inv layout system) (hrelease : system.release ≠ .idle) :
    layout.kRequestSize.toUInt64 ≤ system.inflightSize := by
  have hlast := h.release
  rw [if_neg hrelease] at hlast
  have hcredit : system.history.passed (layout.followers + 1) ≤ system.history.credit :=
    h.ordered.passed_le_credit (by omega)
  have hmul : (system.history.passed (layout.followers + 2) + 1) * layout.kRequestSize.toNat ≤
      system.history.credit * layout.kRequestSize.toNat :=
    Nat.mul_le_mul_right _ (by omega)
  have hinflight := h.inflight
  rw [UInt64.le_iff_toNat_le, UInt32.toNat_toUInt64]
  rw [Nat.add_mul, Nat.one_mul] at hmul
  omega

theorem subInflightSize (h : Inv layout system) (hrelease : system.release = .checked) :
    Inv layout { (system.subInflightSize layout).setPoller layout.followers
      { system.pollers layout.followers with
        readLen := (system.pollers layout.followers).readLen - ackSize.toNat } with
      release := .idle } := by
  have hbusy : system.release ≠ .idle := by
    rw [hrelease]
    decide
  have hlast := h.release
  rw [if_neg hbusy] at hlast
  have hread := h.acked hbusy
  have hle := h.kRequestSize_le_inflightSize hbusy
  have hsub : (system.inflightSize - layout.kRequestSize.toUInt64).toNat =
      system.inflightSize.toNat - layout.kRequestSize.toNat := by
    rw [UInt64.toNat_sub_of_le _ _ hle, UInt32.toNat_toUInt64]
  rw [UInt64.le_iff_toNat_le, UInt32.toNat_toUInt64] at hle
  have hinflight := h.inflight
  have hother : ∀ place ≠ layout.followers + 2,
      (system.history.passBy (layout.followers + 2) 1).passed place =
        system.history.passed place := fun place hne => Relay.passBy_of_ne hne
  refine ⟨h.ordered.step (.pass (layout.followers + 1) (by omega) ?_), ?_,
    fun stream hstream => ?_, fun node hnode => ?_, ?_, ?_, fun hidle => absurd rfl hidle, ?_⟩
  · show system.history.passed (layout.followers + 2) < _
    omega
  · show (system.inflightSize - _).toNat + (system.history.passBy _ 1).passed _ * _ = _
    rw [hsub, Relay.passBy_self, Nat.add_mul, Nat.one_mul]
    show _ = system.history.credit * _
    omega
  · have hlink := h.linked stream hstream
    show Linked layout (Function.update system.pollers layout.followers _ stream)
      (system.history.passBy (layout.followers + 2) 1) stream
    by_cases hsame : stream = layout.followers
    · subst hsame
      rw [Function.update_self]
      refine ⟨?_, ?_⟩
      · rw [hother _ (by omega)]
        exact hlink.sent
      · have htaken := hlink.taken
        rw [consumed_followers, Layout.unit_followers] at htaken ⊢
        rw [Relay.passBy_self, Nat.add_mul, Nat.one_mul]
        show (system.pollers layout.followers).received = _ + (_ - _)
        omega
    · rw [Function.update_of_ne hsame]
      have hlt := Nat.lt_of_le_of_ne hstream hsame
      refine hlink.congr (hother _ (by omega)) ?_
      rw [consumed_of_lt hlt, consumed_of_lt hlt]
      exact hother _ (by omega)
  · show _ = UInt64.ofNat ((system.history.passBy _ 1).passed node)
    rw [hother _ (by omega)]
    exact h.requestIds node hnode
  · show _ = UInt64.ofNat ((system.history.passBy _ 1).passed _)
    rw [hother _ (by omega)]
    exact h.receiveId
  · show (system.history.passBy _ 1).passed _ = (system.history.passBy _ 1).passed _ + 0
    rw [Relay.passBy_self, hother _ (by omega), hlast]
  · exact h.planned.mono rfl (hother 0 (Nat.succ_ne_zero _).symm) Relay.passed_le_passBy

theorem headPoll (h : Inv layout system) (hfits : Fits layout) :
    Ends (system.headPoll layout) (Inv layout) fun _ => False := by
  unfold System.headPoll
  dsimp only
  split
  · rename_i hrelease
    split
    · rename_i hread
      exact h.finishTimeLog hfits hrelease hread
    · exact h.setPoller (fun hstream => ⟨(h.linked _ hstream).sent, (h.linked _ hstream).taken⟩)
        le_rfl
  · rename_i hrelease
    have hbusy : system.release ≠ .idle := by
      rw [hrelease]
      decide
    rw [if_pos (h.kRequestSize_le_inflightSize hbusy)]
    have hlast := h.release
    rw [if_neg hbusy] at hlast
    exact ⟨h.ordered, h.inflight, h.linked, h.requestIds, h.receiveId, hlast,
      fun _ => h.acked hbusy, h.planned⟩
  · rename_i hrelease
    exact h.subInflightSize hrelease

theorem forwardPoll (h : Inv layout system) (hfits : Fits layout)
    {sendingRequestSize : UInt32} (hfollower : follower < layout.followers)
    (hsize : sendingRequestSize.toNat = layout.unit (follower + 1)) :
    Inv layout (system.forwardPoll layout follower sendingRequestSize) := by
  have hlink := h.linked follower hfollower.le
  unfold System.forwardPoll
  dsimp only
  split
  · rename_i htest
    obtain ⟨hread, -⟩ := htest
    have hunit := Layout.unit_of_lt hfollower
    have hlt := hlink.consumed_lt (unit_pos hfits) (by rw [hunit]; exact hread)
    rw [consumed_of_lt hfollower] at hlt
    have hother : ∀ place ≠ follower + 1, (system.history.passBy (follower + 1) 1).passed place =
        system.history.passed place := fun place hne => Relay.passBy_of_ne hne
    refine ⟨h.ordered.step (.pass follower (by omega) hlt), ?_, fun stream hstream => ?_,
      fun node hnode => ?_, ?_, ?_, fun hbusy => ?_, ?_⟩
    · show _ + (system.history.passBy _ 1).passed _ * _ = _
      rw [hother _ (by omega)]
      exact h.inflight
    · show Linked layout (Function.update (Function.update system.pollers follower _)
        (follower + 1) _ stream) (system.history.passBy (follower + 1) 1) stream
      by_cases hnext : stream = follower + 1
      · subst hnext
        have hlink' := h.linked _ hstream
        rw [Function.update_self]
        show Linked layout { Function.update system.pollers follower _ (follower + 1) with
          stream := (Function.update system.pollers follower _ (follower + 1)).stream + _ } _ _
        rw [Function.update_of_ne (Nat.succ_ne_self follower)]
        refine ⟨?_, ?_⟩
        · rw [Relay.passBy_self, Nat.add_mul, ← hlink'.sent, ← hsize]
          exact (Nat.add_assoc _ _ _).symm
        · have htaken := hlink'.taken
          unfold consumed at htaken ⊢
          rw [hother _ (by omega), hother _ (by omega)]
          exact htaken
      · rw [Function.update_of_ne hnext]
        by_cases hsame : stream = follower
        · subst hsame
          rw [Function.update_self]
          refine ⟨?_, ?_⟩
          · rw [hother _ hnext]
            exact hlink.sent
          · have htaken := hlink.taken
            rw [consumed_of_lt hfollower, hunit] at htaken ⊢
            rw [Relay.passBy_self, Nat.add_mul, Nat.one_mul]
            show (system.pollers stream).received = _ + (_ - _)
            omega
        · rw [Function.update_of_ne hsame]
          refine (h.linked stream hstream).congr (hother _ hnext) ?_
          unfold consumed
          rw [hother _ (by omega), hother _ (by omega)]
    · show (Function.update system.clients (follower + 1) _ node).requestId =
        UInt64.ofNat ((system.history.passBy (follower + 1) 1).passed node)
      by_cases hsame : node = follower + 1
      · subst hsame
        rw [Function.update_self, Relay.passBy_self, UInt64.ofNat_add, ← h.requestIds _ hnode]
        rfl
      · rw [Function.update_of_ne hsame, hother _ hsame]
        exact h.requestIds node hnode
    · show _ = UInt64.ofNat ((system.history.passBy _ 1).passed _)
      rw [hother _ (by omega)]
      exact h.receiveId
    · show (system.history.passBy _ 1).passed _ = (system.history.passBy _ 1).passed _ + _
      rw [hother _ (by omega), hother _ (by omega)]
      exact h.release
    · show _ ≤ (Function.update (Function.update system.pollers follower _) (follower + 1) _
        layout.followers).readLen
      have hacked := h.acked hbusy
      by_cases hlast : layout.followers = follower + 1
      · rw [hlast] at hacked ⊢
        rw [Function.update_self]
        show _ ≤ (Function.update system.pollers follower _ (follower + 1)).readLen
        rw [Function.update_of_ne (Nat.succ_ne_self follower)]
        exact hacked
      · rw [Function.update_of_ne hlast, Function.update_of_ne (Nat.ne_of_gt hfollower)]
        exact hacked
    · exact h.planned.mono rfl (hother 0 (Nat.succ_ne_zero _).symm) Relay.passed_le_passBy
  · exact h.setPoller (fun _ => ⟨hlink.sent, hlink.taken⟩) le_rfl

theorem sendStep (h : Inv layout system) (hfits : Fits layout) :
    Ends (sendStep layout system) (Inv layout) fun _ => False := by
  unfold Chain.sendStep
  split
  · exact h
  · rename_i hsender
    exact h.loadInflightSize hsender
  · rename_i hsender
    exact h.addInflightSize hfits hsender
  · rename_i hsender
    exact h.sendSmallRequestsHead hfits hsender
  · rename_i hsender
    exact h.sendBigRequestsHead hfits hsender

theorem pollStep (h : Inv layout system) (hfits : Fits layout)
    (hstream : stream ≤ layout.followers) :
    Ends (pollStep layout system stream) (Inv layout) fun _ => False := by
  unfold Chain.pollStep
  split
  · exact h.headPoll hfits
  · rename_i hne
    have hlt := Nat.lt_of_le_of_ne hstream hne
    split
    · rename_i hlast
      exact h.forwardPoll hfits hlt (by rw [hlast, Layout.unit_followers])
    · rename_i hmid
      exact h.forwardPoll hfits hlt (Layout.unit_of_lt (by omega)).symm

/-- A step stops only where `read` reports another error than the two that it may. -/
theorem step (h : Inv layout system) (hfits : Fits layout) {op : Op}
    (henabled : Enabled layout system op) :
    Ends (step layout system op) (Inv layout) fun stop => stop = .abort ∧
      ∃ stream rs, op = .read stream rs ∧ rs ≤ 0 ∧ rs ≠ -11 ∧ rs ≠ -104 := by
  cases op with
  | readyToSend node => exact h.readyToSend henabled.2
  | sendRequests =>
      exact (h.sendStep hfits).mono (fun _ hinv => hinv) fun _ hfalse => hfalse.elim
  | read stream rs =>
      refine (h.read hfits henabled.1 henabled.2.2.1).mono (fun _ hinv => hinv) ?_
      rintro _ ⟨habort, hrs⟩
      exact ⟨habort, stream, rs, rfl, hrs⟩
  | poll stream =>
      exact (h.pollStep hfits henabled.1).mono (fun _ hinv => hinv) fun _ hfalse => hfalse.elim

end Inv

theorem inv_of_reachable (hfits : Fits layout) (h : (machine layout).Reachable system) :
    Inv layout system :=
  h.invariant (fun _ hstart => Inv.start hstart)
    fun _ _ _ _ hinv henabled hrun => (hinv.step hfits henabled).value hrun

/-- Nothing is on the way and no thread is in the middle of its work. -/
structure Quiet (layout : Layout) (system : System) : Prop where
  sender : system.sender = .loading
  streams : ∀ stream ≤ layout.followers, (system.pollers stream).stream = 0
  pollers : ∀ stream ≤ layout.followers, (system.pollers stream).looping = false

/-- A follower whose client is not ready reads nothing. -/
def PromptRead (layout : Layout) (system : System) : Op → Prop
  | .read stream _ => stream < layout.followers → (system.clients (stream + 1)).ready
  | _ => True

end RdmaCapsule.Clients.Chain
