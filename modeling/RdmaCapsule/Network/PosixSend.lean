import Mathlib
import RdmaCapsule.Core.Endpoint

/-! `PosixConnectedSocketImpl::send`: a list of buffers goes to the kernel in arrays of
iovecs, and the list is trimmed by what the kernel took. A byte is known here by its
address and by the place of its buffer in the list, so that what was sent can be
compared with what was to be sent. -/
namespace RdmaCapsule.Core

/-- `Buffer::Move`, with what it returns. -/
def Buffer.move (size : UInt32) (buffer : Buffer) : UInt32 × Buffer :=
  let last := buffer.start + buffer.len.toNat
  let cur := if last > buffer.cur + size.toNat then buffer.cur + size.toNat else last
  (if cur = last then 0 else size - UInt32.ofNat (cur - buffer.cur), { buffer with cur })

namespace BufferList

inductive MoveStop where
  | kassertLen
  | spins
  deriving DecidableEq

/-- The loop of `BufferList::Move`. It comes back to a buffer that is not finished; there
would be no more to move then. -/
def moveLoop : List Buffer → UInt32 → UInt32 → Except MoveStop (UInt32 × BufferList)
  | [], size, len => .ok (size, ⟨[], len⟩)
  | buffer :: rest, preSize, len =>
      if preSize = 0 then .ok (0, ⟨buffer :: rest, len⟩)
      else
        let (size, buffer) := buffer.move preSize
        if len ≤ preSize - size then .error .kassertLen
        else
          let len := len - (preSize - size)
          if buffer.getRemainingLen = 0 then moveLoop rest size len
          else if size = 0 then .ok (0, ⟨buffer :: rest, len⟩)
          else .error .spins

def move (size : UInt32) (bl : BufferList) : Except MoveStop (UInt32 × BufferList) :=
  moveLoop bl.bufferList size bl.len

end BufferList

end RdmaCapsule.Core

namespace RdmaCapsule.Network

open RdmaCapsule.Foundation RdmaCapsule.Core

/-- What one `sendmsg` gives. -/
inductive Outcome where
  | took (n : Nat)
  | eintr
  | eagain
  | failed (errno : Nat)

/-- Why a call of `send` does not return. -/
inductive Stop where
  /-- The next `sendmsg` has not been answered. -/
  | waiting
  /-- More was taken than had been offered. -/
  | notOffered
  | move (stop : BufferList.MoveStop)
  deriving DecidableEq

/-- `struct iovec`, with the place of its buffer in the list. -/
structure Iovec where
  place : Nat
  iovBase : Nat
  iovLen : Nat

abbrev Byte := Nat × Nat

/-- `kPosixIOVMax`. -/
def posixIovMax : Nat := 1024

def Iovec.bytes (iov : Iovec) : List Byte :=
  (List.range' iov.iovBase iov.iovLen).map fun address => (iov.place, address)

def iovBytes (iovs : List Iovec) : List Byte := iovs.flatMap Iovec.bytes

/-- The inner loop of `do_sendmsg`. -/
def advance (r : Nat) : List Iovec → List Iovec
  | [] => []
  | iov :: rest =>
      if r = 0 then iov :: rest
      else if iov.iovLen ≤ r then advance (r - iov.iovLen) rest
      else { iov with iovBase := iov.iovBase + r, iovLen := iov.iovLen - r } :: rest

/-- `do_sendmsg`, with the answers of the kernel, what has been sent so far and what has
gone over the wire. -/
def doSendmsg (len : Nat) :
    List Outcome → Nat → List Iovec → List Byte → Except Stop (Int × List Byte × List Outcome)
  | [], _, _, _ => .error .waiting
  | .eintr :: outcomes, sent, iovs, wire => doSendmsg len outcomes sent iovs wire
  | .eagain :: outcomes, sent, _, wire => .ok (sent, wire, outcomes)
  | .failed errno :: outcomes, _, _, wire => .ok (-errno, wire, outcomes)
  | .took r :: outcomes, sent, iovs, wire =>
      if (iovBytes iovs).length < r then .error .notOffered
      else if len = sent + r then
        .ok ((sent + r : Nat), wire ++ (iovBytes iovs).take r, outcomes)
      else doSendmsg len outcomes (sent + r) (advance r iovs) (wire ++ (iovBytes iovs).take r)

/-- The arrays that `send` fills, one after the other. -/
def msgvecs : Nat → List Iovec → List (List Iovec)
  | 0, _ => []
  | _ + 1, [] => []
  | left + 1, iovs => iovs.take posixIovMax :: msgvecs left (iovs.drop posixIovMax)

/-- The sum that is taken in an `unsigned`. -/
def msglen (msgvec : List Iovec) : Nat := (msgvec.map (·.iovLen)).sum % 2 ^ 32

/-- The loop of `send`. A negative result is what `send` returns. -/
def sendLoop : List (List Iovec) → List Outcome → Int → List Byte →
    Except Stop (Int × List Byte × List Outcome)
  | [], outcomes, sentBytes, wire => .ok (sentBytes, wire, outcomes)
  | msgvec :: rest, outcomes, sentBytes, wire => do
      let (r, wire, outcomes) ← doSendmsg (msglen msgvec) outcomes 0 msgvec wire
      if r < 0 then pure (r, wire, outcomes)
      else if r % 2 ^ 32 < msglen msgvec then pure (sentBytes + r, wire, outcomes)
      else sendLoop rest outcomes (sentBytes + r) wire

/-- The iovecs of a list of buffers. -/
def iovecs (bl : BufferList) : List Iovec :=
  bl.bufferList.zipIdx.map fun (buffer, place) => ⟨place, buffer.cur, buffer.len.toNat⟩

/-- What `send` returns, the list it leaves, what has gone over the wire and the answers
of the kernel that it has not used. -/
def send (bl : BufferList) (outcomes : List Outcome) :
    Except Stop (Int × BufferList × List Byte × List Outcome) := do
  let (sentBytes, wire, outcomes) ←
    sendLoop (msgvecs bl.bufferList.length (iovecs bl)) outcomes 0 []
  if sentBytes ≤ 0 then pure (sentBytes, bl, wire, outcomes)
  else if sentBytes < bl.len.toNat then
    let (_, bl) ← (bl.move (UInt32.ofNat sentBytes.toNat)).mapError .move
    pure (sentBytes, bl, wire, outcomes)
  else pure (sentBytes, bl.clear, wire, outcomes)

/-- What is left of a buffer. -/
def left (buffer : Buffer) : Nat := buffer.start + buffer.len.toNat - buffer.cur

/-- The addresses of the bytes that a list still holds. -/
def held (bl : BufferList) : List Nat :=
  bl.bufferList.flatMap fun buffer => List.range' buffer.cur (left buffer)

/-- The same with the places of the buffers. -/
def heldBytes (bl : BufferList) : List Byte :=
  bl.bufferList.zipIdx.flatMap fun (buffer, place) =>
    (List.range' buffer.cur (left buffer)).map fun address => (place, address)

/-- The cursor of a buffer is inside it. -/
def Inside (buffer : Buffer) : Prop :=
  buffer.start ≤ buffer.cur ∧ buffer.cur ≤ buffer.start + buffer.len.toNat

instance (buffer : Buffer) : Decidable (Inside buffer) := inferInstanceAs (Decidable (_ ∧ _))

/-- The cached length is that of the list. -/
def Proper (bl : BufferList) : Prop :=
  (∀ buffer ∈ bl.bufferList, Inside buffer) ∧ bl.len.toNat = (held bl).length

instance (bl : BufferList) : Decidable (Proper bl) := inferInstanceAs (Decidable (_ ∧ _))

/-- What went over the wire is the front of the list, its length is returned, and the rest
is left. -/
def Faithful (bl : BufferList) (r : Int) (bl' : BufferList) (wire : List Byte) : Prop :=
  wire <+: heldBytes bl ∧ r = wire.length ∧ held bl' = (held bl).drop wire.length ∧ Proper bl'

/-- The bytes that the kernel takes. -/
def taken : List Outcome → Nat
  | [] => 0
  | .took n :: outcomes => n + taken outcomes
  | _ :: outcomes => taken outcomes

/-- The answers that are left when the first array of iovecs is done with: the kernel would
block, or what it took comes to the length that was computed. -/
def afterFirst (len : Nat) : Nat → List Outcome → List Outcome
  | _, [] => []
  | sent, .took r :: outcomes =>
      if len = sent + r then outcomes else afterFirst len (sent + r) outcomes
  | sent, .eintr :: outcomes => afterFirst len sent outcomes
  | _, .eagain :: outcomes => outcomes
  | _, .failed _ :: outcomes => outcomes

/-- The length of the first array of iovecs, as `send` computes it. -/
def firstLen (bl : BufferList) : Nat := msglen ((iovecs bl).take posixIovMax)

/-- The kernel takes nothing, or no more than is left of the first buffer and less than all,
and that from the first array. -/
def Within (bl : BufferList) (outcomes : List Outcome) : Prop :=
  taken outcomes = 0 ∨
    (∃ buffer ∈ bl.bufferList.head?, taken outcomes ≤ left buffer) ∧
      taken outcomes < bl.len.toNat ∧ taken (afterFirst (firstLen bl) 0 outcomes) = 0

variable {bl bl' : BufferList} {outcomes : List Outcome}

theorem length_bytes (iov : Iovec) : iov.bytes.length = iov.iovLen := by
  simp [Iovec.bytes]

theorem iovBytes_cons (iov : Iovec) (rest : List Iovec) :
    iovBytes (iov :: rest) = iov.bytes ++ iovBytes rest := rfl

/-- What is offered next is what was not taken. -/
theorem iovBytes_advance (r : Nat) (iovs : List Iovec) :
    iovBytes (advance r iovs) = (iovBytes iovs).drop r := by
  induction iovs generalizing r with
  | nil => simp [advance, iovBytes]
  | cons iov rest ih =>
      unfold advance
      split
      · rename_i hzero
        rw [hzero, List.drop_zero]
      · split
        · rename_i hwhole
          have hdone : iov.bytes.drop r = [] :=
            List.drop_eq_nil_of_le (by rw [length_bytes]; exact hwhole)
          rw [ih, iovBytes_cons, List.drop_append, length_bytes, hdone, List.nil_append]
        · rename_i hpart
          rw [iovBytes_cons, iovBytes_cons, List.drop_append_of_le_length
            (by rw [length_bytes]; omega)]
          congr 1
          simp [Iovec.bytes, ← List.map_drop, List.drop_range']

/-- The kernel gives no hard error. -/
def NoneFailed (outcomes : List Outcome) : Prop := ∀ errno, .failed errno ∉ outcomes

theorem NoneFailed.tail {outcome : Outcome} (h : NoneFailed (outcome :: outcomes)) :
    NoneFailed outcomes := fun errno hmem => h errno (List.mem_cons_of_mem _ hmem)

theorem NoneFailed.afterFirst (h : NoneFailed outcomes) (len sent : Nat) :
    NoneFailed (afterFirst len sent outcomes) := by
  induction outcomes generalizing sent with
  | nil => exact h
  | cons outcome rest ih =>
      cases outcome with
      | took r =>
          unfold Network.afterFirst
          split
          · exact h.tail
          · exact ih h.tail _
      | eintr => exact ih h.tail sent
      | eagain => exact h.tail
      | failed errno => exact h.tail

/-- The kernel is at fault, or has not answered. -/
def Stop.Kernel (stop : Stop) : Prop := stop = .waiting ∨ stop = .notOffered

/-- `do_sendmsg` sends the front of what is in the iovecs. -/
theorem doSendmsg_sends (h : NoneFailed outcomes) (len sent : Nat) (iovs : List Iovec)
    (wire : List Byte) :
    Ends (doSendmsg len outcomes sent iovs wire)
      (fun result => ∃ n, result.1 = (sent + n : Nat) ∧
        result.2.1 = wire ++ (iovBytes iovs).take n ∧ n ≤ (iovBytes iovs).length ∧
        result.2.2 = afterFirst len sent outcomes ∧
        taken outcomes = n + taken (afterFirst len sent outcomes)) Stop.Kernel := by
  induction outcomes generalizing sent iovs wire with
  | nil => exact .inl rfl
  | cons outcome rest ih =>
      cases outcome with
      | eintr => exact ih h.tail sent iovs wire
      | eagain =>
          refine ⟨0, rfl, by simp, Nat.zero_le _, rfl, ?_⟩
          simp [taken, afterFirst]
      | failed errno => exact absurd List.mem_cons_self (h errno)
      | took r =>
          unfold doSendmsg
          split
          · exact .inr rfl
          · rename_i hoffered
            split
            · rename_i hall
              refine ⟨r, rfl, rfl, by omega, ?_⟩
              simp [taken, afterFirst, hall]
            · rename_i hmore
              refine (ih h.tail (sent + r) (advance r iovs) _).mono ?_ fun _ => id
              rintro ⟨r', wire', rest'⟩ ⟨n, hr, hwire, hn, hrest, htaken⟩
              rw [iovBytes_advance, List.length_drop] at hn
              dsimp only at hr hwire hrest
              refine ⟨r + n, by rw [hr, Nat.add_assoc], ?_, by omega, ?_, ?_⟩
              · dsimp only
                rw [hwire, iovBytes_advance, List.take_add, List.append_assoc]
              · dsimp only
                rw [hrest, afterFirst, if_neg hmore]
              · rw [taken, htaken, afterFirst, if_neg hmore]
                omega

/-- The loop of `send` sends bytes of its arrays. -/
theorem sendLoop_sends (h : NoneFailed outcomes) (arrays : List (List Iovec)) (sentBytes : Nat)
    (wire : List Byte) :
    Ends (sendLoop arrays outcomes sentBytes wire)
      (fun result => ∃ more : List Byte, result.1 = (sentBytes + more.length : Nat) ∧
        result.2.1 = wire ++ more ∧ taken outcomes = more.length + taken result.2.2 ∧
        ∀ byte ∈ more, byte ∈ iovBytes arrays.flatten) Stop.Kernel := by
  induction arrays generalizing outcomes sentBytes wire with
  | nil => exact ⟨[], by simp, by simp, by simp, by simp⟩
  | cons msgvec rest ih =>
      unfold sendLoop
      refine (doSendmsg_sends h (msglen msgvec) 0 msgvec wire).bind ?_
      rintro ⟨r, wire', outcomes'⟩ ⟨n, hr, hwire, hn, hrest, htaken⟩
      dsimp only at hr hwire hrest ⊢
      have hfirst : ∀ byte ∈ (iovBytes msgvec).take n, byte ∈ iovBytes (msgvec :: rest).flatten := by
        intro byte hbyte
        simp only [iovBytes, List.flatten_cons, List.flatMap_append]
        exact List.mem_append_left _ (List.mem_of_mem_take hbyte)
      have hlength : ((iovBytes msgvec).take n).length = n := List.length_take_of_le hn
      rw [Nat.zero_add] at hr
      rw [hr, if_neg (by omega)]
      split
      · refine ⟨(iovBytes msgvec).take n, ?_, hwire, ?_, hfirst⟩
        · rw [hlength]
          rfl
        · dsimp only
          rw [hlength, hrest]
          exact htaken
      · have hnone := h.afterFirst (msglen msgvec) 0
        rw [← hrest] at hnone htaken
        refine (ih hnone (sentBytes + n) wire').mono ?_ fun _ => id
        rintro ⟨r', wire'', rest'⟩ ⟨more, hr', hwire', htaken', hmore⟩
        refine ⟨(iovBytes msgvec).take n ++ more, ?_, ?_, ?_, ?_⟩
        · dsimp only at hr' ⊢
          rw [hr', List.length_append, hlength, Nat.add_assoc]
        · dsimp only at hwire' ⊢
          rw [hwire', hwire, List.append_assoc]
        · dsimp only at htaken' ⊢
          rw [List.length_append, hlength]
          omega
        · intro byte hbyte
          rcases List.mem_append.mp hbyte with hold | hnew
          · exact hfirst byte hold
          · simp only [iovBytes, List.flatten_cons, List.flatMap_append]
            exact List.mem_append_right _ (hmore byte hnew)

theorem mem_of_mem_msgvecs {iov : Iovec} (left : Nat) (iovs : List Iovec)
    (h : iov ∈ (msgvecs left iovs).flatten) : iov ∈ iovs := by
  induction left generalizing iovs with
  | zero => exact nomatch h
  | succ left ih =>
      cases iovs with
      | nil => exact nomatch h
      | cons first rest =>
          unfold msgvecs at h
          rw [List.flatten_cons] at h
          rcases List.mem_append.mp h with htake | hdrop
          · exact List.mem_of_mem_take htake
          · exact List.mem_of_mem_drop (ih _ hdrop)

/-- A byte of a later array is not one of the first buffer. -/
theorem place_ne_zero {buffer : Buffer} {rest : List Buffer} {byte : Byte} {left : Nat}
    (hbl : bl.bufferList = buffer :: rest)
    (h : byte ∈ iovBytes (msgvecs left ((iovecs bl).drop posixIovMax)).flatten) : byte.1 ≠ 0 := by
  obtain ⟨iov, hiov, hbyte⟩ := List.mem_flatMap.mp h
  have hmem := mem_of_mem_msgvecs left _ hiov
  have htail : iov ∈ (rest.zipIdx 1).map fun (buffer, place) =>
      (⟨place, buffer.cur, buffer.len.toNat⟩ : Iovec) := by
    unfold iovecs at hmem
    rw [hbl] at hmem
    exact List.mem_of_mem_drop (i := 1023) hmem
  obtain ⟨pair, hpair, rfl⟩ := List.mem_map.mp htail
  obtain ⟨address, _, rfl⟩ := List.mem_map.mp hbyte
  have hplace := List.le_snd_of_mem_zipIdx hpair
  dsimp only
  omega

/-- What the loop sends comes from the first array until that is done with, and then from the
others. -/
theorem sendLoop_first {buffer : Buffer} {rest : List Buffer}
    (hbl : bl.bufferList = buffer :: rest) (h : NoneFailed outcomes) :
    Ends (sendLoop (msgvecs bl.bufferList.length (iovecs bl)) outcomes 0 [])
      (fun result => ∃ n, ∃ more : List Byte, result.1 = (n + more.length : Nat) ∧
        result.2.1 = (iovBytes ((iovecs bl).take posixIovMax)).take n ++ more ∧
        n ≤ (iovBytes ((iovecs bl).take posixIovMax)).length ∧
        taken outcomes = n + taken (afterFirst (firstLen bl) 0 outcomes) ∧
        taken (afterFirst (firstLen bl) 0 outcomes) = more.length + taken result.2.2 ∧
        ∀ byte ∈ more, byte.1 ≠ 0) Stop.Kernel := by
  have hiovs : iovecs bl = ⟨0, buffer.cur, buffer.len.toNat⟩ ::
      (rest.zipIdx 1).map fun (buffer, place) =>
        (⟨place, buffer.cur, buffer.len.toNat⟩ : Iovec) := by
    unfold iovecs
    rw [hbl]
    rfl
  have harrays : msgvecs bl.bufferList.length (iovecs bl) =
      (iovecs bl).take posixIovMax ::
        msgvecs rest.length ((iovecs bl).drop posixIovMax) := by
    rw [hbl, hiovs]
    rfl
  rw [harrays]
  unfold sendLoop
  refine (doSendmsg_sends h _ 0 _ []).bind ?_
  rintro ⟨r, wire, outcomes'⟩ ⟨n, hr, hwire, hn, hrest, htaken⟩
  dsimp only at hr hwire hrest ⊢
  rw [Nat.zero_add] at hr
  rw [List.nil_append] at hwire
  rw [hr, if_neg (by omega)]
  change taken outcomes = n + taken (afterFirst (firstLen bl) 0 outcomes) at htaken
  split
  · refine ⟨n, [], by simp, by simpa using hwire, hn, htaken, ?_, by simp⟩
    dsimp only
    rw [hrest]
    simp [firstLen]
  · have hnone := h.afterFirst (firstLen bl) 0
    have hloop := sendLoop_sends hnone (msgvecs rest.length ((iovecs bl).drop posixIovMax)) n wire
    rw [hrest, Int.zero_add]
    refine hloop.mono ?_ fun _ => id
    rintro ⟨r', wire', rest'⟩ ⟨more, hr', hwire', htaken', hmore⟩
    refine ⟨n, more, hr', ?_, hn, htaken, htaken', ?_⟩
    · rw [hwire', hwire]
    · intro byte hbyte
      exact place_ne_zero hbl (hmore byte hbyte)

theorem getRemainingLen_toNat {buffer : Buffer} (h : Inside buffer) :
    buffer.getRemainingLen.toNat = left buffer := by
  obtain ⟨hstart, hcur⟩ := h
  have hlen := buffer.len.toNat_lt
  have hoffset : (UInt32.ofNat (buffer.cur - buffer.start)).toNat = buffer.cur - buffer.start :=
    UInt32.toNat_ofNat_of_lt' (by change _ < 2 ^ 32; omega)
  unfold Buffer.getRemainingLen left
  rw [UInt32.toNat_sub_of_le _ _ (UInt32.le_iff_toNat_le.mpr (by omega)), hoffset]
  omega

/-- A buffer without the next `n` bytes, as far as it has them. -/
def trim (buffer : Buffer) (n : Nat) : Buffer :=
  { buffer with cur := buffer.cur + min n (left buffer) }

theorem left_trim (buffer : Buffer) (n : Nat) :
    left (trim buffer n) = left buffer - min n (left buffer) := by
  unfold trim left
  dsimp only
  omega

theorem Inside.trim {buffer : Buffer} (h : Inside buffer) (n : Nat) : Inside (trim buffer n) := by
  unfold Inside Network.trim left at *
  dsimp only
  omega

/-- `Buffer::Move` returns zero, whether or not the buffer has all that is to be moved. -/
theorem buffer_move {buffer : Buffer} (h : Inside buffer) (size : UInt32) :
    buffer.move size = (0, trim buffer size.toNat) := by
  obtain ⟨hstart, hcur⟩ := h
  unfold Buffer.move trim left
  dsimp only
  by_cases hpart : buffer.start + buffer.len.toNat > buffer.cur + size.toNat
  · rw [if_pos hpart, if_neg (by omega), Nat.min_eq_left (by omega), Nat.add_sub_cancel_left,
      UInt32.ofNat_toNat, UInt32.sub_self]
  · rw [if_neg hpart, if_pos rfl, Nat.min_eq_right (by omega)]
    congr 2
    omega

/-- The buffers that `BufferList::Move` leaves: a finished one goes, and what was to be moved
beyond it is moved nowhere. -/
def trimmed (buffer : Buffer) (rest : List Buffer) (n : Nat) : List Buffer :=
  if left buffer ≤ n then rest else trim buffer n :: rest

theorem moveLoop_trims {buffer : Buffer} (hinside : Inside buffer) (rest : List Buffer)
    {size len : UInt32} (hpos : 0 < size.toNat) (hless : size.toNat < len.toNat) :
    BufferList.moveLoop (buffer :: rest) size len =
      .ok (0, ⟨trimmed buffer rest size.toNat, len - size⟩) := by
  have hsize : size ≠ 0 := by
    rintro rfl
    exact absurd hpos (by simp)
  have hlen : ¬ len ≤ size := by
    rw [UInt32.le_iff_toNat_le]
    omega
  have hremaining : (trim buffer size.toNat).getRemainingLen.toNat =
      left buffer - min size.toNat (left buffer) := by
    rw [getRemainingLen_toNat (hinside.trim size.toNat), left_trim]
  unfold BufferList.moveLoop
  rw [if_neg hsize, buffer_move hinside]
  dsimp only
  rw [UInt32.sub_zero, if_neg hlen]
  unfold trimmed
  by_cases hall : left buffer ≤ size.toNat
  · have hfinished : (trim buffer size.toNat).getRemainingLen = 0 := by
      apply UInt32.toNat_inj.mp
      rw [hremaining, UInt32.toNat_zero]
      omega
    rw [if_pos hfinished, if_pos hall]
    cases rest with
    | nil => rfl
    | cons next rest =>
        unfold BufferList.moveLoop
        rw [if_pos rfl]
  · have hunfinished : (trim buffer size.toNat).getRemainingLen ≠ 0 := by
      intro hzero
      rw [hzero, UInt32.toNat_zero] at hremaining
      omega
    rw [if_neg hunfinished, if_pos rfl, if_neg hall]

theorem held_trimmed (buffer : Buffer) (rest : List Buffer) (n : Nat) (len len' : UInt32) :
    held ⟨trimmed buffer rest n, len'⟩ =
      (held ⟨buffer :: rest, len⟩).drop (min n (left buffer)) := by
  have hheld : held ⟨buffer :: rest, len⟩ =
      List.range' buffer.cur (left buffer) ++ held ⟨rest, len'⟩ := rfl
  unfold trimmed
  rw [hheld]
  split
  · rename_i hall
    rw [Nat.min_eq_right hall, List.drop_left' (List.length_range' ..)]
  · rename_i hpart
    have hcons : held ⟨trim buffer n :: rest, len'⟩ =
        List.range' (buffer.cur + min n (left buffer)) (left (trim buffer n)) ++
          held ⟨rest, len'⟩ := rfl
    have hpast : min n (left buffer) ≤ (List.range' buffer.cur (left buffer)).length := by
      rw [List.length_range']
      exact Nat.min_le_right n (left buffer)
    rw [hcons, left_trim, List.drop_append_of_le_length hpast, List.drop_range', Nat.mul_one]

/-- `BufferList::Move` trims the first buffer only, and takes the whole off the length. -/
theorem move_trims {buffer : Buffer} {rest : List Buffer} {n : Nat} (hbl : Proper bl)
    (hlist : bl.bufferList = buffer :: rest) (hpos : 0 < n) (hn : n < bl.len.toNat) :
    ∃ bl', bl.move (UInt32.ofNat n) = .ok (0, bl') ∧ bl'.len.toNat = bl.len.toNat - n ∧
      (∀ buffer ∈ bl'.bufferList, Inside buffer) ∧
      held bl' = (held bl).drop (min n (left buffer)) := by
  obtain ⟨buffers, len⟩ := bl
  obtain rfl : buffers = buffer :: rest := hlist
  have hinside : Inside buffer := hbl.1 buffer List.mem_cons_self
  have hrest : ∀ buffer ∈ rest, Inside buffer := fun buffer hmem =>
    hbl.1 buffer (List.mem_cons_of_mem _ hmem)
  have hlen := len.toNat_lt
  have hsize : (UInt32.ofNat n).toNat = n :=
    UInt32.toNat_ofNat_of_lt' (lt_trans hn hlen)
  have hsub : (len - UInt32.ofNat n).toNat = len.toNat - n := by
    rw [UInt32.toNat_sub_of_le _ _ (UInt32.le_iff_toNat_le.mpr (hsize.trans_le hn.le)), hsize]
  have hmove := moveLoop_trims hinside rest (hsize.symm ▸ hpos) (hsize.symm ▸ hn)
  rw [hsize] at hmove
  refine ⟨_, hmove, hsub, ?_, held_trimmed ..⟩
  intro buffer' hmem
  unfold trimmed at hmem
  split at hmem
  · exact hrest buffer' hmem
  · rcases List.mem_cons.mp hmem with rfl | hmem
    · exact hinside.trim n
    · exact hrest buffer' hmem

theorem length_heldBytes (bl : BufferList) : (heldBytes bl).length = (held bl).length := by
  unfold heldBytes held
  generalize 0 = place
  induction bl.bufferList generalizing place with
  | nil => rfl
  | cons buffer rest ih => simp [List.zipIdx_cons, ih]

/-- The front of the first buffer, in the list and in the iovecs. -/
theorem take_heldBytes {buffer : Buffer} {rest : List Buffer} {n : Nat}
    (hlist : bl.bufferList = buffer :: rest) (hn : n ≤ left buffer) :
    (heldBytes bl).take n = (List.range' buffer.cur n).map fun address => (0, address) := by
  unfold heldBytes
  rw [hlist, List.zipIdx_cons, List.flatMap_cons, List.take_append_of_le_length (by simpa using hn),
    ← List.map_take, List.take_range'_of_length_ge hn]

theorem take_iovBytes {buffer : Buffer} {rest : List Buffer} {n : Nat}
    (hlist : bl.bufferList = buffer :: rest) (hinside : Inside buffer) (hn : n ≤ left buffer) :
    (iovBytes ((iovecs bl).take posixIovMax)).take n =
      (List.range' buffer.cur n).map fun address => (0, address) := by
  have hlen : n ≤ buffer.len.toNat := by
    unfold Inside left at *
    omega
  unfold iovecs
  rw [hlist, List.zipIdx_cons, List.map_cons]
  change List.take n (Iovec.bytes _ ++ iovBytes _) = _
  rw [List.take_append_of_le_length (by simpa [length_bytes] using hlen), Iovec.bytes,
    ← List.map_take, List.take_range'_of_length_ge hlen]

/-- A send that leaves something in the list. -/
theorem faithful_part_iff {buffer : Buffer} {rest : List Buffer} {n : Nat} {wire more : List Byte}
    (hbl : Proper bl) (hlist : bl.bufferList = buffer :: rest)
    (hwire : wire = (iovBytes ((iovecs bl).take posixIovMax)).take n ++ more)
    (hlength : wire.length = n + more.length) (hplace : ∀ byte ∈ more, byte.1 ≠ 0)
    (hpart : wire.length < bl.len.toNat) (hlen : bl'.len.toNat = bl.len.toNat - wire.length)
    (hinside : ∀ buffer ∈ bl'.bufferList, Inside buffer)
    (hheld : held bl' = (held bl).drop (min wire.length (left buffer))) :
    Faithful bl wire.length bl' wire ↔ wire.length ≤ left buffer ∧ more = [] := by
  constructor
  · rintro ⟨hfront, _, hrest, _⟩
    have hfirst : wire.length ≤ left buffer := by
      have hlengths := congrArg List.length (hheld.symm.trans hrest)
      rw [List.length_drop, List.length_drop, ← hbl.2] at hlengths
      omega
    refine ⟨hfirst, List.eq_nil_iff_forall_not_mem.mpr ?_⟩
    -- all that was sent is of the first buffer
    intro byte hbyte
    have hmem : byte ∈ wire := by
      rw [hwire]
      exact List.mem_append_right _ hbyte
    rw [List.prefix_iff_eq_take.mp hfront, take_heldBytes hlist hfirst] at hmem
    obtain ⟨address, _, rfl⟩ := List.mem_map.mp hmem
    exact hplace _ hbyte rfl
  · rintro ⟨hfirst, rfl⟩
    rw [Nat.min_eq_left hfirst] at hheld
    have hn : wire.length = n := hlength
    refine ⟨?_, rfl, hheld, hinside, ?_⟩
    · rw [hwire, List.append_nil, take_iovBytes hlist (hbl.1 buffer (by simp [hlist]))
        (hn ▸ hfirst), ← take_heldBytes hlist (hn ▸ hfirst)]
      exact List.take_prefix _ _
    · rw [hlen, hheld, List.length_drop, hbl.2]

theorem within_iff {buffer : Buffer} {rest : List Buffer} (hlist : bl.bufferList = buffer :: rest)
    (htaken : taken outcomes ≠ 0) :
    Within bl outcomes ↔ taken outcomes ≤ left buffer ∧ taken outcomes < bl.len.toNat ∧
      taken (afterFirst (firstLen bl) 0 outcomes) = 0 := by
  unfold Within
  rw [hlist]
  constructor
  · rintro (hnone | ⟨⟨buffer', hhead, hfirst⟩, hrest⟩)
    · exact absurd hnone htaken
    · cases hhead
      exact ⟨hfirst, hrest⟩
  · rintro ⟨hfirst, hrest⟩
    exact .inr ⟨⟨buffer, rfl, hfirst⟩, hrest⟩

/-- A call of `send` that the kernel answers by `outcomes` sends the front of the list and
leaves the rest exactly when the kernel takes nothing, or when it takes no more than is left
of the first buffer, and not all of the list. -/
theorem posix_send_faithful_iff (bl : BufferList) (hbl : Proper bl) (outcomes : List Outcome)
    (hfailed : NoneFailed outcomes) :
    Ends (send bl outcomes)
      (fun result => result.2.2.2 = [] →
        (Faithful bl result.1 result.2.1 result.2.2.1 ↔ Within bl outcomes)) Stop.Kernel := by
  unfold send
  cases hlist : bl.bufferList with
  | nil =>
      have hnothing : Faithful bl 0 bl [] := ⟨List.nil_prefix, rfl, rfl, hbl⟩
      intro houtcomes
      cases houtcomes
      exact iff_of_true hnothing (.inl rfl)
  | cons buffer rest =>
      rw [← hlist]
      refine (sendLoop_first hlist hfailed).bind ?_
      rintro ⟨sentBytes, wire, unused⟩ ⟨n, more, hsent, hwire, hn, htaken, hafter, hplace⟩
      dsimp only at hsent hwire hafter ⊢
      have hlength : wire.length = n + more.length := by
        rw [hwire, List.length_append, List.length_take_of_le hn]
      have htotal (hused : unused = []) : taken outcomes = wire.length := by
        rw [htaken, hafter, hused, taken]
        omega
      rw [← hlength] at hsent
      subst hsent
      by_cases hzero : wire.length = 0
      · rw [if_pos (by omega)]
        rintro rfl
        have hnil : wire = [] := List.eq_nil_of_length_eq_zero hzero
        have hnone : taken outcomes = 0 := (htotal rfl).trans hzero
        exact iff_of_true ⟨by simp [hnil], rfl, by simp [hnil], hbl⟩ (.inl hnone)
      · rw [if_neg (by omega)]
        split
        · rename_i hpart
          have hless : wire.length < bl.len.toNat := by omega
          obtain ⟨bl', hrun, hlen, hinside, hheld⟩ :=
            move_trims hbl hlist (Nat.pos_of_ne_zero hzero) hless
          rw [Int.toNat_natCast, hrun]
          rintro rfl
          rw [faithful_part_iff hbl hlist hwire hlength hplace hless hlen hinside hheld,
            within_iff hlist ((htotal rfl).trans_ne hzero), htotal rfl, hafter]
          constructor
          · rintro ⟨hfirst, rfl⟩
            exact ⟨hfirst, hless, rfl⟩
          · rintro ⟨hfirst, _, hmore⟩
            exact ⟨hfirst, List.eq_nil_of_length_eq_zero hmore⟩
        · rename_i hall
          rintro rfl
          refine iff_of_false ?_ ?_
          · rintro ⟨hfront, _, _, _, hlen⟩
            have hempty : bl.len.toNat = 0 := hlen
            have hle := hfront.length_le
            rw [length_heldBytes, ← hbl.2] at hle
            omega
          · rw [within_iff hlist ((htotal rfl).trans_ne hzero), htotal rfl]
            rintro ⟨_, hless, _⟩
            omega

/-- Two buffers of two bytes; the kernel takes one byte and would block. -/
theorem posix_send_faithful_iff_one_byte :
    ∃ bl' : BufferList, send ⟨[⟨10, 10, 2⟩, ⟨20, 20, 2⟩], 4⟩ [.took 1, .eagain] =
        .ok (1, bl', [(0, 10)], []) ∧
      Faithful ⟨[⟨10, 10, 2⟩, ⟨20, 20, 2⟩], 4⟩ 1 bl' [(0, 10)] := by
  have hproper : Proper ⟨[⟨10, 10, 2⟩, ⟨20, 20, 2⟩], 4⟩ := by decide
  have hiff := (posix_send_faithful_iff _ hproper [.took 1, .eagain] (by simp [NoneFailed])).value
    rfl rfl
  exact ⟨_, rfl, hiff.mpr (.inr ⟨⟨_, rfl, by decide⟩, by decide, by decide⟩)⟩

/-- The kernel takes three of the four bytes: the second buffer is left whole, and the length
is one. -/
theorem posix_send_not_trimmed :
    Proper ⟨[⟨10, 10, 2⟩, ⟨20, 20, 2⟩], 4⟩ ∧
      send ⟨[⟨10, 10, 2⟩, ⟨20, 20, 2⟩], 4⟩ [.took 3, .eagain] =
        .ok (3, ⟨[⟨20, 20, 2⟩], 1⟩, [(0, 10), (0, 11), (1, 20)], []) ∧
      ¬ Faithful ⟨[⟨10, 10, 2⟩, ⟨20, 20, 2⟩], 4⟩ 3 ⟨[⟨20, 20, 2⟩], 1⟩
        [(0, 10), (0, 11), (1, 20)] := by
  refine ⟨by decide, rfl, ?_⟩
  rintro ⟨_, _, hheld, _⟩
  exact absurd hheld (by decide)

end RdmaCapsule.Network
