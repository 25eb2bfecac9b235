import Mathlib
import RdmaCapsule.Multicast.WireFormat

/-! The loop with which the daemon reads a message, from clients and from servers. The results
of `Read` are its return values, one for each call; the bytes are those of a stream, from
which a call that returns a positive number takes the next ones. -/
namespace RdmaCapsule.Multicast

open RdmaCapsule.Core

/-- The bytes of a stream from a position on. -/
def bytesFrom (stream : Nat → Char) (position count : Nat) : List Char :=
  (List.range' position count).map stream

/-- The loop, from the values that `read_bytes` takes. Every call of `Read` is given the start
of `msg`. It returns what is in `msg` and the results it has not used, or nothing while it waits
for the next result. -/
def readLoop (stream : Nat → Char) :
    List Int → UInt32 → Nat → List Char → Option (List Char × List Int)
  | [], readSize, _, msg => if readSize.toNat < tcpMsgLen then none else some (msg, [])
  | readBytes :: rest, readSize, position, msg =>
      if readSize.toNat < tcpMsgLen then
        let msg := bytesFrom stream position readBytes.toNat ++ msg.drop readBytes.toNat
        if readBytes < 0 ∧ readBytes ≠ -eagain then
          readLoop stream rest readSize position msg
        else
          readLoop stream rest (readSize + UInt32.ofInt readBytes)
            (position + readBytes.toNat) msg
      else some (msg, readBytes :: rest)

/-- In `process_client_readable` the result is assigned to an `int`. -/
def processClientReadable (stream : Nat → Char) (results : List Int) (msg : List Char) :
    Option (List Char × List Int) :=
  readLoop stream (results.map (·.bmod (2 ^ 32))) 0 0 msg

/-- In `process_server_readable` it is assigned to a `ssize_t`. -/
def processServerReadable (stream : Nat → Char) (results : List Int) (msg : List Char) :
    Option (List Char × List Int) :=
  readLoop stream results 0 0 msg

/-- `Read` returns no more than it was asked for, and the negative of an `errno`, which is an
`int`. -/
def Returned : List Int → UInt32 → Prop
  | [], _ => True
  | readBytes :: rest, readSize =>
      (-2 ^ 31 < readBytes ∧ readBytes ≤ tcpMsgLen) ∧
        (readSize.toNat < tcpMsgLen → readBytes ≤ tcpMsgLen - readSize.toNat) ∧
        Returned rest
          (if readBytes < 0 ∧ readBytes ≠ -eagain then readSize
          else readSize + UInt32.ofInt readBytes)

/-- When the message has been delivered (`true`), or the stream has ended or failed (`false`),
with the results that are left then. -/
def ending : List Int → Nat → Option (Bool × List Int)
  | [], _ => none
  | result :: rest, delivered =>
      if result = -eagain then ending rest delivered
      else if result ≤ 0 then some (false, rest)
      else if tcpMsgLen ≤ delivered + result.toNat then some (true, rest)
      else ending rest (delivered + result.toNat)

/-- The loop ends when it should, and with the message if that has been delivered. -/
def EndsWith (stream : Nat → Char) (expected : Option (Bool × List Int)) :
    Option (List Char × List Int) → Prop :=
  match expected with
  | none => (· = none)
  | some (true, rest) => (· = some (bytesFrom stream 0 tcpMsgLen, rest))
  | some (false, rest) => fun run => ∃ msg, run = some (msg, rest)

/-- A function that reads messages reassembles one from these results, whatever the bytes and
whatever was in the buffer. -/
def Reassembles (run : (Nat → Char) → List Int → List Char → Option (List Char × List Int))
    (results : List Int) : Prop :=
  ∀ stream msg, msg.length = tcpMsgLen → EndsWith stream (ending results 0) (run stream results msg)

/-- The message is not complete, and nothing but positive counts and `-EAGAIN` has come. At
each `-EAGAIN` the counter, which is the sum of the results, was at least 11. -/
def Waiting (results : List Int) : Prop :=
  (∀ result ∈ results, 0 < result ∨ result = -eagain) ∧
    (results.map Int.toNat).sum < tcpMsgLen ∧ ∀ front, front <+: results → 0 ≤ front.sum

variable {stream : Nat → Char} {results rest : List Int} {readSize : UInt32} {msg : List Char}

theorem ending_length {b : Bool} {delivered : Nat}
    (h : ending results delivered = some (b, rest)) : rest.length < results.length := by
  induction results generalizing delivered with
  | nil => cases h
  | cons result results ih =>
      unfold ending at h
      split at h
      · exact (ih h).trans (Nat.lt_succ_self _)
      · split at h
        · cases h
          exact Nat.lt_succ_self _
        · split at h
          · cases h
            exact Nat.lt_succ_self _
          · exact (ih h).trans (Nat.lt_succ_self _)

/-- As long as the counter is below the length, the loop uses another result. -/
theorem readLoop_length {position : Nat} {msg' : List Char}
    (h : readLoop stream results readSize position msg = some (msg', rest)) :
    rest.length ≤ results.length ∧ (readSize.toNat < tcpMsgLen → rest.length < results.length) := by
  induction results generalizing readSize position msg with
  | nil =>
      unfold readLoop at h
      split at h
      · cases h
      · rename_i hdone
        cases h
        exact ⟨Nat.le_refl _, fun hmore => absurd hmore hdone⟩
  | cons result results ih =>
      unfold readLoop at h
      dsimp only at h
      split at h
      · have hrest : rest.length ≤ results.length := by
          split at h
          · exact (ih h).1
          · exact (ih h).1
        exact ⟨Nat.le_succ_of_le hrest, fun _ => Nat.lt_succ_of_le hrest⟩
      · rename_i hdone
        cases h
        exact ⟨Nat.le_refl _, fun hmore => absurd hmore hdone⟩

theorem toNat_add_ofInt (readSize : UInt32) (result : Int) :
    ((readSize + UInt32.ofInt result).toNat : Int) = (readSize.toNat + result) % 2 ^ 32 := by
  have hmod : 0 ≤ result % 2 ^ 32 := Int.emod_nonneg _ (by decide)
  rw [UInt32.toNat_add, UInt32.ofInt, UInt32.toNat_ofNat']
  omega

/-- `Waiting`, when some of the results have been used. -/
structure StillWaiting (results : List Int) (counter delivered : Nat) : Prop where
  waits : ∀ result ∈ results, 0 < result ∨ result = -eagain
  less : delivered + (results.map Int.toNat).sum < tcpMsgLen
  sums : ∀ front, front <+: results → 0 ≤ counter + front.sum

theorem stillWaiting_iff : StillWaiting results 0 0 ↔ Waiting results := by
  constructor
  · rintro ⟨hwaits, hless, hsums⟩
    exact ⟨hwaits, by simpa using hless, by simpa using hsums⟩
  · rintro ⟨hwaits, hless, hsums⟩
    exact ⟨hwaits, by simpa using hless, by simpa using hsums⟩

theorem stillWaiting_cons {result : Int} {counter counter' delivered : Nat}
    (hresult : 0 < result ∨ result = -eagain) (hcounter : (counter' : Int) = counter + result) :
    StillWaiting (result :: results) counter delivered ↔
      StillWaiting results counter' (delivered + result.toNat) := by
  constructor
  · rintro ⟨hwaits, hless, hsums⟩
    rw [List.map_cons, List.sum_cons] at hless
    refine ⟨(List.forall_mem_cons.mp hwaits).2, by omega, fun front hfront => ?_⟩
    rw [hcounter, Int.add_assoc, ← List.sum_cons]
    exact hsums (result :: front) ((List.prefix_cons_inj result).mpr hfront)
  · rintro ⟨hwaits, hless, hsums⟩
    refine ⟨List.forall_mem_cons.mpr ⟨hresult, hwaits⟩, ?_, fun front hfront => ?_⟩
    · rw [List.map_cons, List.sum_cons]
      omega
    · rcases List.prefix_cons_iff.mp hfront with rfl | ⟨front', rfl, hfront'⟩
      · simp
      · rw [List.sum_cons, ← Int.add_assoc, ← hcounter]
        exact hsums front' hfront'

theorem readLoop_done {position : Nat} (hdone : ¬ readSize.toNat < tcpMsgLen) :
    readLoop stream results readSize position msg = some (msg, results) := by
  cases results with
  | nil => exact if_neg hdone
  | cons result rest => exact if_neg hdone

/-- The counter after a result that is not an error. -/
theorem counter_next (readSize : UInt32) {result : Int} (hlow : 0 ≤ readSize.toNat + result)
    (hhigh : readSize.toNat + result ≤ tcpMsgLen) :
    ((readSize + UInt32.ofInt result).toNat : Int) = readSize.toNat + result := by
  have hlength : tcpMsgLen < 2 ^ 32 := by rw [tcpMsgLen_eq]; decide
  rw [toNat_add_ofInt, Int.emod_eq_of_lt hlow (by omega)]

theorem readLoop_cons {result : Int} {position : Nat} (hmore : readSize.toNat < tcpMsgLen)
    (hresult : 0 ≤ result ∨ result = -eagain) :
    readLoop stream (result :: rest) readSize position msg =
      readLoop stream rest (readSize + UInt32.ofInt result) (position + result.toNat)
        (bytesFrom stream position result.toNat ++ msg.drop result.toNat) := by
  rw [readLoop, if_pos hmore, if_neg (by omega)]

/-- Nothing is returned while the counter goes up and down below the length. -/
theorem readLoop_waits {position delivered : Nat} (hcounter : readSize.toNat ≤ delivered)
    (h : StillWaiting results readSize.toNat delivered) :
    readLoop stream results readSize position msg = none ∧ ending results delivered = none := by
  induction results generalizing readSize position msg delivered with
  | nil =>
      have hless := h.less
      simp only [List.map_nil, List.sum_nil] at hless
      exact ⟨if_pos (by omega), rfl⟩
  | cons result rest ih =>
      have hresult := h.waits result List.mem_cons_self
      have hless := h.less
      rw [List.map_cons, List.sum_cons] at hless
      have hfirst := h.sums [result] (List.prefix_append [result] rest)
      rw [List.sum_singleton] at hfirst
      have hsum := counter_next readSize hfirst (by omega)
      have hrest := (stillWaiting_cons hresult hsum).mp h
      obtain ⟨hloop, hending⟩ := ih (by omega) hrest
      refine ⟨by rw [readLoop_cons (by omega) (by omega), hloop], ?_⟩
      unfold ending
      split
      · rename_i hagain
        rwa [hagain, show (-(eagain : Int)).toNat = 0 from rfl, Nat.add_zero] at hending
      · rw [if_neg (by omega), if_neg (by omega), hending]

/-- A stream whose first byte is not seen again. -/
def marked (position : Nat) : Char := if position = 0 then 'a' else 'b'

theorem overwritten {position count : Nat} {tail : List Char} (hposition : 0 < position)
    (hcount : 0 < count) :
    bytesFrom marked position count ++ tail ≠ bytesFrom marked 0 tcpMsgLen := by
  obtain ⟨count, rfl⟩ := Nat.exists_eq_succ_of_ne_zero hcount.ne'
  rw [tcpMsgLen_eq]
  intro hsame
  have hhead := congrArg List.head? hsame
  simp [bytesFrom, List.range'_succ, marked, hposition.ne'] at hhead

/-- The loop has left, and the message is still to come. -/
theorem left_early {delivered : Nat} :
    ¬ EndsWith stream (ending results delivered) (some (msg, results)) := by
  intro hends
  cases hending : ending results delivered with
  | none =>
      rw [hending] at hends
      cases hends
  | some outcome =>
      obtain ⟨b, rest⟩ := outcome
      have hshort := ending_length hending
      rw [hending] at hends
      cases b with
      | true =>
          cases hends
          exact Nat.lt_irrefl _ hshort
      | false =>
          obtain ⟨msg', hsame⟩ := hends
          cases hsame
          exact Nat.lt_irrefl _ hshort

/-- The loop goes on, and there is nothing to come. -/
theorem left_late {b : Bool} {position : Nat} (hmore : readSize.toNat < tcpMsgLen) :
    ¬ EndsWith stream (some (b, results)) (readLoop stream results readSize position msg) := by
  intro hends
  cases b with
  | true => exact Nat.lt_irrefl _ ((readLoop_length hends).2 hmore)
  | false =>
      obtain ⟨msg', hsame⟩ := hends
      exact Nat.lt_irrefl _ ((readLoop_length hsame).2 hmore)

/-- With any other results the loop leaves too early or too late, or what it leaves with is
not the message. -/
theorem readLoop_fails {delivered : Nat} (hcounter : readSize.toNat ≤ delivered)
    (hless : delivered < tcpMsgLen) (hwhole : 0 < delivered ∨ results.head? ≠ some (tcpMsgLen : Int))
    (hreturned : Returned results readSize)
    (hnot : ¬ StillWaiting results readSize.toNat delivered) :
    ¬ EndsWith marked (ending results delivered)
      (readLoop marked results readSize delivered msg) := by
  induction results generalizing readSize delivered msg with
  | nil =>
      refine absurd ⟨by simp, by simpa using hless, ?_⟩ hnot
      intro front hfront
      rw [List.prefix_nil.mp hfront]
      simp
  | cons result rest ih =>
      obtain ⟨-, hasked, hrest⟩ := hreturned
      have hasked : readSize.toNat + result ≤ tcpMsgLen := by
        have := hasked (by omega)
        omega
      by_cases hagain : result = -eagain
      · rw [ending, if_pos hagain, readLoop_cons (by omega) (.inr hagain)]
        rw [if_neg (by simp [hagain])] at hrest
        by_cases henough : 0 ≤ readSize.toNat + result
        · have hsum := counter_next readSize henough hasked
          have hzero : result.toNat = 0 := by omega
          rw [stillWaiting_cons (.inr hagain) hsum, hzero] at hnot
          rw [hzero]
          have hpositive : 0 < eagain := by decide
          exact ih (by omega) hless (.inl (by omega)) hrest hnot
        · have hwrapped : ¬ (readSize + UInt32.ofInt result).toNat < tcpMsgLen := by
            have hnext := toNat_add_ofInt readSize result
            rw [tcpMsgLen_eq]
            unfold eagain at hagain
            omega
          rw [readLoop_done hwrapped]
          exact left_early
      by_cases hpos : 0 < result
      · rw [readLoop_cons (by omega) (.inl hpos.le)]
        rw [if_neg (by omega)] at hrest
        have hsum := counter_next readSize (by omega) hasked
        by_cases hall : tcpMsgLen ≤ delivered + result.toNat
        · rw [ending, if_neg hagain, if_neg (by omega), if_pos hall]
          by_cases hmore : (readSize + UInt32.ofInt result).toNat < tcpMsgLen
          · exact left_late hmore
          · rw [readLoop_done hmore]
            have hsecond : 0 < delivered := by
              rcases hwhole with hsome | hfirst
              · exact hsome
              · by_contra hnone
                exact hfirst (by rw [List.head?_cons]; congr 1; omega)
            intro hends
            have hsame := congrArg Prod.fst (Option.some.inj hends)
            exact overwritten hsecond (by omega) hsame
        · rw [ending, if_neg hagain, if_neg (by omega), if_neg hall]
          rw [stillWaiting_cons (.inl hpos) hsum] at hnot
          exact ih (by omega) (by omega) (.inl (by omega)) hrest hnot
      · rw [ending, if_neg hagain, if_pos (by omega)]
        by_cases herror : result < 0
        · rw [readLoop, if_pos (by omega), if_pos ⟨herror, hagain⟩]
          exact left_late (by omega)
        · obtain rfl : result = 0 := by omega
          have hsum := counter_next readSize (by omega) hasked
          rw [readLoop_cons (by omega) (.inl (Int.le_refl 0))]
          exact left_late (by omega)

theorem readLoop_reassembles_iff (results : List Int) (hreturned : Returned results 0) :
    Reassembles processServerReadable results ↔
      results.head? = some (tcpMsgLen : Int) ∨ Waiting results := by
  have hlength : 0 < tcpMsgLen := by rw [tcpMsgLen_eq]; decide
  constructor
  · intro hends
    by_contra hneither
    rw [not_or] at hneither
    obtain ⟨hwhole, hnot⟩ := hneither
    refine readLoop_fails (Nat.le_refl 0) hlength (.inr hwhole) hreturned ?_
      (hends marked (List.replicate tcpMsgLen 'c') List.length_replicate)
    exact fun hstill => hnot (stillWaiting_iff.mp hstill)
  · rintro (hwhole | hwaiting)
    · cases results with
      | nil => cases hwhole
      | cons result rest =>
          obtain rfl : result = tcpMsgLen := Option.some.inj hwhole
          intro stream msg hmsg
          have hzero : (UInt32.toNat 0 : Int) = 0 := rfl
          have hsum : ((0 + UInt32.ofInt (tcpMsgLen : Int)).toNat : Int) =
              UInt32.toNat 0 + (tcpMsgLen : Int) := counter_next 0 (by omega) (by omega)
          have hdone : ¬ (0 + UInt32.ofInt (tcpMsgLen : Int)).toNat < tcpMsgLen := by omega
          have hnone : msg.drop tcpMsgLen = [] := List.drop_eq_nil_of_le hmsg.le
          unfold processServerReadable
          rw [readLoop_cons (by exact hlength) (.inl (by omega)), readLoop_done hdone, ending,
            if_neg (by omega), if_neg (by omega), if_pos (by simp), Int.toNat_natCast,
            hnone, List.append_nil]
          rfl
    · intro stream msg _
      have hwaits : readLoop stream results 0 0 msg = none ∧ ending results 0 = none :=
        readLoop_waits (Nat.le_refl 0) (stillWaiting_iff.mpr hwaiting)
      rw [hwaits.2]
      exact hwaits.1

/-- What `Read` returns is not changed by the assignment to an `int`. -/
theorem map_bmod (hreturned : Returned results readSize) :
    results.map (·.bmod (2 ^ 32)) = results := by
  induction results generalizing readSize with
  | nil => rfl
  | cons result rest ih =>
      obtain ⟨⟨hlow, hhigh⟩, -, hrest⟩ := hreturned
      rw [tcpMsgLen_eq] at hhigh
      rw [List.map_cons, ih hrest, Int.bmod_eq_of_le (by omega) (by omega)]

theorem client_iff_server (hreturned : Returned results 0) :
    Reassembles processClientReadable results ↔ Reassembles processServerReadable results := by
  unfold Reassembles processClientReadable processServerReadable
  rw [map_bmod hreturned]

/-- The daemon reassembles a message exactly when the first `Read` gives the whole of it, or
when it has not yet had to: the message is not complete, the stream has neither ended nor
failed, and the counter was at least 11 at each `-EAGAIN`. -/
theorem daemon_reassembles_iff (results : List Int) (hreturned : Returned results 0) :
    (Reassembles processClientReadable results ↔
      results.head? = some (tcpMsgLen : Int) ∨ Waiting results) ∧
    (Reassembles processServerReadable results ↔
      results.head? = some (tcpMsgLen : Int) ∨ Waiting results) := by
  have hserver := readLoop_reassembles_iff results hreturned
  exact ⟨(client_iff_server hreturned).trans hserver, hserver⟩

/-- The whole message at once. -/
theorem daemon_reassembles_iff_whole :
    Reassembles processClientReadable [93] ∧ Reassembles processServerReadable [93] := by
  have hreturned : Returned [93] 0 := by
    rw [Returned, tcpMsgLen_eq]
    exact ⟨by decide, by decide, trivial⟩
  obtain ⟨hclient, hserver⟩ := daemon_reassembles_iff [93] hreturned
  exact ⟨hclient.mpr (.inl rfl), hserver.mpr (.inl rfl)⟩

theorem neither_reassembles (hreturned : Returned results 0)
    (hwhole : results.head? ≠ some (tcpMsgLen : Int)) (hwaiting : ¬ Waiting results) :
    ¬ Reassembles processClientReadable results ∧ ¬ Reassembles processServerReadable results := by
  have hserver : ¬ Reassembles processServerReadable results := fun hreads =>
    ((readLoop_reassembles_iff results hreturned).mp hreads).elim hwhole hwaiting
  exact ⟨fun hreads => hserver ((client_iff_server hreturned).mp hreads), hserver⟩

/-- Two pieces, the second of which is written over the first; `-EAGAIN` at the start, after
which the loop leaves with nothing read; and the end of the stream, after which it goes on. -/
theorem daemon_does_not_reassemble :
    (Returned [50, 43] 0 ∧ ¬ Reassembles processClientReadable [50, 43] ∧
      ¬ Reassembles processServerReadable [50, 43]) ∧
    (Returned [-11] 0 ∧ ¬ Reassembles processClientReadable [-11] ∧
      ¬ Reassembles processServerReadable [-11]) ∧
    Returned [0] 0 ∧ ¬ Reassembles processClientReadable [0] ∧
      ¬ Reassembles processServerReadable [0] := by
  have hpieces : Returned [50, 43] 0 := by
    simp only [Returned, tcpMsgLen_eq]
    decide
  have heagain : Returned [-11] 0 := by
    simp only [Returned, tcpMsgLen_eq]
    decide
  have hclosed : Returned [0] 0 := by
    simp only [Returned, tcpMsgLen_eq]
    decide
  refine ⟨⟨hpieces, ?_⟩, ⟨heagain, ?_⟩, hclosed, ?_⟩
  · refine neither_reassembles hpieces (by rw [tcpMsgLen_eq]; decide) fun hwaiting => ?_
    have hless := hwaiting.2.1
    rw [tcpMsgLen_eq] at hless
    exact absurd hless (by decide)
  · refine neither_reassembles heagain (by rw [tcpMsgLen_eq]; decide) fun hwaiting => ?_
    exact absurd (hwaiting.2.2 [-11] (List.prefix_refl _)) (by decide)
  · refine neither_reassembles hclosed (by rw [tcpMsgLen_eq]; decide) fun hwaiting => ?_
    exact absurd (hwaiting.1 0 List.mem_cons_self) (by decide)

end RdmaCapsule.Multicast
