import Mathlib
import RdmaCapsule.Core.SendPath
import RdmaCapsule.Foundation.Machine

/-! Several callers of `send` on one connection. `send` appends under the lock and
submits under the lock again, and in between others do the same; the thread that
establishes the connection submits once more. `submit` looks at the cached length
of the pending list, and `Clear` does not reset it. -/
namespace RdmaCapsule.Core

open RdmaCapsule.Foundation

namespace BufferList

/-- The cached length is that of the buffers. -/
def Consistent (bl : BufferList) : Prop :=
  bl.len = (bl.bufferList.map Buffer.getRemainingLen).sum

theorem append_bufferList (bl other : BufferList) :
    (bl.append other).bufferList = bl.bufferList ++ other.bufferList := by
  unfold append
  induction other.bufferList generalizing bl with
  | nil => simp
  | cons buffer rest ih =>
      rw [List.foldl_cons, ih]
      simp [appendBuffer]

end BufferList

namespace Endpoint

/-- The critical section of `send` in which it appends; the result says whether
`submit` is to follow. -/
def sendAppend (bl : BufferList) (ep : Endpoint) : Bool × Endpoint :=
  if ep.error ≠ 0 then (false, ep)
  else if bl.len = 0 then (false, ep)
  else
    let ep := { ep with pendingBl := ep.pendingBl.append bl }
    (ep.connected, ep)

/-- `send` is its append and then, where it is connected, a `submit`. -/
theorem send_eq_append_submit (tx : Cluster) (answers : Answers) (bl : BufferList)
    (ep : Endpoint) :
    (ep.send tx answers bl).map (·.2) =
      if (ep.sendAppend bl).1 then ((ep.sendAppend bl).2.submit tx answers).map (·.2)
      else .ok (ep.sendAppend bl).2 := by
  unfold send sendAppend
  by_cases herror : ep.error = 0
  · by_cases hlen : bl.len = 0
    · simp [herror, hlen, Except.map]
    · simp only [herror, hlen, ne_eq, not_true_eq_false, if_false]
      cases ep.connected with
      | false => rfl
      | true =>
          simp only [Bool.not_true, Bool.false_eq_true, if_false, if_true]
          generalize submit tx answers _ = run
          cases run with
          | error fault => rfl
          | ok result =>
              simp only [ok_bind]
              split
              · rfl
              · rfl
  · simp [herror, Except.map]

variable {tx : Cluster} {ep : Endpoint}

/-- What `submit` does when it comes to `post_work_request`. -/
theorem submit_of_pending (herror : ep.error = 0) (hlen : ep.pendingBl.len ≠ 0)
    (hbuffers : ∀ buffer ∈ ep.pendingBl.bufferList, tx.isMyBuffer buffer.cur = true)
    (hpending : ep.pendingBl.bufferList ≠ []) :
    ep.submit tx .good = .ok (-eagain, { ep with
      posted := ep.posted ++ (chunksOf tx ep.pendingBl).map .chunk
      pendingBl := ep.pendingBl.clear }) := by
  have hchunks : chunksOf tx ep.pendingBl ≠ [] := by
    unfold chunksOf
    rwa [ne_eq, List.map_eq_nil_iff]
  unfold submit
  rw [if_neg (by simp [herror]), if_neg hlen, mapM_txChunk _ hbuffers, ok_bind]
  change (ep.postWorkRequest .good (chunksOf tx ep.pendingBl) >>= _) = _
  unfold postWorkRequest
  rw [if_neg hchunks]
  simp [ibvPostSend, Answers.good, BufferList.clear, hlen, pure, Except.pure]

/-- An empty list with a length that is not zero. -/
theorem submit_of_stale (herror : ep.error = 0) (hlen : ep.pendingBl.len ≠ 0)
    (hempty : ep.pendingBl.bufferList = []) : ep.submit tx .good = .error .emptyVector := by
  unfold submit
  rw [if_neg (by simp [herror]), if_neg hlen, hempty]
  rfl

theorem submit_of_zero (herror : ep.error = 0) (hlen : ep.pendingBl.len = 0) :
    ep.submit tx .good = .ok (0, ep) := by
  unfold submit
  rw [if_neg (by simp [herror]), if_pos hlen]

end Endpoint

/-- One `submit`: the chunks that had been appended by then, those pending, those it
posted and what it returned. -/
structure Submit where
  before : List Nat
  pending : List Nat
  posted : List SendWr
  outcome : Except Fault Int

/-- It posts what is pending, if anything, and returns zero. -/
def Submit.Faithful (record : Submit) : Prop :=
  record.posted = record.pending.map .chunk ∧ record.outcome = .ok 0

/-- A connection with its callers. -/
structure Sending (C : Type u) where
  ep : Endpoint
  /-- The callers that have appended and are to submit. -/
  submitting : C → Bool
  /-- `connected` has been set, and `submit(false)` is to follow. -/
  activating : Bool
  /-- The chunks appended so far, oldest first. -/
  appended : List Nat
  submits : List Submit
  halted : Bool

namespace Sending

variable {C : Type u} {tx : Cluster} {st st' : Sending C}

inductive Act (C : Type u) where
  | append (caller : C) (bl : BufferList)
  | submit (caller : C)
  | connect
  | submitFalse

/-- A `submit` and its record. `ibv_post_send` succeeds. -/
def submit (tx : Cluster) (st : Sending C) : Sending C :=
  let pending := Endpoint.chunksOf tx st.ep.pendingBl
  match st.ep.submit tx .good with
  | .ok (r, ep) => { st with
      ep
      submits := st.submits ++
        [⟨st.appended, pending, ep.posted.drop st.ep.posted.length, .ok r⟩] }
  | .error fault => { st with
      submits := st.submits ++ [⟨st.appended, pending, [], .error fault⟩]
      halted := true }

def step [DecidableEq C] (tx : Cluster) (st : Sending C) : Act C → Sending C
  | .append caller bl =>
      let (submits, ep) := st.ep.sendAppend bl
      { st with
        ep
        submitting := Function.update st.submitting caller submits
        appended :=
          if st.ep.error ≠ 0 ∨ bl.len = 0 then st.appended
          else st.appended ++ Endpoint.chunksOf tx bl }
  | .submit caller =>
      { st.submit tx with submitting := Function.update st.submitting caller false }
  | .connect => { st with ep := { st.ep with connected := true }, activating := true }
  | .submitFalse => { st.submit tx with activating := false }

/-- A caller is in one `send` at a time, and its buffers lie in the pool. -/
def Enabled (tx : Cluster) (st : Sending C) : Act C → Prop
  | .append caller bl => st.halted = false ∧ st.submitting caller = false ∧ bl.Consistent ∧
      ∀ buffer ∈ bl.bufferList, tx.isMyBuffer buffer.cur = true
  | .submit caller => st.halted = false ∧ st.submitting caller = true
  | .connect => st.halted = false ∧ st.ep.connected = false
  | .submitFalse => st.halted = false ∧ st.activating = true

def Start (st : Sending C) : Prop :=
  st.ep.error = 0 ∧ st.ep.connected = false ∧ st.ep.pendingBl = .empty ∧ st.ep.posted = [] ∧
    (∀ caller, st.submitting caller = false) ∧ st.activating = false ∧ st.appended = [] ∧
    st.submits = [] ∧ st.halted = false

def machine [DecidableEq C] (tx : Cluster) : Machine (Sending C) (Act C) Empty where
  start := Start
  enabled := Enabled tx
  step st act := .ok (step tx st act)

/-- The invariant of the runs. A list that was emptied kept a length that is not zero. -/
structure Sound (tx : Cluster) (st : Sending C) : Prop where
  error : st.ep.error = 0
  buffers : ∀ buffer ∈ st.ep.pendingBl.bufferList, tx.isMyBuffer buffer.cur = true
  order : st.ep.posted ++ (Endpoint.chunksOf tx st.ep.pendingBl).map .chunk =
    st.appended.map .chunk
  fresh : st.appended = [] → st.ep.pendingBl.len = 0
  stale : st.appended ≠ [] → st.ep.pendingBl.bufferList = [] → st.ep.pendingBl.len ≠ 0
  records : ∀ record ∈ st.submits, record.Faithful ↔ record.before = []

theorem chunksOf_eq_nil {bl : BufferList} :
    Endpoint.chunksOf tx bl = [] ↔ bl.bufferList = [] := List.map_eq_nil_iff

theorem Sound.start (h : st.Start) : st.Sound tx := by
  obtain ⟨herror, _, hpending, hposted, _, _, happended, hsubmits, _⟩ := h
  refine ⟨herror, by simp [hpending, BufferList.empty], ?_, fun _ => by rw [hpending]; rfl,
    fun hne => absurd happended hne, by simp [hsubmits]⟩
  rw [hposted, hpending, happended]
  rfl

theorem Sound.records_append (h : st.Sound tx) {record : Submit}
    (hrecord : record.Faithful ↔ record.before = []) :
    ∀ record' ∈ st.submits ++ [record], record'.Faithful ↔ record'.before = [] := by
  intro record' hmem
  rcases List.mem_append.mp hmem with hold | hnew
  · exact h.records record' hold
  · rw [List.mem_singleton.mp hnew]
    exact hrecord

theorem Sound.submit (h : st.Sound tx) : (st.submit tx).Sound tx := by
  by_cases hlen : st.ep.pendingBl.len = 0
  · have hrun : st.ep.submit tx .good = .ok (0, st.ep) := Endpoint.submit_of_zero h.error hlen
    unfold Sending.submit
    simp only [hrun]
    refine ⟨h.error, h.buffers, h.order, h.fresh, h.stale, h.records_append ?_⟩
    -- nothing is posted, which is right only where nothing is pending
    constructor
    · rintro ⟨hposted, _⟩
      by_contra hbefore
      have hpending : Endpoint.chunksOf tx st.ep.pendingBl = [] := by simpa using hposted.symm
      exact h.stale hbefore (chunksOf_eq_nil.mp hpending) hlen
    · intro (hbefore : st.appended = [])
      have horder := h.order
      rw [hbefore] at horder
      have hpending : Endpoint.chunksOf tx st.ep.pendingBl = [] := by
        simpa using (List.append_eq_nil_iff.mp horder).2
      exact ⟨by simp [hpending], rfl⟩
  · have hbefore : st.appended ≠ [] := fun hnone => hlen (h.fresh hnone)
    by_cases hempty : st.ep.pendingBl.bufferList = []
    · have hrun : st.ep.submit tx .good = .error .emptyVector :=
        Endpoint.submit_of_stale h.error hlen hempty
      unfold Sending.submit
      simp only [hrun]
      refine ⟨h.error, h.buffers, h.order, h.fresh, h.stale, h.records_append ?_⟩
      exact iff_of_false (fun hfaithful => (nomatch hfaithful.2)) hbefore
    · have hrun := Endpoint.submit_of_pending h.error hlen h.buffers hempty
      unfold Sending.submit
      simp only [hrun]
      refine ⟨h.error, by simp [BufferList.clear], ?_, fun hnone => absurd hnone hbefore,
        fun _ _ => hlen, h.records_append ?_⟩
      · rw [← h.order]
        simp [Endpoint.chunksOf, BufferList.clear]
      · refine iff_of_false (fun hfaithful => ?_) hbefore
        have hzero : -(eagain : Int) = 0 := Except.ok.inj hfaithful.2
        exact absurd hzero (by decide)

theorem Sound.append (h : st.Sound tx) {bl : BufferList} (hconsistent : bl.Consistent)
    (hbuffers : ∀ buffer ∈ bl.bufferList, tx.isMyBuffer buffer.cur = true)
    (hlen : bl.len ≠ 0) {submitting : C → Bool} :
    Sound tx { st with
      ep := { st.ep with pendingBl := st.ep.pendingBl.append bl }
      submitting
      appended := st.appended ++ Endpoint.chunksOf tx bl } := by
  have hbl : bl.bufferList ≠ [] := by
    intro hnil
    unfold BufferList.Consistent at hconsistent
    rw [hnil] at hconsistent
    exact hlen hconsistent
  refine ⟨h.error, ?_, ?_, ?_, ?_, h.records⟩
  · intro buffer hmem
    rw [BufferList.append_bufferList] at hmem
    exact (List.mem_append.mp hmem).elim (h.buffers buffer) (hbuffers buffer)
  · dsimp only
    rw [List.map_append, ← h.order]
    simp [Endpoint.chunksOf, BufferList.append_bufferList]
  · intro hnone
    exact absurd (chunksOf_eq_nil.mp (List.append_eq_nil_iff.mp hnone).2) hbl
  · intro _ hempty
    rw [BufferList.append_bufferList] at hempty
    exact absurd (List.append_eq_nil_iff.mp hempty).2 hbl

variable [DecidableEq C]

theorem Sound.step (h : st.Sound tx) {act : Act C} (henabled : st.Enabled tx act) :
    (st.step tx act).Sound tx := by
  cases act with
  | append caller bl =>
      obtain ⟨_, _, hconsistent, hbuffers⟩ := henabled
      have hgood : ¬ st.ep.error ≠ 0 := by simp [h.error]
      unfold Sending.step Endpoint.sendAppend
      dsimp only
      by_cases hlen : bl.len = 0
      · rw [if_neg hgood, if_pos hlen, if_pos (.inr hlen)]
        exact ⟨h.error, h.buffers, h.order, h.fresh, h.stale, h.records⟩
      · rw [if_neg hgood, if_neg hlen, if_neg (not_or.mpr ⟨hgood, hlen⟩)]
        exact h.append hconsistent hbuffers hlen
  | submit caller =>
      have hsubmit := h.submit
      exact ⟨hsubmit.error, hsubmit.buffers, hsubmit.order, hsubmit.fresh, hsubmit.stale,
        hsubmit.records⟩
  | connect => exact ⟨h.error, h.buffers, h.order, h.fresh, h.stale, h.records⟩
  | submitFalse =>
      have hsubmit := h.submit
      exact ⟨hsubmit.error, hsubmit.buffers, hsubmit.order, hsubmit.fresh, hsubmit.stale,
        hsubmit.records⟩

theorem sound_of_reachable (h : (machine tx).Reachable st) : st.Sound tx := by
  refine h.invariant (fun _ hstart => .start hstart) ?_
  intro before act after _ hsound henabled hrun
  cases hrun
  exact hsound.step henabled

/-- In every run what has been posted and what is pending are the chunks of the buffers
appended, in their order and each once. But a `submit` posts what is pending and returns
zero only where nothing has been appended yet. -/
theorem submits_faithful_iff (tx : Cluster) (st : Sending C) (h : (machine tx).Reachable st) :
    st.ep.posted ++ (Endpoint.chunksOf tx st.ep.pendingBl).map .chunk =
        st.appended.map .chunk ∧
      ((∀ record ∈ st.submits, record.Faithful) ↔
        ∀ record ∈ st.submits, record.before = []) := by
  have hsound := sound_of_reachable h
  refine ⟨hsound.order, ?_⟩
  constructor
  · intro hall record hmem
    exact (hsound.records record hmem).mp (hall record hmem)
  · intro hall record hmem
    exact (hsound.records record hmem).mpr (hall record hmem)

/-- A pool of two chunks that are both taken, with four bytes written into each. -/
def writtenPool : Cluster := { Endpoint.emptyPool with chunk := fun i => ⟨none, 4, 4, 4, 4 * i⟩ }

/-- A client that has not connected. -/
def unconnected : Sending Nat where
  ep := { Endpoint.loadedClient with connected := false, active := false, pendingBl := .empty }
  submitting _ := false
  activating := false
  appended := []
  submits := []
  halted := false

theorem unconnected_start : unconnected.Start :=
  ⟨rfl, rfl, rfl, rfl, fun _ => rfl, rfl, rfl, rfl, rfl⟩

/-- The connection is established before the first `send`. -/
theorem submits_faithful_iff_before_data :
    ∃ st : Sending Nat, (machine writtenPool).Reachable st ∧ st.appended = [0] ∧
      st.submits.length = 1 ∧ ∀ record ∈ st.submits, record.Faithful := by
  have hstart : (machine writtenPool).Reachable unconnected := .start unconnected_start
  have hconnected := hstart.next .connect ⟨rfl, rfl⟩ rfl
  have hsubmitted := hconnected.next .submitFalse ⟨rfl, rfl⟩ rfl
  have happended := hsubmitted.next (.append 1 ⟨[⟨0, 0, 4⟩], 4⟩)
    ⟨rfl, rfl, rfl, by decide⟩ rfl
  refine ⟨_, happended, rfl, rfl, (submits_faithful_iff _ _ happended).2.mpr ?_⟩
  intro record hmem
  cases List.mem_singleton.mp hmem
  rfl

/-- Two callers append; the first `submit` posts for both and says that it did not, and the
second one has an empty list to post. -/
theorem submit_misled_by_length :
    ∃ st : Sending Nat, (machine writtenPool).Reachable st ∧
      st.ep.posted = [.chunk 0, .chunk 1] ∧
      st.submits.map (·.outcome) = [.ok 0, .ok (-eagain), .error .emptyVector] ∧
      ¬ ∀ record ∈ st.submits, record.Faithful := by
  have hstart : (machine writtenPool).Reachable unconnected := .start unconnected_start
  have hconnected := hstart.next .connect ⟨rfl, rfl⟩ rfl
  have hactive := hconnected.next .submitFalse ⟨rfl, rfl⟩ rfl
  have hone := hactive.next (.append 1 ⟨[⟨0, 0, 4⟩], 4⟩) ⟨rfl, rfl, rfl, by decide⟩ rfl
  have htwo := hone.next (.append 2 ⟨[⟨4, 4, 4⟩], 4⟩) ⟨rfl, rfl, rfl, by decide⟩ rfl
  have hfirst := htwo.next (.submit 1) ⟨rfl, rfl⟩ rfl
  have hsecond := hfirst.next (.submit 2) ⟨rfl, rfl⟩ rfl
  refine ⟨_, hsecond, rfl, rfl, ?_⟩
  intro hall
  have hfaithful := hall ⟨[0, 1], [0, 1], [.chunk 0, .chunk 1], .ok (-eagain)⟩
    (List.mem_cons_of_mem _ List.mem_cons_self)
  exact absurd (Except.ok.inj hfaithful.2) (by decide)

end Sending

end RdmaCapsule.Core
