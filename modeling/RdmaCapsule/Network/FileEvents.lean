import Mathlib
import RdmaCapsule.Foundation.Outcome

/-! The file events of an `EventCenter` and of its `EpollDriver`, as the owner thread
registers and deletes them. A callback is known by its address; `none` is the null pointer. -/
namespace RdmaCapsule.Network

open RdmaCapsule.Foundation

abbrev EventMask := BitVec 32

abbrev EventCallbackRef := Option Nat

def eventNone : EventMask := 0
def eventReadable : EventMask := 1
def eventWritable : EventMask := 2

inductive Direction where
  | readable
  | writable
  deriving DecidableEq

def Direction.flag : Direction → EventMask
  | .readable => eventReadable
  | .writable => eventWritable

def Names (mask : EventMask) (dir : Direction) : Prop := mask &&& dir.flag ≠ 0

instance (mask : EventMask) (dir : Direction) : Decidable (Names mask dir) :=
  inferInstanceAs (Decidable (_ ≠ _))

structure FileEvent where
  mask : EventMask
  readCb : EventCallbackRef
  writeCb : EventCallbackRef
  deriving DecidableEq

namespace FileEvent

/-- What the constructor makes. -/
def empty : FileEvent := ⟨eventNone, none, none⟩

def callback (event : FileEvent) : Direction → EventCallbackRef
  | .readable => event.readCb
  | .writable => event.writeCb

/-- What `create_file_event` writes to the entry. -/
def merge (event : FileEvent) (mask : EventMask) (ctxt : EventCallbackRef) : FileEvent where
  mask := event.mask ||| mask
  readCb := if Names mask .readable then ctxt else event.readCb
  writeCb := if Names mask .writable then ctxt else event.writeCb

/-- What `delete_file_event` writes to the entry. -/
def remove (event : FileEvent) (mask : EventMask) : FileEvent where
  mask := event.mask &&& ~~~mask
  readCb := if Names mask .readable ∧ event.readCb ≠ none then none else event.readCb
  writeCb := if Names mask .writable ∧ event.writeCb ≠ none then none else event.writeCb

/-- The entry after a `create_file_event`. -/
def create (event : FileEvent) (mask : EventMask) (ctxt : EventCallbackRef) : FileEvent :=
  if event.mask = mask then event else event.merge mask ctxt

/-- The entry after a `delete_file_event`. -/
def delete (event : FileEvent) (mask : EventMask) : FileEvent :=
  if event.mask = eventNone then event else event.remove mask

end FileEvent

/-! `EpollDriver`, and the part of `epoll_ctl` that depends on what it was told before. -/

def epollIn : BitVec 32 := 0x001
def epollOut : BitVec 32 := 0x004
def epollEt : BitVec 32 := 1 <<< 31

/-- The events that the kernel watches a descriptor for. -/
abbrev Interest := Nat → Option (BitVec 32)

inductive CtlOp where
  | add
  | mod
  | del

inductive CtlError where
  | eexist
  | enoent

def epollCtl (interest : Interest) (fd : Nat) (events : BitVec 32) :
    CtlOp → Except CtlError Interest
  | .add =>
      if interest fd = none then .ok (Function.update interest fd (some events))
      else .error .eexist
  | .mod =>
      if interest fd = none then .error .enoent
      else .ok (Function.update interest fd (some events))
  | .del =>
      if interest fd = none then .error .enoent
      else .ok (Function.update interest fd none)

def epollEvents (mask : EventMask) : BitVec 32 :=
  epollEt ||| (if Names mask .readable then epollIn else 0) |||
    (if Names mask .writable then epollOut else 0)

def addEvent (interest : Interest) (fd : Nat) (curMask addMask : EventMask) :
    Except CtlError Interest :=
  let op := if curMask = eventNone then .add else .mod
  epollCtl interest fd (epollEvents (addMask ||| curMask)) op

def delEvent (interest : Interest) (fd : Nat) (curMask delmask : EventMask) :
    Except CtlError Interest :=
  let mask := curMask &&& ~~~delmask
  if mask ≠ eventNone then epollCtl interest fd (epollEvents mask) .mod
  else epollCtl interest fd 0 .del

/-- `EpollDriver::resize_events`. -/
def resizeEvents (_newsize : Nat) : Int := 0

/-- Why a call does not return. -/
inductive FileStop where
  | kassert
  | abort
  /-- Past the end of `file_events`. -/
  | outside
  /-- A shift to the left past the greatest `int`. -/
  | overflow
  | spins
  deriving DecidableEq

structure FileEvents where
  nevent : Nat
  fileEvents : List FileEvent
  interest : Interest

namespace FileEvents

/-- `InitEventNumber`. -/
def initEventNumber : Nat := 5000

/-- What `init` makes. -/
def init : FileEvents where
  nevent := initEventNumber
  fileEvents := List.replicate initEventNumber .empty
  interest _ := none

/-- `size << 2`. -/
def shifted (size : Nat) : Except FileStop Nat :=
  if size * 4 < 2 ^ 31 then .ok (size * 4) else .error .overflow

/-- `while (fd >= new_size) new_size <<= 2`. -/
def expand (fd newSize : Nat) : Except FileStop Nat :=
  if fd < newSize then .ok newSize
  else if hzero : newSize = 0 then .error .spins
  else if hover : newSize * 4 < 2 ^ 31 then expand fd (newSize * 4)
  else .error .overflow
termination_by 2 ^ 31 - newSize

def getFileEvent (c : FileEvents) (fd : Nat) : Except FileStop FileEvent :=
  if fd < c.nevent then
    match c.fileEvents[fd]? with
    | some event => .ok event
    | none => .error .outside
  else .error .kassert

def setFileEvent (c : FileEvents) (fd : Nat) (event : FileEvent) (interest : Interest) :
    FileEvents :=
  { c with fileEvents := c.fileEvents.set fd event, interest }

/-- `file_events.resize(new_size)` for a larger size. -/
def resize (c : FileEvents) (newSize : Nat) : FileEvents :=
  { c with
    nevent := newSize
    fileEvents := c.fileEvents ++ List.replicate (newSize - c.fileEvents.length) .empty }

/-- The second half of `create_file_event`, once there is an entry for `fd`. -/
def createEntry (c : FileEvents) (fd : Nat) (mask : EventMask) (ctxt : EventCallbackRef) :
    Except FileStop FileEvents := do
  let event ← c.getFileEvent fd
  if event.mask = mask then pure c
  else
    let interest ← (addEvent c.interest fd event.mask mask).mapError fun _ => .abort
    pure (c.setFileEvent fd (event.merge mask ctxt) interest)

/-- `create_file_event`, with what it returns. -/
def createFileEvent (c : FileEvents) (fd : Nat) (mask : EventMask) (ctxt : EventCallbackRef) :
    Except FileStop (Int × FileEvents) := do
  if c.nevent ≤ fd then
    let newSize ← expand fd (← shifted c.nevent)
    if resizeEvents newSize < 0 then pure (-34, c)
    else pure (0, ← (c.resize newSize).createEntry fd mask ctxt)
  else pure (0, ← c.createEntry fd mask ctxt)

def deleteFileEvent (c : FileEvents) (fd : Nat) (mask : EventMask) :
    Except FileStop FileEvents := do
  if c.nevent ≤ fd then pure c
  else
    let event ← c.getFileEvent fd
    if event.mask = eventNone then pure c
    else
      let interest ← (delEvent c.interest fd event.mask mask).mapError fun _ => .abort
      pure (c.setFileEvent fd (event.remove mask) interest)

end FileEvents

/-- A call of the owner thread. -/
inductive EventCall where
  | create (fd : Nat) (mask : EventMask) (ctxt : EventCallbackRef)
  | delete (fd : Nat) (mask : EventMask)
  deriving DecidableEq

namespace EventCall

def fd : EventCall → Nat
  | .create fd _ _ => fd
  | .delete fd _ => fd

def mask : EventCall → EventMask
  | .create _ mask _ => mask
  | .delete _ mask => mask

/-- The last call that names a direction of `fd`. -/
def lastNaming (calls : List EventCall) (fd : Nat) (dir : Direction) : Option EventCall :=
  calls.reverse.find? fun call => call.fd = fd ∧ Names call.mask dir

end EventCall

namespace FileEvents

def perform (c : FileEvents) : EventCall → Except FileStop FileEvents
  | .create fd mask ctxt => do
      let (_, c) ← c.createFileEvent fd mask ctxt
      pure c
  | .delete fd mask => c.deleteFileEvent fd mask

def run (calls : List EventCall) : Except FileStop FileEvents := calls.foldlM perform init

def entry (c : FileEvents) (fd : Nat) : FileEvent := c.fileEvents[fd]?.getD .empty

/-- What the kernel is to hold for an entry with this mask. -/
def wanted (mask : EventMask) : Option (BitVec 32) :=
  if mask = eventNone then none else some (epollEvents mask)

/-- The table and the kernel tell the same, and it is what the calls have asked for. -/
structure Registered (calls : List EventCall) (c : FileEvents) : Prop where
  size : c.fileEvents.length = c.nevent
  exceeds : ∀ fd mask ctxt, .create fd mask ctxt ∈ calls → fd < c.nevent
  interest : ∀ fd, c.interest fd = wanted (c.entry fd).mask
  bit : ∀ fd dir, Names (c.entry fd).mask dir ↔
    ∃ mask ctxt, EventCall.lastNaming calls fd dir = some (.create fd mask ctxt)
  callback : ∀ fd dir mask ctxt,
    EventCall.lastNaming calls fd dir = some (.create fd mask ctxt) →
      (c.entry fd).callback dir = ctxt

/-- A call that does not ask for exactly the mask that is there with another callback. -/
def Takes (c : FileEvents) : EventCall → Prop
  | .create fd mask ctxt => (c.entry fd).mask = mask →
      ∀ dir, Names mask dir → (c.entry fd).callback dir = ctxt
  | .delete .. => True

end FileEvents

section Masks

variable {mask mask' : EventMask} {dir : Direction}

def Direction.place : Direction → Nat
  | .readable => 0
  | .writable => 1

theorem Direction.flag_eq (dir : Direction) : dir.flag = BitVec.twoPow 32 dir.place := by
  cases dir <;> rfl

theorem names_iff : Names mask dir ↔ mask.getLsbD dir.place = true := by
  unfold Names
  rw [dir.flag_eq, BitVec.and_twoPow]
  cases hbit : mask.getLsbD dir.place with
  | false => simp
  | true =>
      rw [if_pos rfl]
      exact iff_of_true (by cases dir <;> decide) rfl

@[simp] theorem not_names_none : ¬ Names eventNone dir := by
  simp [names_iff, eventNone]

@[simp] theorem names_or : Names (mask ||| mask') dir ↔ Names mask dir ∨ Names mask' dir := by
  simp [names_iff]

@[simp] theorem names_and : Names (mask &&& mask') dir ↔ Names mask dir ∧ Names mask' dir := by
  simp [names_iff]

@[simp] theorem names_and_not :
    Names (mask &&& ~~~mask') dir ↔ Names mask dir ∧ ¬ Names mask' dir := by
  have hplace : dir.place < 32 := by cases dir <;> decide
  simp [names_iff, hplace]

end Masks

namespace FileEvent

variable {event : FileEvent} {mask : EventMask} {ctxt : EventCallbackRef} {dir : Direction}

theorem callback_merge : (event.merge mask ctxt).callback dir =
    if Names mask dir then ctxt else event.callback dir := by
  cases dir <;> rfl

theorem callback_remove (hdir : ¬ Names mask dir) :
    (event.remove mask).callback dir = event.callback dir := by
  cases dir <;> exact if_neg fun hdel => hdir hdel.1

theorem names_create : Names (event.create mask ctxt).mask dir ↔
    Names event.mask dir ∨ Names mask dir := by
  unfold create
  split
  · rename_i hsame
    rw [hsame, or_self]
  · exact names_or

theorem names_delete : Names (event.delete mask).mask dir ↔
    Names event.mask dir ∧ ¬ Names mask dir := by
  unfold delete
  split
  · rename_i hnone
    simp [hnone]
  · exact names_and_not

theorem callback_create (hdir : Names mask dir)
    (htakes : event.mask = mask → event.callback dir = ctxt) :
    (event.create mask ctxt).callback dir = ctxt := by
  unfold create
  split
  · rename_i hsame
    exact htakes hsame
  · rw [callback_merge, if_pos hdir]

theorem callback_create_of_not (hdir : ¬ Names mask dir) :
    (event.create mask ctxt).callback dir = event.callback dir := by
  unfold create
  split
  · rfl
  · rw [callback_merge, if_neg hdir]

theorem callback_delete_of_not (hdir : ¬ Names mask dir) :
    (event.delete mask).callback dir = event.callback dir := by
  unfold delete
  split
  · rfl
  · exact callback_remove hdir

end FileEvent

namespace EventCall

/-- What a call makes of the entry of its descriptor. -/
def edit (call : EventCall) (event : FileEvent) : FileEvent :=
  match call with
  | .create _ mask ctxt => event.create mask ctxt
  | .delete _ mask => event.delete mask

theorem callback_edit_of_not {call : EventCall} {event : FileEvent} {dir : Direction}
    (hdir : ¬ Names call.mask dir) : (call.edit event).callback dir = event.callback dir := by
  cases call with
  | create fd mask ctxt => exact FileEvent.callback_create_of_not hdir
  | delete fd mask => exact FileEvent.callback_delete_of_not hdir

theorem names_edit {call : EventCall} {event : FileEvent} {dir : Direction} :
    Names (call.edit event).mask dir ↔ if Names call.mask dir then
      ∃ mask ctxt, call = .create call.fd mask ctxt else Names event.mask dir := by
  cases call with
  | create fd mask ctxt =>
      change Names (event.create mask ctxt).mask dir ↔ if Names mask dir then _ else _
      rw [FileEvent.names_create]
      split <;> simp_all [EventCall.fd]
  | delete fd mask =>
      change Names (event.delete mask).mask dir ↔ if Names mask dir then _ else _
      rw [FileEvent.names_delete]
      split <;> simp_all

theorem lastNaming_append (calls : List EventCall) (call : EventCall) (fd : Nat)
    (dir : Direction) : lastNaming (calls ++ [call]) fd dir =
      if call.fd = fd ∧ Names call.mask dir then some call else lastNaming calls fd dir := by
  rw [lastNaming, List.reverse_append, List.reverse_singleton, List.singleton_append,
    List.find?_cons]
  split <;> simp_all [lastNaming]

end EventCall

namespace FileEvents

variable {c c' : FileEvents} {fd fd' newSize : Nat} {mask : EventMask} {ctxt : EventCallbackRef}
  {event : FileEvent} {interest : Interest} {calls : List EventCall} {call : EventCall}

/-- The sizes that the table can have. -/
def Size (n : Nat) : Prop := ∃ k ≤ 9, n = initEventNumber * 4 ^ k

/-- The last size that fits an `int`. -/
def greatest : Nat := initEventNumber * 4 ^ 9

theorem Size.shift {n : Nat} (h : Size n) (hless : n < greatest) :
    Size (n * 4) ∧ n * 4 < 2 ^ 31 := by
  obtain ⟨k, hk, rfl⟩ := h
  have hk' : k ≤ 8 := by
    by_contra hmore
    obtain rfl : k = 9 := by omega
    exact Nat.lt_irrefl _ hless
  refine ⟨⟨k + 1, by omega, by rw [pow_succ, mul_assoc]⟩, ?_⟩
  calc initEventNumber * 4 ^ k * 4 ≤ initEventNumber * 4 ^ 8 * 4 := by gcongr; decide
    _ < 2 ^ 31 := by decide

theorem Size.pos {n : Nat} (h : Size n) : 0 < n := by
  obtain ⟨k, -, rfl⟩ := h
  exact Nat.mul_pos (by decide) (Nat.pow_pos (by decide))

theorem Size.le_greatest {n : Nat} (h : Size n) : n ≤ greatest := by
  obtain ⟨k, hk, rfl⟩ := h
  unfold greatest
  gcongr
  decide

theorem Size.greatest_le {n : Nat} (h : Size n) (hover : ¬ n * 4 < 2 ^ 31) : greatest ≤ n :=
  Nat.not_lt.mp fun hless => hover (h.shift hless).2

theorem expand_ends (hsize : Size newSize) :
    Ends (expand fd newSize) (fun n => Size n ∧ newSize ≤ n ∧ fd < n)
      fun _ => greatest ≤ fd := by
  induction newSize using expand.induct fd with
  | case1 newSize henough =>
      rw [expand, if_pos henough]
      exact ⟨hsize, Nat.le_refl _, henough⟩
  | case2 henough =>
      exact absurd hsize.pos (Nat.lt_irrefl 0)
  | case3 newSize henough hzero hover ih =>
      rw [expand, if_neg henough, dif_neg hzero, dif_pos hover]
      have hless : newSize < greatest := by
        have hgreatest : 2 ^ 31 ≤ greatest * 4 := by decide
        omega
      exact (ih (hsize.shift hless).1).mono (fun n h => ⟨h.1, by omega, h.2.2⟩) fun _ => id
  | case4 newSize henough hzero hover =>
      rw [expand, if_neg henough, dif_neg hzero, dif_neg hover]
      exact Nat.le_trans (hsize.greatest_le hover) (Nat.not_lt.mp henough)

/-- The table and the kernel tell the same. -/
structure Wf (c : FileEvents) : Prop where
  length : c.fileEvents.length = c.nevent
  size : Size c.nevent
  interest : ∀ fd, c.interest fd = wanted (c.entry fd).mask

theorem Wf.shifted (h : c.Wf) : Ends (shifted c.nevent) (fun n => Size n ∧ n = c.nevent * 4)
    fun _ => greatest ≤ c.nevent := by
  unfold FileEvents.shifted
  split <;> rename_i hover
  · have hless : c.nevent < greatest := by
      have hgreatest : 2 ^ 31 ≤ greatest * 4 := by decide
      omega
    exact ⟨(h.size.shift hless).1, rfl⟩
  · exact h.size.greatest_le hover

theorem Wf.getFileEvent (h : c.Wf) (hfd : fd < c.nevent) :
    c.getFileEvent fd = .ok (c.entry fd) := by
  have hlt : fd < c.fileEvents.length := by rwa [h.length]
  simp [FileEvents.getFileEvent, entry, hfd, hlt]

theorem entry_setFileEvent (hfd : fd < c.fileEvents.length) :
    (c.setFileEvent fd event interest).entry = Function.update c.entry fd event := by
  funext fd'
  by_cases h : fd' = fd
  · subst h
    simp [entry, setFileEvent, hfd]
  · simp [entry, setFileEvent, Function.update_of_ne h, List.getElem?_set_ne (Ne.symm h)]

theorem entry_of_le (h : c.Wf) (hfd : c.nevent ≤ fd) : c.entry fd = .empty := by
  rw [← h.length] at hfd
  simp [entry, hfd]

theorem entry_resize : (c.resize newSize).entry = c.entry := by
  funext fd
  rcases Nat.lt_or_ge fd c.fileEvents.length with hlt | hge
  · rw [entry, entry, resize, List.getElem?_append_left hlt]
  · rw [entry, entry, resize, List.getElem?_append_right hge, List.getElem?_replicate,
      List.getElem?_eq_none hge]
    split <;> rfl

theorem Wf.resize (h : c.Wf) (hsize : Size newSize) (hmore : c.nevent ≤ newSize) :
    (c.resize newSize).Wf where
  length := by
    change (c.fileEvents ++ List.replicate _ _).length = newSize
    rw [List.length_append, List.length_replicate, h.length]
    omega
  size := hsize
  interest fd := by
    rw [entry_resize]
    exact h.interest fd

theorem Wf.setFileEvent (h : c.Wf) (hfd : fd < c.nevent) :
    (c.setFileEvent fd event (Function.update c.interest fd (wanted event.mask))).Wf where
  length := by
    change (c.fileEvents.set fd event).length = c.nevent
    rw [List.length_set, h.length]
  size := h.size
  interest fd' := by
    rw [entry_setFileEvent (h.length ▸ hfd)]
    by_cases hne : fd' = fd
    · subst hne
      simp [FileEvents.setFileEvent]
    · simp only [FileEvents.setFileEvent, Function.update_of_ne hne]
      exact h.interest fd'

/-- The kernel has been told of every descriptor whose mask is not empty, and of no other. -/
theorem Wf.addEvent (h : c.Wf) (ctxt : EventCallbackRef) (hne : (c.entry fd).mask ≠ mask) :
    addEvent c.interest fd (c.entry fd).mask mask =
      .ok (Function.update c.interest fd (wanted ((c.entry fd).merge mask ctxt).mask)) := by
  have hsome : (c.entry fd).mask ||| mask ≠ eventNone := by
    intro hnone
    obtain ⟨hold, hnew⟩ := BitVec.or_eq_zero_iff.mp hnone
    exact hne (hold.trans hnew.symm)
  have hwanted : wanted ((c.entry fd).merge mask ctxt).mask =
      some (epollEvents (mask ||| (c.entry fd).mask)) := by
    rw [BitVec.or_comm mask]
    exact if_neg hsome
  rw [hwanted, Network.addEvent]
  have hinterest := h.interest fd
  unfold wanted at hinterest
  split <;> rename_i hold
  · rw [if_pos hold] at hinterest
    exact if_pos hinterest
  · rw [if_neg hold] at hinterest
    exact if_neg (by simp [hinterest])

theorem Wf.delEvent (h : c.Wf) (hne : (c.entry fd).mask ≠ eventNone) :
    delEvent c.interest fd (c.entry fd).mask mask =
      .ok (Function.update c.interest fd (wanted ((c.entry fd).remove mask).mask)) := by
  have hinterest := h.interest fd
  rw [wanted, if_neg hne] at hinterest
  have hsome : c.interest fd ≠ none := by simp [hinterest]
  have hmask : ((c.entry fd).remove mask).mask = (c.entry fd).mask &&& ~~~mask := rfl
  rw [Network.delEvent, wanted, hmask]
  split <;> rename_i hleft
  · exact if_neg hsome
  · rw [if_pos (not_not.mp hleft)]
    exact if_neg hsome

/-- A call has changed the entry of `fd` and no other, and may have made the table larger. -/
structure Edited (c : FileEvents) (fd : Nat) (event : FileEvent) (c' : FileEvents) : Prop where
  wf : c'.Wf
  nevent : c'.nevent = c.nevent ∨ c.nevent ≤ fd ∧ c.nevent < c'.nevent
  entry : c'.entry = Function.update c.entry fd event

theorem Edited.grown (h : c.Edited fd event c') : c.nevent ≤ c'.nevent := by
  have hnevent := h.nevent
  omega

theorem Wf.unedited (h : c.Wf) : c.Edited fd (c.entry fd) c :=
  ⟨h, .inl rfl, (Function.update_eq_self fd c.entry).symm⟩

theorem Wf.edited (h : c.Wf) (hfd : fd < c.nevent) : c.Edited fd event
    (c.setFileEvent fd event (Function.update c.interest fd (wanted event.mask))) :=
  ⟨h.setFileEvent hfd, .inl rfl, entry_setFileEvent (h.length ▸ hfd)⟩

theorem Wf.createEntry (h : c.Wf) (hfd : fd < c.nevent) :
    Ends (c.createEntry fd mask ctxt) (c.Edited fd ((c.entry fd).create mask ctxt))
      fun _ => False := by
  unfold FileEvents.createEntry
  rw [h.getFileEvent hfd, ok_bind, FileEvent.create]
  split
  · exact h.unedited
  · rename_i hne
    rw [h.addEvent ctxt hne]
    exact h.edited hfd

/-- A descriptor past the greatest size overflows the shift. -/
theorem Wf.createFileEvent (h : c.Wf) :
    Ends (c.createFileEvent fd mask ctxt) (fun (r, c') => r = 0 ∧ fd < c'.nevent ∧
      c.Edited fd ((c.entry fd).create mask ctxt) c') fun _ => greatest ≤ fd := by
  unfold FileEvents.createFileEvent
  split
  · rename_i hmore
    refine (h.shifted.mono (fun _ => id) fun _ hover => Nat.le_trans hover hmore).bind ?_
    rintro size ⟨hnext, rfl⟩
    refine (expand_ends hnext).bind ?_
    rintro newSize ⟨hsize, hle, henough⟩
    rw [if_neg (show ¬ resizeEvents newSize < 0 from Int.lt_irrefl 0)]
    have hwf := h.resize hsize (by omega)
    refine ((hwf.createEntry henough).mono (fun _ => id) fun _ => False.elim).bind
      fun c' hedited => ⟨rfl, ?_, hedited.wf, ?_, ?_⟩
    · exact Nat.lt_of_lt_of_le henough hedited.grown
    · have hgrown : newSize ≤ c'.nevent := hedited.grown
      exact .inr ⟨hmore, by omega⟩
    · rw [hedited.entry, entry_resize]
  · rename_i hless
    refine ((h.createEntry (Nat.not_le.mp hless)).mono (fun _ => id) fun _ => False.elim).bind
      fun c' hedited => ⟨rfl, ?_, hedited⟩
    exact Nat.lt_of_lt_of_le (Nat.not_le.mp hless) hedited.grown

theorem Wf.deleteFileEvent (h : c.Wf) :
    Ends (c.deleteFileEvent fd mask)
      (fun c' => c.Edited fd ((c.entry fd).delete mask) c' ∧ c'.nevent = c.nevent)
      fun _ => False := by
  unfold FileEvents.deleteFileEvent FileEvent.delete
  split
  · rename_i hless
    rw [if_pos (by rw [entry_of_le h hless]; rfl)]
    exact ⟨h.unedited, rfl⟩
  · rename_i hless
    rw [h.getFileEvent (Nat.not_le.mp hless), ok_bind]
    split
    · exact ⟨h.unedited, rfl⟩
    · rename_i hne
      rw [h.delEvent hne]
      exact ⟨h.edited (Nat.not_le.mp hless), rfl⟩

structure Performed (c : FileEvents) (call : EventCall) (c' : FileEvents) : Prop where
  edited : c.Edited call.fd (call.edit (c.entry call.fd)) c'
  exceeds : ∀ mask ctxt, call = .create call.fd mask ctxt → call.fd < c'.nevent
  enlarged : c.nevent < c'.nevent ↔
    (∃ mask ctxt, call = .create call.fd mask ctxt) ∧ c.nevent ≤ call.fd

theorem Wf.perform (h : c.Wf) :
    Ends (c.perform call) (c.Performed call) fun _ => greatest ≤ call.fd := by
  cases call with
  | create fd mask ctxt =>
      refine h.createFileEvent.bind ?_
      rintro ⟨r, c'⟩ ⟨-, hlt, hedited⟩
      refine ⟨hedited, fun _ _ _ => hlt, ?_⟩
      have hnevent := hedited.nevent
      constructor
      · intro hmore
        exact ⟨⟨mask, ctxt, rfl⟩, by change c.nevent ≤ fd; omega⟩
      · rintro ⟨-, hpast⟩
        exact Nat.lt_of_le_of_lt hpast hlt
  | delete fd mask =>
      refine h.deleteFileEvent.mono ?_ fun _ => False.elim
      rintro c' ⟨hedited, hsame⟩
      refine ⟨hedited, fun _ _ hcall => (by cases hcall), ?_⟩
      rw [hsame]
      refine iff_of_false (Nat.lt_irrefl _) ?_
      rintro ⟨⟨mask', ctxt, hcall⟩, -⟩
      cases hcall

/-- What holds after every run. -/
structure Sound (calls : List EventCall) (c : FileEvents) : Prop where
  wf : c.Wf
  exceeds : ∀ fd mask ctxt, .create fd mask ctxt ∈ calls → fd < c.nevent
  bit : ∀ fd dir, Names (c.entry fd).mask dir ↔
    ∃ mask ctxt, EventCall.lastNaming calls fd dir = some (.create fd mask ctxt)

theorem entry_init (fd : Nat) : init.entry fd = .empty := by
  rw [entry, init, List.getElem?_replicate]
  split <;> rfl

theorem Sound.init : Sound [] init where
  wf := by
    refine ⟨List.length_replicate, ⟨0, by decide, rfl⟩, fun fd => ?_⟩
    rw [entry_init]
    rfl
  exceeds _ _ _ hmem := by cases hmem
  bit fd dir := by simp [entry_init, FileEvent.empty, EventCall.lastNaming]

theorem Sound.perform (h : Sound calls c) (hfd : call.fd < 2 ^ 30) : Ends (c.perform call)
    (fun c' => Sound (calls ++ [call]) c' ∧
      c'.entry = Function.update c.entry call.fd (call.edit (c.entry call.fd)))
    fun _ => False := by
  refine h.wf.perform.mono ?_ fun _ hpast =>
    absurd (Nat.lt_of_le_of_lt hpast hfd) (by decide)
  rintro c' ⟨hedited, hcreate, -⟩
  refine ⟨⟨hedited.wf, ?_, ?_⟩, hedited.entry⟩
  · intro fd mask ctxt hmem
    rcases List.mem_append.mp hmem with hold | hnew
    · exact Nat.lt_of_lt_of_le (h.exceeds fd mask ctxt hold) hedited.grown
    · obtain rfl := List.mem_singleton.mp hnew
      exact hcreate mask ctxt rfl
  · intro fd dir
    rw [EventCall.lastNaming_append, hedited.entry]
    by_cases hsame : call.fd = fd
    · subst hsame
      rw [Function.update_self, EventCall.names_edit]
      by_cases hdir : Names call.mask dir
      · simp [hdir]
      · rw [if_neg hdir, if_neg (fun hboth => hdir hboth.2)]
        exact h.bit call.fd dir
    · rw [Function.update_of_ne (Ne.symm hsame), if_neg (fun hboth => hsame hboth.1)]
      exact h.bit fd dir

theorem run_append (calls : List EventCall) (call : EventCall) :
    run (calls ++ [call]) = run calls >>= fun c => c.perform call := by
  simp [run, List.foldlM_append]

theorem sound_of_run (hfds : ∀ call ∈ calls, call.fd < 2 ^ 30) :
    Ends (run calls) (Sound calls) fun _ => False := by
  induction calls using List.reverseRecOn with
  | nil => exact .init
  | append_singleton calls call ih =>
      rw [run_append]
      refine (ih fun call' hmem => hfds call' (List.mem_append_left _ hmem)).bind fun c h => ?_
      exact (h.perform (hfds call (by simp))).mono (fun c' => And.left) fun _ => id

theorem Sound.registered (h : Sound calls c) (hcallback : ∀ fd dir mask ctxt,
    EventCall.lastNaming calls fd dir = some (.create fd mask ctxt) →
      (c.entry fd).callback dir = ctxt) : Registered calls c :=
  ⟨h.wf.length, h.exceeds, h.wf.interest, h.bit, hcallback⟩

/-- A callback that has been registered stays until another call names its direction. -/
theorem Registered.callback_append (h : Registered calls c) (htakes : c.Takes call)
    (hentry : c'.entry = Function.update c.entry call.fd (call.edit (c.entry call.fd))) :
    ∀ fd dir mask ctxt,
      EventCall.lastNaming (calls ++ [call]) fd dir = some (.create fd mask ctxt) →
        (c'.entry fd).callback dir = ctxt := by
  intro fd dir mask ctxt hlast
  rw [EventCall.lastNaming_append] at hlast
  rw [hentry]
  split at hlast
  · rename_i hnames
    cases hlast
    rw [EventCall.fd, Function.update_self]
    exact FileEvent.callback_create hnames.2 fun hsame => htakes hsame dir hnames.2
  · rename_i hother
    have hold := h.callback fd dir mask ctxt hlast
    by_cases hsame : fd = call.fd
    · subst hsame
      rw [Function.update_self, EventCall.callback_edit_of_not fun hdir => hother ⟨rfl, hdir⟩]
      exact hold
    · rw [Function.update_of_ne hsame]
      exact hold

/-- After every call of a run the registrations are as they should be, if and only if no call
asks for exactly the mask that is there with another callback. -/
theorem file_events_registered_iff (calls : List EventCall)
    (hfds : ∀ call ∈ calls, call.fd < 2 ^ 30) :
    (∀ before, before <+: calls → ∃ c, run before = .ok c ∧ Registered before c) ↔
      ∀ before call, before ++ [call] <+: calls → ∀ c, run before = .ok c → c.Takes call := by
  constructor
  · intro hregistered before call hfront c hrun
    cases call with
    | delete => trivial
    | create fd mask ctxt =>
        intro hsame dir hdir
        obtain ⟨c', hrun', hafter⟩ := hregistered _ hfront
        have hcall : c.perform (.create fd mask ctxt) = .ok c' := by
          rwa [run_append, hrun] at hrun'
        have hsound := (sound_of_run fun call hmem => hfds call
          (hfront.subset (List.mem_append_left _ hmem))).value hrun
        have hentry := ((hsound.perform (hfds _ (hfront.subset (by simp)))).value hcall).2
        have hcallback := hafter.callback fd dir mask ctxt (by
          rw [EventCall.lastNaming_append, if_pos ⟨rfl, hdir⟩])
        rw [hentry, EventCall.fd, Function.update_self] at hcallback
        rwa [EventCall.edit, FileEvent.create, if_pos hsame] at hcallback
  · intro htakes before hfront
    induction before using List.reverseRecOn with
    | nil => exact ⟨init, rfl, Sound.init.registered fun _ _ _ _ hlast => by cases hlast⟩
    | append_singleton before call ih =>
        have hbefore : before <+: calls := (List.prefix_append _ _).trans hfront
        obtain ⟨c, hrun, hregistered⟩ := ih hbefore
        have hsound := (sound_of_run fun call hmem => hfds call
          (hbefore.subset hmem)).value hrun
        obtain ⟨c', hcall, hsound', hentry⟩ :=
          (hsound.perform (hfds call (hfront.subset (by simp)))).returns
        refine ⟨c', by rw [run_append, hrun]; exact hcall, hsound'.registered ?_⟩
        exact hregistered.callback_append (htakes before call hfront c hrun) hentry

theorem file_events_registered_iff_one_create : ∃ c,
    run [.create 7 eventReadable (some 1)] = .ok c ∧
      Registered [.create 7 eventReadable (some 1)] c := by
  refine (file_events_registered_iff [.create 7 eventReadable (some 1)] (by decide)).mpr ?_ _
    (List.prefix_refl _)
  intro before call hfront c hrun
  obtain ⟨rfl, rfl⟩ : before = [] ∧ call = .create 7 eventReadable (some 1) := by
    have hlength := hfront.length_le
    obtain rfl : before = [] := List.eq_nil_of_length_eq_zero (by simpa using hlength)
    simpa using hfront
  cases hrun
  intro hsame
  exact absurd hsame (by decide)

/-- A descriptor is registered for reading twice; the first callback stays. -/
theorem file_events_not_registered : ∃ c,
    run [.create 7 eventReadable (some 1), .create 7 eventReadable (some 2)] = .ok c ∧
      (c.entry 7).callback .readable = some 1 ∧
      ¬ Registered [.create 7 eventReadable (some 1), .create 7 eventReadable (some 2)] c := by
  refine ⟨_, rfl, rfl, fun h => ?_⟩
  exact absurd (h.callback 7 .readable eventReadable (some 2) rfl) (by decide)

end FileEvents

end RdmaCapsule.Network
