import Mathlib
import RdmaCapsule.Foundation.Machine
import RdmaCapsule.Network.FileEvents

/-! The loop of `process_events` over the fired file events. The callbacks that it runs may
create and delete file events. The loop keeps a pointer into the table while it is in the
first callback of a descriptor. -/
namespace RdmaCapsule.Network

open RdmaCapsule.Foundation

structure FiredFileEvent where
  fd : Nat
  mask : EventMask

/-- A pointer that `_get_file_event` has returned, with the size of the table it points into.
A larger table is at least four times as large, so the vector has no room for it and moves. -/
structure EventPtr where
  fd : Nat
  size : Nat

/-- A call of a callback, with the registrations at that moment and the calls that callbacks
have made earlier in the pass. -/
structure Dispatched where
  fd : Nat
  dir : Direction
  callback : EventCallbackRef
  center : FileEvents
  earlier : List EventCall

inductive FilePlace where
  /-- At the head of the loop. -/
  | head
  /-- In the callback for reading. -/
  | inRead (mask : EventMask) (event : EventPtr)
  /-- In the callback for writing. -/
  | inWrite

structure FilePass where
  center : FileEvents
  firedEvents : List FiredFileEvent
  place : FilePlace
  earlier : List EventCall
  dispatched : List Dispatched

inductive FilePassOp where
  /-- The loop goes on; the callback that it is in returns. -/
  | proceed
  /-- The callback calls `create_file_event` or `delete_file_event`. -/
  | call (call : EventCall)

inductive FilePassStop where
  | file (stop : FileStop)
  | dangling
  deriving DecidableEq

namespace FilePass

/-- `event->`. -/
def deref (p : FilePass) (event : EventPtr) : Except FilePassStop FileEvent :=
  if p.center.nevent = event.size then
    match p.center.fileEvents[event.fd]? with
    | some value => .ok value
    | none => .error (.file .outside)
  else .error .dangling

/-- `cb->do_request(fd)`. -/
def doRequest (p : FilePass) (fd : Nat) (dir : Direction) (cb : EventCallbackRef)
    (place : FilePlace) : FilePass :=
  { p with place, dispatched := p.dispatched ++ [⟨fd, dir, cb, p.center, p.earlier⟩] }

/-- The second half of the body. -/
def checkWritable (p : FilePass) (mask : EventMask) (event : EventPtr) (rfired : Bool) :
    Except FilePassStop FilePass := do
  let value ← p.deref event
  if Names (value.mask &&& mask) .writable ∧ (rfired = false ∨ value.readCb ≠ value.writeCb) then
    pure (p.doRequest event.fd .writable value.writeCb .inWrite)
  else pure { p with place := .head }

def proceed (p : FilePass) : Except FilePassStop FilePass :=
  match p.place with
  | .head =>
      match p.firedEvents with
      | [] => pure p
      | fired :: rest => do
          if fired.fd < p.center.nevent then
            let p := { p with firedEvents := rest }
            let event : EventPtr := ⟨fired.fd, p.center.nevent⟩
            let value ← p.deref event
            if Names (value.mask &&& fired.mask) .readable then
              pure (p.doRequest fired.fd .readable value.readCb (.inRead fired.mask event))
            else p.checkWritable fired.mask event false
          else .error (.file .kassert)
  | .inRead mask event => p.checkWritable mask event true
  | .inWrite => pure { p with place := .head }

def step (p : FilePass) : FilePassOp → Except FilePassStop FilePass
  | .proceed => p.proceed
  | .call call => do
      let center ← (p.center.perform call).mapError .file
      pure { p with center, earlier := p.earlier ++ [call] }

/-- What the loop is started with: events of descriptors that the kernel watches. No null
pointer has been registered. -/
structure Start (p : FilePass) : Prop where
  wf : p.center.Wf
  armed : ∀ fd dir, Names (p.center.entry fd).mask dir → (p.center.entry fd).callback dir ≠ none
  fired : ∀ fired ∈ p.firedEvents, p.center.interest fired.fd ≠ none
  place : p.place = .head
  earlier : p.earlier = []
  dispatched : p.dispatched = []

/-- Only a callback makes calls, and it registers no null pointer. -/
def Enabled (p : FilePass) : FilePassOp → Prop
  | .proceed => True
  | .call call => p.place ≠ .head ∧ ∀ fd mask, call ≠ .create fd mask none

def machine : Machine FilePass FilePassOp FilePassStop where
  start := Start
  enabled := Enabled
  step := step

end FilePass

/-- The callback is the one registered at the moment of the call, and no earlier call of the
pass has deleted the direction for good. -/
structure Dispatched.Live (d : Dispatched) : Prop where
  callback : d.callback = (d.center.entry d.fd).callback d.dir
  nonnull : d.callback ≠ none
  set : Names (d.center.entry d.fd).mask d.dir
  kept : ∀ fd mask, EventCall.lastNaming d.earlier d.fd d.dir ≠ some (.delete fd mask)

namespace FilePass

/-- All calls so far were of live registrations, and the loop can go on. -/
structure Sane (p : FilePass) : Prop where
  live : ∀ d ∈ p.dispatched, d.Live
  proceeds : ∃ p', p.proceed = .ok p'

/-- A callback for reading that makes the table larger. -/
def Enlarges (p : FilePass) : FilePassOp → Prop
  | .proceed => False
  | .call call => (∃ mask event, p.place = .inRead mask event) ∧
      (∃ mask ctxt, call = .create call.fd mask ctxt) ∧
      p.center.nevent ≤ call.fd ∧ call.fd < FileEvents.greatest

variable {p p' : FilePass} {op : FilePassOp} {call : EventCall} {mask : EventMask}
  {event : EventPtr} {fd : Nat} {dir : Direction} {place : FilePlace} {rfired : Bool}

/-- Where the loop is, the pointer that it holds is into a table that was not larger. -/
structure Inv (p : FilePass) : Prop where
  wf : p.center.Wf
  armed : ∀ fd dir, Names (p.center.entry fd).mask dir → (p.center.entry fd).callback dir ≠ none
  fired : ∀ fired ∈ p.firedEvents, fired.fd < p.center.nevent
  ptr : ∀ mask event, p.place = .inRead mask event →
    event.fd < event.size ∧ event.size ≤ p.center.nevent
  deleted : ∀ fd dir fd' mask, EventCall.lastNaming p.earlier fd dir = some (.delete fd' mask) →
    ¬ Names (p.center.entry fd).mask dir
  live : ∀ d ∈ p.dispatched, d.Live

/-- The pointer that the loop holds is into the table as it is. -/
def Held (p : FilePass) : Prop :=
  ∀ mask event, p.place = .inRead mask event → event.size = p.center.nevent

theorem Inv.start (h : p.Start) : p.Inv where
  wf := h.wf
  armed := h.armed
  fired fired hmem := by
    by_contra hpast
    refine h.fired fired hmem ?_
    rw [h.wf.interest, FileEvents.entry_of_le h.wf (Nat.not_lt.mp hpast)]
    rfl
  ptr mask event hplace := by
    rw [h.place] at hplace
    cases hplace
  deleted fd dir fd' mask hlast := by
    rw [h.earlier] at hlast
    cases hlast
  live d hmem := by
    rw [h.dispatched] at hmem
    cases hmem

theorem Inv.deref (h : p.Inv) (hsize : event.size = p.center.nevent)
    (hfd : event.fd < event.size) : p.deref event = .ok (p.center.entry event.fd) := by
  have hlt : event.fd < p.center.fileEvents.length := by rw [h.wf.length]; omega
  simp [FilePass.deref, FileEvents.entry, hsize, hlt]

theorem Inv.at_head (h : p.Inv) : { p with place := .head }.Inv :=
  ⟨h.wf, h.armed, h.fired, nofun, h.deleted, h.live⟩

theorem Inv.doRequest (h : p.Inv) (hdir : Names (p.center.entry fd).mask dir)
    (hplace : ∀ mask event, place = .inRead mask event →
      event.fd < event.size ∧ event.size ≤ p.center.nevent) :
    (p.doRequest fd dir ((p.center.entry fd).callback dir) place).Inv := by
  refine ⟨h.wf, h.armed, h.fired, hplace, h.deleted, fun d hmem => ?_⟩
  rcases List.mem_append.mp hmem with hold | hnew
  · exact h.live d hold
  · obtain rfl := List.mem_singleton.mp hnew
    exact ⟨rfl, h.armed fd dir hdir, hdir, fun fd' mask hlast => h.deleted fd dir fd' mask hlast hdir⟩

theorem Inv.checkWritable (h : p.Inv) (hsize : event.size = p.center.nevent)
    (hfd : event.fd < event.size) :
    Ends (p.checkWritable mask event rfired) (fun p' => p'.Inv ∧ p'.Held) fun _ => False := by
  unfold FilePass.checkWritable
  rw [h.deref hsize hfd, ok_bind]
  split
  · rename_i hwritable
    exact ⟨h.doRequest (names_and.mp hwritable.1).1 nofun, nofun⟩
  · exact ⟨h.at_head, nofun⟩

theorem Inv.proceed (h : p.Inv) (hheld : p.Held) :
    Ends p.proceed (fun p' => p'.Inv ∧ p'.Held) fun _ => False := by
  unfold FilePass.proceed
  split
  · split
    · exact ⟨h, hheld⟩
    · rename_i fired rest hfired
      have hfd := h.fired fired (by rw [hfired]; exact List.mem_cons_self)
      have hrest : { p with firedEvents := rest }.Inv :=
        ⟨h.wf, h.armed, fun fired' hmem => h.fired fired' (by
          rw [hfired]
          exact List.mem_cons_of_mem _ hmem), h.ptr, h.deleted, h.live⟩
      rw [if_pos hfd]
      dsimp only
      rw [hrest.deref rfl hfd, ok_bind]
      split
      · rename_i hreadable
        refine ⟨hrest.doRequest (names_and.mp hreadable).1 ?_, ?_⟩
        · intro mask event hplace
          cases hplace
          exact ⟨hfd, Nat.le_refl _⟩
        · intro mask event hplace
          cases hplace
          rfl
      · exact hrest.checkWritable rfl hfd
  · rename_i mask event hplace
    exact h.checkWritable (hheld mask event hplace) (h.ptr mask event hplace).1
  · exact ⟨h.at_head, nofun⟩

theorem Inv.sane (h : p.Inv) (hheld : p.Held) : p.Sane := by
  obtain ⟨p', hp', -⟩ := (h.proceed hheld).returns
  exact ⟨h.live, p', hp'⟩

/-- What the last deletion of a pass leaves. -/
theorem Inv.deleted_append (h : p.Inv) {c' : FileEvents}
    (hedited : p.center.Edited call.fd (call.edit (p.center.entry call.fd)) c') :
    ∀ fd dir fd' mask,
      EventCall.lastNaming (p.earlier ++ [call]) fd dir = some (.delete fd' mask) →
        ¬ Names (c'.entry fd).mask dir := by
  intro fd dir fd' mask hlast
  rw [EventCall.lastNaming_append] at hlast
  rw [hedited.entry]
  by_cases hsame : fd = call.fd
  · subst hsame
    rw [Function.update_self, EventCall.names_edit]
    split at hlast
    · rename_i hnames
      cases hlast
      rw [if_pos hnames.2]
      rintro ⟨mask', ctxt, hcreate⟩
      cases hcreate
    · rename_i hother
      rw [if_neg fun hdir => hother ⟨rfl, hdir⟩]
      exact h.deleted _ dir fd' mask hlast
  · rw [if_neg fun hnames => hsame hnames.1.symm] at hlast
    rw [Function.update_of_ne hsame]
    exact h.deleted fd dir fd' mask hlast

theorem armed_edit {value : FileEvent}
    (harmed : ∀ dir, Names value.mask dir → value.callback dir ≠ none)
    (hcall : ∀ fd mask, call ≠ .create fd mask none) (dir : Direction)
    (hdir : Names (call.edit value).mask dir) : (call.edit value).callback dir ≠ none := by
  by_cases hnames : Names call.mask dir
  · rw [EventCall.names_edit, if_pos hnames] at hdir
    cases call with
    | delete fd mask =>
        obtain ⟨mask', ctxt, hcreate⟩ := hdir
        cases hcreate
    | create fd mask ctxt =>
        change (value.create mask ctxt).callback dir ≠ none
        unfold FileEvent.create
        split
        · rename_i hsame
          exact harmed dir (hsame ▸ hnames)
        · rw [FileEvent.callback_merge, if_pos (show Names mask dir from hnames)]
          rintro rfl
          exact hcall fd mask rfl
  · rw [EventCall.names_edit, if_neg hnames] at hdir
    rw [EventCall.callback_edit_of_not hnames]
    exact harmed dir hdir

theorem Inv.perform (h : p.Inv) (henabled : p.Enabled (.call call)) {c' : FileEvents}
    (hperformed : p.center.Performed call c') :
    { p with center := c', earlier := p.earlier ++ [call] }.Inv := by
  obtain ⟨hedited, -, -⟩ := hperformed
  refine ⟨hedited.wf, ?_, ?_, ?_, h.deleted_append hedited, h.live⟩
  · intro fd dir hdir
    dsimp only at hdir ⊢
    rw [hedited.entry] at hdir ⊢
    by_cases hsame : fd = call.fd
    · subst hsame
      rw [Function.update_self] at hdir ⊢
      exact armed_edit (h.armed call.fd) henabled.2 dir hdir
    · rw [Function.update_of_ne hsame] at hdir ⊢
      exact h.armed fd dir hdir
  · exact fun fired hmem => Nat.lt_of_lt_of_le (h.fired fired hmem) hedited.grown
  · intro mask event hplace
    obtain ⟨hfd, hsize⟩ := h.ptr mask event hplace
    exact ⟨hfd, Nat.le_trans hsize hedited.grown⟩

/-- While no callback for reading enlarges the table, the pointer stays good. -/
theorem Inv.step (h : p.Inv) (hheld : p.Held) (henabled : p.Enabled op)
    (hspares : ¬ p.Enlarges op) : Ends (p.step op) (fun p' => p'.Inv ∧ p'.Held) fun _ => True := by
  cases op with
  | proceed => exact (h.proceed hheld).mono (fun _ => id) fun _ _ => trivial
  | call call =>
      refine ((h.wf.perform.mono (fun _ => id) fun _ _ => trivial).mapError _).bind ?_
      intro c' hperformed
      refine ⟨h.perform henabled hperformed, fun mask event hplace => ?_⟩
      rw [hheld mask event hplace]
      refine Nat.le_antisymm hperformed.edited.grown (Nat.not_lt.mp fun hmore => hspares ?_)
      obtain ⟨hcreate, hpast⟩ := hperformed.enlarged.mp hmore
      obtain ⟨mask', ctxt, hcall⟩ := hcreate
      refine ⟨⟨mask, event, hplace⟩, ⟨mask', ctxt, hcall⟩, hpast, ?_⟩
      exact Nat.lt_of_lt_of_le (hperformed.exceeds mask' ctxt hcall)
        hperformed.edited.wf.size.le_greatest

theorem proceed_dangling (hplace : p.place = .inRead mask event)
    (hmoved : p.center.nevent ≠ event.size) : p.proceed = .error .dangling := by
  have hderef : p.deref event = .error .dangling := if_neg hmoved
  unfold FilePass.proceed
  rw [hplace]
  change p.checkWritable mask event true = _
  rw [FilePass.checkWritable, hderef]
  rfl

/-- The table has moved when the callback returns. -/
theorem Inv.enlarged (h : p.Inv) (henlarges : p.Enlarges op) :
    ∃ p', p.step op = .ok p' ∧ p'.proceed = .error .dangling := by
  cases op with
  | proceed => exact henlarges.elim
  | call call =>
      obtain ⟨⟨mask, event, hplace⟩, hcreate, hpast, hless⟩ := henlarges
      obtain ⟨c', hrun, hperformed⟩ :=
        (h.wf.perform.mono (fun _ => id) fun _ hover => absurd hless (Nat.not_lt.mpr hover)).returns
      refine ⟨{ p with center := c', earlier := p.earlier ++ [call] }, ?_, ?_⟩
      · change (p.center.perform call).mapError _ >>= _ = _
        rw [hrun]
        rfl
      · have hmore := hperformed.enlarged.mpr ⟨hcreate, hpast⟩
        have hsize := (h.ptr mask event hplace).2
        have hmoved : c'.nevent ≠ event.size := by omega
        exact proceed_dangling (p := { p with center := c', earlier := p.earlier ++ [call] })
          hplace hmoved

theorem held_of_reachable (h : (machine.restrict fun p op => ¬ p.Enlarges op).Reachable p) :
    p.Inv ∧ p.Held := by
  apply h.invariant
  · intro first hfirst
    refine ⟨.start hfirst, fun mask event hplace => ?_⟩
    rw [hfirst.place] at hplace
    cases hplace
  · rintro before op after - ⟨hinv, hheld⟩ ⟨henabled, hspares⟩ hrun
    exact (hinv.step hheld henabled hspares).value hrun

/-- In every pass in which no callback for reading enlarges the table, the callbacks that are
called are live registrations and the loop can go on; and a step keeps it so if and only if it
does not enlarge the table so. -/
theorem dispatch_live_iff (p : FilePass)
    (h : (machine.restrict fun p op => ¬ p.Enlarges op).Reachable p) :
    p.Sane ∧ ∀ op, p.Enabled op →
      ((∀ p', p.step op = .ok p' → p'.Sane) ↔ ¬ p.Enlarges op) := by
  obtain ⟨hinv, hheld⟩ := held_of_reachable h
  refine ⟨hinv.sane hheld, fun op henabled => ⟨?_, ?_⟩⟩
  · intro hsane henlarges
    obtain ⟨p', hrun, hdangling⟩ := hinv.enlarged henlarges
    obtain ⟨p'', hproceed⟩ := (hsane p' hrun).proceeds
    cases hdangling.symm.trans hproceed
  · intro hspares p' hrun
    obtain ⟨hinv', hheld'⟩ := (hinv.step hheld henabled hspares).value hrun
    exact hinv'.sane hheld'

/-- A pass can start with any table that calls without null pointers have made. -/
theorem Start.of_run {calls : List EventCall} {center : FileEvents}
    {firedEvents : List FiredFileEvent} (hfds : ∀ call ∈ calls, call.fd < 2 ^ 30)
    (hcalls : ∀ call ∈ calls, ∀ fd mask, call ≠ .create fd mask none)
    (hrun : FileEvents.run calls = .ok center)
    (hfired : ∀ fired ∈ firedEvents, center.interest fired.fd ≠ none) :
    Start ⟨center, firedEvents, .head, [], []⟩ := by
  refine ⟨((FileEvents.sound_of_run hfds).value hrun).wf, ?_, hfired, rfl, rfl, rfl⟩
  dsimp only
  clear hfired
  induction calls using List.reverseRecOn generalizing center with
  | nil =>
      cases hrun
      intro fd dir hdir
      rw [FileEvents.entry_init] at hdir
      exact absurd hdir not_names_none
  | append_singleton calls call ih =>
      rw [FileEvents.run_append] at hrun
      obtain ⟨before, hbefore, hperform⟩ := bind_eq_ok hrun
      have hfds' : ∀ call ∈ calls, call.fd < 2 ^ 30 := fun call' hmem =>
        hfds call' (List.mem_append_left _ hmem)
      have harmed := ih hfds' (fun call' hmem => hcalls call' (List.mem_append_left _ hmem)) hbefore
      have hwf := ((FileEvents.sound_of_run hfds').value hbefore).wf
      intro fd dir
      rw [(hwf.perform.value hperform).edited.entry]
      by_cases hsame : fd = call.fd
      · subst hsame
        rw [Function.update_self]
        exact armed_edit (harmed call.fd) (hcalls call (by simp)) dir
      · rw [Function.update_of_ne hsame]
        exact harmed fd dir

/-- Descriptor 7 is ready for both, and has a callback for each. -/
theorem ready_reachable (allowed : FilePass → FilePassOp → Prop) : ∃ center,
    (machine.restrict allowed).Reachable ⟨center, [⟨7, eventReadable ||| eventWritable⟩], .head, [], []⟩ ∧
      FileEvents.run [.create 7 eventReadable (some 1), .create 7 eventWritable (some 2)] =
        .ok center := by
  have hrun : FileEvents.run [.create 7 eventReadable (some 1), .create 7 eventWritable (some 2)] =
      .ok _ := rfl
  refine ⟨_, .start (Start.of_run ?_ ?_ hrun ?_), hrun⟩
  · decide
  · simp
  · intro fired hmem
    obtain rfl := List.mem_singleton.mp hmem
    exact Option.some_ne_none _

theorem dispatch_live_iff_both_called :
    ∃ p : FilePass, p.dispatched.map (fun d => (d.fd, d.callback)) = [(7, some 1), (7, some 2)] ∧ p.Sane := by
  obtain ⟨center, hready, hrun⟩ := ready_reachable fun p op => ¬ p.Enlarges op
  cases hrun
  have hreading := hready.next .proceed ⟨trivial, id⟩ rfl
  have hcreated := hreading.next (.call (.create 8 eventReadable (some 3)))
    ⟨⟨nofun, nofun⟩, fun henlarges => absurd henlarges.2.2.1 (by decide)⟩ rfl
  have hwriting := hcreated.next .proceed ⟨trivial, id⟩ rfl
  exact ⟨_, rfl, (dispatch_live_iff _ hwriting).1⟩

/-- The callback for reading of descriptor 7 registers descriptor 5000; when it returns, the
loop looks at the entry of descriptor 7 where the table was before. -/
theorem dispatch_dangling : ∃ p p' : FilePass, machine.Reachable p ∧
    p.Enabled (.call (.create 5000 eventReadable (some 3))) ∧
    p.step (.call (.create 5000 eventReadable (some 3))) = .ok p' ∧
    p'.proceed = .error .dangling ∧ ¬ p'.Sane := by
  obtain ⟨p, hreading, ⟨mask, event, hplace⟩, hnevent⟩ :
      ∃ p : FilePass, (machine.restrict fun p op => ¬ p.Enlarges op).Reachable p ∧
        (∃ mask event, p.place = .inRead mask event) ∧ p.center.nevent = 5000 := by
    obtain ⟨center, hready, hrun⟩ := ready_reachable fun p op => ¬ p.Enlarges op
    cases hrun
    exact ⟨_, hready.next .proceed ⟨trivial, id⟩ rfl, ⟨_, _, rfl⟩, rfl⟩
  have henlarges : p.Enlarges (.call (.create 5000 eventReadable (some 3))) :=
    ⟨⟨mask, event, hplace⟩, ⟨_, _, rfl⟩, Nat.le_of_eq hnevent, by decide⟩
  obtain ⟨p', hcall, hdangling⟩ := (held_of_reachable hreading).1.enlarged henlarges
  refine ⟨p, p', hreading.of_restrict, ⟨?_, nofun⟩, hcall, hdangling, fun hsane => ?_⟩
  · simp [hplace]
  · obtain ⟨p'', hproceed⟩ := hsane.proceeds
    cases hdangling.symm.trans hproceed

end FilePass

end RdmaCapsule.Network
