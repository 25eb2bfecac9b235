import Mathlib
import RdmaCapsule.Foundation.Machine
import RdmaCapsule.Foundation.Outcome

/-! `EventCenter`: the owner thread runs `process_events` pass after pass, and any
thread, the owner among them, hands it events with `dispatch_event_external`. One
step here is one access to what they share: the lock, the counter, the queue, the
pipe and the vector of pollers. The pollers belong to the owner. -/
namespace RdmaCapsule.Network

open RdmaCapsule.Foundation

variable {T : Type u} {E : Type v}

/-- A callback of a fired file event: that of the notify pipe, or another. -/
inductive FileCall where
  | handleNotify
  | other

/-- A call of `dispatch_event_external`, once it has found or made a place for its
event: the place in the order of all queued events, and how many of these the owner
had taken by then. -/
structure Ticket (E : Type v) where
  event : E
  index : Nat
  taken : Nat

/-- Where a thread is in `dispatch_event_external`. -/
inductive Dispatch (E : Type v) where
  | outside
  | locking (e : E)
  | locked (e : E)
  /-- The event is the last one in the queue already. -/
  | found (ticket : Ticket E)
  | pushed (ticket : Ticket E)
  | counted (num : Nat) (ticket : Ticket E)
  | unlocked (num : Nat) (ticket : Ticket E)
  /-- In `wakeup`, which has seen that there are no pollers. -/
  | waking (ticket : Ticket E)

/-- The local variables of `process_events` that are used after `event_wait`. -/
structure Pass where
  blocking : Bool
  triggerTime : Bool
  numevents : Nat

/-- Where the owner is in `process_events`. -/
inductive Loop where
  | outside
  | waiting (timeout : Nat) (pass : Pass)
  | firing (calls : List FileCall) (pass : Pass)
  | draining (calls : List FileCall) (pass : Pass)
  | fileCallback (calls : List FileCall) (pass : Pass)
  | timing (pass : Pass)
  | timeCallback (pass : Pass)
  | checking (pass : Pass)
  | locking (pass : Pass)
  | locked (pass : Pass)
  | swapped (pass : Pass)
  | stored (pass : Pass)
  | batch (pass : Pass)
  /-- In `do_request` of the first event of the batch. -/
  | running (pass : Pass)
  | ending (pass : Pass)
  | polling (i : Nat) (pass : Pass)
  | pollCallback (i : Nat) (pass : Pass)

structure EventCenter (T : Type u) (E : Type v) where
  externalLock : Option T
  externalNumEvents : Nat
  externalEvents : List E
  /-- Bytes in the notify pipe. -/
  pipe : Nat
  pollers : Nat
  curProcess : List E
  loop : Loop
  dispatch : T → Dispatch E
  /-- All events that were ever queued, oldest first. -/
  queued : List E
  /-- Events whose callback has been run, oldest first. -/
  ran : List E
  /-- Calls of `dispatch_event_external` that have returned. -/
  returned : List (Ticket E)

inductive Halt where
  /-- The thread cannot take this step where it is. -/
  | notHere
  | abort

/-- The owner is in code that may call `dispatch_event_external`, or make and delete
pollers. -/
def Loop.calls : Loop → Bool
  | .outside | .fileCallback .. | .timeCallback _ | .running _ | .pollCallback .. => true
  | _ => false

def Dispatch.idle : Dispatch E → Bool
  | .outside => true
  | _ => false

namespace EventCenter

variable [DecidableEq T]

def setDispatch (c : EventCenter T E) (t : T) (d : Dispatch E) : EventCenter T E :=
  { c with dispatch := Function.update c.dispatch t d }

/-- The call that thread `t` is in returns. -/
def returns (c : EventCenter T E) (t : T) (ticket : Ticket E) : EventCenter T E :=
  { c.setDispatch t .outside with returned := c.returned ++ [ticket] }

variable [DecidableEq E]

/-- The next step of `dispatch_event_external` and, inside it, of `wakeup`. `owner` is
the owner thread and `room` what the pipe can hold; `written` says that the write did
not fail otherwise than for want of room. -/
def dispatchStep (owner : T) (room : Nat) (t : T) (written : Bool) (c : EventCenter T E) :
    Except Halt (EventCenter T E) :=
  match c.dispatch t with
  | .outside => .error .notHere
  | .locking e =>
      if c.externalLock.isNone then .ok ({ c with externalLock := some t }.setDispatch t (.locked e))
      else .error .notHere
  | .locked e =>
      let taken := c.ran.length + c.curProcess.length
      if 0 < c.externalNumEvents ∧ c.externalEvents.getLast? = some e then
        .ok (c.setDispatch t (.found ⟨e, c.queued.length - 1, taken⟩))
      else
        .ok ({ c with
          externalEvents := c.externalEvents ++ [e]
          queued := c.queued ++ [e] }.setDispatch t (.pushed ⟨e, c.queued.length, taken⟩))
  | .found ticket => .ok ({ c with externalLock := none }.returns t ticket)
  | .pushed ticket =>
      let num := c.externalNumEvents + 1
      .ok ({ c with externalNumEvents := num }.setDispatch t (.counted num ticket))
  | .counted num ticket =>
      .ok ({ c with externalLock := none }.setDispatch t (.unlocked num ticket))
  | .unlocked num ticket =>
      if num = 1 ∧ t ≠ owner ∧ c.pollers = 0 then .ok (c.setDispatch t (.waking ticket))
      else .ok (c.returns t ticket)
  | .waking ticket =>
      if !written then .error .abort
      else .ok ({ c with pipe := if c.pipe < room then c.pipe + 1 else c.pipe }.returns t ticket)

/-- The next step of `process_events` outside `event_wait`. `answer` is what a poller
returns, and whether there is another time event to run. -/
def ownerStep (owner : T) (answer : Nat) (c : EventCenter T E) : Except Halt (EventCenter T E) :=
  match c.loop with
  | .outside => .error .notHere
  | .waiting _ _ => .error .notHere
  | .firing [] pass => .ok { c with loop := .timing pass }
  | .firing (.handleNotify :: calls) pass => .ok { c with loop := .draining calls pass }
  | .firing (.other :: calls) pass => .ok { c with loop := .fileCallback calls pass }
  | .draining calls pass =>
      if c.pipe = 0 then .ok { c with loop := .firing calls pass }
      else .ok { c with pipe := c.pipe - 256 }
  | .fileCallback calls pass => .ok { c with loop := .firing calls pass }
  | .timing pass =>
      if pass.triggerTime && answer ≠ 0 then
        .ok { c with loop := .timeCallback { pass with numevents := pass.numevents + 1 } }
      else .ok { c with loop := .checking pass }
  | .timeCallback pass => .ok { c with loop := .timing pass }
  | .checking pass =>
      .ok { c with loop := if c.externalNumEvents ≠ 0 then .locking pass else .ending pass }
  | .locking pass =>
      if c.externalLock.isNone then
        .ok { c with externalLock := some owner, loop := .locked pass }
      else .error .notHere
  | .locked pass =>
      .ok { c with curProcess := c.externalEvents, externalEvents := [], loop := .swapped pass }
  | .swapped pass => .ok { c with externalNumEvents := 0, loop := .stored pass }
  | .stored pass =>
      .ok { c with
        externalLock := none
        loop := .batch { pass with numevents := pass.numevents + c.curProcess.length } }
  | .batch pass =>
      match c.curProcess with
      | [] => .ok { c with loop := .ending pass }
      | _ :: _ => .ok { c with loop := .running pass }
  | .running pass =>
      match c.curProcess with
      | [] => .error .notHere
      | e :: rest => .ok { c with curProcess := rest, ran := c.ran ++ [e], loop := .batch pass }
  | .ending pass =>
      if pass.numevents = 0 ∧ !pass.blocking then .ok { c with loop := .polling 0 pass }
      else .ok { c with loop := .outside }
  | .polling i pass =>
      if i < c.pollers then .ok { c with loop := .pollCallback i pass }
      else .ok { c with loop := .outside }
  | .pollCallback i pass =>
      .ok { c with loop := .polling (i + 1) { pass with numevents := pass.numevents + answer } }

/-- `process_events` up to `event_wait`; `timeout` is its argument, shortened to the
first time event. -/
def enter (timeout : Nat) (triggerTime : Bool) (c : EventCenter T E) : EventCenter T E :=
  let blocking := c.pollers == 0 && c.externalNumEvents == 0
  { c with loop := .waiting (if blocking then timeout else 0) ⟨blocking, triggerTime, 0⟩ }

inductive Act (T : Type u) (E : Type v) where
  | dispatchEventExternal (t : T) (e : E)
  | thread (t : T) (written : Bool)
  | processEvents (timeout : Nat) (triggerTime : Bool)
  | eventWait (numevents : Nat) (calls : List FileCall)
  | owner (answer : Nat)
  | setPollers (n : Nat)

/-- The owner is one thread: while it is in `dispatch_event_external`, its loop stands
still. -/
def step (owner : T) (room : Nat) (c : EventCenter T E) :
    Act T E → Except Halt (EventCenter T E)
  | .dispatchEventExternal t e =>
      if (c.dispatch t).idle ∧ (t = owner → c.loop.calls = true) then
        .ok (c.setDispatch t (.locking e))
      else .error .notHere
  | .thread t written => c.dispatchStep owner room t written
  | .processEvents timeout triggerTime =>
      match c.loop with
      | .outside =>
          if (c.dispatch owner).idle then .ok (c.enter timeout triggerTime) else .error .notHere
      | _ => .error .notHere
  | .eventWait numevents calls =>
      match c.loop with
      | .waiting _ pass => .ok { c with loop := .firing calls { pass with numevents } }
      | _ => .error .notHere
  | .owner answer =>
      if (c.dispatch owner).idle then c.ownerStep owner answer else .error .notHere
  | .setPollers n =>
      if (c.dispatch owner).idle ∧ c.loop.calls then .ok { c with pollers := n }
      else .error .notHere

/-- Before the first pass. -/
def Start (c : EventCenter T E) : Prop :=
  c.externalLock = none ∧ c.externalNumEvents = 0 ∧ c.externalEvents = [] ∧ c.curProcess = [] ∧
    c.loop = .outside ∧ (∀ t, (c.dispatch t).idle = true) ∧ c.queued = [] ∧ c.ran = [] ∧
    c.returned = []

/-- The notify pipe fires only while it has bytes. -/
def Enabled (c : EventCenter T E) : Act T E → Prop
  | .eventWait _ calls => .handleNotify ∈ calls → 0 < c.pipe
  | _ => True

def machine (owner : T) (room : Nat) : Machine (EventCenter T E) (Act T E) Halt where
  start := Start
  enabled := Enabled
  step := step owner room

end EventCenter

/-- The thread has the lock. -/
def Dispatch.holds : Dispatch E → Bool
  | .locked _ | .found _ | .pushed _ | .counted _ _ => true
  | _ => false

def Loop.holds : Loop → Bool
  | .locked _ | .swapped _ | .stored _ => true
  | _ => false

/-- How the counter stands to the length of the queue while the thread has the lock. -/
def Dispatch.Counts (num length : Nat) : Dispatch E → Prop
  | .locked _ | .found _ | .counted _ _ => num = length
  | .pushed _ => num + 1 = length
  | _ => True

def Loop.Counts (num length : Nat) : Loop → Prop
  | .locked _ => num = length
  | .swapped _ => length = 0
  | .stored _ => num = 0 ∧ length = 0
  | _ => True

/-- The owner has taken a batch and not finished it. -/
def Loop.inBatch : Loop → Bool
  | .swapped _ | .stored _ | .batch _ | .running _ => true
  | _ => false

def Dispatch.ticket? : Dispatch E → Option (Ticket E)
  | .found ticket | .pushed ticket | .counted _ ticket | .unlocked _ ticket | .waking ticket =>
      some ticket
  | _ => none

/-- The thread has queued its event and not yet done with its `wakeup`. -/
def Dispatch.Underway : Dispatch E → Prop
  | .pushed _ | .counted _ _ | .unlocked _ _ | .waking _ => True
  | _ => False

/-- The thread has queued the first event, so that it will come to write to the pipe. -/
def Dispatch.WillWake (num : Nat) : Dispatch E → Prop
  | .pushed _ => num = 0
  | .counted n _ | .unlocked n _ => n = 1
  | .waking _ => True
  | _ => False

theorem Dispatch.WillWake.underway {d : Dispatch E} {num : Nat} (h : d.WillWake num) :
    d.Underway := by
  cases d <;> trivial

/-- The event of the call has its place, and was not yet taken by the owner. -/
def Ticket.Valid (queued : List E) (ticket : Ticket E) : Prop :=
  ticket.taken ≤ ticket.index ∧ queued[ticket.index]? = some ticket.event

theorem Ticket.Valid.push {queued : List E} {ticket : Ticket E} (h : ticket.Valid queued) (e : E) :
    ticket.Valid (queued ++ [e]) := by
  refine ⟨h.1, ?_⟩
  obtain ⟨hindex, _⟩ := List.getElem?_eq_some_iff.mp h.2
  rw [List.getElem?_append_left hindex]
  exact h.2

theorem Dispatch.not_idle {d : Dispatch E} (h : d.holds = true) : d.idle = false := by
  cases d <;> simp_all [Dispatch.holds, Dispatch.idle]

theorem Dispatch.counts_of_not_holds {d : Dispatch E} (h : d.holds = false) (num length : Nat) :
    d.Counts num length := by
  cases d <;> simp_all [Dispatch.holds, Dispatch.Counts]

theorem Loop.calls_of_holds {loop : Loop} (h : loop.holds = true) : loop.calls = false := by
  cases loop <;> simp_all [Loop.holds, Loop.calls]

theorem Loop.counts_of_not_holds {loop : Loop} (h : loop.holds = false) (num length : Nat) :
    loop.Counts num length := by
  cases loop <;> simp_all [Loop.holds, Loop.Counts]

theorem Dispatch.willWake_of_not_holds {d : Dispatch E} {num num' : Nat} (h : d.WillWake num)
    (hout : d.holds = false) : d.WillWake num' := by
  cases d <;> simp_all [Dispatch.WillWake, Dispatch.holds]

/-- Only between its push and its count is a thread behind. -/
theorem Dispatch.pushed_of_ne {d : Dispatch E} {num length : Nat} (hheld : d.holds = true)
    (hcounts : d.Counts num length) (hne : num ≠ length) : ∃ ticket, d = .pushed ticket := by
  cases d <;> simp_all [Dispatch.holds, Dispatch.Counts]

namespace EventCenter

variable {owner : T} {room : Nat} {c c' : EventCenter T E} {t : T}

/-- The lock and the counter. -/
structure Guarded (owner : T) (c : EventCenter T E) : Prop where
  free : c.externalLock = none → c.externalNumEvents = c.externalEvents.length
  thread : ∀ t, (c.dispatch t).holds = true → c.externalLock = some t
  loop : c.loop.holds = true → c.externalLock = some owner
  holder : ∀ t, c.externalLock = some t →
    (c.dispatch t).holds = true ∨ t = owner ∧ c.loop.holds = true
  threadCounts : ∀ t, (c.dispatch t).Counts c.externalNumEvents c.externalEvents.length
  loopCounts : c.loop.Counts c.externalNumEvents c.externalEvents.length
  /-- The owner is at one place. -/
  single : c.loop.calls = false → (c.dispatch owner).idle = true

/-- The queue and the batch. -/
structure Ordered (c : EventCenter T E) : Prop where
  order : c.queued = c.ran ++ (c.curProcess ++ c.externalEvents)
  batch : c.loop.inBatch = false → c.curProcess = []
  underway : ∀ t ticket, (c.dispatch t).ticket? = some ticket → ticket.Valid c.queued
  returned : ∀ ticket ∈ c.returned, ticket.Valid c.queued

/-- The owner sleeps only while someone will wake it. -/
def Woken (owner : T) (c : EventCenter T E) : Prop :=
  ∀ timeout pass, c.loop = .waiting timeout pass → timeout ≠ 0 → c.pollers = 0 ∧
    (c.externalEvents ≠ [] → 0 < c.pipe ∨
      ∃ t, t ≠ owner ∧ (c.dispatch t).WillWake c.externalNumEvents)

/-- What a step of the owner can do. -/
inductive OwnerMove (owner : T) (c : EventCenter T E) : EventCenter T E → Prop
  | quiet {loop : Loop} {pipe : Nat} (hbefore : c.loop.holds = false)
      (hafter : loop.holds = false)
      (hbatch : loop.inBatch = true ∨ c.loop.inBatch = false ∨ c.curProcess = [])
      (hawake : ∀ timeout pass, loop ≠ .waiting timeout pass) :
      OwnerMove owner c { c with loop, pipe }
  | lock {pass : Pass} (hloop : c.loop = .locking pass) (hlock : c.externalLock = none) :
      OwnerMove owner c { c with externalLock := some owner, loop := .locked pass }
  | swap {pass : Pass} (hloop : c.loop = .locked pass) :
      OwnerMove owner c { c with
        curProcess := c.externalEvents
        externalEvents := []
        loop := .swapped pass }
  | store {pass : Pass} (hloop : c.loop = .swapped pass) :
      OwnerMove owner c { c with externalNumEvents := 0, loop := .stored pass }
  | unlock {pass pass' : Pass} (hloop : c.loop = .stored pass) :
      OwnerMove owner c { c with externalLock := none, loop := .batch pass' }
  | run {pass : Pass} {e : E} {rest : List E} (hloop : c.loop = .running pass)
      (hcur : c.curProcess = e :: rest) :
      OwnerMove owner c { c with curProcess := rest, ran := c.ran ++ [e], loop := .batch pass }

theorem ownerStep_moves (owner : T) (answer : Nat) (c : EventCenter T E) :
    Ends (c.ownerStep owner answer) (OwnerMove owner c) fun _ => True := by
  have hquiet {here loop : Loop} {pipe : Nat} (hl : c.loop = here) (hbefore : here.holds = false)
      (hbatch : here.inBatch = false) (hafter : loop.holds = false)
      (hawake : ∀ timeout pass, loop ≠ .waiting timeout pass) :
      OwnerMove owner c { c with loop, pipe } := by
    subst hl
    exact .quiet hbefore hafter (.inr (.inl hbatch)) hawake
  unfold EventCenter.ownerStep
  cases hl : c.loop with
  | outside => trivial
  | waiting timeout pass => trivial
  | firing calls pass =>
      match calls with
      | [] => exact hquiet hl rfl rfl rfl nofun
      | .handleNotify :: calls => exact hquiet hl rfl rfl rfl nofun
      | .other :: calls => exact hquiet hl rfl rfl rfl nofun
  | draining calls pass =>
      dsimp only
      split
      · exact hquiet hl rfl rfl rfl nofun
      · exact hquiet hl rfl rfl rfl nofun
  | fileCallback calls pass => exact hquiet hl rfl rfl rfl nofun
  | timing pass =>
      dsimp only
      split
      · exact hquiet hl rfl rfl rfl nofun
      · exact hquiet hl rfl rfl rfl nofun
  | timeCallback pass => exact hquiet hl rfl rfl rfl nofun
  | checking pass =>
      dsimp only
      split
      · exact hquiet hl rfl rfl rfl nofun
      · exact hquiet hl rfl rfl rfl nofun
  | locking pass =>
      dsimp only
      split
      · rename_i hlock
        exact .lock hl (Option.isNone_iff_eq_none.mp hlock)
      · trivial
  | locked pass => exact .swap hl
  | swapped pass => exact .store hl
  | stored pass => exact .unlock hl
  | batch pass =>
      dsimp only
      split
      · rename_i hcur
        exact .quiet (by rw [hl]; rfl) rfl (.inr (.inr hcur)) nofun
      · exact .quiet (by rw [hl]; rfl) rfl (.inl rfl) nofun
  | running pass =>
      dsimp only
      split
      · trivial
      · rename_i e rest hcur
        exact .run hl hcur
  | ending pass =>
      dsimp only
      split
      · exact hquiet hl rfl rfl rfl nofun
      · exact hquiet hl rfl rfl rfl nofun
  | polling i pass =>
      dsimp only
      split
      · exact hquiet hl rfl rfl rfl nofun
      · exact hquiet hl rfl rfl rfl nofun
  | pollCallback i pass => exact hquiet hl rfl rfl rfl nofun

namespace Guarded

/-- While a thread has the lock, no other has it. -/
theorem alone (h : c.Guarded owner) (hold : (c.dispatch t).holds = true) {u : T} (hu : u ≠ t) :
    (c.dispatch u).holds = false := by
  by_contra hother
  have hlock := h.thread u (by simpa using hother)
  rw [h.thread t hold] at hlock
  exact hu (Option.some.inj hlock).symm

/-- Nor has the loop of the owner. -/
theorem loop_alone (h : c.Guarded owner) (hold : (c.dispatch t).holds = true) :
    c.loop.holds = false := by
  by_contra hother
  have hloop : c.loop.holds = true := by simpa using hother
  have hlock := h.loop hloop
  rw [h.thread t hold] at hlock
  have hidle := h.single (Loop.calls_of_holds hloop)
  rw [← Option.some.inj hlock, Dispatch.not_idle hold] at hidle
  exact nomatch hidle

/-- While the loop of the owner has the lock, no thread has it. -/
theorem threads_out (h : c.Guarded owner) (hloop : c.loop.holds = true) (u : T) :
    (c.dispatch u).holds = false := by
  by_contra hother
  have hheld : (c.dispatch u).holds = true := by simpa using hother
  exact nomatch (h.loop_alone hheld).symm.trans hloop

/-- Nobody is inside while the lock is free. -/
theorem nobody (h : c.Guarded owner) (hlock : c.externalLock = none) :
    (∀ u, (c.dispatch u).holds = false) ∧ c.loop.holds = false := by
  constructor
  · intro u
    by_contra hu
    exact nomatch hlock.symm.trans (h.thread u (by simpa using hu))
  · by_contra hloop
    exact nomatch hlock.symm.trans (h.loop (by simpa using hloop))

/-- A step of the owner outside the lock. -/
theorem setLoop (h : c.Guarded owner) (hidle : (c.dispatch owner).idle = true) {loop : Loop}
    {pipe : Nat} {curProcess ran : List E} (hbefore : c.loop.holds = false)
    (hafter : loop.holds = false) : Guarded owner { c with loop, pipe, curProcess, ran } := by
  refine ⟨h.free, h.thread, fun hheld => (nomatch hafter.symm.trans hheld), ?_, h.threadCounts,
    Loop.counts_of_not_holds hafter _ _, fun _ => hidle⟩
  intro u hlock
  refine (h.holder u hlock).imp id ?_
  rintro ⟨_, hheld⟩
  exact nomatch hbefore.symm.trans hheld

theorem loopAcquire (h : c.Guarded owner) (hidle : (c.dispatch owner).idle = true) {loop : Loop}
    (hlock : c.externalLock = none) (hafter : loop.holds = true)
    (hcounts : loop.Counts c.externalNumEvents c.externalEvents.length) :
    Guarded owner { c with externalLock := some owner, loop } := by
  obtain ⟨hothers, _⟩ := h.nobody hlock
  refine ⟨nofun, fun u hu => (nomatch (hothers u).symm.trans hu), fun _ => rfl, ?_,
    h.threadCounts, hcounts, fun _ => hidle⟩
  intro u hu
  exact .inr ⟨(Option.some.inj hu).symm, hafter⟩

/-- A step of the owner while its loop has the lock. -/
theorem loopInside (h : c.Guarded owner) {loop : Loop} {num : Nat}
    {events curProcess : List E} (hbefore : c.loop.holds = true) (hafter : loop.holds = true)
    (hcounts : loop.Counts num events.length) :
    Guarded owner { c with
      externalNumEvents := num
      externalEvents := events
      curProcess
      loop } := by
  have hlock := h.loop hbefore
  refine ⟨fun hfree => (nomatch hlock.symm.trans hfree), h.thread, fun _ => hlock, ?_,
    fun u => Dispatch.counts_of_not_holds (h.threads_out hbefore u) _ _, hcounts,
    fun _ => h.single (Loop.calls_of_holds hbefore)⟩
  intro u hu
  exact .inr ⟨(Option.some.inj (hlock.symm.trans hu)).symm, hafter⟩

theorem loopRelease (h : c.Guarded owner) {loop : Loop} (hbefore : c.loop.holds = true)
    (hcounts : c.externalNumEvents = c.externalEvents.length) (hafter : loop.holds = false) :
    Guarded owner { c with externalLock := none, loop } := by
  refine ⟨fun _ => hcounts, ?_, fun hheld => (nomatch hafter.symm.trans hheld), nofun,
    h.threadCounts, Loop.counts_of_not_holds hafter _ _,
    fun _ => h.single (Loop.calls_of_holds hbefore)⟩
  intro u hu
  exact nomatch (h.threads_out hbefore u).symm.trans hu

theorem ownerMove (h : c.Guarded owner) (hidle : (c.dispatch owner).idle = true)
    (hmove : OwnerMove owner c c') : c'.Guarded owner := by
  have hcounts := h.loopCounts
  cases hmove with
  | quiet hbefore hafter _ _ => exact h.setLoop hidle hbefore hafter
  | lock hloop hlock => exact h.loopAcquire hidle hlock rfl (h.free hlock)
  | swap hloop => exact h.loopInside (by rw [hloop]; rfl) rfl rfl
  | store hloop =>
      rw [hloop] at hcounts
      exact h.loopInside (by rw [hloop]; rfl) rfl ⟨rfl, hcounts⟩
  | unlock hloop =>
      rw [hloop] at hcounts
      exact h.loopRelease (by rw [hloop]; rfl) (hcounts.1.trans hcounts.2.symm) rfl
  | run hloop _ => exact h.setLoop hidle (by rw [hloop]; rfl) rfl

variable [DecidableEq T] {d : Dispatch E}

/-- The owner is busy with a call of its own only where it may be. -/
theorem single_update (h : c.Guarded owner) (hbusy : (c.dispatch t).idle = false)
    (d : Dispatch E) (hcalls : c.loop.calls = false) :
    (Function.update c.dispatch t d owner).idle = true := by
  have hidle := h.single hcalls
  have hne : owner ≠ t := by
    rintro rfl
    exact nomatch hidle.symm.trans hbusy
  rwa [Function.update_of_ne hne]

/-- A step outside the lock. -/
theorem aside (h : c.Guarded owner)
    (hsingle : c.loop.calls = false → (Function.update c.dispatch t d owner).idle = true)
    (hbefore : (c.dispatch t).holds = false) (hafter : d.holds = false) :
    (c.setDispatch t d).Guarded owner := by
  refine ⟨h.free, ?_, h.loop, ?_, ?_, h.loopCounts, hsingle⟩
  · refine (Function.forall_update_iff (p := fun u d' => d'.holds = true → _ = some u)
      c.dispatch).mpr ⟨fun hd => (nomatch hafter.symm.trans hd), fun u _ => h.thread u⟩
  · intro u hlock
    refine (h.holder u hlock).imp (fun hu => ?_) id
    have hut : u ≠ t := by
      rintro rfl
      exact nomatch hu.symm.trans hbefore
    change (Function.update c.dispatch t d u).holds = true
    rwa [Function.update_of_ne hut]
  · exact (Function.forall_update_iff (p := fun _ d' => d'.Counts _ _) c.dispatch).mpr
      ⟨Dispatch.counts_of_not_holds hafter _ _, fun u _ => h.threadCounts u⟩

theorem acquire (h : c.Guarded owner) (hlock : c.externalLock = none)
    (hbusy : (c.dispatch t).idle = false) (hd : d.holds = true)
    (hcounts : d.Counts c.externalNumEvents c.externalEvents.length) :
    ({ c with externalLock := some t }.setDispatch t d).Guarded owner := by
  obtain ⟨hothers, hloop⟩ := h.nobody hlock
  refine ⟨nofun, ?_, fun hheld => (nomatch hloop.symm.trans hheld), ?_, ?_, h.loopCounts,
    h.single_update hbusy d⟩
  · exact (Function.forall_update_iff (p := fun u d' => d'.holds = true → some t = some u)
      c.dispatch).mpr ⟨fun _ => rfl, fun u _ hu => (nomatch (hothers u).symm.trans hu)⟩
  · intro u hu
    cases Option.some.inj hu
    refine .inl ?_
    change (Function.update c.dispatch t d t).holds = true
    rwa [Function.update_self]
  · exact (Function.forall_update_iff (p := fun _ d' => d'.Counts _ _) c.dispatch).mpr
      ⟨hcounts, fun u _ => h.threadCounts u⟩

/-- A step of the thread that has the lock. -/
theorem inside (h : c.Guarded owner) {num : Nat} {events queued : List E}
    (hold : (c.dispatch t).holds = true) (hd : d.holds = true)
    (hcounts : d.Counts num events.length) :
    ({ c with externalNumEvents := num, externalEvents := events, queued }.setDispatch t d).Guarded
      owner := by
  have hlock := h.thread t hold
  refine ⟨fun hfree => (nomatch hlock.symm.trans hfree), ?_, h.loop, ?_, ?_,
    Loop.counts_of_not_holds (h.loop_alone hold) _ _, h.single_update (Dispatch.not_idle hold) d⟩
  · exact (Function.forall_update_iff (p := fun u d' => d'.holds = true → _ = some u)
      c.dispatch).mpr ⟨fun _ => hlock, fun u _ => h.thread u⟩
  · intro u hu
    cases Option.some.inj (hlock.symm.trans hu)
    refine .inl ?_
    change (Function.update c.dispatch t d t).holds = true
    rwa [Function.update_self]
  · exact (Function.forall_update_iff (p := fun _ d' => d'.Counts _ _) c.dispatch).mpr
      ⟨hcounts, fun u hut => Dispatch.counts_of_not_holds (h.alone hold hut) _ _⟩

theorem release (h : c.Guarded owner) (hold : (c.dispatch t).holds = true)
    (hcounts : c.externalNumEvents = c.externalEvents.length) (hd : d.holds = false) :
    ({ c with externalLock := none }.setDispatch t d).Guarded owner := by
  have hnone : ∀ u, (Function.update c.dispatch t d u).holds = false :=
    (Function.forall_update_iff (p := fun _ d' => d'.holds = false) c.dispatch).mpr
      ⟨hd, fun u hut => h.alone hold hut⟩
  refine ⟨fun _ => hcounts, fun u hu => (nomatch (hnone u).symm.trans hu), ?_, nofun,
    fun u => Dispatch.counts_of_not_holds (hnone u) _ _, h.loopCounts,
    h.single_update (Dispatch.not_idle hold) d⟩
  intro hheld
  exact nomatch (h.loop_alone hold).symm.trans hheld

variable [DecidableEq E]

theorem dispatchStep (h : c.Guarded owner) (room : Nat) (t : T) (written : Bool) :
    Ends (c.dispatchStep owner room t written) (Guarded owner) fun _ => True := by
  have hcounts := h.threadCounts t
  unfold EventCenter.dispatchStep
  cases hd : c.dispatch t with
  | outside => trivial
  | locking e =>
      dsimp only
      split
      · rename_i hlock
        rw [Option.isNone_iff_eq_none] at hlock
        exact h.acquire hlock (by rw [hd]; rfl) rfl (h.free hlock)
      · trivial
  | locked e =>
      have hold : (c.dispatch t).holds = true := by rw [hd]; rfl
      rw [hd] at hcounts
      have hlength : c.externalNumEvents = c.externalEvents.length := hcounts
      dsimp only
      split
      · exact h.inside hold rfl hcounts
      · refine h.inside hold rfl ?_
        rw [List.length_append, ← hlength]
        rfl
  | found ticket =>
      have hold : (c.dispatch t).holds = true := by rw [hd]; rfl
      rw [hd] at hcounts
      have hreleased := h.release (d := .outside) hold hcounts rfl
      exact ⟨hreleased.free, hreleased.thread, hreleased.loop, hreleased.holder,
        hreleased.threadCounts, hreleased.loopCounts, hreleased.single⟩
  | pushed ticket =>
      have hold : (c.dispatch t).holds = true := by rw [hd]; rfl
      rw [hd] at hcounts
      exact h.inside hold rfl hcounts
  | counted num ticket =>
      have hold : (c.dispatch t).holds = true := by rw [hd]; rfl
      rw [hd] at hcounts
      exact h.release hold hcounts rfl
  | unlocked num ticket =>
      have hbusy : (c.dispatch t).idle = false := by rw [hd]; rfl
      have hout : (c.dispatch t).holds = false := by rw [hd]; rfl
      dsimp only
      split
      · exact h.aside (h.single_update hbusy _) hout rfl
      · have haside := h.aside (d := .outside) (h.single_update hbusy _) hout rfl
        exact ⟨haside.free, haside.thread, haside.loop, haside.holder, haside.threadCounts,
          haside.loopCounts, haside.single⟩
  | waking ticket =>
      have hbusy : (c.dispatch t).idle = false := by rw [hd]; rfl
      have hout : (c.dispatch t).holds = false := by rw [hd]; rfl
      dsimp only
      split
      · trivial
      · have haside := h.aside (d := .outside) (h.single_update hbusy _) hout rfl
        exact ⟨haside.free, haside.thread, haside.loop, haside.holder, haside.threadCounts,
          haside.loopCounts, haside.single⟩

end Guarded

namespace Ordered

theorem ownerMove (h : c.Ordered) (hmove : OwnerMove owner c c') : c'.Ordered := by
  cases hmove with
  | quiet _ _ hbatch _ =>
      refine ⟨h.order, ?_, h.underway, h.returned⟩
      intro hloop
      rcases hbatch with hin | hout | hcur
      · exact nomatch hin.symm.trans hloop
      · exact h.batch hout
      · exact hcur
  | lock hloop _ => exact ⟨h.order, fun _ => h.batch (by rw [hloop]; rfl), h.underway, h.returned⟩
  | swap hloop =>
      have hcur : c.curProcess = [] := h.batch (by rw [hloop]; rfl)
      refine ⟨?_, nofun, h.underway, h.returned⟩
      have horder := h.order
      rw [hcur] at horder
      simpa using horder
  | store _ => exact ⟨h.order, nofun, h.underway, h.returned⟩
  | unlock _ => exact ⟨h.order, nofun, h.underway, h.returned⟩
  | run _ hcur =>
      refine ⟨?_, nofun, h.underway, h.returned⟩
      have horder := h.order
      rw [hcur] at horder
      simpa using horder

/-- A call that finds its event at the end of the queue. -/
theorem found (h : c.Ordered) {e : E} (hlast : c.externalEvents.getLast? = some e) :
    Ticket.Valid c.queued ⟨e, c.queued.length - 1, c.ran.length + c.curProcess.length⟩ := by
  obtain ⟨front, hfront⟩ := List.getLast?_eq_some_iff.mp hlast
  have hqueued : c.queued = (c.ran ++ (c.curProcess ++ front)) ++ [e] := by
    rw [h.order, hfront]
    simp
  constructor
  · rw [hqueued]
    simp only [List.length_append, List.length_singleton]
    omega
  · dsimp only
    rw [hqueued, List.length_append, List.length_singleton, Nat.add_sub_cancel,
      List.getElem?_concat_length]

variable [DecidableEq T] {d : Dispatch E}

theorem setDispatch (h : c.Ordered) {lock : Option T} {num : Nat}
    (hd : ∀ ticket, d.ticket? = some ticket → ticket.Valid c.queued) :
    ({ c with externalLock := lock, externalNumEvents := num }.setDispatch t d).Ordered :=
  ⟨h.order, h.batch, (Function.forall_update_iff
    (p := fun _ d' => ∀ ticket, d'.ticket? = some ticket → ticket.Valid c.queued) c.dispatch).mpr
      ⟨hd, fun u _ => h.underway u⟩, h.returned⟩

theorem returns (h : c.Ordered) {lock : Option T} {pipe : Nat} {ticket : Ticket E}
    (hticket : ticket.Valid c.queued) :
    ({ c with externalLock := lock, pipe }.returns t ticket).Ordered := by
  have hset : ({ c with externalLock := lock }.setDispatch t .outside).Ordered :=
    h.setDispatch nofun
  refine ⟨h.order, h.batch, hset.underway, ?_⟩
  intro ticket' hmem
  rcases List.mem_append.mp hmem with hold | hnew
  · exact h.returned ticket' hold
  · rw [List.mem_singleton.mp hnew]
    exact hticket

theorem push (h : c.Ordered) (e : E) :
    ({ c with
      externalEvents := c.externalEvents ++ [e]
      queued := c.queued ++ [e] }.setDispatch t
        (.pushed ⟨e, c.queued.length, c.ran.length + c.curProcess.length⟩)).Ordered := by
  refine ⟨?_, h.batch, ?_, fun ticket hmem => (h.returned ticket hmem).push e⟩
  · change c.queued ++ [e] = c.ran ++ (c.curProcess ++ (c.externalEvents ++ [e]))
    rw [h.order]
    simp
  · refine (Function.forall_update_iff
      (p := fun _ d' => ∀ ticket, d'.ticket? = some ticket → ticket.Valid (c.queued ++ [e]))
        c.dispatch).mpr ⟨?_, fun u _ ticket hu => (h.underway u ticket hu).push e⟩
    intro ticket hticket
    cases hticket
    constructor
    · dsimp only
      rw [h.order]
      simp
    · exact List.getElem?_concat_length ..

variable [DecidableEq E]

theorem dispatchStep (h : c.Ordered) (owner : T) (room : Nat) (t : T) (written : Bool) :
    Ends (c.dispatchStep owner room t written) Ordered fun _ => True := by
  have hticket := h.underway t
  unfold EventCenter.dispatchStep
  cases hd : c.dispatch t with
  | outside => trivial
  | locking e =>
      dsimp only
      split
      · exact h.setDispatch nofun
      · trivial
  | locked e =>
      dsimp only
      split
      · rename_i hlast
        refine h.setDispatch ?_
        rintro ticket ⟨⟩
        exact h.found hlast.2
      · exact h.push e
  | found ticket =>
      rw [hd] at hticket
      exact h.returns (hticket ticket rfl)
  | pushed ticket =>
      rw [hd] at hticket
      exact h.setDispatch hticket
  | counted num ticket =>
      rw [hd] at hticket
      exact h.setDispatch hticket
  | unlocked num ticket =>
      rw [hd] at hticket
      dsimp only
      split
      · exact h.setDispatch hticket
      · exact h.returns (hticket ticket rfl)
  | waking ticket =>
      rw [hd] at hticket
      dsimp only
      split
      · trivial
      · exact h.returns (hticket ticket rfl)

end Ordered

namespace Woken

/-- No step of the owner ends in `event_wait`. -/
theorem ownerMove (hmove : OwnerMove owner c c') : c'.Woken owner := by
  intro timeout pass hloop
  cases hmove with
  | quiet _ _ _ hawake => exact absurd hloop (hawake timeout pass)
  | lock _ _ => exact nomatch hloop
  | swap _ => exact nomatch hloop
  | store _ => exact nomatch hloop
  | unlock _ => exact nomatch hloop
  | run _ _ => exact nomatch hloop

/-- The decision to sleep. A thread may have queued its event and not counted it; then
it will count to one. -/
theorem enter (hguarded : c.Guarded owner) (hidle : (c.dispatch owner).idle = true)
    (hout : c.loop.holds = false) (timeout : Nat) (triggerTime : Bool) :
    (c.enter timeout triggerTime).Woken owner := by
  intro timeout' pass hloop htimeout
  unfold EventCenter.enter at hloop ⊢
  dsimp only at hloop ⊢
  cases hblocking : (c.pollers == 0 && c.externalNumEvents == 0) with
  | false =>
      rw [hblocking] at hloop
      cases hloop
      exact absurd rfl htimeout
  | true =>
      simp only [Bool.and_eq_true, beq_iff_eq] at hblocking
      obtain ⟨hpollers, hnum⟩ := hblocking
      refine ⟨hpollers, fun hevents => .inr ?_⟩
      have hlength : 0 < c.externalEvents.length := List.length_pos_iff.mpr hevents
      obtain ⟨t, hlock⟩ : ∃ t, c.externalLock = some t := by
        refine Option.ne_none_iff_exists'.mp fun hfree => ?_
        have hcount := hguarded.free hfree
        omega
      have hheld : (c.dispatch t).holds = true := by
        refine (hguarded.holder t hlock).resolve_right ?_
        rintro ⟨_, hin⟩
        exact nomatch hout.symm.trans hin
      have hcounts := hguarded.threadCounts t
      refine ⟨t, ?_, ?_⟩
      · rintro rfl
        exact nomatch hidle.symm.trans (Dispatch.not_idle hheld)
      · obtain ⟨ticket, hd⟩ := Dispatch.pushed_of_ne hheld (hguarded.threadCounts t) (by omega)
        rw [hd]
        exact hnum

variable [DecidableEq T] {d : Dispatch E}

/-- A thread goes on, and what it was to do it still does or has done. -/
theorem setDispatch (h : c.Woken owner) {lock : Option T} {pipe : Nat}
    (hpipe : 0 < c.pipe → 0 < pipe)
    (hwill : c.pollers = 0 → t ≠ owner → (c.dispatch t).WillWake c.externalNumEvents →
      0 < pipe ∨ d.WillWake c.externalNumEvents) :
    ({ c with externalLock := lock, pipe }.setDispatch t d).Woken owner := by
  intro timeout pass hloop htimeout
  obtain ⟨hpollers, hwoken⟩ := h timeout pass hloop htimeout
  refine ⟨hpollers, fun hevents => ?_⟩
  rcases hwoken hevents with hfull | ⟨u, hu, hwake⟩
  · exact .inl (hpipe hfull)
  · by_cases hut : u = t
    · subst hut
      refine (hwill hpollers hu hwake).imp id fun hd => ⟨u, hu, ?_⟩
      change (Function.update c.dispatch u d u).WillWake _
      rwa [Function.update_self]
    · refine .inr ⟨u, hu, ?_⟩
      change (Function.update c.dispatch t d u).WillWake _
      rwa [Function.update_of_ne hut]

theorem push (h : c.Woken owner) (hguarded : c.Guarded owner) {e : E} {queued : List E}
    {ticket : Ticket E} (hd : c.dispatch t = .locked e) :
    ({ c with externalEvents := c.externalEvents ++ [e], queued }.setDispatch t
      (.pushed ticket)).Woken owner := by
  intro timeout pass hloop htimeout
  obtain ⟨hpollers, hwoken⟩ := h timeout pass hloop htimeout
  refine ⟨hpollers, fun _ => ?_⟩
  by_cases hevents : c.externalEvents = []
  · -- the queue was empty, so this thread will count to one
    refine .inr ⟨t, ?_, ?_⟩
    · rintro rfl
      have hidle := hguarded.single (congrArg Loop.calls hloop)
      rw [hd] at hidle
      exact nomatch hidle
    · have hcounts := hguarded.threadCounts t
      rw [hd, hevents] at hcounts
      change (Function.update c.dispatch t (.pushed ticket) t).WillWake c.externalNumEvents
      rw [Function.update_self]
      exact hcounts
  · refine (hwoken hevents).imp id ?_
    rintro ⟨u, hu, hwake⟩
    have hut : u ≠ t := by
      rintro rfl
      rw [hd] at hwake
      exact hwake
    refine ⟨u, hu, ?_⟩
    change (Function.update c.dispatch t (.pushed ticket) u).WillWake _
    rwa [Function.update_of_ne hut]

theorem count (h : c.Woken owner) (hguarded : c.Guarded owner) {ticket : Ticket E}
    (hd : c.dispatch t = .pushed ticket) :
    ({ c with externalNumEvents := c.externalNumEvents + 1 }.setDispatch t
      (.counted (c.externalNumEvents + 1) ticket)).Woken owner := by
  intro timeout pass hloop htimeout
  obtain ⟨hpollers, hwoken⟩ := h timeout pass hloop htimeout
  refine ⟨hpollers, fun hevents => (hwoken hevents).imp id ?_⟩
  rintro ⟨u, hu, hwake⟩
  refine ⟨u, hu, ?_⟩
  change (Function.update c.dispatch t _ u).WillWake (c.externalNumEvents + 1)
  by_cases hut : u = t
  · subst hut
    rw [hd] at hwake
    have hzero : c.externalNumEvents = 0 := hwake
    rw [Function.update_self, hzero]
    rfl
  · rw [Function.update_of_ne hut]
    exact Dispatch.willWake_of_not_holds hwake (hguarded.alone (by rw [hd]; rfl) hut)

variable [DecidableEq E]

theorem dispatchStep (h : c.Woken owner) (hguarded : c.Guarded owner) {room : Nat}
    (hroom : 0 < room) (t : T) (written : Bool) :
    Ends (c.dispatchStep owner room t written) (Woken owner) fun _ => True := by
  have hnever (hd : ∀ num, ¬ (c.dispatch t).WillWake num) {d : Dispatch E} {lock : Option T} :
      ({ c with externalLock := lock }.setDispatch t d).Woken owner :=
    h.setDispatch id fun _ _ hwake => absurd hwake (hd _)
  unfold EventCenter.dispatchStep
  cases hd : c.dispatch t with
  | outside => trivial
  | locking e =>
      dsimp only
      split
      · exact hnever (by rw [hd]; exact fun _ => id)
      · trivial
  | locked e =>
      dsimp only
      split
      · exact hnever (by rw [hd]; exact fun _ => id)
      · exact h.push hguarded hd
  | found ticket => exact hnever (by rw [hd]; exact fun _ => id)
  | pushed ticket => exact h.count hguarded hd
  | counted num ticket =>
      refine h.setDispatch id fun _ _ hwake => .inr ?_
      rw [hd] at hwake
      exact hwake
  | unlocked num ticket =>
      dsimp only
      split
      · exact h.setDispatch id fun _ _ _ => .inr trivial
      · rename_i hsilent
        refine h.setDispatch (d := .outside) id fun hpollers hother hwake => ?_
        rw [hd] at hwake
        exact absurd ⟨hwake, hother, hpollers⟩ hsilent
  | waking ticket =>
      have hwritten : 0 < if c.pipe < room then c.pipe + 1 else c.pipe := by
        split
        · omega
        · omega
      dsimp only
      split
      · trivial
      · exact h.setDispatch (d := .outside) (fun _ => hwritten) fun _ _ _ => .inl hwritten

end Woken

structure Sound (owner : T) (c : EventCenter T E) : Prop where
  guarded : c.Guarded owner
  ordered : c.Ordered
  woken : c.Woken owner

theorem Sound.start (h : c.Start) (owner : T) : c.Sound owner := by
  obtain ⟨hlock, hnum, hevents, hcur, hloop, hidle, hqueued, hran, hreturned⟩ := h
  have hout : ∀ t, c.dispatch t = .outside := by
    intro t
    have ht := hidle t
    cases hd : c.dispatch t with
    | outside => rfl
    | _ =>
        rw [hd] at ht
        exact nomatch ht
  refine ⟨⟨?_, ?_, ?_, ?_, ?_, ?_, fun _ => hidle owner⟩, ⟨?_, fun _ => hcur, ?_, ?_⟩, ?_⟩
  · simp [hnum, hevents]
  · simp [hout, Dispatch.holds]
  · simp [hloop, Loop.holds]
  · simp [hlock]
  · simp [hout, Dispatch.Counts]
  · simp [hloop, Loop.Counts]
  · simp [hqueued, hran, hcur, hevents]
  · simp [hout, Dispatch.ticket?]
  · simp [hreturned]
  · intro timeout pass hwaiting
    exact nomatch hloop.symm.trans hwaiting

variable [DecidableEq T] [DecidableEq E]

theorem Sound.step (h : c.Sound owner) {room : Nat} (hroom : 0 < room) (act : Act T E) :
    Ends (c.step owner room act) (Sound owner) fun _ => True := by
  obtain ⟨hguarded, hordered, hwoken⟩ := h
  cases act with
  | dispatchEventExternal t e =>
      unfold EventCenter.step
      dsimp only
      split
      · rename_i hcall
        have hd : c.dispatch t = .outside := by
          cases hd : c.dispatch t with
          | outside => rfl
          | _ =>
              rw [hd] at hcall
              exact nomatch hcall.1
        refine ⟨hguarded.aside ?_ (by rw [hd]; rfl) rfl, hordered.setDispatch nofun,
          hwoken.setDispatch id fun _ _ hwake => ?_⟩
        · intro hcalls
          have hne : owner ≠ t := by
            rintro rfl
            exact nomatch hcalls.symm.trans (hcall.2 rfl)
          rw [Function.update_of_ne hne]
          exact hguarded.single hcalls
        · rw [hd] at hwake
          exact hwake.elim
      · trivial
  | thread t written =>
      refine (((hguarded.dispatchStep room t written).and
        (hordered.dispatchStep owner room t written)).and
        (hwoken.dispatchStep hguarded hroom t written)).mono ?_ fun _ => id
      rintro c' ⟨⟨hguarded', hordered'⟩, hwoken'⟩
      exact ⟨hguarded', hordered', hwoken'⟩
  | processEvents timeout triggerTime =>
      unfold EventCenter.step
      dsimp only
      split
      · rename_i hloop
        split
        · rename_i hidle
          have hout : c.loop.holds = false := by rw [hloop]; rfl
          refine ⟨hguarded.setLoop hidle hout rfl, ⟨hordered.order, ?_, hordered.underway,
            hordered.returned⟩, .enter hguarded hidle hout timeout triggerTime⟩
          intro _
          exact hordered.batch (by rw [hloop]; rfl)
        · trivial
      · trivial
  | eventWait numevents calls =>
      unfold EventCenter.step
      dsimp only
      split
      · rename_i timeout pass hloop
        refine ⟨hguarded.setLoop (hguarded.single (by rw [hloop]; rfl)) (by rw [hloop]; rfl) rfl,
          ⟨hordered.order, ?_, hordered.underway, hordered.returned⟩, nofun⟩
        intro _
        exact hordered.batch (by rw [hloop]; rfl)
      · trivial
  | owner answer =>
      unfold EventCenter.step
      dsimp only
      split
      · rename_i hidle
        refine (ownerStep_moves owner answer c).mono ?_ fun _ => id
        intro c' hmove
        exact ⟨hguarded.ownerMove hidle hmove, hordered.ownerMove hmove, .ownerMove hmove⟩
      · trivial
  | setPollers n =>
      unfold EventCenter.step
      dsimp only
      split
      · rename_i hcalls
        refine ⟨⟨hguarded.free, hguarded.thread, hguarded.loop, hguarded.holder,
          hguarded.threadCounts, hguarded.loopCounts, hguarded.single⟩, ⟨hordered.order,
          hordered.batch, hordered.underway, hordered.returned⟩, ?_⟩
        intro timeout pass hloop
        have hnot : c.loop.calls = false := congrArg Loop.calls hloop
        exact nomatch hnot.symm.trans hcalls.2
      · trivial

theorem sound_of_reachable {room : Nat} (hroom : 0 < room)
    (h : (machine owner room).Reachable c) : c.Sound owner := by
  refine h.invariant (fun _ hstart => .start hstart owner) ?_
  intro before act after _ hsound _ hrun
  exact (hsound.step hroom act).value hrun

/-- In every interleaving: the counter is the length of the queue while the lock is free;
what was queued has been run, in that order, or is in the batch or in the queue; the
event of a call that has returned had not been taken when the call found its place, and
has been run or is there; and the owner sleeps on a queue that is not empty only while
the pipe has a byte or a thread is still to write one. -/
theorem no_lost_event (owner : T) (room : Nat) (hroom : 0 < room) (c : EventCenter T E)
    (h : (machine owner room).Reachable c) :
    (c.externalLock = none → c.externalNumEvents = c.externalEvents.length) ∧
    c.queued = c.ran ++ (c.curProcess ++ c.externalEvents) ∧
    (∀ ticket ∈ c.returned, ticket.taken ≤ ticket.index ∧
      (c.ran[ticket.index]? = some ticket.event ∨ c.ran.length ≤ ticket.index ∧
        (c.curProcess ++ c.externalEvents)[ticket.index - c.ran.length]? = some ticket.event)) ∧
    ∀ timeout pass, c.loop = .waiting timeout pass → timeout ≠ 0 → c.externalEvents ≠ [] →
      0 < c.pipe ∨ ∃ t, t ≠ owner ∧ (c.dispatch t).Underway := by
  obtain ⟨hguarded, hordered, hwoken⟩ := sound_of_reachable hroom h
  refine ⟨hguarded.free, hordered.order, ?_, ?_⟩
  · intro ticket hticket
    obtain ⟨htaken, hplace⟩ := hordered.returned ticket hticket
    refine ⟨htaken, ?_⟩
    rw [hordered.order] at hplace
    by_cases hrun : ticket.index < c.ran.length
    · rw [List.getElem?_append_left hrun] at hplace
      exact .inl hplace
    · rw [List.getElem?_append_right (by omega)] at hplace
      exact .inr ⟨by omega, hplace⟩
  · intro timeout pass hloop htimeout hevents
    refine ((hwoken timeout pass hloop htimeout).2 hevents).imp id ?_
    rintro ⟨t, ht, hwake⟩
    exact ⟨t, ht, hwake.underway⟩

/-- The owner sleeps; thread 1 hands it an event, and thread 2 the same one. -/
theorem no_lost_event_while_asleep :
    ∃ c : EventCenter Nat String, (machine 0 65536).Reachable c ∧
      c.loop = .waiting 30000000 ⟨true, false, 0⟩ ∧ c.externalEvents = ["handler"] ∧
      c.returned = [⟨"handler", 0, 0⟩] ∧ (0 < c.pipe ∨ ∃ t, t ≠ 0 ∧ (c.dispatch t).Underway) := by
  have hstart : (machine 0 65536).Reachable
      (⟨none, 0, [], 0, 0, [], .outside, fun _ => .outside, [], [], []⟩ : EventCenter Nat String) :=
    .start ⟨rfl, rfl, rfl, rfl, rfl, fun _ => rfl, rfl, rfl, rfl⟩
  have hasleep := hstart.next (.processEvents 30000000 false) trivial rfl
  have hfirst := hasleep.next (.dispatchEventExternal 1 "handler") trivial rfl
  have hlocked := hfirst.next (.thread 1 true) trivial rfl
  have hpushed := hlocked.next (.thread 1 true) trivial rfl
  have hcounted := hpushed.next (.thread 1 true) trivial rfl
  have hunlocked := hcounted.next (.thread 1 true) trivial rfl
  have hsecond := hunlocked.next (.dispatchEventExternal 2 "handler") trivial rfl
  have hlocked' := hsecond.next (.thread 2 true) trivial rfl
  have hfound := hlocked'.next (.thread 2 true) trivial rfl
  have hreturned := hfound.next (.thread 2 true) trivial rfl
  exact ⟨_, hreturned, rfl, rfl, rfl, (no_lost_event 0 65536 (by decide) _ hreturned).2.2.2 _ _ rfl
    (by decide) (List.cons_ne_nil _ _)⟩

end EventCenter

end RdmaCapsule.Network
