import RdmaCapsule.Foundation.Latch
import RdmaCapsule.Network.EventCenter

/-! `EventCenter::submit_to`. Any thread hands a function to the owner of a center, as
an event that is dispatched to it like any other. A call with `always_async` returns
at once and leaves the event to be deleted by the owner; any other call waits until
the function has been run, with the event on its own stack. So both threads use an
object that one of them destroys. A call by the owner runs the function in place. -/
namespace RdmaCapsule.Network

open RdmaCapsule.Foundation

variable {T A B : Type u}

/-- A `C_submit_event`; `call` and `thread` say which call of `submit_to` made it. -/
structure SubmitEvent (T : Type u) where
  call : Nat
  thread : T
  nonwait : Bool
  /-- `lock`, `cond` and `done`, with the places of the threads that use them. -/
  latch : Latch T

/-- Where a thread is in `submit_to`. -/
inductive Caller (A : Type u) where
  | outside
  | dispatching (event : A) (nonwait : Bool)
  | waiting (event : A)

/-- Where the owner is in `C_submit_event::do_request`. -/
inductive Run (A : Type u) where
  | outside
  | body (this : A)
  | latching (this : A)
  | deleting (this : A)
  /-- Out of it; the event is still at the front of the batch. -/
  | returned

/-- A center with the events of `submit_to`, by address. Other callbacks are somewhere
else. -/
structure Submits (T A B : Type u) where
  center : EventCenter T (A ⊕ B)
  event : A → Option (SubmitEvent T)
  caller : T → Caller A
  run : Run A
  /-- Calls of `submit_to` so far, which are numbered. -/
  calls : Nat
  /-- Calls whose function was run, in this order. -/
  ran : List Nat
  /-- Calls that were to wait and have returned. -/
  returned : List Nat

inductive SubmitHalt where
  | center (halt : Halt)
  /-- The thread cannot take this step where it is. -/
  | notHere
  /-- An object is used that is not there. -/
  | dangling
  | kassert

def Caller.isOutside : Caller A → Bool
  | .outside => true
  | _ => false

/-- The owner may call `submit_to` and the like: in a function that was submitted, or
outside `do_request`. -/
def Run.calls : Run A → Bool
  | .outside | .body _ => true
  | _ => false

namespace Submits

/-- The object at an address. -/
def deref (s : Submits T A B) (a : A) : Except SubmitHalt (SubmitEvent T) :=
  match s.event a with
  | some ev => .ok ev
  | none => .error .dangling

variable [DecidableEq T] [DecidableEq A]

def setEvent (s : Submits T A B) (a : A) (ev : Option (SubmitEvent T)) : Submits T A B :=
  { s with event := Function.update s.event a ev }

def setCaller (s : Submits T A B) (t : T) (caller : Caller A) : Submits T A B :=
  { s with caller := Function.update s.caller t caller }

/-- Thread `t` is in no call of `submit_to`, and is where it may make one. -/
def free (owner : T) (s : Submits T A B) (t : T) : Bool :=
  (s.caller t).isOutside && (t ≠ owner || s.run.calls)

/-- The next step of `do_request` of the event at the front of the batch. Its local `del`
is read from the event before the mutex is let go of. -/
def doRequest (owner : T) (s : Submits T A B) : Except SubmitHalt (Submits T A B) :=
  if !(s.center.dispatch owner).idle then .error .notHere
  else
    match s.run with
    | .outside =>
        match s.center.loop, s.center.curProcess with
        | .running _, .inl this :: _ => do
            let ev ← s.deref this
            .ok { s with run := .body this, ran := s.ran ++ [ev.call] }
        | _, _ => .error .notHere
    | .body this => .ok { s with run := .latching this }
    | .latching this => do
        let ev ← s.deref this
        match ev.latch.setStep with
        | none => .error .notHere
        | some latch =>
            let run := if latch.setter ≠ .after then .latching this
              else if ev.nonwait then .deleting this else .returned
            .ok ({ s with run }.setEvent this (some { ev with latch }))
    | .deleting this => do
        let _ ← s.deref this
        .ok ({ s with run := .returned }.setEvent this none)
    | .returned => .error .notHere

/-- The next step of `wait`, and after it the end of the event. -/
def waitStep (s : Submits T A B) (t : T) : Except SubmitHalt (Submits T A B) :=
  match s.caller t with
  | .waiting event => do
      let ev ← s.deref event
      if ev.nonwait then .error .kassert
      else if ev.latch.waiter t = .passed then
        .ok ({ s with returned := s.returned ++ [ev.call] }.setEvent event none |>.setCaller t
          .outside)
      else
        match ev.latch.waitStep t with
        | none => .error .notHere
        | some latch => .ok (s.setEvent event (some { ev with latch }))
  | _ => .error .notHere

variable [DecidableEq B]

/-- A step of the center itself. -/
def stepped (owner : T) (room : Nat) (s : Submits T A B) (act : EventCenter.Act T (A ⊕ B)) :
    Except SubmitHalt (Submits T A B) := do
  let center ← (s.center.step owner room act).mapError .center
  .ok { s with center }

/-- `submit_to`; a new event is at the address `event`. -/
def submitTo (owner : T) (room : Nat) (s : Submits T A B) (t : T) (alwaysAsync : Bool)
    (event : A) : Except SubmitHalt (Submits T A B) :=
  if !s.free owner t then .error .notHere
  else if !alwaysAsync && t = owner then
    if (s.center.dispatch t).idle && s.center.loop.calls then
      .ok { s with
        calls := s.calls + 1
        ran := s.ran ++ [s.calls]
        returned := s.returned ++ [s.calls] }
    else .error .notHere
  else do
    let s' ← s.stepped owner room (.dispatchEventExternal t (.inl event))
    .ok ({ s' with calls := s.calls + 1 }.setEvent event
      (some ⟨s.calls, t, alwaysAsync, .init⟩) |>.setCaller t (.dispatching event alwaysAsync))

/-- A step of the center, as far as it is one of the threads that use it here. -/
def centerStep (owner : T) (room : Nat) (s : Submits T A B) (act : EventCenter.Act T (A ⊕ B)) :
    Except SubmitHalt (Submits T A B) :=
  match act with
  | .dispatchEventExternal t (.inr b) =>
      if s.free owner t then s.stepped owner room (.dispatchEventExternal t (.inr b))
      else .error .notHere
  | .dispatchEventExternal _ (.inl _) => .error .notHere
  | .thread t written => do
      let s' ← s.stepped owner room (.thread t written)
      if (s'.center.dispatch t).idle then
        match s'.caller t with
        | .dispatching event nonwait =>
            .ok (s'.setCaller t (if nonwait then .outside else .waiting event))
        | _ => .ok s'
      else .ok s'
  | .owner answer =>
      match s.run with
      | .outside =>
          match s.center.loop, s.center.curProcess with
          | .running _, .inl _ :: _ => .error .notHere
          | _, _ => s.stepped owner room (.owner answer)
      | .returned => { s with run := .outside }.stepped owner room (.owner answer)
      | _ => .error .notHere
  | .setPollers n =>
      if s.run.calls then s.stepped owner room (.setPollers n) else .error .notHere
  | .processEvents timeout triggerTime => s.stepped owner room (.processEvents timeout triggerTime)
  | .eventWait numevents calls => s.stepped owner room (.eventWait numevents calls)

inductive Op (T A B : Type u) where
  | submitTo (t : T) (alwaysAsync : Bool) (event : A)
  | center (act : EventCenter.Act T (A ⊕ B))
  | doRequest
  | wait (t : T)

def step (owner : T) (room : Nat) (s : Submits T A B) :
    Op T A B → Except SubmitHalt (Submits T A B)
  | .submitTo t alwaysAsync event => s.submitTo owner room t alwaysAsync event
  | .center act => s.centerStep owner room act
  | .doRequest => s.doRequest owner
  | .wait t => s.waitStep t

def Start (s : Submits T A B) : Prop :=
  s.center.Start ∧ (∀ a, s.event a = none) ∧ (∀ t, s.caller t = .outside) ∧ s.run = .outside ∧
    s.calls = 0 ∧ s.ran = [] ∧ s.returned = []

/-- A new object is where no other is. -/
def Enabled (s : Submits T A B) : Op T A B → Prop
  | .submitTo _ _ event => s.event event = none
  | .center act => s.center.Enabled act
  | _ => True

def machine (owner : T) (room : Nat) : Machine (Submits T A B) (Op T A B) SubmitHalt where
  start := Start
  enabled := Enabled
  step := step owner room

end Submits

/-- The event of a call that is not yet in the queue. -/
def Dispatch.entering {E : Type v} : Dispatch E → Option E
  | .locking e | .locked e => some e
  | _ => none

/-- The place of a call of `dispatch_event_external` that moved, and the queue. -/
inductive Dispatch.Moved {E : Type v} (d d' : Dispatch E) (events events' : List E) : Prop
  | stays (hevents : events' = events) (hentering : d'.entering = d.entering)
  | pushes {e : E} (hd : d.entering = some e) (hd' : d'.entering = none)
      (hevents : events' = events ++ [e])
  | finds {e : E} (hd : d.entering = some e) (hd' : d'.entering = none)
      (hevents : events' = events) (hmem : e ∈ events)

/-- A step of one call leaves the owner and the other calls alone. -/
structure EventCenter.Dispatches {E : Type v} (t : T) (c c' : EventCenter T E) : Prop where
  loop : c'.loop = c.loop
  curProcess : c'.curProcess = c.curProcess
  others : ∀ u, u ≠ t → c'.dispatch u = c.dispatch u
  moved : (c.dispatch t).Moved (c'.dispatch t) c.externalEvents c'.externalEvents

theorem EventCenter.dispatchStep_dispatches {E : Type v} [DecidableEq T] [DecidableEq E]
    (owner : T) (room : Nat) (t : T) (written : Bool) (c : EventCenter T E) :
    Ends (c.dispatchStep owner room t written) (Dispatches t c) fun _ => True := by
  have hothers (d : Dispatch E) (u : T) (hu : u ≠ t) :
      Function.update c.dispatch t d u = c.dispatch u := Function.update_of_ne hu d c.dispatch
  have hstays {d : Dispatch E} (hd : d.entering = (c.dispatch t).entering) :
      (c.dispatch t).Moved (Function.update c.dispatch t d t) c.externalEvents
        c.externalEvents := by
    rw [Function.update_self]
    exact .stays rfl hd
  unfold EventCenter.dispatchStep
  cases hd : c.dispatch t with
  | outside => trivial
  | locking e =>
      dsimp only
      split
      · exact ⟨rfl, rfl, hothers _, hstays (by rw [hd]; rfl)⟩
      · trivial
  | locked e =>
      dsimp only
      split
      · rename_i hlast
        refine ⟨rfl, rfl, hothers _, .finds (e := e) (by rw [hd]; rfl) ?_ rfl
          (List.mem_of_getLast? hlast.2)⟩
        exact congrArg Dispatch.entering (Function.update_self t _ c.dispatch)
      · refine ⟨rfl, rfl, hothers _, .pushes (e := e) (by rw [hd]; rfl) ?_ rfl⟩
        exact congrArg Dispatch.entering (Function.update_self t _ c.dispatch)
  | found ticket => exact ⟨rfl, rfl, hothers _, hstays (by rw [hd]; rfl)⟩
  | pushed ticket => exact ⟨rfl, rfl, hothers _, hstays (by rw [hd]; rfl)⟩
  | counted num ticket => exact ⟨rfl, rfl, hothers _, hstays (by rw [hd]; rfl)⟩
  | unlocked num ticket =>
      dsimp only
      split
      · exact ⟨rfl, rfl, hothers _, hstays (by rw [hd]; rfl)⟩
      · exact ⟨rfl, rfl, hothers _, hstays (by rw [hd]; rfl)⟩
  | waking ticket =>
      dsimp only
      split
      · trivial
      · exact ⟨rfl, rfl, hothers _, hstays (by rw [hd]; rfl)⟩

/-- The event of a submission that is not yet in the queue. -/
def Dispatch.submitting (d : Dispatch (A ⊕ B)) : Option A :=
  d.entering.bind Sum.getLeft?

def Run.isOutside : Run A → Bool
  | .outside => true
  | _ => false

def Run.this? : Run A → Option A
  | .body this | .latching this | .deleting this => some this
  | _ => none

/-- How far `do_request` has come with its event. -/
def Run.Stage (ev : SubmitEvent T) : Run A → Prop
  | .body _ => ev.latch.setter = .before
  | .latching _ => ev.latch.setter ≠ .after
  | .deleting _ => ev.nonwait = true
  | _ => True

/-- Nothing is used that is not there, and no assertion fails. -/
def SubmitHalt.Orderly : SubmitHalt → Prop
  | .dangling | .kassert => False
  | _ => True

theorem Run.Stage.setLatch {run : Run A} {ev : SubmitEvent T} {latch : Latch T}
    (h : run.Stage ev) (hsetter : latch.setter = ev.latch.setter) :
    run.Stage { ev with latch } := by
  cases run with
  | body this => exact hsetter.trans h
  | latching this => exact fun hafter => h (hsetter.symm.trans hafter)
  | deleting this => exact h
  | _ => trivial

/-- After the mutex was let go of, the owner uses no event that a thread waits for. -/
theorem Run.Stage.not_left {run : Run A} {this : A} {ev : SubmitEvent T} (h : run.Stage ev)
    (hthis : run.this? = some this) (hafter : ev.latch.setter = .after)
    (hwaits : ev.nonwait = false) : False := by
  cases run with
  | body this => exact nomatch hafter.symm.trans h
  | latching this => exact h hafter
  | deleting this => exact nomatch hwaits.symm.trans h
  | _ => exact nomatch hthis

namespace Submits

variable {owner : T} {room : Nat} {s s' : Submits T A B} {t : T} {a : A} {ev : SubmitEvent T}

/-- The submitted events that the owner has still to run. -/
def queue (s : Submits T A B) : List A :=
  ((if s.run.isOutside then s.center.curProcess else s.center.curProcess.tail) ++
    s.center.externalEvents).filterMap Sum.getLeft?

/-- An event is used by the calls and by the owner as long as it is there. -/
structure Live (s : Submits T A B) (a : A) (ev : SubmitEvent T) : Prop where
  latch : ev.latch.Sound
  call : ev.call < s.calls
  called : ev.latch.setter ≠ .before → ev.call ∈ s.ran
  users : ∀ u, ev.latch.waiter u ≠ .outside → s.caller u = .waiting a
  caller : ev.nonwait = false →
    s.caller ev.thread = .dispatching a false ∨ s.caller ev.thread = .waiting a
  place : (∃ t, (s.center.dispatch t).submitting = some a) ∨ a ∈ s.queue ∨
    s.run.this? = some a ∨ ev.latch.setter = .after ∧ ev.nonwait = false

/-- The event of a call whose function was not yet run. -/
def Unrun (s : Submits T A B) (a : A) (ev : SubmitEvent T) : Prop :=
  s.event a = some ev ∧ ev.latch.setter = .before ∧ ev.call ∉ s.ran

structure Inv (owner : T) (s : Submits T A B) : Prop where
  sound : s.center.Sound owner
  running : s.run.isOutside = false → ∃ pass, s.center.loop = .running pass
  nodup : s.queue.Nodup
  queued : ∀ a ∈ s.queue, ∃ ev, s.Unrun a ev
  entering : ∀ t a, (s.center.dispatch t).submitting = some a →
    a ∉ s.queue ∧ (∃ nonwait, s.caller t = .dispatching a nonwait) ∧
      ∃ ev, s.Unrun a ev ∧ ev.thread = t
  current : ∀ a, s.run.this? = some a →
    (∃ rest, s.center.curProcess = .inl a :: rest) ∧
      ∃ ev, s.event a = some ev ∧ ev.call ∈ s.ran ∧ s.run.Stage ev
  callers : ∀ t a, s.caller t = .dispatching a false ∨ s.caller t = .waiting a →
    ∃ ev, s.event a = some ev ∧ ev.thread = t ∧ ev.nonwait = false
  live : ∀ a ev, s.event a = some ev → s.Live a ev
  distinct : ∀ a b ev ev', s.event a = some ev → s.event b = some ev' → ev.call = ev'.call → a = b
  once : s.ran.Nodup
  numbered : ∀ k ∈ s.ran, k < s.calls
  returned : ∀ k ∈ s.returned, k ∈ s.ran
  kept : ∀ k < s.calls, k ∉ s.ran → ∃ a ev, s.event a = some ev ∧ ev.call = k

theorem isOutside_of_this {run : Run A} (ha : run.this? = some a) : run.isOutside = false := by
  cases run <;> first | rfl | exact nomatch ha

theorem deref_of_some (h : s.event a = some ev) : s.deref a = .ok ev := by
  unfold deref
  rw [h]

namespace Inv

theorem this_notMem_queue (h : s.Inv owner) (ha : s.run.this? = some a) : a ∉ s.queue := by
  intro hmem
  obtain ⟨-, ev, hev, hran, -⟩ := h.current a ha
  obtain ⟨ev', hev', -, hnot⟩ := h.queued a hmem
  rw [hev] at hev'
  cases hev'
  exact hnot hran

theorem start (h : s.Start) (owner : T) : s.Inv owner := by
  obtain ⟨hcenter, hevent, hcaller, hrun, hcalls, hran, hreturned⟩ := h
  have hsound := EventCenter.Sound.start hcenter owner
  obtain ⟨-, -, hevents, hcur, -, hidle, -⟩ := hcenter
  have hqueue : s.queue = [] := by simp [queue, hcur, hevents]
  have hsubmitting (t : T) : (s.center.dispatch t).submitting = none := by
    have ht := hidle t
    cases hd : s.center.dispatch t with
    | outside => rfl
    | _ =>
        rw [hd] at ht
        exact nomatch ht
  refine ⟨hsound, ?_, ?_, ?_, ?_, ?_, ?_, ?_, ?_, ?_, ?_, ?_, ?_⟩
  · simp [hrun, Run.isOutside]
  · simp [hqueue]
  · simp [hqueue]
  · simp [hsubmitting]
  · simp [hrun, Run.this?]
  · simp [hcaller]
  · simp [hevent]
  · simp [hevent]
  · simp [hran]
  · simp [hran]
  · simp [hreturned]
  · simp [hcalls]

/-- The center moves, and what of it has to do with submissions stays. -/
theorem setCenter (h : s.Inv owner) (run : Run A) {center : EventCenter T (A ⊕ B)}
    (hsound : center.Sound owner)
    (hrunning : run.isOutside = false → s.run.isOutside = false ∧
      center.loop = s.center.loop ∧ center.curProcess = s.center.curProcess)
    (hqueue : queue { s with center, run } = s.queue)
    (hentering : ∀ t, (center.dispatch t).submitting = (s.center.dispatch t).submitting)
    (hthis : run.this? = s.run.this?)
    (hstage : ∀ ev : SubmitEvent T, s.run.Stage ev → run.Stage ev) :
    Inv owner { s with center, run } := by
  refine ⟨hsound, fun hrun => ?_, hqueue ▸ h.nodup, fun a ha => h.queued a (hqueue ▸ ha), ?_, ?_,
    h.callers, ?_, h.distinct, h.once, h.numbered, h.returned, h.kept⟩
  · obtain ⟨hrun', hloop, -⟩ := hrunning hrun
    obtain ⟨pass, hpass⟩ := h.running hrun'
    exact ⟨pass, hloop.trans hpass⟩
  · intro t a ha
    rw [hqueue]
    exact h.entering t a ((hentering t).symm.trans ha)
  · intro a ha
    obtain ⟨⟨rest, hrest⟩, ev, hev, hran, hst⟩ := h.current a (hthis.symm.trans ha)
    exact ⟨⟨rest, (hrunning (isOutside_of_this ha)).2.2.trans hrest⟩, ev, hev, hran, hstage ev hst⟩
  · intro a ev hev
    have hlive := h.live a ev hev
    refine ⟨hlive.latch, hlive.call, hlive.called, hlive.users, hlive.caller, ?_⟩
    rw [hqueue]
    refine hlive.place.imp ?_ (Or.imp_right (Or.imp_left hthis.trans))
    rintro ⟨t, ht⟩
    exact ⟨t, (hentering t).trans ht⟩

/-- A call comes to have its event in the queue. -/
theorem push (h : s.Inv owner) {center : EventCenter T (A ⊕ B)} (hsound : center.Sound owner)
    (hloop : center.loop = s.center.loop) (hcur : center.curProcess = s.center.curProcess)
    (ha : (s.center.dispatch t).submitting = some a)
    (hqueue : queue { s with center } = s.queue ++ [a])
    (hself : (center.dispatch t).submitting = none)
    (hothers : ∀ u, u ≠ t → center.dispatch u = s.center.dispatch u) :
    Inv owner { s with center } := by
  obtain ⟨hnew, -, ev, hunrun, hthread⟩ := h.entering t a ha
  refine ⟨hsound, fun hrun => ?_, ?_, ?_, ?_, fun b hb => hcur ▸ h.current b hb, h.callers, ?_,
    h.distinct, h.once, h.numbered, h.returned, h.kept⟩
  · rw [hloop]
    exact h.running hrun
  · rw [hqueue]
    exact h.nodup.append (List.nodup_singleton a) (by simpa using hnew)
  · intro b hb
    rw [hqueue] at hb
    rcases List.mem_append.mp hb with hb | hb
    · exact h.queued b hb
    · rw [List.mem_singleton.mp hb]
      exact ⟨ev, hunrun⟩
  · intro u b hb
    have hu : u ≠ t := by
      rintro rfl
      exact nomatch hself.symm.trans hb
    dsimp only at hb
    rw [hothers u hu] at hb
    obtain ⟨hout, hcaller, ev', hunrun', hthread'⟩ := h.entering u b hb
    refine ⟨?_, hcaller, ev', hunrun', hthread'⟩
    rw [hqueue]
    -- two calls have two events
    have hba : b ≠ a := by
      rintro rfl
      have hsame := hunrun.1.symm.trans hunrun'.1
      rw [Option.some.inj hsame] at hthread
      exact hu (hthread'.symm.trans hthread)
    simpa [hba] using hout
  · intro b ev' hev'
    have hlive := h.live b ev' hev'
    refine ⟨hlive.latch, hlive.call, hlive.called, hlive.users, hlive.caller, ?_⟩
    rw [hqueue]
    rcases hlive.place with ⟨u, hu⟩ | hplace
    · by_cases hut : u = t
      · subst hut
        rw [ha] at hu
        cases hu
        exact .inr (.inl (by simp))
      · exact .inl ⟨u, by rw [← hu]; exact congrArg _ (hothers u hut)⟩
    · exact .inr (hplace.imp_left fun hmem => List.mem_append_left _ hmem)

/-- The owner begins with the next event. -/
theorem begin (h : s.Inv owner) {pass : Pass} {rest : List (A ⊕ B)} (hrun : s.run = .outside)
    (hloop : s.center.loop = .running pass) (hcur : s.center.curProcess = .inl a :: rest) :
    ∃ ev, s.event a = some ev ∧
      Inv owner { s with run := .body a, ran := s.ran ++ [ev.call] } := by
  have hqueue : s.queue =
      a :: queue { s with run := .body a } := by
    simp [queue, hrun, hcur, Run.isOutside]
  have hnodup := h.nodup
  rw [hqueue] at hnodup
  obtain ⟨hnot, hnodup⟩ := List.nodup_cons.mp hnodup
  obtain ⟨ev, hev, hsetter, hran⟩ := h.queued a (hqueue ▸ List.mem_cons_self)
  refine ⟨ev, hev, h.sound, fun _ => ⟨pass, hloop⟩, hnodup, ?_, ?_, ?_, h.callers, ?_, h.distinct,
    ?_, ?_, ?_, ?_⟩
  · intro b hb
    obtain ⟨ev', hev', hsetter', hran'⟩ := h.queued b (hqueue ▸ List.mem_cons_of_mem _ hb)
    refine ⟨ev', hev', hsetter', ?_⟩
    have hba : ev'.call ≠ ev.call := by
      intro hcall
      have hsame := h.distinct b a ev' ev hev' hev hcall
      subst hsame
      exact hnot hb
    simpa [hba] using hran'
  · intro t b hb
    obtain ⟨hout, hcaller, ev', ⟨hev', hsetter', hran'⟩, hthread⟩ := h.entering t b hb
    rw [hqueue] at hout
    obtain ⟨hba, hout⟩ := not_or.mp (List.mem_cons.not.mp hout)
    have hcall : ev'.call ≠ ev.call := fun hcall => hba (h.distinct b a ev' ev hev' hev hcall)
    exact ⟨hout, hcaller, ev', ⟨hev', hsetter', by simpa [hcall] using hran'⟩, hthread⟩
  · rintro b ⟨⟩
    exact ⟨⟨rest, hcur⟩, ev, hev, by simp, hsetter⟩
  · intro b ev' hev'
    have hlive := h.live b ev' hev'
    refine ⟨hlive.latch, hlive.call, fun hset => List.mem_append_left _ (hlive.called hset),
      hlive.users, hlive.caller, ?_⟩
    refine hlive.place.imp_right (Or.elim · (fun hmem => ?_) fun hplace => .inr ?_)
    · rw [hqueue] at hmem
      rcases List.mem_cons.mp hmem with hba | hmem
      · exact .inr (.inl (congrArg some hba.symm))
      · exact .inl hmem
    · rw [hrun] at hplace
      exact hplace.imp_left nofun
  · exact h.once.append (List.nodup_singleton _) (by simpa using hran)
  · intro k hk
    rcases List.mem_append.mp hk with hk | hk
    · exact h.numbered k hk
    · rw [List.mem_singleton.mp hk]
      exact (h.live a ev hev).call
  · intro k hk
    exact List.mem_append_left _ (h.returned k hk)
  · intro k hk hnot'
    exact h.kept k hk fun hmem => hnot' (List.mem_append_left _ hmem)

theorem queue_congr {run : Run A} (hout : run.isOutside = s.run.isOutside)
    {event : A → Option (SubmitEvent T)} {caller : T → Caller A} {returned : List Nat} :
    queue { s with run, event, caller, returned } = s.queue := by
  unfold queue
  rw [hout]

variable [DecidableEq A]

theorem setEvent_of_ne {b : A} (hb : b ≠ a) (s : Submits T A B) (ev : Option (SubmitEvent T)) :
    (s.setEvent a ev).event b = s.event b := Function.update_of_ne hb _ _

theorem setEvent_self (s : Submits T A B) (a : A) (ev : Option (SubmitEvent T)) :
    (s.setEvent a ev).event a = ev := Function.update_self ..

/-- A waiter uses the mutex of an event, or the owner does, which goes on in `do_request`. -/
theorem setLatch (h : s.Inv owner) (run : Run A) (hev : s.event a = some ev) {latch : Latch T}
    (hsound : latch.Sound)
    (husers : ∀ u, latch.waiter u ≠ .outside → s.caller u = .waiting a)
    (hmove : run = s.run ∧ latch.setter = ev.latch.setter ∨
      s.run.this? = some a ∧ run.isOutside = false ∧
        (run.this? = some a ∧ run.Stage { ev with latch } ∨
          run.this? = none ∧ latch.setter = .after ∧ ev.nonwait = false)) :
    Inv owner ({ s with run }.setEvent a (some { ev with latch })) := by
  have hout : run.isOutside = s.run.isOutside := by
    rcases hmove with ⟨hrun, -⟩ | ⟨hthis, hrun, -⟩
    · rw [hrun]
    · rw [hrun, isOutside_of_this hthis]
  have hqueue : queue ({ s with run }.setEvent a (some { ev with latch })) = s.queue :=
    queue_congr hout
  have hunrun {b : A} {ev' : SubmitEvent T} (hb : s.Unrun b ev') :
      ∃ ev'', Unrun ({ s with run }.setEvent a (some { ev with latch })) b ev'' ∧
        ev''.thread = ev'.thread := by
    obtain ⟨hev', hsetter, hran⟩ := hb
    by_cases hba : b = a
    · subst hba
      rw [hev] at hev'
      cases hev'
      refine ⟨_, ⟨setEvent_self .., ?_, hran⟩, rfl⟩
      rcases hmove with ⟨-, hsame⟩ | ⟨hthis, -⟩
      · exact hsame.trans hsetter
      · obtain ⟨-, ev', hev', hmem, -⟩ := h.current b hthis
        rw [hev] at hev'
        cases hev'
        exact absurd hmem hran
    · exact ⟨ev', ⟨(setEvent_of_ne hba ..).trans hev', hsetter, hran⟩, rfl⟩
  have hsame {b : A} {ev' : SubmitEvent T} (hev' : s.event b = some ev') :
      ∃ ev'', ({ s with run }.setEvent a (some { ev with latch })).event b = some ev'' ∧
        ev''.thread = ev'.thread ∧ ev''.nonwait = ev'.nonwait ∧ ev''.call = ev'.call := by
    by_cases hba : b = a
    · subst hba
      rw [hev] at hev'
      cases hev'
      exact ⟨_, setEvent_self .., rfl, rfl, rfl⟩
    · exact ⟨ev', (setEvent_of_ne hba ..).trans hev', rfl, rfl, rfl⟩
  have hback {b : A} {ev'' : SubmitEvent T}
      (hev'' : ({ s with run }.setEvent a (some { ev with latch })).event b = some ev'') :
      ∃ ev', s.event b = some ev' ∧ ev'.call = ev''.call := by
    by_cases hba : b = a
    · subst hba
      rw [setEvent_self] at hev''
      cases hev''
      exact ⟨ev, hev, rfl⟩
    · exact ⟨ev'', (setEvent_of_ne hba ..).symm.trans hev'', rfl⟩
  refine ⟨h.sound, fun hrun => h.running (hout.symm.trans hrun), hqueue ▸ h.nodup, ?_, ?_, ?_, ?_,
    ?_, ?_, h.once, h.numbered, h.returned, ?_⟩
  · intro b hb
    obtain ⟨ev', hev'⟩ := h.queued b (hqueue ▸ hb)
    obtain ⟨ev'', hev'', -⟩ := hunrun hev'
    exact ⟨ev'', hev''⟩
  · intro t b hb
    obtain ⟨hnot, hcaller, ev', hev', hthread⟩ := h.entering t b hb
    obtain ⟨ev'', hev'', hthread''⟩ := hunrun hev'
    exact ⟨hqueue ▸ hnot, hcaller, ev'', hev'', hthread''.trans hthread⟩
  · intro b hb
    rcases hmove with ⟨rfl, hsetter⟩ | ⟨hthis, -, ⟨hthis', hstage⟩ | ⟨hnone, -⟩⟩
    · obtain ⟨hrest, ev', hev', hran, hstage⟩ := h.current b hb
      by_cases hba : b = a
      · subst hba
        rw [hev] at hev'
        cases hev'
        exact ⟨hrest, _, setEvent_self .., hran, hstage.setLatch hsetter⟩
      · exact ⟨hrest, ev', (setEvent_of_ne hba ..).trans hev', hran, hstage⟩
    · obtain ⟨hrest, ev', hev', hran, -⟩ := h.current a hthis
      rw [hev] at hev'
      cases hev'
      have hba : a = b := Option.some.inj (hthis'.symm.trans hb)
      subst hba
      exact ⟨hrest, _, setEvent_self .., hran, hstage⟩
    · exact nomatch hnone.symm.trans hb
  · intro t b hb
    obtain ⟨ev', hev', hthread, hnonwait⟩ := h.callers t b hb
    obtain ⟨ev'', hev'', hthread'', hnonwait'', -⟩ := hsame hev'
    exact ⟨ev'', hev'', hthread''.trans hthread, hnonwait''.trans hnonwait⟩
  · intro b ev'' hev''
    by_cases hba : b = a
    · subst hba
      rw [setEvent_self] at hev''
      cases hev''
      have hlive := h.live b ev hev
      refine ⟨hsound, hlive.call, fun hset => ?_, husers, hlive.caller, ?_⟩
      · rcases hmove with ⟨-, hsetter⟩ | ⟨hthis, -⟩
        · exact hlive.called fun hbefore => hset (hsetter.trans hbefore)
        · obtain ⟨-, ev', hev', hran, -⟩ := h.current b hthis
          rw [hev] at hev'
          cases hev'
          exact hran
      · rw [hqueue]
        rcases hmove with ⟨rfl, hsetter⟩ | ⟨-, -, ⟨hthis, -⟩ | ⟨-, hafter, hnonwait⟩⟩
        · refine hlive.place.imp_right (Or.imp_right (Or.imp_right ?_))
          exact And.imp_left hsetter.trans
        · exact .inr (.inr (.inl hthis))
        · exact .inr (.inr (.inr ⟨hafter, hnonwait⟩))
    · have hlive := h.live b ev'' ((setEvent_of_ne hba ..).symm.trans hev'')
      refine ⟨hlive.latch, hlive.call, hlive.called, hlive.users, hlive.caller, ?_⟩
      rw [hqueue]
      refine hlive.place.imp_right (Or.imp_right (Or.imp_left fun hthis => ?_))
      rcases hmove with ⟨hrun, -⟩ | ⟨hthis', -⟩
      · exact (congrArg Run.this? hrun).trans hthis
      · exact absurd (Option.some.inj (hthis.symm.trans hthis')) hba
  · intro b b' ev₁ ev₂ hev₁ hev₂ hcall
    obtain ⟨ev₁', hev₁', hcall₁⟩ := hback hev₁
    obtain ⟨ev₂', hev₂', hcall₂⟩ := hback hev₂
    exact h.distinct b b' ev₁' ev₂' hev₁' hev₂' (hcall₁.trans (hcall.trans hcall₂.symm))
  · intro k hk hran
    obtain ⟨b, ev', hev', hcall⟩ := h.kept k hk hran
    obtain ⟨ev'', hev'', -, -, hcall''⟩ := hsame hev'
    exact ⟨b, ev'', hev'', hcall''.trans hcall⟩

/-- An event goes away: the owner deletes it, or the thread that waited for it returns. -/
theorem remove (h : s.Inv owner) (run : Run A) (caller : T → Caller A) (returned : List Nat)
    (hev : s.event a = some ev) (hran : ev.call ∈ s.ran)
    (hrun : run = s.run ∧ s.run.this? ≠ some a ∨ run = .returned ∧ s.run.this? = some a)
    (hcallers : ∀ t b, caller t = .dispatching b false ∨ caller t = .waiting b →
      b ≠ a ∧ caller t = s.caller t)
    (hothers : ∀ t b, b ≠ a → s.caller t = .dispatching b false ∨ s.caller t = .waiting b →
      caller t = s.caller t)
    (hentering : ∀ t b, (∃ nonwait, s.caller t = .dispatching b nonwait) → b ≠ a →
      ∃ nonwait, caller t = .dispatching b nonwait)
    (hreturned : ∀ k ∈ returned, k ∈ s.ran) :
    Inv owner ({ s with run, caller, returned }.setEvent a none) := by
  have hout : run.isOutside = s.run.isOutside := by
    rcases hrun with ⟨hrun, -⟩ | ⟨hrun, hthis⟩
    · rw [hrun]
    · rw [hrun, isOutside_of_this hthis]
      rfl
  have hqueue : queue ({ s with run, caller, returned }.setEvent a none) = s.queue :=
    queue_congr hout
  have hne {b : A} {ev' : SubmitEvent T} (hev' : s.event b = some ev') (hnot : ev'.call ∉ s.ran) :
      b ≠ a := by
    rintro rfl
    rw [hev] at hev'
    cases hev'
    exact hnot hran
  have hback {b : A} {ev' : SubmitEvent T}
      (hev' : ({ s with run, caller, returned }.setEvent a none).event b = some ev') :
      b ≠ a ∧ s.event b = some ev' := by
    have hba : b ≠ a := by
      rintro rfl
      rw [setEvent_self] at hev'
      exact nomatch hev'
    exact ⟨hba, (setEvent_of_ne hba ..).symm.trans hev'⟩
  refine ⟨h.sound, fun hin => h.running (hout.symm.trans hin), hqueue ▸ h.nodup, ?_, ?_, ?_, ?_,
    ?_, ?_, h.once, h.numbered, hreturned, ?_⟩
  · intro b hb
    obtain ⟨ev', hev', hsetter, hnot⟩ := h.queued b (hqueue ▸ hb)
    exact ⟨ev', (setEvent_of_ne (hne hev' hnot) ..).trans hev', hsetter, hnot⟩
  · intro t b hb
    obtain ⟨hmem, hcaller, ev', ⟨hev', hsetter, hnot⟩, hthread⟩ := h.entering t b hb
    exact ⟨hqueue ▸ hmem, hentering t b hcaller (hne hev' hnot), ev',
      ⟨(setEvent_of_ne (hne hev' hnot) ..).trans hev', hsetter, hnot⟩, hthread⟩
  · intro b hb
    rcases hrun with ⟨rfl, hthis⟩ | ⟨rfl, -⟩
    · obtain ⟨hrest, ev', hev', hran', hstage⟩ := h.current b hb
      have hba : b ≠ a := by
        rintro rfl
        exact hthis hb
      exact ⟨hrest, ev', (setEvent_of_ne hba ..).trans hev', hran', hstage⟩
    · exact nomatch hb
  · intro t b hb
    obtain ⟨hba, hsame⟩ := hcallers t b hb
    obtain ⟨ev', hev', hthread, hnonwait⟩ := h.callers t b (hsame ▸ hb)
    exact ⟨ev', (setEvent_of_ne hba ..).trans hev', hthread, hnonwait⟩
  · intro b ev' hev'
    obtain ⟨hba, hev'⟩ := hback hev'
    have hlive := h.live b ev' hev'
    refine ⟨hlive.latch, hlive.call, hlive.called, fun u hu => ?_, fun hnonwait => ?_, ?_⟩
    · exact (hothers u b hba (.inr (hlive.users u hu))).trans (hlive.users u hu)
    · have hcaller := hlive.caller hnonwait
      show caller ev'.thread = _ ∨ caller ev'.thread = _
      rwa [hothers ev'.thread b hba hcaller]
    · rw [hqueue]
      refine hlive.place.imp_right (Or.imp_right (Or.imp_left fun hthis => ?_))
      rcases hrun with ⟨hrun, -⟩ | ⟨-, hthis'⟩
      · exact (congrArg Run.this? hrun).trans hthis
      · exact absurd (Option.some.inj (hthis.symm.trans hthis')) hba
  · intro b b' ev₁ ev₂ hev₁ hev₂ hcall
    exact h.distinct b b' ev₁ ev₂ (hback hev₁).2 (hback hev₂).2 hcall
  · intro k hk hnot
    obtain ⟨b, ev', hev', hcall⟩ := h.kept k hk hnot
    exact ⟨b, ev', (setEvent_of_ne (hne hev' (hcall ▸ hnot)) ..).trans hev', hcall⟩

variable [DecidableEq T]

omit [DecidableEq A] in
/-- A call that was to dispatch its event has done so. -/
theorem callReturns (h : s.Inv owner) {nonwait : Bool}
    (hcaller : s.caller t = .dispatching a nonwait)
    (hreturned : (s.center.dispatch t).submitting = none) :
    Inv owner (s.setCaller t (if nonwait then .outside else .waiting a)) := by
  refine ⟨h.sound, h.running, h.nodup, h.queued, ?_, h.current, ?_, ?_, h.distinct,
    h.once, h.numbered, h.returned, h.kept⟩
  · intro u b hb
    obtain ⟨hmem, ⟨nonwait', hcaller'⟩, hunrun⟩ := h.entering u b hb
    have hut : u ≠ t := by
      rintro rfl
      exact nomatch hreturned.symm.trans hb
    exact ⟨hmem, ⟨nonwait', (Function.update_of_ne hut ..).trans hcaller'⟩, hunrun⟩
  · refine fun u b => ?_
    show Function.update s.caller t _ u = _ ∨ Function.update s.caller t _ u = _ → _
    by_cases hut : u = t
    · subst hut
      rw [Function.update_self]
      cases nonwait with
      | true => exact fun hb => hb.elim nofun nofun
      | false =>
          rintro (hb | hb)
          · exact nomatch hb
          · cases hb
            exact h.callers u a (.inl hcaller)
    · rw [Function.update_of_ne hut]
      exact h.callers u b
  · intro b ev' hev'
    have hlive := h.live b ev' hev'
    refine ⟨hlive.latch, hlive.call, hlive.called, fun u hu => ?_, fun hnonwait => ?_, hlive.place⟩
    · have hwaiting := hlive.users u hu
      have hut : u ≠ t := by
        rintro rfl
        exact nomatch hwaiting.symm.trans hcaller
      exact (Function.update_of_ne hut ..).trans hwaiting
    · have hcaller' := hlive.caller hnonwait
      show Function.update s.caller t _ _ = _ ∨ Function.update s.caller t _ _ = _
      by_cases hut : ev'.thread = t
      · rw [hut, Function.update_self]
        rw [hut, hcaller] at hcaller'
        rcases hcaller' with hsame | hsame
        · cases hsame
          exact .inr rfl
        · exact nomatch hsame
      · rwa [Function.update_of_ne hut]

/-- A call makes its event and goes to dispatch it. -/
theorem create (h : s.Inv owner) (hfresh : s.event a = none) (hcaller : s.caller t = .outside)
    {center : EventCenter T (A ⊕ B)} (hsound : center.Sound owner)
    (hloop : center.loop = s.center.loop) (hcur : center.curProcess = s.center.curProcess)
    (hqueue : queue { s with center } = s.queue) (hself : (center.dispatch t).submitting = some a)
    (hidle : (s.center.dispatch t).submitting = none)
    (hothers : ∀ u, u ≠ t → center.dispatch u = s.center.dispatch u) (nonwait : Bool) :
    Inv owner ({ s with center, calls := s.calls + 1 }.setEvent a
      (some ⟨s.calls, t, nonwait, .init⟩) |>.setCaller t (.dispatching a nonwait)) := by
  have hne {b : A} {ev' : SubmitEvent T} (hev' : s.event b = some ev') : b ≠ a := by
    rintro rfl
    exact nomatch hfresh.symm.trans hev'
  have hold {b : A} (hba : b ≠ a) :
      Function.update s.event a (some ⟨s.calls, t, nonwait, .init⟩) b = s.event b :=
    Function.update_of_ne hba ..
  have hnew : Function.update s.event a (some ⟨s.calls, t, nonwait, .init⟩) a =
      some ⟨s.calls, t, nonwait, .init⟩ := Function.update_self ..
  have hnot : s.calls ∉ s.ran := fun hmem => absurd (h.numbered _ hmem) (by omega)
  refine ⟨hsound, fun hrun => ?_, hqueue ▸ h.nodup, ?_, ?_, ?_, ?_, ?_, ?_, h.once, ?_,
    h.returned, ?_⟩
  · obtain ⟨pass, hpass⟩ := h.running hrun
    exact ⟨pass, hloop.trans hpass⟩
  · intro b hb
    obtain ⟨ev', hev', hunrun⟩ := h.queued b (hqueue ▸ hb)
    exact ⟨ev', (hold (hne hev')).trans hev', hunrun⟩
  · intro u b hb
    by_cases hut : u = t
    · subst hut
      have hab : a = b := Option.some.inj (hself.symm.trans hb)
      subst hab
      refine ⟨fun hmem => ?_, ⟨nonwait, Function.update_self ..⟩, _, ⟨hnew, rfl, hnot⟩, rfl⟩
      obtain ⟨ev', hev', -⟩ := h.queued a (hqueue ▸ hmem)
      exact hne hev' rfl
    · have hb' : (s.center.dispatch u).submitting = some b := by
        rw [← hothers u hut]
        exact hb
      obtain ⟨hmem, ⟨nonwait', hcaller'⟩, ev', ⟨hev', hunrun⟩, hthread⟩ := h.entering u b hb'
      exact ⟨fun hin => hmem (hqueue ▸ hin),
        ⟨nonwait', (Function.update_of_ne hut ..).trans hcaller'⟩, ev',
        ⟨(hold (hne hev')).trans hev', hunrun⟩, hthread⟩
  · intro b hb
    obtain ⟨⟨rest, hrest⟩, ev', hev', hran, hstage⟩ := h.current b hb
    exact ⟨⟨rest, hcur.trans hrest⟩, ev', (hold (hne hev')).trans hev', hran, hstage⟩
  · intro u b
    show Function.update s.caller t _ u = _ ∨ Function.update s.caller t _ u = _ → _
    by_cases hut : u = t
    · subst hut
      rw [Function.update_self]
      rintro (hb | hb)
      · cases hb
        exact ⟨_, hnew, rfl, rfl⟩
      · exact nomatch hb
    · rw [Function.update_of_ne hut]
      intro hb
      obtain ⟨ev', hev', hthread⟩ := h.callers u b hb
      exact ⟨ev', (hold (hne hev')).trans hev', hthread⟩
  · intro b ev' hev'
    by_cases hba : b = a
    · subst hba
      cases hnew.symm.trans hev'
      refine ⟨Latch.sound_init, Nat.lt_succ_self _, fun hset => absurd rfl hset,
        fun u hu => absurd rfl hu, fun hnonwait => .inl ?_, .inl ⟨t, hself⟩⟩
      have hwaits : nonwait = false := hnonwait
      rw [hwaits]
      exact Function.update_self ..
    · have hev'' := (hold hba).symm.trans hev'
      have hlive := h.live b ev' hev''
      refine ⟨hlive.latch, hlive.call.trans (Nat.lt_succ_self _), hlive.called, fun u hu => ?_,
        fun hnonwait => ?_, ?_⟩
      · have hwaiting := hlive.users u hu
        have hut : u ≠ t := by
          rintro rfl
          exact nomatch hwaiting.symm.trans hcaller
        exact (Function.update_of_ne hut ..).trans hwaiting
      · have hcaller' := hlive.caller hnonwait
        have hut : ev'.thread ≠ t := by
          intro hut
          rw [hut, hcaller] at hcaller'
          exact hcaller'.elim nofun nofun
        show Function.update s.caller t _ _ = _ ∨ Function.update s.caller t _ _ = _
        rwa [Function.update_of_ne hut]
      · refine hlive.place.imp ?_ (Or.imp_left fun hmem => ?_)
        · rintro ⟨u, hu⟩
          have hut : u ≠ t := by
            rintro rfl
            exact nomatch hidle.symm.trans hu
          exact ⟨u, (congrArg Dispatch.submitting (hothers u hut)).trans hu⟩
        · show b ∈ queue { s with center }
          rwa [hqueue]
  · intro b b' ev₁ ev₂ hev₁ hev₂ hcall
    have hlt {c : A} {ev' : SubmitEvent T} (hca : c ≠ a)
        (hev' : Function.update s.event a (some ⟨s.calls, t, nonwait, .init⟩) c = some ev') :
        s.event c = some ev' ∧ ev'.call < s.calls := by
      have hev'' := (hold hca).symm.trans hev'
      exact ⟨hev'', (h.live c ev' hev'').call⟩
    by_cases hba : b = a
    · by_cases hba' : b' = a
      · rw [hba, hba']
      · subst hba
        cases hnew.symm.trans hev₁
        have hlt₂ := (hlt hba' hev₂).2
        dsimp only at hcall
        omega
    · by_cases hba' : b' = a
      · subst hba'
        cases hnew.symm.trans hev₂
        have hlt₁ := (hlt hba hev₁).2
        dsimp only at hcall
        omega
      · exact h.distinct b b' ev₁ ev₂ (hlt hba hev₁).1 (hlt hba' hev₂).1 hcall
  · intro k hk
    exact (h.numbered k hk).trans (Nat.lt_succ_self _)
  · intro k hk hran
    rcases Nat.lt_succ_iff_lt_or_eq.mp hk with hlt | rfl
    · obtain ⟨b, ev', hev', hcall⟩ := h.kept k hlt hran
      exact ⟨b, ev', (hold (hne hev')).trans hev', hcall⟩
    · exact ⟨a, _, hnew, rfl⟩

omit [DecidableEq A] [DecidableEq T] in
/-- A call by the owner. -/
theorem runInPlace (h : s.Inv owner) :
    Inv owner { s with
      calls := s.calls + 1
      ran := s.ran ++ [s.calls]
      returned := s.returned ++ [s.calls] } := by
  have hunrun {b : A} {ev' : SubmitEvent T} (hb : s.Unrun b ev') :
      ev'.call ∉ s.ran ++ [s.calls] := by
    have hlt := (h.live b ev' hb.1).call
    simp only [List.mem_append, List.mem_singleton, not_or]
    exact ⟨hb.2.2, by omega⟩
  refine ⟨h.sound, h.running, h.nodup, ?_, ?_, ?_, h.callers, ?_, h.distinct, ?_, ?_, ?_, ?_⟩
  · intro b hb
    obtain ⟨ev', hev'⟩ := h.queued b hb
    exact ⟨ev', hev'.1, hev'.2.1, hunrun hev'⟩
  · intro t b hb
    obtain ⟨hmem, hcaller, ev', hev', hthread⟩ := h.entering t b hb
    exact ⟨hmem, hcaller, ev', ⟨hev'.1, hev'.2.1, hunrun hev'⟩, hthread⟩
  · intro b hb
    obtain ⟨hrest, ev', hev', hran, hstage⟩ := h.current b hb
    exact ⟨hrest, ev', hev', List.mem_append_left _ hran, hstage⟩
  · intro b ev' hev'
    have hlive := h.live b ev' hev'
    exact ⟨hlive.latch, hlive.call.trans (Nat.lt_succ_self _),
      fun hset => List.mem_append_left _ (hlive.called hset), hlive.users, hlive.caller,
      hlive.place⟩
  · refine h.once.append (List.nodup_singleton _) ?_
    simp only [List.disjoint_singleton]
    exact fun hmem => absurd (h.numbered _ hmem) (by omega)
  · intro k hk
    rcases List.mem_append.mp hk with hk | hk
    · exact (h.numbered k hk).trans (Nat.lt_succ_self _)
    · rw [List.mem_singleton.mp hk]
      exact Nat.lt_succ_self _
  · intro k hk
    rcases List.mem_append.mp hk with hk | hk
    · exact List.mem_append_left _ (h.returned k hk)
    · exact List.mem_append_right _ hk
  · intro k hk hnot
    simp only [List.mem_append, List.mem_singleton, not_or] at hnot
    have hlt : k < s.calls + 1 := hk
    exact h.kept k (by omega) hnot.1

variable [DecidableEq B]

omit [DecidableEq T] [DecidableEq A] [DecidableEq B] in
theorem queue_center {center : EventCenter T (A ⊕ B)}
    (hcur : center.curProcess = s.center.curProcess)
    (hevents : center.externalEvents = s.center.externalEvents) :
    queue { s with center } = s.queue := by
  unfold queue
  rw [hcur, hevents]

theorem stepped_ends {act : EventCenter.Act T (A ⊕ B)} {post : EventCenter T (A ⊕ B) → Prop}
    (h : Ends (s.center.step owner room act) post fun _ => True) :
    Ends (s.stepped owner room act)
      (fun s' => ∃ center, post center ∧ s' = { s with center }) SubmitHalt.Orderly := by
  unfold Submits.stepped
  cases hrun : s.center.step owner room act with
  | error halt => trivial
  | ok center => exact ⟨center, h.value hrun, rfl⟩

theorem thread (h : s.Inv owner) (hroom : 0 < room) (t : T) (written : Bool) :
    Ends (s.stepped owner room (.thread t written)) (Inv owner) SubmitHalt.Orderly := by
  have hstep : Ends (s.center.step owner room (.thread t written))
      (fun c' => c'.Sound owner ∧ s.center.Dispatches t c') fun _ => True :=
    (h.sound.step hroom (.thread t written)).and
      (EventCenter.dispatchStep_dispatches owner room t written s.center)
  refine (stepped_ends hstep).mono ?_ fun _ => id
  rintro _ ⟨center, ⟨hsound, hloop, hcur, hothers, hmoved⟩, rfl⟩
  have hquiet (hqueue : queue { s with center } = s.queue)
      (hself : (center.dispatch t).submitting = (s.center.dispatch t).submitting) :
      Inv owner { s with center } := by
    refine h.setCenter s.run hsound (fun hrun => ⟨hrun, hloop, hcur⟩) hqueue (fun u => ?_)
      rfl fun _ => id
    by_cases hut : u = t
    · rw [hut]
      exact hself
    · exact congrArg _ (hothers u hut)
  cases hmoved with
  | stays hevents hentering =>
      exact hquiet (queue_center hcur hevents) (congrArg (Option.bind · Sum.getLeft?) hentering)
  | @pushes e hd hd' hevents =>
      have hqueue : queue { s with center } =
          s.queue ++ [e].filterMap Sum.getLeft? := by
        unfold queue
        rw [hcur, hevents, ← List.append_assoc, List.filterMap_append]
      have hself : (center.dispatch t).submitting = none :=
        congrArg (Option.bind · Sum.getLeft?) hd'
      have hbefore : (s.center.dispatch t).submitting = e.getLeft? :=
        congrArg (Option.bind · Sum.getLeft?) hd
      cases e with
      | inl a => exact h.push hsound hloop hcur hbefore hqueue hself hothers
      | inr b => exact hquiet (hqueue.trans (List.append_nil s.queue)) (hself.trans hbefore.symm)
  | @finds e hd hd' hevents hmem =>
      have hself : (center.dispatch t).submitting = none :=
        congrArg (Option.bind · Sum.getLeft?) hd'
      have hbefore : (s.center.dispatch t).submitting = e.getLeft? :=
        congrArg (Option.bind · Sum.getLeft?) hd
      cases e with
      | inl a =>
          -- its event is new, so it cannot be in the queue
          have hnot := (h.entering t a hbefore).1
          have hin : a ∈ s.queue :=
            List.mem_filterMap.mpr ⟨.inl a, List.mem_append_right _ hmem, rfl⟩
          exact absurd hin hnot
      | inr b => exact hquiet (queue_center hcur hevents) (hself.trans hbefore.symm)

/-- Steps of the center that have nothing to do with submissions. -/
theorem quietStep (h : s.Inv owner) (hroom : 0 < room) {act : EventCenter.Act T (A ⊕ B)}
    (hact : Ends (s.center.step owner room act) (fun center =>
      (∀ pass, s.center.loop = .running pass → center.loop = s.center.loop) ∧
        center.curProcess = s.center.curProcess ∧
        center.externalEvents = s.center.externalEvents ∧
        ∀ t, (center.dispatch t).submitting = (s.center.dispatch t).submitting) fun _ => True) :
    Ends (s.stepped owner room act) (Inv owner) SubmitHalt.Orderly := by
  refine (stepped_ends ((h.sound.step hroom act).and hact)).mono ?_ fun _ => id
  rintro _ ⟨center, ⟨hsound, hloop, hcur, hevents, hsubmitting⟩, rfl⟩
  refine h.setCenter s.run hsound (fun hrun => ?_) (queue_center hcur hevents) hsubmitting
    rfl fun _ => id
  obtain ⟨pass, hpass⟩ := h.running hrun
  exact ⟨hrun, hloop pass hpass, hcur⟩

/-- The owner is not at a submitted event. -/
theorem ownerStep (h : s.Inv owner) (hroom : 0 < room) (hrun : s.run = .outside)
    (hother : ∀ pass a rest, s.center.loop = .running pass →
      s.center.curProcess ≠ .inl a :: rest) (answer : Nat) :
    Ends (s.stepped owner room (.owner answer)) (Inv owner) SubmitHalt.Orderly := by
  have hmoves : Ends (s.center.step owner room (.owner answer))
      (EventCenter.OwnerMove owner s.center) fun _ => True := by
    unfold EventCenter.step
    dsimp only
    split
    · exact EventCenter.ownerStep_moves owner answer s.center
    · trivial
  refine (stepped_ends ((h.sound.step hroom (.owner answer)).and hmoves)).mono ?_ fun _ => id
  rintro _ ⟨center, ⟨hsound, hmove⟩, rfl⟩
  have hset (hqueue : queue { s with center } = s.queue)
      (hdispatch : center.dispatch = s.center.dispatch) : Inv owner { s with center } := by
    refine h.setCenter s.run hsound ?_ hqueue (fun t => ?_) rfl fun _ => id
    · rw [hrun]
      exact nofun
    · rw [hdispatch]
  cases hmove with
  | quiet _ _ _ _ => exact hset rfl rfl
  | lock _ _ => exact hset rfl rfl
  | swap hloop =>
      have hcur : s.center.curProcess = [] := h.sound.ordered.batch (by rw [hloop]; rfl)
      refine hset ?_ rfl
      simp [queue, hrun, hcur, Run.isOutside]
  | store _ => exact hset rfl rfl
  | unlock _ => exact hset rfl rfl
  | @run pass e rest hloop hcur =>
      cases e with
      | inl a => exact absurd hcur (hother pass a rest hloop)
      | inr b =>
          refine hset ?_ rfl
          unfold queue
          rw [hrun, hcur]
          rfl

/-- The owner drops the event that it has run. -/
theorem pop (h : s.Inv owner) (hroom : 0 < room) (hrun : s.run = .returned) (answer : Nat) :
    Ends (stepped owner room { s with run := .outside } (.owner answer)) (Inv owner)
      SubmitHalt.Orderly := by
  obtain ⟨pass, hloop⟩ := h.running (by rw [hrun]; rfl)
  have hpops : Ends (s.center.step owner room (.owner answer)) (fun center =>
      center.curProcess = s.center.curProcess.tail ∧
        center.externalEvents = s.center.externalEvents ∧ center.dispatch = s.center.dispatch)
      fun _ => True := by
    unfold EventCenter.step EventCenter.ownerStep
    rw [hloop]
    dsimp only
    split
    · cases s.center.curProcess with
      | nil => trivial
      | cons e rest => exact ⟨rfl, rfl, rfl⟩
    · trivial
  refine (stepped_ends (s := { s with run := .outside })
    ((h.sound.step hroom (.owner answer)).and hpops)).mono ?_ fun _ => id
  rintro _ ⟨center, ⟨hsound, hcur, hevents, hdispatch⟩, rfl⟩
  refine h.setCenter .outside hsound nofun ?_ (fun t => by rw [hdispatch]) ?_
    fun _ _ => trivial
  · simp [queue, hrun, hcur, hevents, Run.isOutside]
  · rw [hrun]
    rfl

theorem centerStep (h : s.Inv owner) (hroom : 0 < room) (act : EventCenter.Act T (A ⊕ B)) :
    Ends (s.centerStep owner room act) (Inv owner) SubmitHalt.Orderly := by
  cases act with
  | dispatchEventExternal t e =>
      cases e with
      | inl a => trivial
      | inr b =>
          show Ends (if _ then _ else _) _ _
          split
          · refine h.quietStep hroom ?_
            unfold EventCenter.step
            dsimp only
            split
            · rename_i hcall
              refine ⟨fun _ _ => rfl, rfl, rfl, fun u => ?_⟩
              show (Function.update s.center.dispatch t (.locking (.inr b)) u).submitting = _
              by_cases hut : u = t
              · subst hut
                rw [Function.update_self]
                cases hd : s.center.dispatch u with
                | outside => rfl
                | _ =>
                    rw [hd] at hcall
                    exact nomatch hcall.1
              · rw [Function.update_of_ne hut]
            · trivial
          · trivial
  | thread t written =>
      refine (h.thread hroom t written).bind fun s' h' => ?_
      split
      · rename_i hidle
        split
        · rename_i event nonwait hcaller
          refine h'.callReturns hcaller ?_
          cases hd : s'.center.dispatch t with
          | outside => rfl
          | _ =>
              rw [hd] at hidle
              exact nomatch hidle
        · exact h'
      · exact h'
  | processEvents timeout triggerTime =>
      refine h.quietStep hroom ?_
      unfold EventCenter.step
      dsimp only
      split
      · rename_i hloop
        split
        · exact ⟨fun pass hpass => (nomatch hloop.symm.trans hpass), rfl, rfl, fun _ => rfl⟩
        · trivial
      · trivial
  | eventWait numevents calls =>
      refine h.quietStep hroom ?_
      unfold EventCenter.step
      dsimp only
      split
      · rename_i hloop
        exact ⟨fun pass hpass => (nomatch hloop.symm.trans hpass), rfl, rfl, fun _ => rfl⟩
      · trivial
  | owner answer =>
      unfold Submits.centerStep
      dsimp only
      split
      · rename_i hrun
        split
        · trivial
        · rename_i hother
          exact h.ownerStep hroom hrun (fun pass a rest hloop hcur => hother pass a rest hloop hcur)
            answer
      · rename_i hrun
        exact h.pop hroom hrun answer
      · trivial
  | setPollers n =>
      show Ends (if _ then _ else _) _ _
      split
      · refine h.quietStep hroom ?_
        unfold EventCenter.step
        dsimp only
        split
        · exact ⟨fun _ _ => rfl, rfl, rfl, fun _ => rfl⟩
        · trivial
      · trivial

theorem submitTo (h : s.Inv owner) (hroom : 0 < room) (t : T) (alwaysAsync : Bool)
    (hfresh : s.event a = none) :
    Ends (s.submitTo owner room t alwaysAsync a) (Inv owner) SubmitHalt.Orderly := by
  unfold Submits.submitTo
  split
  · trivial
  · rename_i hfree
    have hcaller : s.caller t = .outside := by
      cases hcaller : s.caller t with
      | outside => rfl
      | _ => simp [free, hcaller, Caller.isOutside] at hfree
    split
    · split
      · exact h.runInPlace
      · trivial
    · have hstep : Ends (s.center.step owner room (.dispatchEventExternal t (.inl a)))
          (fun center => (s.center.dispatch t).idle = true ∧
            center = s.center.setDispatch t (.locking (.inl a))) fun _ => True := by
        unfold EventCenter.step
        dsimp only
        split
        · rename_i hcall
          exact ⟨hcall.1, rfl⟩
        · trivial
      refine (stepped_ends ((h.sound.step hroom _).and hstep)).bind ?_
      rintro _ ⟨center, ⟨hsound, hidle, hcenter⟩, rfl⟩
      subst hcenter
      refine h.create hfresh hcaller hsound rfl rfl rfl ?_ ?_ (fun u hu => ?_) alwaysAsync
      · exact congrArg Dispatch.submitting (Function.update_self t _ s.center.dispatch)
      · cases hd : s.center.dispatch t with
        | outside => rfl
        | _ =>
            rw [hd] at hidle
            exact nomatch hidle
      · exact Function.update_of_ne hu _ s.center.dispatch

omit [DecidableEq T] [DecidableEq B] in
theorem doRequest (h : s.Inv owner) : Ends (s.doRequest owner) (Inv owner) SubmitHalt.Orderly := by
  unfold Submits.doRequest
  split
  · trivial
  · cases hrun : s.run with
    | outside =>
        dsimp only
        split
        · rename_i pass this rest hloop hcur
          obtain ⟨ev, hev, hbegun⟩ := h.begin hrun hloop hcur
          rw [deref_of_some hev]
          exact hbegun
        · trivial
    | body this =>
        have hthis : s.run.this? = some this := by rw [hrun]; rfl
        obtain ⟨-, ev, hev, -, hstage⟩ := h.current this hthis
        rw [hrun] at hstage
        have hbefore : ev.latch.setter = .before := hstage
        have hset := h.setLatch (.latching this) hev (h.live this ev hev).latch
          (h.live this ev hev).users
          (.inr ⟨hthis, rfl, .inl ⟨rfl, fun hafter => (nomatch hbefore.symm.trans hafter)⟩⟩)
        have hsame : Function.update s.event this (some ev) = s.event := by
          rw [← hev, Function.update_eq_self]
        unfold setEvent at hset
        dsimp only at hset
        rw [hsame] at hset
        exact hset
    | latching this =>
        have hthis : s.run.this? = some this := by rw [hrun]; rfl
        obtain ⟨-, ev, hev, -, hstage⟩ := h.current this hthis
        dsimp only
        rw [deref_of_some hev, ok_bind]
        have hlive := h.live this ev hev
        cases hlatch : ev.latch.setStep with
        | none => trivial
        | some latch =>
            refine h.setLatch _ hev (hlive.latch.setStep hlatch) (fun u hu => ?_)
              (.inr ⟨hthis, ?_, ?_⟩)
            · exact hlive.users u (Latch.outside_of_setStep hlatch hu)
            · split
              · rfl
              · split <;> rfl
            · split
              · rename_i hnot
                exact .inl ⟨rfl, hnot⟩
              · rename_i hafter
                split
                · rename_i hnonwait
                  exact .inl ⟨rfl, hnonwait⟩
                · rename_i hnonwait
                  exact .inr ⟨rfl, not_not.mp hafter, by simpa using hnonwait⟩
    | deleting this =>
        have hthis : s.run.this? = some this := by rw [hrun]; rfl
        obtain ⟨-, ev, hev, hran, hstage⟩ := h.current this hthis
        rw [hrun] at hstage
        dsimp only
        rw [deref_of_some hev]
        refine h.remove .returned s.caller s.returned hev hran (.inr ⟨rfl, hthis⟩)
          (fun t b hb => ?_)
          (fun _ _ _ _ => rfl) (fun _ _ hb _ => hb) h.returned
        refine ⟨?_, rfl⟩
        rintro rfl
        obtain ⟨ev', hev', -, hwaits⟩ := h.callers t b hb
        rw [hev] at hev'
        cases hev'
        exact nomatch hwaits.symm.trans hstage
    | returned => trivial

omit [DecidableEq B] in
theorem waitStep (h : s.Inv owner) (t : T) :
    Ends (s.waitStep t) (Inv owner) SubmitHalt.Orderly := by
  unfold Submits.waitStep
  cases hcaller : s.caller t with
  | outside => trivial
  | dispatching event nonwait => trivial
  | waiting event =>
      obtain ⟨ev, hev, hthread, hwaits⟩ := h.callers t event (.inr hcaller)
      have hlive := h.live event ev hev
      dsimp only
      rw [deref_of_some hev, ok_bind, if_neg (by simp [hwaits])]
      split
      · rename_i hpassed
        have hafter := hlive.latch.left t (.inr hpassed)
        have hran := hlive.called (by rw [hafter]; decide)
        have hthis : s.run.this? ≠ some event := by
          intro hthis
          obtain ⟨-, ev', hev', -, hstage⟩ := h.current event hthis
          rw [hev] at hev'
          cases hev'
          exact hstage.not_left hthis hafter hwaits
        refine h.remove s.run (Function.update s.caller t .outside) (s.returned ++ [ev.call]) hev
          hran (.inl ⟨rfl, hthis⟩) (fun u b hb => ?_)
          (fun u b hba hb => ?_) (fun u b hb hba => ?_) (fun k hk => ?_)
        · have hut : u ≠ t := by
            rintro rfl
            rw [Function.update_self] at hb
            exact hb.elim nofun nofun
          rw [Function.update_of_ne hut] at hb
          refine ⟨?_, Function.update_of_ne hut ..⟩
          rintro rfl
          obtain ⟨ev', hev', hthread', -⟩ := h.callers u b hb
          rw [hev] at hev'
          cases hev'
          exact hut (hthread'.symm.trans hthread)
        · refine Function.update_of_ne ?_ ..
          rintro rfl
          rw [hcaller] at hb
          rcases hb with hb | hb
          · exact nomatch hb
          · cases hb
            exact hba rfl
        · obtain ⟨nonwait, hb⟩ := hb
          refine ⟨nonwait, (Function.update_of_ne ?_ ..).trans hb⟩
          rintro rfl
          exact nomatch hcaller.symm.trans hb
        · rcases List.mem_append.mp hk with hk | hk
          · exact h.returned k hk
          · rw [List.mem_singleton.mp hk]
            exact hran
      · cases hlatch : ev.latch.waitStep t with
        | none => trivial
        | some latch =>
            refine h.setLatch s.run hev (hlive.latch.waitStep hlatch) (fun u hu => ?_)
              (.inl ⟨rfl, Latch.setter_of_waitStep hlatch⟩)
            by_cases hut : u = t
            · rw [hut]
              exact hcaller
            · rw [Latch.waiter_of_waitStep hlatch hut] at hu
              exact hlive.users u hu

theorem step (h : s.Inv owner) (hroom : 0 < room) {op : Op T A B} (henabled : s.Enabled op) :
    Ends (s.step owner room op) (Inv owner) SubmitHalt.Orderly := by
  cases op with
  | submitTo t alwaysAsync event => exact h.submitTo hroom t alwaysAsync henabled
  | center act => exact h.centerStep hroom act
  | doRequest => exact h.doRequest
  | wait t => exact h.waitStep t

end Inv

theorem inv_of_reachable [DecidableEq T] [DecidableEq A] [DecidableEq B] (hroom : 0 < room)
    (h : (machine owner room).Reachable s) : s.Inv owner := by
  refine h.invariant (fun _ hstart => .start hstart owner) ?_
  intro before op after _ hinv henabled hrun
  exact (hinv.step hroom henabled).value hrun

/-- Every function is run at most once, and before its call returns if that is to wait; until then
its event is in the queue, or on its way there. -/
structure Submitted (s : Submits T A B) : Prop where
  once : s.ran.Nodup
  returned : ∀ k ∈ s.returned, k ∈ s.ran
  kept : ∀ k < s.calls, k ∉ s.ran → ∃ a ev, s.event a = some ev ∧ ev.call = k ∧
    (.inl a ∈ s.center.curProcess ++ s.center.externalEvents ∨
      ∃ t, (s.center.dispatch t).entering = some (.inl a))

theorem mem_events (h : a ∈ s.queue) :
    Sum.inl a ∈ s.center.curProcess ++ s.center.externalEvents := by
  obtain ⟨e, he, ha⟩ := List.mem_filterMap.mp h
  cases e with
  | inr b => exact nomatch ha
  | inl a' =>
      cases ha
      rcases List.mem_append.mp he with he | he
      · refine List.mem_append_left _ ?_
        split at he
        · exact he
        · exact List.mem_of_mem_tail he
      · exact List.mem_append_right _ he

theorem entering_of_submitting {d : Dispatch (A ⊕ B)} (h : d.submitting = some a) :
    d.entering = some (.inl a) := by
  obtain ⟨e, he, ha⟩ := Option.bind_eq_some_iff.mp h
  cases e with
  | inl a' =>
      cases ha
      exact he
  | inr b => exact nomatch ha

theorem Inv.submitted (h : s.Inv owner) : s.Submitted := by
  refine ⟨h.once, h.returned, fun k hk hran => ?_⟩
  obtain ⟨a, ev, hev, rfl⟩ := h.kept k hk hran
  have hlive := h.live a ev hev
  have hbefore : ev.latch.setter = .before := by
    by_contra hset
    exact hran (hlive.called hset)
  refine ⟨a, ev, hev, rfl, ?_⟩
  rcases hlive.place with ⟨t, ht⟩ | hmem | hthis | ⟨hafter, -⟩
  · exact .inr ⟨t, entering_of_submitting ht⟩
  · exact .inl (mem_events hmem)
  · obtain ⟨-, ev', hev', hmem, -⟩ := h.current a hthis
    rw [hev] at hev'
    cases hev'
    exact absurd hmem hran
  · exact nomatch hbefore.symm.trans hafter

/-- A thread submits a function, comes to sleep, and returns after the owner has run it. -/
theorem exists_submitted : ∃ s s' : Submits Bool Unit Empty,
    (machine false 1).Reachable s ∧ s.caller true = .waiting () ∧
      (∃ ev, s.event () = some ev ∧ ev.latch.waiter true = .asleep) ∧
    (machine false 1).Reachable s' ∧ s'.ran = [0] ∧ s'.returned = [0] := by
  have hstart : (machine false 1).Reachable (⟨⟨none, 0, [], 0, 1, [], .outside, fun _ => .outside,
      [], [], []⟩, fun _ => none, fun _ => .outside, .outside, 0, [], []⟩ :
        Submits Bool Unit Empty) :=
    .start ⟨⟨rfl, rfl, rfl, rfl, rfl, fun _ => rfl, rfl, rfl, rfl⟩, fun _ => rfl, fun _ => rfl,
      rfl, rfl, rfl, rfl⟩
  have hsubmitted := hstart.next (.submitTo true false ()) rfl rfl
  have hlocked := hsubmitted.next (.center (.thread true true)) trivial rfl
  have hpushed := hlocked.next (.center (.thread true true)) trivial rfl
  have hcounted := hpushed.next (.center (.thread true true)) trivial rfl
  have hunlocked := hcounted.next (.center (.thread true true)) trivial rfl
  have hqueued := hunlocked.next (.center (.thread true true)) trivial rfl
  have hlocking := hqueued.next (.wait true) trivial rfl
  have htesting := hlocking.next (.wait true) trivial rfl
  have hasleep := htesting.next (.wait true) trivial rfl
  have hentered := hasleep.next (.center (.processEvents 0 false)) trivial rfl
  have hfired := hentered.next (.center (.eventWait 0 [])) nofun rfl
  have htimed := hfired.next (.center (.owner 0)) trivial rfl
  have hchecked := htimed.next (.center (.owner 0)) trivial rfl
  have hfound := hchecked.next (.center (.owner 0)) trivial rfl
  have hheld := hfound.next (.center (.owner 0)) trivial rfl
  have hswapped := hheld.next (.center (.owner 0)) trivial rfl
  have hstored := hswapped.next (.center (.owner 0)) trivial rfl
  have hbatch := hstored.next (.center (.owner 0)) trivial rfl
  have hrunning := hbatch.next (.center (.owner 0)) trivial rfl
  have hbody := hrunning.next .doRequest trivial rfl
  have hran := hbody.next .doRequest trivial rfl
  have hcalled := hran.next .doRequest trivial rfl
  have hinside := hcalled.next .doRequest trivial rfl
  have hnotified := hinside.next .doRequest trivial rfl
  have hdone := hnotified.next .doRequest trivial rfl
  have hleft := hdone.next .doRequest trivial rfl
  have hretested := hleft.next (.wait true) trivial rfl
  have hleaving := hretested.next (.wait true) trivial rfl
  have hpassed := hleaving.next (.wait true) trivial rfl
  have hreturned := hpassed.next (.wait true) trivial rfl
  exact ⟨_, _, hasleep, rfl, ⟨_, rfl, rfl⟩, hreturned, rfl, rfl⟩

/-- In every interleaving of the callers, the owner and other users of the center, each submitted
function is run once, a waiting call returns after that, and no thread uses an event that the
other has destroyed. -/
theorem submitted_functions_run_once [DecidableEq T] [DecidableEq A] [DecidableEq B] (owner : T)
    (room : Nat) (hroom : 0 < room) (s : Submits T A B) (h : (machine owner room).Reachable s) :
    s.Submitted ∧
    ∀ op halt, s.Enabled op → s.step owner room op = .error halt → halt.Orderly := by
  have hinv := inv_of_reachable hroom h
  exact ⟨hinv.submitted, fun op halt henabled hrun => (hinv.step hroom henabled).fault hrun⟩

theorem submitted_functions_run_once_after_one : ∃ s : Submits Bool Unit Empty,
    s.returned = [0] ∧ s.Submitted := by
  obtain ⟨-, s, -, -, -, hreach, -, hreturned⟩ := exists_submitted
  exact ⟨s, hreturned, (submitted_functions_run_once false 1 (by decide) s hreach).1⟩

/-- A thread that sleeps until its function was run is notified later: its event is still with the
owner, and should the owner sleep as well, something is there to wake it or comes from another
thread. -/
theorem sleeping_caller_notified_later [DecidableEq T] [DecidableEq A] [DecidableEq B] (owner : T)
    (room : Nat) (hroom : 0 < room) (s : Submits T A B) (h : (machine owner room).Reachable s)
    (t : T) (a : A) (ev : SubmitEvent T) (hcaller : s.caller t = .waiting a)
    (hev : s.event a = some ev) (hasleep : ev.latch.waiter t = .asleep) :
    ev.latch.setter.notified = false ∧
    .inl a ∈ s.center.curProcess ++ s.center.externalEvents ∧
    ∀ timeout pass, s.center.loop = .waiting timeout pass → timeout ≠ 0 →
      0 < s.center.pipe ∨
        ∃ u, u ≠ owner ∧ (s.center.dispatch u).WillWake s.center.externalNumEvents := by
  have hinv := inv_of_reachable hroom h
  have hlive := hinv.live a ev hev
  have hnotified := hlive.latch.asleep t hasleep
  have hevents : .inl a ∈ s.center.curProcess ++ s.center.externalEvents := by
    rcases hlive.place with ⟨u, hu⟩ | hmem | hthis | ⟨hafter, -⟩
    · -- the thread would still be in the call that queues it
      obtain ⟨-, ⟨nonwait, hcaller'⟩, ev', ⟨hev', -⟩, hthread'⟩ := hinv.entering u a hu
      obtain ⟨ev'', hev'', hthread, -⟩ := hinv.callers t a (.inr hcaller)
      rw [hev'] at hev''
      cases hev''
      rw [← hthread', hthread, hcaller] at hcaller'
      exact nomatch hcaller'
    · exact mem_events hmem
    · obtain ⟨⟨rest, hrest⟩, -⟩ := hinv.current a hthis
      rw [hrest]
      exact List.mem_append_left _ List.mem_cons_self
    · rw [hafter] at hnotified
      exact nomatch hnotified
  refine ⟨hnotified, hevents, fun timeout pass hloop htimeout => ?_⟩
  have hcur : s.center.curProcess = [] := hinv.sound.ordered.batch (by rw [hloop]; rfl)
  rw [hcur] at hevents
  exact (hinv.sound.woken timeout pass hloop htimeout).2 (List.ne_nil_of_mem hevents)

theorem sleeping_caller_notified_later_of_one : ∃ s : Submits Bool Unit Empty,
    s.caller true = .waiting () ∧
    .inl () ∈ s.center.curProcess ++ s.center.externalEvents := by
  obtain ⟨s, -, hreach, hcaller, ⟨ev, hev, hasleep⟩, -⟩ := exists_submitted
  exact ⟨s, hcaller, (sleeping_caller_notified_later false 1 (by decide) s hreach true () ev hcaller
    hev hasleep).2.1⟩

end Submits

end RdmaCapsule.Network
