import Mathlib
import RdmaCapsule.Foundation.Machine
import RdmaCapsule.Foundation.Multimap
import RdmaCapsule.Foundation.Outcome
import RdmaCapsule.Network.FileEvents

/-! The time events of an `EventCenter`: `time_events` orders them by expiry, and `event_map`
finds them by id. A callback that `process_time_events` runs may create and delete others.
Times are in nanoseconds. -/
namespace RdmaCapsule.Network

open RdmaCapsule.Foundation

structure TimeEvent where
  id : Nat
  timeCb : EventCallbackRef

/-- A call of a callback of a time event. -/
structure Firing where
  id : Nat
  expire : Nat
  /-- What the clock showed. -/
  clock : Nat
  /-- The call of `process_time_events` that made it. -/
  pass : Nat

inductive TimeRecord where
  | created (id expire : Nat)
  | deleted (id : Nat)
  | fired (firing : Firing)

inductive TimePlace where
  | outside
  /-- At the head of the loop of `process_time_events`. -/
  | head (now : Nat)
  | inCallback (now : Nat)

inductive TimeStop where
  /-- The node of the iterator is gone. -/
  | iterator
  deriving DecidableEq

structure TimeEvents where
  timeEvents : Multimap Nat TimeEvent
  eventMap : Nat → Option Nat
  nextId : Nat
  clock : Nat
  place : TimePlace
  /-- What the current or the last call of `process_time_events` returns. -/
  processed : Nat
  passes : Nat
  /-- Creations, deletions of what has been created, and calls of callbacks, oldest first. -/
  log : List TimeRecord

inductive TimeOp where
  | tick (clock : Nat)
  | create (microseconds : Nat) (ctxt : EventCallbackRef)
  | delete (id : Nat)
  /-- `process_time_events` is called. -/
  | enter
  /-- Its loop goes on; the callback that it is in returns. -/
  | proceed

namespace TimeEvents

def expiry (clock microseconds : Nat) : Nat := (clock + microseconds * 1000) % 2 ^ 64

/-- `create_time_event`, which returns the id. -/
def createTimeEvent (t : TimeEvents) (microseconds : Nat) (ctxt : EventCallbackRef) :
    Nat × TimeEvents :=
  let id := t.nextId
  let expire := expiry t.clock microseconds
  (id, { t with
    nextId := t.nextId + 1
    timeEvents := t.timeEvents.insert expire ⟨id, ctxt⟩
    eventMap := Function.update t.eventMap id (some t.timeEvents.next)
    log := t.log ++ [.created id expire] })

/-- `time_events.erase(it)`. -/
def erase (t : TimeEvents) (it : Nat) : Except TimeStop TimeEvents :=
  match t.timeEvents.erase it with
  | some timeEvents => .ok { t with timeEvents }
  | none => .error .iterator

def deleteTimeEvent (t : TimeEvents) (id : Nat) : Except TimeStop TimeEvents :=
  if t.nextId ≤ id ∨ id = 0 then pure t
  else
    let t := { t with log := t.log ++ [.deleted id] }
    match t.eventMap id with
    | none => pure t
    | some it => do
        let t ← t.erase it
        pure { t with eventMap := Function.update t.eventMap id none }

/-- One round of the loop of `process_time_events`, as far as the call of the callback. -/
def fire (t : TimeEvents) (now : Nat) : Except TimeStop TimeEvents :=
  match t.timeEvents.nodes with
  | [] => pure { t with place := .outside }
  | it :: _ =>
      if it.key ≤ now then do
        let id := it.value.id
        let t ← t.erase it.it
        pure { t with
          eventMap := Function.update t.eventMap id none
          processed := t.processed + 1
          place := .inCallback now
          log := t.log ++ [.fired ⟨id, it.key, t.clock, t.passes⟩] }
      else pure { t with place := .outside }

def step (t : TimeEvents) : TimeOp → Except TimeStop TimeEvents
  | .tick clock => pure { t with clock }
  | .create microseconds ctxt => pure (t.createTimeEvent microseconds ctxt).2
  | .delete id => t.deleteTimeEvent id
  | .enter => pure { t with place := .head t.clock, processed := 0, passes := t.passes + 1 }
  | .proceed =>
      match t.place with
      | .outside => pure t
      | .head now => t.fire now
      | .inCallback now => pure { t with place := .head now }

/-- The owner thread runs code of its own, or a callback. -/
def Calls (t : TimeEvents) : Prop := ∀ now, t.place ≠ .head now

/-- The clock does not go back, and shows 64 bits also when a timer expires. -/
def Enabled (t : TimeEvents) : TimeOp → Prop
  | .tick clock => t.clock ≤ clock
  | .create microseconds _ => t.Calls ∧ t.clock + microseconds * 1000 < 2 ^ 64
  | .delete _ => t.Calls
  | .enter => t.place = .outside
  | .proceed => True

structure Start (t : TimeEvents) : Prop where
  timeEvents : t.timeEvents = .empty
  eventMap : ∀ id, t.eventMap id = none
  nextId : t.nextId = 1
  place : t.place = .outside
  log : t.log = []

def machine : Machine TimeEvents TimeOp TimeStop where
  start := Start
  enabled := Enabled
  step := step

/-- `event_map` and `time_events` have the same timers, one entry for each. -/
structure Corresponds (timeEvents : Multimap Nat TimeEvent) (eventMap : Nat → Option Nat) :
    Prop where
  found : ∀ id it, eventMap id = some it ↔
    ∃ node ∈ timeEvents.nodes, node.it = it ∧ node.value.id = id
  one : ∀ node ∈ timeEvents.nodes, ∀ node' ∈ timeEvents.nodes,
    node.value.id = node'.value.id → node = node'

end TimeEvents

/-- The id of a record of a creation, and that of a call. -/
def TimeRecord.createdId : TimeRecord → Option Nat
  | .created id _ => some id
  | _ => none

def TimeRecord.firedId : TimeRecord → Option Nat
  | .fired firing => some firing.id
  | _ => none

namespace TimeEvents

structure Timely (t : TimeEvents) : Prop where
  corresponds : Corresponds t.timeEvents t.eventMap
  distinct : (t.log.filterMap TimeRecord.createdId).Nodup
  once : (t.log.filterMap TimeRecord.firedId).Nodup
  due : ∀ firing, .fired firing ∈ t.log →
    .created firing.id firing.expire ∈ t.log ∧ firing.expire ≤ firing.clock
  deleted : t.log.Pairwise fun record record' =>
    ∀ id firing, record = .deleted id → record' = .fired firing → firing.id ≠ id
  ordered : t.log.Pairwise fun record record' =>
    ∀ firing firing', record = .fired firing → record' = .fired firing' →
      firing.pass = firing'.pass → firing.expire ≤ firing'.expire

section Correspondence

variable {timeEvents timeEvents' : Multimap Nat TimeEvent} {eventMap : Nat → Option Nat}
  {node : Node Nat TimeEvent} {id expire : Nat} {ctxt : EventCallbackRef}

/-- The second half follows: an id that two nodes had would have two iterators. -/
theorem Corresponds.of_found (h : ∀ id it, eventMap id = some it ↔
    ∃ node ∈ timeEvents.nodes, node.it = it ∧ node.value.id = id) :
    Corresponds timeEvents eventMap where
  found := h
  one node hmem node' hmem' hid := by
    have hit := (h _ _).mpr ⟨node, hmem, rfl, hid⟩
    have hit' := (h _ _).mpr ⟨node', hmem', rfl, rfl⟩
    exact Multimap.eq_of_it hmem hmem' (Option.some.inj (hit.symm.trans hit'))

theorem Corresponds.insert (h : Corresponds timeEvents eventMap)
    (hnew : ∀ node ∈ timeEvents.nodes, node.value.id ≠ id) :
    Corresponds (timeEvents.insert expire ⟨id, ctxt⟩)
      (Function.update eventMap id (some timeEvents.next)) := by
  refine .of_found fun id' it => ?_
  by_cases hid : id' = id
  · subst hid
    rw [Function.update_self]
    constructor
    · intro hit
      exact ⟨_, Multimap.mem_insert.mpr (.inl rfl), Option.some.inj hit, rfl⟩
    · rintro ⟨node, hmem, rfl, hsame⟩
      rcases Multimap.mem_insert.mp hmem with rfl | hold
      · rfl
      · exact absurd hsame (hnew node hold)
  · rw [Function.update_of_ne hid, h.found]
    constructor
    · rintro ⟨node, hmem, hit, hsame⟩
      exact ⟨node, Multimap.mem_insert.mpr (.inr hmem), hit, hsame⟩
    · rintro ⟨node, hmem, hit, hsame⟩
      rcases Multimap.mem_insert.mp hmem with rfl | hold
      · exact absurd hsame.symm hid
      · exact ⟨node, hold, hit, hsame⟩

theorem Corresponds.erase (h : Corresponds timeEvents eventMap) (hmem : node ∈ timeEvents.nodes)
    (herase : timeEvents.erase node.it = some timeEvents') :
    Corresponds timeEvents' (Function.update eventMap node.value.id none) := by
  refine .of_found fun id it => ?_
  by_cases hid : id = node.value.id
  · subst hid
    rw [Function.update_self]
    refine iff_of_false nofun ?_
    rintro ⟨other, hother, -, hsame⟩
    obtain ⟨hold, hit⟩ := (Multimap.mem_erase herase).mp hother
    exact hit (congrArg Node.it (h.one other hold node hmem hsame))
  · rw [Function.update_of_ne hid, h.found]
    refine exists_congr fun other => ?_
    rw [Multimap.mem_erase herase]
    constructor
    · rintro ⟨hold, hit, hsame⟩
      refine ⟨⟨hold, fun hboth => hid ?_⟩, hit, hsame⟩
      rw [← hsame, Multimap.eq_of_it hold hmem hboth]
    · rintro ⟨⟨hold, -⟩, hit, hsame⟩
      exact ⟨hold, hit, hsame⟩

end Correspondence

variable {t t' : TimeEvents} {op : TimeOp}

/-- A timer that is still to fire has a creation in the log, and nothing else; the expiries of
the calls of the current pass are not above those of the timers. -/
structure Inv (t : TimeEvents) : Prop extends Timely t where
  pending : ∀ node ∈ t.timeEvents.nodes, .created node.value.id node.key ∈ t.log ∧
    .deleted node.value.id ∉ t.log ∧ ∀ firing, .fired firing ∈ t.log → firing.id ≠ node.value.id
  createdBelow : ∀ id expire, .created id expire ∈ t.log → id < t.nextId
  deletedBelow : ∀ id, .deleted id ∈ t.log → id < t.nextId
  now : ∀ now, t.place = .head now ∨ t.place = .inCallback now → now ≤ t.clock
  past : ∀ firing, .fired firing ∈ t.log → firing.clock ≤ t.clock ∧ firing.pass ≤ t.passes
  ahead : ∀ firing, .fired firing ∈ t.log → firing.pass = t.passes →
    ∀ node ∈ t.timeEvents.nodes, firing.expire ≤ node.key

theorem Inv.start (h : t.Start) : t.Inv where
  corresponds := .of_found fun id it => by simp [h.timeEvents, h.eventMap]
  distinct := by simp [h.log]
  once := by simp [h.log]
  due := by simp [h.log]
  deleted := by simp [h.log]
  ordered := by simp [h.log]
  pending := by simp [h.timeEvents]
  createdBelow := by simp [h.log]
  deletedBelow := by simp [h.log]
  now := by simp [h.place]
  past := by simp [h.log]
  ahead := by simp [h.log]

theorem pairwise_concat {log : List TimeRecord} {record : TimeRecord}
    {rel : TimeRecord → TimeRecord → Prop} (h : log.Pairwise rel)
    (hlast : ∀ old ∈ log, rel old record) : (log ++ [record]).Pairwise rel := by
  refine List.pairwise_append.mpr ⟨h, List.pairwise_singleton _ _, fun old hold last hmem => ?_⟩
  rw [List.mem_singleton.mp hmem]
  exact hlast old hold

theorem Inv.tick (h : t.Inv) {clock : Nat} (hclock : t.clock ≤ clock) :
    { t with clock }.Inv where
  toTimely := ⟨h.corresponds, h.distinct, h.once, h.due, h.deleted, h.ordered⟩
  pending := h.pending
  createdBelow := h.createdBelow
  deletedBelow := h.deletedBelow
  now now hplace := (h.now now hplace).trans hclock
  past firing hmem := ⟨(h.past firing hmem).1.trans hclock, (h.past firing hmem).2⟩
  ahead := h.ahead

theorem Inv.at_place (h : t.Inv) (place : TimePlace)
    (hnow : ∀ now, place = .head now ∨ place = .inCallback now → now ≤ t.clock) :
    { t with place }.Inv where
  toTimely := ⟨h.corresponds, h.distinct, h.once, h.due, h.deleted, h.ordered⟩
  pending := h.pending
  createdBelow := h.createdBelow
  deletedBelow := h.deletedBelow
  now := hnow
  past := h.past
  ahead := h.ahead

theorem Inv.processed (h : t.Inv) (processed : Nat) : { t with processed }.Inv :=
  ⟨⟨h.corresponds, h.distinct, h.once, h.due, h.deleted, h.ordered⟩, h.pending, h.createdBelow,
    h.deletedBelow, h.now, h.past, h.ahead⟩

theorem Inv.enter (h : t.Inv) :
    { t with place := .head t.clock, processed := 0, passes := t.passes + 1 }.Inv where
  toTimely := ⟨h.corresponds, h.distinct, h.once, h.due, h.deleted, h.ordered⟩
  pending := h.pending
  createdBelow := h.createdBelow
  deletedBelow := h.deletedBelow
  now now hplace := by
    rcases hplace with hplace | hplace
    · cases hplace
      exact Nat.le_refl _
    · cases hplace
  past firing hmem := ⟨(h.past firing hmem).1, Nat.le_succ_of_le (h.past firing hmem).2⟩
  ahead firing hmem hpass := by
    have hle := (h.past firing hmem).2
    dsimp only at hpass
    omega

theorem Inv.firedBelow (h : t.Inv) {firing : Firing} (hmem : .fired firing ∈ t.log) :
    firing.id < t.nextId :=
  h.createdBelow _ _ (h.due firing hmem).1

theorem Inv.idBelow (h : t.Inv) {node : Node Nat TimeEvent} (hmem : node ∈ t.timeEvents.nodes) :
    node.value.id < t.nextId :=
  h.createdBelow _ _ (h.pending node hmem).1

/-- When a record may be added to the log. -/
def Allows (t : TimeEvents) : TimeRecord → Prop
  | .created id _ => t.nextId ≤ id
  | .deleted id => id < t.nextId ∧ ∀ node ∈ t.timeEvents.nodes, node.value.id ≠ id
  | .fired firing =>
      .created firing.id firing.expire ∈ t.log ∧ .deleted firing.id ∉ t.log ∧
        (∀ other, .fired other ∈ t.log → other.id ≠ firing.id) ∧
        (∀ other, .fired other ∈ t.log → other.pass = firing.pass → other.expire ≤ firing.expire) ∧
        (∀ node ∈ t.timeEvents.nodes, node.value.id ≠ firing.id ∧ firing.expire ≤ node.key) ∧
        firing.expire ≤ firing.clock ∧ firing.clock ≤ t.clock ∧ firing.pass ≤ t.passes

theorem nodup_concat {log : List TimeRecord} {record : TimeRecord}
    {ident : TimeRecord → Option Nat} (h : (log.filterMap ident).Nodup)
    (hnew : ∀ old ∈ log, ∀ id, ident old = some id → ident record ≠ some id) :
    ((log ++ [record]).filterMap ident).Nodup := by
  cases hident : ident record with
  | none => simpa [List.filterMap_append, hident] using h
  | some id =>
      rw [List.filterMap_append, List.filterMap_cons_some hident, List.filterMap_nil]
      refine List.nodup_append.mpr ⟨h, List.nodup_singleton id, fun id' hmem last hlast => ?_⟩
      obtain ⟨old, hold, hid⟩ := List.mem_filterMap.mp hmem
      rw [List.mem_singleton.mp hlast]
      rintro rfl
      exact hnew old hold _ hid hident

theorem Inv.timely_record (h : t.Inv) {record : TimeRecord} (hrecord : t.Allows record) :
    { t with log := t.log ++ [record] }.Timely := by
  refine ⟨h.corresponds, ?_, ?_, ?_, ?_, ?_⟩
  · refine nodup_concat h.distinct fun old hold id hid hid' => ?_
    cases record with
    | created id' expire' =>
        cases old with
        | created id'' expire =>
            have hless := h.createdBelow _ _ hold
            obtain rfl := Option.some.inj hid
            obtain rfl := Option.some.inj hid'
            exact Nat.lt_irrefl _ (Nat.lt_of_lt_of_le hless hrecord)
        | deleted | fired => cases hid
    | deleted | fired => cases hid'
  · refine nodup_concat h.once fun old hold id hid hid' => ?_
    cases record with
    | fired firing =>
        cases old with
        | fired other =>
            have hother := hrecord.2.2.1 other hold
            exact hother (Option.some.inj (hid.trans hid'.symm))
        | created | deleted => cases hid
    | created | deleted => cases hid'
  · intro firing hmem
    rcases List.mem_append.mp hmem with hold | hnew
    · obtain ⟨hcreated, hdue⟩ := h.due firing hold
      exact ⟨List.mem_append_left _ hcreated, hdue⟩
    · obtain rfl := List.mem_singleton.mp hnew
      exact ⟨List.mem_append_left _ hrecord.1, hrecord.2.2.2.2.2.1⟩
  · refine pairwise_concat h.deleted fun old hold id firing hdeleted hfired => ?_
    subst hfired hdeleted
    rintro rfl
    exact hrecord.2.1 hold
  · refine pairwise_concat h.ordered fun old hold firing firing' hfired hfired' hpass => ?_
    subst hfired hfired'
    exact hrecord.2.2.2.1 firing hold hpass

theorem Inv.record (h : t.Inv) {record : TimeRecord} (hrecord : t.Allows record) {nextId : Nat}
    (hnext : t.nextId ≤ nextId) (hcreated : ∀ id expire, record = .created id expire → id < nextId) :
    { t with log := t.log ++ [record], nextId }.Inv := by
  have htimely := h.timely_record hrecord
  refine ⟨⟨htimely.corresponds, htimely.distinct, htimely.once, htimely.due, htimely.deleted,
    htimely.ordered⟩, ?_, ?_, ?_, h.now, ?_, ?_⟩
  · intro node hmem
    obtain ⟨hcreated', hdeleted, hunfired⟩ := h.pending node hmem
    refine ⟨List.mem_append_left _ hcreated', fun hdeleted' => ?_, fun firing hfired => ?_⟩
    · rcases List.mem_append.mp hdeleted' with hold | hnew
      · exact hdeleted hold
      · obtain rfl := List.mem_singleton.mp hnew
        exact hrecord.2 node hmem rfl
    · rcases List.mem_append.mp hfired with hold | hnew
      · exact hunfired firing hold
      · obtain rfl := List.mem_singleton.mp hnew
        exact (hrecord.2.2.2.2.1 node hmem).1.symm
  · intro id expire hmem
    rcases List.mem_append.mp hmem with hold | hnew
    · exact Nat.lt_of_lt_of_le (h.createdBelow id expire hold) hnext
    · exact hcreated id expire (List.mem_singleton.mp hnew).symm
  · intro id hmem
    rcases List.mem_append.mp hmem with hold | hnew
    · exact Nat.lt_of_lt_of_le (h.deletedBelow id hold) hnext
    · obtain rfl := List.mem_singleton.mp hnew
      exact Nat.lt_of_lt_of_le hrecord.1 hnext
  · intro firing hmem
    rcases List.mem_append.mp hmem with hold | hnew
    · exact h.past firing hold
    · obtain rfl := List.mem_singleton.mp hnew
      exact hrecord.2.2.2.2.2.2
  · intro firing hmem hpass node hnode
    rcases List.mem_append.mp hmem with hold | hnew
    · exact h.ahead firing hold hpass node hnode
    · obtain rfl := List.mem_singleton.mp hnew
      exact (hrecord.2.2.2.2.1 node hnode).2

/-- A timer is put into both containers. -/
theorem Inv.insert (h : t.Inv) {id expire : Nat} {ctxt : EventCallbackRef}
    (hcreated : .created id expire ∈ t.log) (hdeleted : .deleted id ∉ t.log)
    (hunfired : ∀ firing, .fired firing ∈ t.log → firing.id ≠ id)
    (hnew : ∀ node ∈ t.timeEvents.nodes, node.value.id ≠ id) (hexpire : t.clock ≤ expire) :
    { t with
      timeEvents := t.timeEvents.insert expire ⟨id, ctxt⟩
      eventMap := Function.update t.eventMap id (some t.timeEvents.next) }.Inv := by
  refine ⟨⟨h.corresponds.insert hnew, h.distinct, h.once, h.due, h.deleted, h.ordered⟩, ?_,
    h.createdBelow, h.deletedBelow, h.now, h.past, ?_⟩
  · intro node hmem
    rcases Multimap.mem_insert.mp hmem with rfl | hold
    · exact ⟨hcreated, hdeleted, hunfired⟩
    · exact h.pending node hold
  · intro firing hfired hpass node hmem
    rcases Multimap.mem_insert.mp hmem with rfl | hold
    · exact (h.due firing hfired).2.trans ((h.past firing hfired).1.trans hexpire)
    · exact h.ahead firing hfired hpass node hold

/-- A new timer expires no earlier than the clock shows. -/
theorem Inv.create (h : t.Inv) {microseconds : Nat} {ctxt : EventCallbackRef}
    (hfits : t.clock + microseconds * 1000 < 2 ^ 64) :
    (t.createTimeEvent microseconds ctxt).2.Inv := by
  have hexpire : t.clock ≤ expiry t.clock microseconds := by
    rw [expiry, Nat.mod_eq_of_lt hfits]
    exact Nat.le_add_right _ _
  have hrecorded := h.record (show t.Allows (.created t.nextId (expiry t.clock microseconds)) from
    Nat.le_refl t.nextId) (Nat.le_succ t.nextId) fun id expire hcreated => by
      cases hcreated
      exact Nat.lt_succ_self _
  refine hrecorded.insert (List.mem_append_right _ List.mem_cons_self) ?_ ?_ ?_ hexpire
  · intro hdeleted
    rcases List.mem_append.mp hdeleted with hold | hnew
    · exact Nat.lt_irrefl _ (h.deletedBelow _ hold)
    · cases List.mem_singleton.mp hnew
  · intro firing hfired
    rcases List.mem_append.mp hfired with hold | hnew
    · exact Nat.ne_of_lt (h.firedBelow hold)
    · cases List.mem_singleton.mp hnew
  · exact fun node hmem => Nat.ne_of_lt (h.idBelow hmem)

/-- A timer is taken out of both containers. -/
theorem Inv.remove (h : t.Inv) {node : Node Nat TimeEvent} {timeEvents : Multimap Nat TimeEvent}
    (hmem : node ∈ t.timeEvents.nodes) (herase : t.timeEvents.erase node.it = some timeEvents) :
    { t with timeEvents, eventMap := Function.update t.eventMap node.value.id none }.Inv ∧
      ∀ other ∈ timeEvents.nodes, other ∈ t.timeEvents.nodes ∧ other.value.id ≠ node.value.id := by
  have hrest : ∀ other ∈ timeEvents.nodes, other ∈ t.timeEvents.nodes ∧
      other.value.id ≠ node.value.id := by
    intro other hother
    obtain ⟨hold, hit⟩ := (Multimap.mem_erase herase).mp hother
    exact ⟨hold, fun hid => hit (congrArg Node.it (h.corresponds.one other hold node hmem hid))⟩
  refine ⟨⟨⟨h.corresponds.erase hmem herase, h.distinct, h.once, h.due, h.deleted, h.ordered⟩,
    fun other hother => h.pending other (hrest other hother).1, h.createdBelow, h.deletedBelow,
    h.now, h.past, fun firing hfired hpass other hother =>
      h.ahead firing hfired hpass other (hrest other hother).1⟩, hrest⟩

theorem Inv.deleteTimeEvent (h : t.Inv) (id : Nat) :
    Ends (t.deleteTimeEvent id) Inv fun _ => False := by
  unfold TimeEvents.deleteTimeEvent
  split
  · exact h
  · rename_i hid
    have hless : id < t.nextId := by omega
    dsimp only
    split
    · rename_i hnone
      have hallows : t.Allows (.deleted id) := by
        refine ⟨hless, fun node hmem hsame => ?_⟩
        have hfound := (h.corresponds.found id node.it).mpr ⟨node, hmem, rfl, hsame⟩
        cases hnone.symm.trans hfound
      exact h.record hallows (Nat.le_refl _) nofun
    · rename_i it hsome
      obtain ⟨node, hmem, rfl, rfl⟩ := (h.corresponds.found id it).mp hsome
      obtain ⟨timeEvents, herase⟩ := Multimap.erase_some hmem
      obtain ⟨hinv, hrest⟩ := h.remove hmem herase
      simp only [TimeEvents.erase, herase, ok_bind]
      have hallows : Allows
          { t with timeEvents, eventMap := Function.update t.eventMap node.value.id none }
          (.deleted node.value.id) :=
        ⟨hless, fun other hother => (hrest other hother).2⟩
      exact hinv.record hallows (Nat.le_refl _) nofun

theorem Inv.fire (h : t.Inv) {now : Nat} (hplace : t.place = .head now) :
    Ends (t.fire now) Inv fun _ => False := by
  unfold TimeEvents.fire
  split
  · exact h.at_place .outside (by simp)
  · rename_i node rest hnodes
    split
    · rename_i hdue
      have hmem : node ∈ t.timeEvents.nodes := by
        rw [hnodes]
        exact List.mem_cons_self
      have hnow := h.now now (.inl hplace)
      obtain ⟨hcreated, hdeleted, hunfired⟩ := h.pending node hmem
      obtain ⟨timeEvents, herase⟩ := Multimap.erase_some hmem
      obtain ⟨hinv, hrest⟩ := h.remove hmem herase
      simp only [TimeEvents.erase, herase, ok_bind]
      have hallows : Allows
          { t with timeEvents, eventMap := Function.update t.eventMap node.value.id none }
          (.fired ⟨node.value.id, node.key, t.clock, t.passes⟩) :=
        ⟨hcreated, hdeleted, hunfired,
          fun firing hfiring hpass => h.ahead firing hfiring hpass node hmem,
          fun other hother => ⟨(hrest other hother).2,
            Multimap.head_le hnodes (hrest other hother).1⟩,
          hdue.trans hnow, Nat.le_refl _, Nat.le_refl _⟩
      have hfired := hinv.record hallows (Nat.le_refl _) nofun
      exact (hfired.at_place (.inCallback now) (by
        intro now' hplace'
        simp only [reduceCtorEq, false_or] at hplace'
        cases hplace'
        exact hnow)).processed (t.processed + 1)
    · exact h.at_place .outside (by simp)

theorem Inv.step (h : t.Inv) (henabled : t.Enabled op) :
    Ends (t.step op) Inv fun _ => False := by
  cases op with
  | tick clock => exact h.tick henabled
  | create microseconds ctxt => exact h.create henabled.2
  | delete id => exact h.deleteTimeEvent id
  | enter => exact h.enter
  | proceed =>
      unfold TimeEvents.step
      dsimp only
      split
      · exact h
      · rename_i now hplace
        exact h.fire hplace
      · rename_i now hplace
        refine h.at_place (.head now) fun now' hplace' => ?_
        simp only [reduceCtorEq, or_false] at hplace'
        cases hplace'
        exact h.now now (.inr hplace)

/-- No timers, with the clock at 0. -/
def idle : TimeEvents where
  timeEvents := .empty
  eventMap _ := none
  nextId := 1
  clock := 0
  place := .outside
  processed := 0
  passes := 0
  log := []

end TimeEvents

end RdmaCapsule.Network
