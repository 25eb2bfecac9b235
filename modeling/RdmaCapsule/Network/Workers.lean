import RdmaCapsule.Foundation.Machine
import RdmaCapsule.Foundation.Outcome
import RdmaCapsule.Foundation.Tally

/-! How connections are spread over the workers. `NetworkStack::get_worker` looks for the
worker with the fewest references under a lock, and counts its own reference after it has
let go of the lock; `Processor::accept` takes a reference for each attempt and gives it back
when the attempt fails. Any number of threads do this at the same time. -/
namespace RdmaCapsule.Network

open RdmaCapsule.Foundation

/-- Who calls `get_worker`: `create_connect` and the like, or `Processor::accept` in its loop,
with its `accept_error_num`. -/
inductive WorkerUse where
  | connect
  | accept (acceptErrorNum : UInt32)

/-- What `listen_socket.accept` returns. -/
inductive AcceptResult where
  | accepted
  | eintr
  | eagain
  /-- `EMFILE` or `ENFILE`. -/
  | fileLimit
  | connaborted
  | other

/-- Where a thread is. A scan knows the workers that the other threads had when it began. -/
inductive WorkerPlace (T : Type u) (n : Nat) where
  | outside
  | locking (use : WorkerUse)
  | scanning (use : WorkerUse) (index : Nat) (minLoad : UInt32) (currentBest : Option (Fin n))
      (assigned : T → Option (Fin n))
  | unlocked (use : WorkerUse) (currentBest : Option (Fin n))
  | holding (use : WorkerUse) (w : Fin n)

inductive WorkerFault where
  /-- The thread cannot take this step where it is. -/
  | notHere
  | kassert
  | abort

structure Workers (T : Type u) (n : Nat) where
  references : Fin n → UInt32
  /-- `pool_spin`. -/
  lock : Option T
  place : T → WorkerPlace T n
  /-- The connections that each worker was given. -/
  given : Fin n → Nat

/-- The worker that a thread has chosen. -/
def WorkerPlace.assigned {T : Type u} {n : Nat} : WorkerPlace T n → Option (Fin n)
  | .unlocked _ currentBest => currentBest
  | .holding _ w => some w
  | _ => none

/-- The worker that a thread has counted a reference to. -/
def WorkerPlace.held {T : Type u} {n : Nat} : WorkerPlace T n → Option (Fin n)
  | .holding _ w => some w
  | _ => none

namespace Workers

variable {T : Type u} [DecidableEq T] {n : Nat}

def setPlace (s : Workers T n) (t : T) (place : WorkerPlace T n) : Workers T n :=
  { s with place := Function.update s.place t place }

/-- `++current_best->references`, `--w->references`. -/
def setReferences (s : Workers T n) (w : Fin n) (references : UInt32) : Workers T n :=
  { s with references := Function.update s.references w references }

def give (s : Workers T n) (w : Fin n) : Workers T n :=
  { s with given := Function.update s.given w (s.given w + 1) }

/-- `std::numeric_limits<int>::max()`. -/
def maxLoad : UInt32 := 2147483647

/-- The branches of `Processor::accept` after an attempt. -/
def afterAccept (maxAcceptFailures : UInt8) (acceptErrorNum : UInt32) :
    AcceptResult → Except WorkerFault (WorkerPlace T n)
  | .accepted => .ok (.locking (.accept 0))
  | .eintr | .connaborted => .ok (.locking (.accept acceptErrorNum))
  | .eagain => .ok .outside
  | .fileLimit | .other =>
      if acceptErrorNum + 1 > maxAcceptFailures.toUInt32 then .error .abort
      else .ok (.locking (.accept (acceptErrorNum + 1)))

/-- The next step of a thread. The loop reads one worker at a time. -/
def threadStep (maxAcceptFailures : UInt8) (s : Workers T n) (t : T) (result : AcceptResult) :
    Except WorkerFault (Workers T n) :=
  match s.place t with
  | .outside => .error .notHere
  | .locking use =>
      if s.lock.isNone then
        .ok ({ s with lock := some t }.setPlace t
          (.scanning use 0 maxLoad none fun u => (s.place u).assigned))
      else .error .notHere
  | .scanning use index minLoad currentBest assigned =>
      if h : index < n then
        let workerLoad := s.references ⟨index, h⟩
        if workerLoad < minLoad then
          .ok (s.setPlace t (.scanning use (index + 1) workerLoad (some ⟨index, h⟩) assigned))
        else .ok (s.setPlace t (.scanning use (index + 1) minLoad currentBest assigned))
      else .ok ({ s with lock := none }.setPlace t (.unlocked use currentBest))
  | .unlocked use currentBest =>
      match currentBest with
      | none => .error .kassert
      | some w => .ok ((s.setReferences w (s.references w + 1)).setPlace t (.holding use w))
  | .holding .connect w => .ok ((s.give w).setPlace t .outside)
  | .holding (.accept acceptErrorNum) w => do
      let place ← afterAccept maxAcceptFailures acceptErrorNum result
      match result with
      | .accepted => .ok ((s.give w).setPlace t place)
      | _ => .ok ((s.setReferences w (s.references w - 1)).setPlace t place)

inductive Op (T : Type u) where
  | connect (t : T)
  | accept (t : T)
  | thread (t : T) (result : AcceptResult)

def call (s : Workers T n) (t : T) (use : WorkerUse) : Except WorkerFault (Workers T n) :=
  match s.place t with
  | .outside => .ok (s.setPlace t (.locking use))
  | _ => .error .notHere

def step (maxAcceptFailures : UInt8) (s : Workers T n) : Op T → Except WorkerFault (Workers T n)
  | .connect t => s.call t .connect
  | .accept t => s.call t (.accept 0)
  | .thread t result => s.threadStep maxAcceptFailures t result

def Start (s : Workers T n) : Prop :=
  (∀ w, s.references w = 0) ∧ s.lock = none ∧ (∀ t, s.place t = .outside) ∧ ∀ w, s.given w = 0

def machine (maxAcceptFailures : UInt8) : Machine (Workers T n) (Op T) WorkerFault where
  start := Start
  enabled _ _ := True
  step := step maxAcceptFailures

end Workers

def WorkerPlace.scans {T : Type u} {n : Nat} : WorkerPlace T n → Bool
  | .scanning .. => true
  | _ => false

namespace Workers

variable {T : Type u} [Fintype T] {n : Nat} {s s' : Workers T n} {t : T}

/-- The threads that have chosen a worker. -/
def chosen (s : Workers T n) (w : Fin n) : Nat := tally (·.assigned = some w) s.place

/-- The threads that have counted a reference to it as well. -/
def held (s : Workers T n) (w : Fin n) : Nat := tally (·.held = some w) s.place

/-- The threads that a scan has seen with a worker when it began. -/
def seenWith (assigned : T → Option (Fin n)) (w : Fin n) : Nat := tally (· = some w) assigned

/-- A scan that has come as far as `index`. Meanwhile no other thread can choose a worker. -/
structure Scan (s : Workers T n) (t : T) (index : Nat) (minLoad : UInt32)
    (currentBest : Option (Fin n)) (assigned : T → Option (Fin n)) : Prop where
  others : ∀ u, u ≠ t → (s.place u).assigned = assigned u ∨ (s.place u).assigned = none
  self : assigned t = none
  seen : ∀ v : Fin n, v < index → minLoad.toNat ≤ s.given v + seenWith assigned v
  best : ∀ w, currentBest = some w → minLoad < maxLoad ∧
    s.given w + s.chosen w ≤ minLoad.toNat + seenWith assigned w
  noBest : currentBest = none → minLoad = maxLoad

structure Inv (s : Workers T n) : Prop where
  references : ∀ w, (s.references w).toNat = s.given w + s.held w
  small : ∀ w, s.given w + s.chosen w < maxLoad.toNat + Fintype.card T
  balance : ∀ w v, s.given w + s.chosen w ≤ s.given v + Fintype.card T
  lock : ∀ t, (s.place t).scans = true → s.lock = some t
  scan : ∀ t use index minLoad currentBest assigned,
    s.place t = .scanning use index minLoad currentBest assigned →
      s.Scan t index minLoad currentBest assigned
  /-- A scan finds nobody only where all workers have as many connections as can be. -/
  full : ∀ t use, s.place t = .unlocked use none →
    ∀ v, maxLoad.toNat ≤ s.given v + Fintype.card T

theorem held_le_chosen (s : Workers T n) (w : Fin n) : s.held w ≤ s.chosen w := by
  refine tally_mono fun u hu => ?_
  cases hplace : s.place u with
  | holding use v =>
      rw [hplace] at hu
      exact hu
  | _ =>
      rw [hplace] at hu
      exact nomatch hu

theorem Inv.start (h : s.Start) : s.Inv := by
  obtain ⟨hreferences, hlock, hplace, hgiven⟩ := h
  have hchosen (w : Fin n) : s.chosen w = 0 := tally_eq_zero fun t => by simp [hplace,
    WorkerPlace.assigned]
  have hheld (w : Fin n) : s.held w = 0 := Nat.le_zero.mp (hchosen w ▸ s.held_le_chosen w)
  refine ⟨fun w => ?_, fun w => ?_, fun w v => ?_, fun t => ?_, ?_, ?_⟩
  · simp [hreferences, hgiven, hheld]
  · rw [hgiven, hchosen]
    exact Nat.lt_of_lt_of_le (by decide) (Nat.le_add_right ..)
  · simp [hgiven, hchosen]
  · simp [hplace, WorkerPlace.scans]
  · simp [hplace]
  · simp [hplace]

omit [Fintype T] in
theorem held_eq_none {place : WorkerPlace T n} (h : place.assigned = none) : place.held = none := by
  cases place with
  | holding use w => exact nomatch h
  | _ => rfl

theorem Scan.chosen_le {index : Nat} {minLoad : UInt32} {currentBest : Option (Fin n)}
    {assigned : T → Option (Fin n)} (h : s.Scan t index minLoad currentBest assigned)
    (hself : (s.place t).assigned = none) (w : Fin n) : s.chosen w ≤ seenWith assigned w := by
  refine tally_mono fun u hu => ?_
  by_cases hut : u = t
  · subst hut
    exact nomatch hself.symm.trans hu
  · rcases h.others u hut with hsame | hnone
    · exact hsame.symm.trans hu
    · exact nomatch hnone.symm.trans hu

theorem Scan.minLoad_le {index : Nat} {minLoad : UInt32} {currentBest : Option (Fin n)}
    {assigned : T → Option (Fin n)} (h : s.Scan t index minLoad currentBest assigned) :
    minLoad.toNat ≤ maxLoad.toNat := by
  cases hbest : currentBest with
  | none => exact Nat.le_of_eq (congrArg UInt32.toNat (h.noBest hbest))
  | some w => exact Nat.le_of_lt (UInt32.lt_iff_toNat_lt.mp (h.best w hbest).1)

/-- The loop reads the worker at `index`. -/
theorem Scan.read {index : Nat} {minLoad : UInt32} {currentBest : Option (Fin n)}
    {assigned : T → Option (Fin n)} (h : s.Scan t index minLoad currentBest assigned)
    (hself : (s.place t).assigned = none) (hindex : index < n)
    (hreferences : (s.references ⟨index, hindex⟩).toNat =
      s.given ⟨index, hindex⟩ + s.held ⟨index, hindex⟩) :
    if s.references ⟨index, hindex⟩ < minLoad then
      s.Scan t (index + 1) (s.references ⟨index, hindex⟩) (some ⟨index, hindex⟩) assigned
    else s.Scan t (index + 1) minLoad currentBest assigned := by
  have hheld := (s.held_le_chosen ⟨index, hindex⟩).trans (h.chosen_le hself ⟨index, hindex⟩)
  split
  · rename_i hless
    have hlt := UInt32.lt_iff_toNat_lt.mp hless
    refine ⟨h.others, h.self, fun v hv => ?_, fun w hw => ?_, fun hnone => nomatch hnone⟩
    · rcases Nat.lt_succ_iff_lt_or_eq.mp hv with hbefore | hhere
      · exact (Nat.le_of_lt hlt).trans (h.seen v hbefore)
      · cases Fin.ext (a := v) (b := ⟨index, hindex⟩) hhere
        omega
    · cases hw
      have hchosen := h.chosen_le hself ⟨index, hindex⟩
      exact ⟨UInt32.lt_iff_toNat_lt.mpr (hlt.trans_le h.minLoad_le), by omega⟩
  · rename_i hless
    have hle := UInt32.le_iff_toNat_le.mp (UInt32.not_lt.mp hless)
    refine ⟨h.others, h.self, fun v hv => ?_, h.best, h.noBest⟩
    rcases Nat.lt_succ_iff_lt_or_eq.mp hv with hbefore | hhere
    · exact h.seen v hbefore
    · cases Fin.ext (a := v) (b := ⟨index, hindex⟩) hhere
      omega

/-- A scan goes on while others do what they can. -/
theorem Scan.congr {index : Nat} {minLoad : UInt32} {currentBest : Option (Fin n)}
    {assigned : T → Option (Fin n)} (h : s.Scan t index minLoad currentBest assigned)
    (hassigned : ∀ u, u ≠ t →
      (s'.place u).assigned = (s.place u).assigned ∨ (s'.place u).assigned = none)
    (hgiven : ∀ w, s.given w ≤ s'.given w)
    (hload : ∀ w, s'.given w + s'.chosen w ≤ s.given w + s.chosen w) :
    s'.Scan t index minLoad currentBest assigned := by
  refine ⟨fun u hu => ?_, h.self, fun v hv => ?_, fun w hw => ?_, h.noBest⟩
  · rcases hassigned u hu with hsame | hnone
    · rw [hsame]
      exact h.others u hu
    · exact .inr hnone
  · exact (h.seen v hv).trans (Nat.add_le_add_right (hgiven v) _)
  · exact ⟨(h.best w hw).1, (hload w).trans (h.best w hw).2⟩

variable [DecidableEq T]

omit [Fintype T] in
theorem setPlace_of_ne {u : T} (hu : u ≠ t) (place : WorkerPlace T n) :
    (s.setPlace t place).place u = s.place u := Function.update_of_ne hu ..

omit [Fintype T] in
theorem setPlace_self (s : Workers T n) (t : T) (place : WorkerPlace T n) :
    (s.setPlace t place).place t = place := Function.update_self ..

theorem chosen_setPlace (s : Workers T n) (t : T) (place : WorkerPlace T n) (w : Fin n) :
    (s.setPlace t place).chosen w + (if (s.place t).assigned = some w then 1 else 0) =
      s.chosen w + (if place.assigned = some w then 1 else 0) :=
  tally_update s.place t place

theorem held_setPlace (s : Workers T n) (t : T) (place : WorkerPlace T n) (w : Fin n) :
    (s.setPlace t place).held w + (if (s.place t).held = some w then 1 else 0) =
      s.held w + (if place.held = some w then 1 else 0) :=
  tally_update s.place t place

/-- A step outside the scan: no worker is chosen by it, though one may be given up or become
that of a connection. -/
theorem Inv.move (h : s.Inv) {place : WorkerPlace T n} {references : Fin n → UInt32}
    {given : Fin n → Nat} (hout : (s.place t).scans = false) (hplace : place.scans = false)
    (hassigned : place.assigned = (s.place t).assigned ∨ place.assigned = none)
    (hunlocked : ∀ use, place ≠ .unlocked use none)
    (hgiven : ∀ w, s.given w ≤ given w)
    (hload : ∀ w, given w + (s.setPlace t place).chosen w ≤ s.given w + s.chosen w)
    (hreferences : ∀ w, (references w).toNat = given w + (s.setPlace t place).held w) :
    Inv ({ s with references, given }.setPlace t place) := by
  refine ⟨hreferences, fun w => (hload w).trans_lt (h.small w), fun w v => ?_,
    fun u hu => ?_, ?_, ?_⟩
  · exact ((hload w).trans (h.balance w v)).trans (Nat.add_le_add_right (hgiven v) _)
  · by_cases hut : u = t
    · subst hut
      rw [setPlace_self] at hu
      exact nomatch hplace.symm.trans hu
    · rw [setPlace_of_ne hut] at hu
      exact h.lock u hu
  · intro u use index minLoad currentBest assigned hu
    have hut : u ≠ t := by
      rintro rfl
      rw [setPlace_self] at hu
      rw [hu] at hplace
      exact nomatch hplace
    rw [setPlace_of_ne hut] at hu
    refine (h.scan u use index minLoad currentBest assigned hu).congr (fun x hx => ?_) hgiven hload
    by_cases hxt : x = t
    · subst hxt
      rw [setPlace_self]
      exact hassigned
    · rw [setPlace_of_ne hxt]
      exact .inl rfl
  · intro u use hu v
    by_cases hut : u = t
    · subst hut
      rw [setPlace_self] at hu
      exact absurd hu (hunlocked use)
    · rw [setPlace_of_ne hut] at hu
      exact (h.full u use hu v).trans (Nat.add_le_add_right (hgiven v) _)

/-- A thread with the lock starts a scan or goes on with its own. -/
theorem Inv.toScan (h : s.Inv) (use : WorkerUse) {index : Nat} {minLoad : UInt32}
    {currentBest : Option (Fin n)} {assigned : T → Option (Fin n)}
    (hself : (s.place t).assigned = none) (hothers : ∀ u, u ≠ t → (s.place u).scans = false)
    (hscan : s.Scan t index minLoad currentBest assigned) :
    Inv ({ s with lock := some t }.setPlace t
      (.scanning use index minLoad currentBest assigned)) := by
  let place : WorkerPlace T n := .scanning use index minLoad currentBest assigned
  have hchosen (w : Fin n) : (s.setPlace t place).chosen w = s.chosen w := by
    have hmoved := s.chosen_setPlace t place w
    rw [hself] at hmoved
    exact hmoved
  have hheld (w : Fin n) : (s.setPlace t place).held w = s.held w := by
    have hmoved := s.held_setPlace t place w
    rw [held_eq_none hself] at hmoved
    exact hmoved
  refine ⟨fun w => ?_, fun w => ?_, fun w v => ?_, fun u hu => ?_, ?_, ?_⟩
  · exact (h.references w).trans (congrArg (s.given w + ·) (hheld w).symm)
  · exact (congrArg (s.given w + ·) (hchosen w)).trans_lt (h.small w)
  · exact (congrArg (s.given w + ·) (hchosen w)).trans_le (h.balance w v)
  · by_cases hut : u = t
    · rw [hut]
      rfl
    · rw [setPlace_of_ne hut] at hu
      exact nomatch (hothers u hut).symm.trans hu
  · intro u use' index' minLoad' currentBest' assigned' hu
    have hut : u = t := by
      by_contra hut
      rw [setPlace_of_ne hut] at hu
      have hscans := hothers u hut
      rw [show s.place u = _ from hu] at hscans
      exact nomatch hscans
    subst hut
    rw [setPlace_self] at hu
    cases hu
    refine hscan.congr (fun x hx => ?_) (fun w => Nat.le_refl _) fun w => ?_
    · rw [setPlace_of_ne hx]
      exact .inl rfl
    · exact Nat.le_of_eq (congrArg (s.given w + ·) (hchosen w))
  · intro u use' hu v
    by_cases hut : u = t
    · subst hut
      rw [setPlace_self] at hu
      exact nomatch hu
    · rw [setPlace_of_ne hut] at hu
      exact h.full u use' hu v

/-- The end of the loop. Of the threads that the scan has seen, none is at two workers, and
the thread of the scan is at no worker, so the others cannot make the least load much larger. -/
theorem Inv.choose (h : s.Inv) {use : WorkerUse} {index : Nat} {minLoad : UInt32}
    {currentBest : Option (Fin n)} {assigned : T → Option (Fin n)}
    (hplace : s.place t = .scanning use index minLoad currentBest assigned) (hindex : n ≤ index) :
    Inv ({ s with lock := none }.setPlace t (.unlocked use currentBest)) := by
  have hscan := h.scan t use index minLoad currentBest assigned hplace
  have hlock : s.lock = some t := h.lock t (by rw [hplace]; rfl)
  have hself : (s.place t).assigned = none := by rw [hplace]; rfl
  have hothers (u : T) (hu : u ≠ t) : (s.place u).scans = false := by
    by_contra hscans
    have hlocku := h.lock u (Bool.eq_true_of_not_eq_false hscans)
    exact hu (Option.some.inj (hlocku.symm.trans hlock))
  have hseen (v : Fin n) : minLoad.toNat ≤ s.given v + seenWith assigned v :=
    hscan.seen v (v.isLt.trans_le hindex)
  let place : WorkerPlace T n := .unlocked use currentBest
  have hchosen (w : Fin n) : (s.setPlace t place).chosen w =
      s.chosen w + if currentBest = some w then 1 else 0 := by
    have hmoved := s.chosen_setPlace t place w
    rw [hself] at hmoved
    exact hmoved
  have hheld (w : Fin n) : (s.setPlace t place).held w = s.held w := by
    have hmoved := s.held_setPlace t place w
    rw [held_eq_none hself] at hmoved
    exact hmoved
  have hapart {w v : Fin n} (hwv : w ≠ v) :
      seenWith assigned w + seenWith assigned v < Fintype.card T :=
    tally_add_lt (fun u hw hv => hwv (Option.some.inj (hw.symm.trans hv))) t
      (by rw [hscan.self]; exact nofun) (by rw [hscan.self]; exact nofun)
  have halone (w : Fin n) : seenWith assigned w < Fintype.card T := by
    have hfew : seenWith assigned w + tally (fun _ => False) assigned < Fintype.card T :=
      tally_add_lt (fun _ _ => id) t (by rw [hscan.self]; exact nofun) id
    exact (Nat.le_add_right ..).trans_lt hfew
  refine ⟨fun w => ?_, fun w => ?_, fun w v => ?_, fun u hu => ?_, ?_, ?_⟩
  · exact (h.references w).trans (congrArg (s.given w + ·) (hheld w).symm)
  · show s.given w + (s.setPlace t place).chosen w < _
    rw [hchosen]
    split
    · rename_i hw
      obtain ⟨hless, hload⟩ := hscan.best w hw
      have hfew := halone w
      have hlt := UInt32.lt_iff_toNat_lt.mp hless
      omega
    · exact h.small w
  · show s.given w + (s.setPlace t place).chosen w ≤ s.given v + _
    by_cases hwv : w = v
    · subst hwv
      exact Nat.add_le_add_left (tally_le_card _) _
    rw [hchosen]
    split
    · rename_i hw
      obtain ⟨-, hload⟩ := hscan.best w hw
      have hleast := hseen v
      have hfew := hapart hwv
      omega
    · exact h.balance w v
  · by_cases hut : u = t
    · subst hut
      rw [setPlace_self] at hu
      exact nomatch hu
    · rw [setPlace_of_ne hut] at hu
      exact nomatch (hothers u hut).symm.trans hu
  · intro u use' index' minLoad' currentBest' assigned' hu
    by_cases hut : u = t
    · subst hut
      rw [setPlace_self] at hu
      exact nomatch hu
    · rw [setPlace_of_ne hut] at hu
      have hscans := hothers u hut
      rw [show s.place u = _ from hu] at hscans
      exact nomatch hscans
  · intro u use' hu v
    by_cases hut : u = t
    · subst hut
      rw [setPlace_self] at hu
      cases hu
      have hmax := hscan.noBest rfl
      have hfew := halone v
      have hleast := hseen v
      rw [hmax] at hleast
      show maxLoad.toNat ≤ s.given v + _
      omega
    · rw [setPlace_of_ne hut] at hu
      exact h.full u use' hu v

theorem Inv.call (h : s.Inv) {use : WorkerUse} (hrun : s.call t use = .ok s') : s'.Inv := by
  unfold Workers.call at hrun
  split at hrun
  · rename_i hplace
    cases hrun
    have hchosen (w : Fin n) : (s.setPlace t (.locking use)).chosen w = s.chosen w := by
      have hmoved := s.chosen_setPlace t (.locking use) w
      rw [hplace] at hmoved
      exact hmoved
    have hheld (w : Fin n) : (s.setPlace t (.locking use)).held w = s.held w := by
      have hmoved := s.held_setPlace t (.locking use) w
      rw [hplace] at hmoved
      exact hmoved
    refine h.move (by rw [hplace]; rfl) rfl (.inr rfl) nofun (fun _ => Nat.le_refl _)
      (fun w => ?_) fun w => ?_
    · rw [hchosen]
    · rw [hheld]
      exact h.references w
  · exact nomatch hrun

/-- `++current_best->references` does not overflow. -/
theorem Inv.hold (h : s.Inv) (hcard : Fintype.card T < 2 ^ 31) {use : WorkerUse} {w : Fin n}
    (hplace : s.place t = .unlocked use (some w)) :
    Inv ((s.setReferences w (s.references w + 1)).setPlace t (.holding use w)) := by
  have hchosen (v : Fin n) : (s.setPlace t (.holding use w)).chosen v = s.chosen v := by
    have hmoved := s.chosen_setPlace t (.holding use w) v
    rw [hplace] at hmoved
    exact Nat.add_right_cancel hmoved
  have hheld (v : Fin n) : (s.setPlace t (.holding use w)).held v =
      s.held v + if some w = some v then 1 else 0 := by
    have hmoved := s.held_setPlace t (.holding use w) v
    rw [hplace] at hmoved
    exact hmoved
  refine h.move (by rw [hplace]; rfl) rfl (.inl (by rw [hplace]; rfl)) nofun
    (fun _ => Nat.le_refl _) (fun v => by rw [hchosen]) fun v => ?_
  rw [hheld]
  by_cases hvw : v = w
  · subst hvw
    have hcounted := h.references v
    have hsmall := h.small v
    have hle := (s.setPlace t (.holding use v)).held_le_chosen v
    rw [hheld, hchosen, if_pos rfl] at hle
    have hmax : maxLoad.toNat = 2 ^ 31 - 1 := rfl
    rw [Function.update_self, UInt32.toNat_add, UInt32.toNat_one,
      Nat.mod_eq_of_lt (by omega), if_pos rfl]
    omega
  · rw [Function.update_of_ne hvw, if_neg fun hsame => hvw (Option.some.inj hsame).symm]
    exact h.references v

/-- The connection is made with the worker. -/
theorem Inv.give (h : s.Inv) {use : WorkerUse} {w : Fin n} {place : WorkerPlace T n}
    (hplace : s.place t = .holding use w) (hnone : place.assigned = none)
    (hscans : place.scans = false) (hunlocked : ∀ use, place ≠ .unlocked use none) :
    Inv ((s.give w).setPlace t place) := by
  have hchosen (v : Fin n) : (s.setPlace t place).chosen v + (if some w = some v then 1 else 0) =
      s.chosen v := by
    have hmoved := s.chosen_setPlace t place v
    rw [hplace, hnone] at hmoved
    exact hmoved
  have hheld (v : Fin n) : (s.setPlace t place).held v + (if some w = some v then 1 else 0) =
      s.held v := by
    have hmoved := s.held_setPlace t place v
    rw [hplace, held_eq_none hnone] at hmoved
    exact hmoved
  have hgiven (v : Fin n) : (s.give w).given v = s.given v + if some w = some v then 1 else 0 := by
    by_cases hvw : v = w
    · subst hvw
      exact (Function.update_self ..).trans (by rw [if_pos rfl])
    · refine (Function.update_of_ne hvw ..).trans ?_
      rw [if_neg fun hsame => hvw (Option.some.inj hsame).symm]
      rfl
  refine h.move (by rw [hplace]; rfl) hscans (.inr hnone) hunlocked (fun v => ?_) (fun v => ?_)
    fun v => ?_
  · exact (Nat.le_add_right ..).trans (Nat.le_of_eq (hgiven v).symm)
  · have hmoved := hchosen v
    have hmore := hgiven v
    show (s.give w).given v + _ ≤ _
    omega
  · have hmoved := hheld v
    have hmore := hgiven v
    have hcounted := h.references v
    show _ = (s.give w).given v + _
    omega

/-- `--w->references` takes back what the thread has counted. -/
theorem Inv.giveUp (h : s.Inv) {use : WorkerUse} {w : Fin n} {place : WorkerPlace T n}
    (hplace : s.place t = .holding use w) (hnone : place.assigned = none)
    (hscans : place.scans = false) (hunlocked : ∀ use, place ≠ .unlocked use none) :
    Inv ((s.setReferences w (s.references w - 1)).setPlace t place) := by
  have hchosen (v : Fin n) : (s.setPlace t place).chosen v + (if some w = some v then 1 else 0) =
      s.chosen v := by
    have hmoved := s.chosen_setPlace t place v
    rw [hplace, hnone] at hmoved
    exact hmoved
  have hheld (v : Fin n) : (s.setPlace t place).held v + (if some w = some v then 1 else 0) =
      s.held v := by
    have hmoved := s.held_setPlace t place v
    rw [hplace, held_eq_none hnone] at hmoved
    exact hmoved
  refine h.move (by rw [hplace]; rfl) hscans (.inr hnone) hunlocked (fun _ => Nat.le_refl _)
    (fun v => ?_) fun v => ?_
  · exact Nat.add_le_add_left (Nat.le.intro (hchosen v)) _
  · have hcounted := h.references v
    have hmoved := hheld v
    by_cases hvw : v = w
    · subst hvw
      rw [if_pos rfl] at hmoved
      have hpositive : (1 : UInt32) ≤ s.references v :=
        UInt32.le_iff_toNat_le.mpr (by rw [UInt32.toNat_one]; omega)
      rw [Function.update_self, UInt32.toNat_sub_of_le _ _ hpositive, UInt32.toNat_one]
      omega
    · rw [if_neg fun hsame => hvw (Option.some.inj hsame).symm] at hmoved
      rw [Function.update_of_ne hvw]
      omega

omit [Fintype T] [DecidableEq T] in
theorem afterAccept_outside {maxAcceptFailures : UInt8} {acceptErrorNum : UInt32}
    {result : AcceptResult} {place : WorkerPlace T n}
    (h : afterAccept maxAcceptFailures acceptErrorNum result = .ok place) :
    place.assigned = none ∧ place.scans = false ∧ ∀ use, place ≠ .unlocked use none := by
  unfold afterAccept at h
  split at h
  · cases h
    exact ⟨rfl, rfl, nofun⟩
  · cases h
    exact ⟨rfl, rfl, nofun⟩
  · cases h
    exact ⟨rfl, rfl, nofun⟩
  · cases h
    exact ⟨rfl, rfl, nofun⟩
  · split at h
    · exact nomatch h
    · cases h
      exact ⟨rfl, rfl, nofun⟩
  · split at h
    · exact nomatch h
    · cases h
      exact ⟨rfl, rfl, nofun⟩

theorem Inv.threadStep (h : s.Inv) (hcard : Fintype.card T < 2 ^ 31) {maxAcceptFailures : UInt8}
    {result : AcceptResult} (hrun : s.threadStep maxAcceptFailures t result = .ok s') :
    s'.Inv := by
  unfold Workers.threadStep at hrun
  split at hrun
  · exact nomatch hrun
  · rename_i use hplace
    have hself : (s.place t).assigned = none := by rw [hplace]; rfl
    split at hrun
    · rename_i hfree
      cases hrun
      refine h.toScan use hself (fun u _ => ?_) ?_
      · by_contra hscans
        have hlock := h.lock u (Bool.eq_true_of_not_eq_false hscans)
        rw [hlock] at hfree
        exact nomatch hfree
      · exact ⟨fun u _ => .inl rfl, hself, fun v hv => absurd hv (Nat.not_lt_zero _), nofun,
          fun _ => rfl⟩
    · exact nomatch hrun
  · rename_i use index minLoad currentBest assigned hplace
    have hself : (s.place t).assigned = none := by rw [hplace]; rfl
    have hlock : s.lock = some t := h.lock t (by rw [hplace]; rfl)
    have hothers (u : T) (hu : u ≠ t) : (s.place u).scans = false := by
      by_contra hscans
      have hlocku := h.lock u (Bool.eq_true_of_not_eq_false hscans)
      exact hu (Option.some.inj (hlocku.symm.trans hlock))
    split at hrun
    · rename_i hindex
      have hread := (h.scan t use index minLoad currentBest assigned hplace).read hself hindex
        (h.references _)
      dsimp only at hrun
      split at hrun
      · rename_i hless
        cases hrun
        rw [if_pos hless] at hread
        have hnext := h.toScan use hself hothers hread
        rw [← hlock] at hnext
        exact hnext
      · rename_i hless
        cases hrun
        rw [if_neg hless] at hread
        have hnext := h.toScan use hself hothers hread
        rw [← hlock] at hnext
        exact hnext
    · rename_i hindex
      cases hrun
      exact h.choose hplace (Nat.not_lt.mp hindex)
  · rename_i use currentBest hplace
    split at hrun
    · exact nomatch hrun
    · cases hrun
      exact h.hold hcard hplace
  · rename_i w hplace
    cases hrun
    exact h.give hplace rfl rfl nofun
  · rename_i acceptErrorNum w hplace
    obtain ⟨place, hafter, hrest⟩ := bind_eq_ok hrun
    obtain ⟨hnone, hscans, hunlocked⟩ := afterAccept_outside hafter
    split at hrest
    · cases hrest
      exact h.give hplace hnone hscans hunlocked
    · cases hrest
      exact h.giveUp hplace hnone hscans hunlocked

theorem inv_of_reachable (hcard : Fintype.card T < 2 ^ 31) {maxAcceptFailures : UInt8}
    (h : (machine maxAcceptFailures).Reachable s) : s.Inv := by
  refine h.invariant (fun _ hfirst => .start hfirst) ?_
  intro before op after _ hinv _ hrun
  cases op with
  | connect t => exact hinv.call hrun
  | accept t => exact hinv.call hrun
  | thread t result => exact hinv.threadStep hcard hrun

omit [Fintype T] in
theorem kassert_of_threadStep {maxAcceptFailures : UInt8} {result : AcceptResult}
    (h : s.threadStep maxAcceptFailures t result = .error .kassert) :
    ∃ use, s.place t = .unlocked use none := by
  unfold Workers.threadStep at h
  split at h
  · exact nomatch h
  · split at h
    · exact nomatch h
    · exact nomatch h
  · split at h
    · dsimp only at h
      split at h
      · exact nomatch h
      · exact nomatch h
    · exact nomatch h
  · rename_i use currentBest hplace
    cases currentBest with
    | none => exact ⟨use, hplace⟩
    | some w => exact nomatch h
  · exact nomatch h
  · rename_i acceptErrorNum w hplace
    unfold afterAccept at h
    cases result <;> simp at h <;> split at h <;> exact nomatch h

/-- Each reference is that of a connection or of a thread that is still busy with one, no
worker has more connections than another by more than the number of threads, and the search
comes back empty-handed only where every worker is nearly full. -/
theorem workers_balanced (maxAcceptFailures : UInt8) (hcard : Fintype.card T < 2 ^ 31)
    (s : Workers T n) (h : (machine maxAcceptFailures).Reachable s) :
    (∀ w, (s.references w).toNat = s.given w + s.held w) ∧
    (∀ w v, s.given w ≤ s.given v + Fintype.card T) ∧
    ∀ t result, s.threadStep maxAcceptFailures t result = .error .kassert →
      ∀ v, maxLoad.toNat ≤ s.given v + Fintype.card T := by
  have hinv := inv_of_reachable hcard h
  refine ⟨hinv.references, fun w v => (Nat.le_add_right ..).trans (hinv.balance w v), ?_⟩
  intro t result hkassert
  obtain ⟨use, hplace⟩ := kassert_of_threadStep hkassert
  exact hinv.full t use hplace

/-- Two threads look for a worker before either has counted its reference. -/
def someOps : List (Op Bool) :=
  let looks (t : Bool) : List (Op Bool) := .connect t :: List.replicate 6 (.thread t .eagain)
  looks false ++ looks true ++ [false, true, false, true].map (.thread · .eagain)

/-- With as many threads as there are, the difference can be as large. -/
theorem workers_balanced_two_threads : ∃ s : Workers Bool 4,
    (machine 64).Reachable s ∧ s.given 0 = 2 ∧ s.given 1 = 0 ∧ s.given 0 ≤ s.given 1 + 2 := by
  have hstart : (machine 64).Reachable
      (⟨fun _ => 0, none, fun _ => .outside, fun _ => 0⟩ : Workers Bool 4) :=
    .start ⟨fun _ => rfl, rfl, fun _ => rfl, fun _ => rfl⟩
  have hrun := hstart.run (fun _ _ => trivial) someOps rfl
  exact ⟨_, hrun, rfl, rfl, (workers_balanced 64 (by decide) _ hrun).2.1 0 1⟩

end Workers

end RdmaCapsule.Network
