import Mathlib
import RdmaCapsule.Foundation.Outcome

/-! A flag behind a mutex and a condition variable. One thread sets it, once; any
number of others wait for it in a loop around the condition. A waiter may wake up
without a reason. What makes such an object safe to destroy is that a waiter comes
out only when the setter has left the mutex for good. -/
namespace RdmaCapsule.Foundation

inductive Setter where
  | before
  | locking
  | notifying
  | setting
  | releasing
  | after
deriving DecidableEq

inductive Waiter where
  | outside
  | locking
  | testing
  /-- In the condition variable, and not notified. -/
  | asleep
  | leaving
  | passed
deriving DecidableEq

/-- The holder of the mutex is the setter (`some none`) or a waiter. -/
structure Latch (T : Type u) where
  lock : Option (Option T)
  done : Bool
  setter : Setter
  waiter : T → Waiter

namespace Latch

variable {T : Type u}

def init : Latch T := ⟨none, false, .before, fun _ => .outside⟩

/-- Those in the condition variable have to take the mutex again. -/
def notifyAll (latch : Latch T) : Latch T :=
  { latch with waiter := fun t => if latch.waiter t = .asleep then .locking else latch.waiter t }

/-- The next step of the setter; `none` where it has to wait, or is through. -/
def setStep (latch : Latch T) : Option (Latch T) :=
  match latch.setter with
  | .before => some { latch with setter := .locking }
  | .locking =>
      if latch.lock.isNone then some { latch with lock := some none, setter := .notifying }
      else none
  | .notifying => some { latch.notifyAll with setter := .setting }
  | .setting => some { latch with done := true, setter := .releasing }
  | .releasing => some { latch with lock := none, setter := .after }
  | .after => none

variable [DecidableEq T]

def setWaiter (latch : Latch T) (t : T) (waiter : Waiter) : Latch T :=
  { latch with waiter := Function.update latch.waiter t waiter }

/-- The next step of a waiter. One that is asleep may wake up at any time. -/
def waitStep (latch : Latch T) (t : T) : Option (Latch T) :=
  match latch.waiter t with
  | .outside => some (latch.setWaiter t .locking)
  | .locking =>
      if latch.lock.isNone then some ({ latch with lock := some (some t) }.setWaiter t .testing)
      else none
  | .testing =>
      if latch.done then some (latch.setWaiter t .leaving)
      else some ({ latch with lock := none }.setWaiter t .asleep)
  | .asleep => some (latch.setWaiter t .locking)
  | .leaving => some ({ latch with lock := none }.setWaiter t .passed)
  | .passed => none

/-- What a step leaves alone. -/
theorem setter_of_waitStep {latch latch' : Latch T} {t : T}
    (hrun : latch.waitStep t = some latch') : latch'.setter = latch.setter := by
  unfold waitStep at hrun
  split at hrun
  · cases hrun
    rfl
  · split at hrun
    · cases hrun
      rfl
    · exact nomatch hrun
  · split at hrun <;> cases hrun <;> rfl
  · cases hrun
    rfl
  · cases hrun
    rfl
  · exact nomatch hrun

theorem waiter_of_waitStep {latch latch' : Latch T} {t u : T}
    (hrun : latch.waitStep t = some latch') (hu : u ≠ t) : latch'.waiter u = latch.waiter u := by
  have hother (waiter : Waiter) : Function.update latch.waiter t waiter u = latch.waiter u :=
    Function.update_of_ne hu ..
  unfold waitStep at hrun
  split at hrun
  · cases hrun
    exact hother _
  · split at hrun
    · cases hrun
      exact hother _
    · exact nomatch hrun
  · split at hrun <;> cases hrun <;> exact hother _
  · cases hrun
    exact hother _
  · cases hrun
    exact hother _
  · exact nomatch hrun

omit [DecidableEq T] in
theorem outside_of_setStep {latch latch' : Latch T} {t : T} (hrun : latch.setStep = some latch')
    (ht : latch'.waiter t ≠ .outside) : latch.waiter t ≠ .outside := by
  unfold setStep at hrun
  split at hrun
  · cases hrun
    exact ht
  · split at hrun
    · cases hrun
      exact ht
    · exact nomatch hrun
  · cases hrun
    intro hout
    exact ht (by simp [notifyAll, hout])
  · cases hrun
    exact ht
  · cases hrun
    exact ht
  · exact nomatch hrun

end Latch

def Setter.holds : Setter → Bool
  | .notifying | .setting | .releasing => true
  | _ => false

def Waiter.holds : Waiter → Bool
  | .testing | .leaving => true
  | _ => false

/-- The flag is set. -/
def Setter.set : Setter → Bool
  | .releasing | .after => true
  | _ => false

/-- The setter has notified the waiters. -/
def Setter.notified : Setter → Bool
  | .setting | .releasing | .after => true
  | _ => false

namespace Latch

variable {T : Type u} {latch latch' : Latch T} {t : T}

structure Sound (latch : Latch T) : Prop where
  setter : latch.lock = some none ↔ latch.setter.holds = true
  waiter : ∀ t, latch.lock = some (some t) ↔ (latch.waiter t).holds = true
  done : latch.done = latch.setter.set
  /-- Nobody falls asleep behind the notification. -/
  asleep : ∀ t, latch.waiter t = .asleep → latch.setter.notified = false
  left : ∀ t, latch.waiter t = .leaving ∨ latch.waiter t = .passed → latch.setter = .after

theorem sound_init : (init : Latch T).Sound := by
  refine ⟨⟨nofun, nofun⟩, fun t => ?_, rfl, nofun, fun t ht => ?_⟩
  · simp [init, Waiter.holds]
  · simp [init] at ht

namespace Sound

/-- A waiter that has the mutex keeps the setter out. -/
theorem setter_out (h : latch.Sound) (ht : (latch.waiter t).holds = true) :
    latch.setter.holds = false := by
  by_contra hholds
  have hlock := h.setter.mpr (by simpa using hholds)
  rw [(h.waiter t).mpr ht] at hlock
  exact nomatch Option.some.inj hlock

theorem waiters_out (h : latch.Sound) (hsetter : latch.setter.holds = true) (t : T) :
    (latch.waiter t).holds = false := by
  by_contra ht
  exact nomatch hsetter.symm.trans (h.setter_out (t := t) (by simpa using ht))

theorem free (h : latch.Sound) (hlock : latch.lock = none) :
    latch.setter.holds = false ∧ ∀ t, (latch.waiter t).holds = false := by
  constructor
  · by_contra hsetter
    exact nomatch hlock.symm.trans (h.setter.mpr (by simpa using hsetter))
  · intro t
    by_contra ht
    exact nomatch hlock.symm.trans ((h.waiter t).mpr (by simpa using ht))

theorem notify (h : latch.Sound) (hsetter : latch.setter = .notifying) :
    ({ latch.notifyAll with setter := .setting } : Latch T).Sound := by
  have hholds : latch.setter.holds = true := by rw [hsetter]; rfl
  refine ⟨⟨fun _ => rfl, fun _ => h.setter.mpr hholds⟩, fun t => ?_, ?_, fun t ht => ?_,
    fun t ht => ?_⟩
  · show latch.lock = _ ↔ (if latch.waiter t = .asleep then _ else latch.waiter t).holds = true
    rw [h.waiter t]
    split
    · rename_i hasleep
      rw [hasleep]
      decide
    · exact Iff.rfl
  · have hdone := h.done
    rw [hsetter] at hdone
    exact hdone
  · dsimp only [notifyAll] at ht
    split at ht
    · exact nomatch ht
    · exact absurd ht ‹_›
  · dsimp only [notifyAll] at ht
    split at ht
    · exact nomatch ht
    · have hafter := h.left t ht
      rw [hsetter] at hafter
      exact nomatch hafter

theorem setStep (h : latch.Sound) (hrun : latch.setStep = some latch') : latch'.Sound := by
  have hdone := h.done
  have hnobody {setter : Setter} (hsetter : latch.setter = setter) (hne : setter ≠ .after) (t : T) :
      ¬ (latch.waiter t = .leaving ∨ latch.waiter t = .passed) := by
    intro ht
    exact hne (hsetter.symm.trans (h.left t ht))
  unfold Latch.setStep at hrun
  cases hsetter : latch.setter with
  | before =>
      rw [hsetter] at hrun hdone
      cases hrun
      have hlock : latch.lock ≠ some none := by
        rw [Ne, h.setter, hsetter]
        decide
      exact ⟨⟨fun hnone => absurd hnone hlock, nofun⟩, h.waiter, hdone, fun _ _ => rfl,
        fun t ht => absurd ht (hnobody hsetter (by decide) t)⟩
  | locking =>
      rw [hsetter] at hrun hdone
      dsimp only at hrun
      split at hrun
      · rename_i hlock
        cases hrun
        obtain ⟨-, hout⟩ := h.free (Option.isNone_iff_eq_none.mp hlock)
        refine ⟨⟨fun _ => rfl, fun _ => rfl⟩, fun t => ⟨nofun, fun ht => ?_⟩, hdone,
          fun _ _ => rfl, fun t ht => absurd ht (hnobody hsetter (by decide) t)⟩
        exact nomatch (hout t).symm.trans ht
      · exact nomatch hrun
  | notifying =>
      rw [hsetter] at hrun
      cases hrun
      exact h.notify hsetter
  | setting =>
      rw [hsetter] at hrun
      cases hrun
      have hholds : latch.setter.holds = true := by rw [hsetter]; rfl
      refine ⟨⟨fun _ => rfl, fun _ => h.setter.mpr hholds⟩, h.waiter, rfl, fun t ht => ?_,
        fun t ht => absurd ht (hnobody hsetter (by decide) t)⟩
      have hnot := h.asleep t ht
      rw [hsetter] at hnot
      exact nomatch hnot
  | releasing =>
      rw [hsetter] at hrun hdone
      cases hrun
      have hholds : latch.setter.holds = true := by rw [hsetter]; rfl
      refine ⟨⟨nofun, nofun⟩, fun t => ⟨nofun, fun ht => ?_⟩, hdone, fun t ht => ?_,
        fun _ _ => rfl⟩
      · exact nomatch (h.waiters_out hholds t).symm.trans ht
      · have hnot := h.asleep t ht
        rw [hsetter] at hnot
        exact nomatch hnot
  | after =>
      rw [hsetter] at hrun
      exact nomatch hrun

variable [DecidableEq T]

/-- A waiter moves: what is asked of its new place and of the mutex. -/
theorem move (h : latch.Sound) (lock : Option (Option T)) {waiter : Waiter}
    (hsetter : lock = some none ↔ latch.lock = some none)
    (hself : lock = some (some t) ↔ waiter.holds = true)
    (hothers : ∀ u, u ≠ t → (lock = some (some u) ↔ latch.lock = some (some u)))
    (hasleep : waiter = .asleep → latch.setter.notified = false)
    (hleft : waiter = .leaving ∨ waiter = .passed → latch.setter = .after) :
    ({ latch with lock }.setWaiter t waiter).Sound := by
  refine ⟨hsetter.trans h.setter, ?_, h.done, ?_, ?_⟩
  · exact (Function.forall_update_iff (p := fun u w => lock = some (some u) ↔ w.holds = true)
      latch.waiter).mpr ⟨hself, fun u hu => (hothers u hu).trans (h.waiter u)⟩
  · exact (Function.forall_update_iff (p := fun _ w => w = .asleep → latch.setter.notified = false)
      latch.waiter).mpr ⟨hasleep, fun u _ => h.asleep u⟩
  · exact (Function.forall_update_iff
      (p := fun _ w => w = .leaving ∨ w = .passed → latch.setter = .after)
      latch.waiter).mpr ⟨hleft, fun u _ => h.left u⟩

/-- A waiter goes back to take the mutex. -/
theorem retry (h : latch.Sound) (hout : (latch.waiter t).holds = false) :
    (latch.setWaiter t .locking).Sound := by
  refine h.move latch.lock Iff.rfl ?_ (fun _ _ => Iff.rfl) nofun (by simp)
  rw [h.waiter t, hout]
  exact ⟨nofun, nofun⟩

theorem acquire (h : latch.Sound) (hlock : latch.lock = none) :
    ({ latch with lock := some (some t) }.setWaiter t .testing).Sound := by
  refine h.move _ ?_ ⟨fun _ => rfl, fun _ => rfl⟩ (fun u hu => ?_) nofun (by simp)
  · simp [hlock]
  · rw [hlock]
    refine ⟨fun hsame => ?_, nofun⟩
    exact absurd (Option.some.inj (Option.some.inj hsame)).symm hu

/-- A waiter lets go of the mutex, to sleep or for good. -/
theorem release (h : latch.Sound) (hholds : (latch.waiter t).holds = true) {waiter : Waiter}
    (hafter : waiter.holds = false) (hasleep : waiter = .asleep → latch.setter.notified = false)
    (hleft : waiter = .leaving ∨ waiter = .passed → latch.setter = .after) :
    ({ latch with lock := none }.setWaiter t waiter).Sound := by
  have hlock := (h.waiter t).mpr hholds
  refine h.move _ ⟨nofun, fun hin => ?_⟩ ⟨nofun, fun hin => ?_⟩ (fun u hu => ⟨nofun, fun hin => ?_⟩)
    hasleep hleft
  · rw [hlock] at hin
    exact nomatch Option.some.inj hin
  · exact nomatch hafter.symm.trans hin
  · rw [hlock] at hin
    exact absurd (Option.some.inj (Option.some.inj hin)).symm hu

theorem waitStep (h : latch.Sound) (hrun : latch.waitStep t = some latch') : latch'.Sound := by
  unfold Latch.waitStep at hrun
  cases ht : latch.waiter t with
  | outside =>
      rw [ht] at hrun
      cases hrun
      exact h.retry (by rw [ht]; rfl)
  | locking =>
      rw [ht] at hrun
      dsimp only at hrun
      split at hrun
      · rename_i hlock
        cases hrun
        exact h.acquire (Option.isNone_iff_eq_none.mp hlock)
      · exact nomatch hrun
  | testing =>
      have hholds : (latch.waiter t).holds = true := by rw [ht]; rfl
      have hout := h.setter_out hholds
      have hdone := h.done
      rw [ht] at hrun
      dsimp only at hrun
      split at hrun
      · rename_i hset
        cases hrun
        refine h.move latch.lock Iff.rfl ⟨fun _ => rfl, fun _ => (h.waiter t).mpr hholds⟩
          (fun _ _ => Iff.rfl) nofun fun _ => ?_
        rw [hset] at hdone
        revert hout hdone
        cases latch.setter <;> decide
      · rename_i hset
        cases hrun
        refine h.release hholds rfl (fun _ => ?_) (by simp)
        rw [Bool.eq_false_iff.mpr hset] at hdone
        revert hout hdone
        cases latch.setter <;> decide
  | asleep =>
      rw [ht] at hrun
      cases hrun
      exact h.retry (by rw [ht]; rfl)
  | leaving =>
      rw [ht] at hrun
      cases hrun
      exact h.release (by rw [ht]; rfl) rfl nofun fun _ => h.left t (.inl ht)
  | passed =>
      rw [ht] at hrun
      exact nomatch hrun

end Sound

end Latch

end RdmaCapsule.Foundation
