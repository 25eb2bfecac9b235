import RdmaCapsule.Foundation.Machine
import RdmaCapsule.Foundation.Outcome
import RdmaCapsule.Foundation.Snapshot

/-! Counters that any number of threads update and read without a lock. Each access to a word is
atomic, and between two accesses of a thread the others run. An average is two words, so its
reader looks at two update counters to see that both belong together. -/
namespace RdmaCapsule.Common.PerfCounter

open RdmaCapsule.Foundation

def perfcounterTime : UInt8 := 0x1

def perfcounterU64 : UInt8 := 0x2

def perfcounterLongrunavg : UInt8 := 0x4

inductive Stop where
  | kassertIdx
  | kassertLongrunavg
  | abort
  deriving DecidableEq

structure PerfCounterDataAnyD where
  type : UInt8
  u64 : UInt64 := 0
  avgcount : UInt64 := 0
  avgcount2 : UInt64 := 0

namespace PerfCounterDataAnyD

def Has (data : PerfCounterDataAnyD) (flag : UInt8) : Prop := data.type &&& flag ≠ 0

instance (data : PerfCounterDataAnyD) (flag : UInt8) : Decidable (data.Has flag) :=
  inferInstanceAs (Decidable (_ ≠ _))

end PerfCounterDataAnyD

/-- What an update does to the sum. -/
inductive Update where
  | inc (amt : UInt64)
  | set (amt : UInt64)

def Update.apply (sum : UInt64) : Update → UInt64
  | .inc amt => sum + amt
  | .set amt => amt

inductive Call where
  | inc (amt : UInt64)
  | dec (amt : UInt64)
  | set (amt : UInt64)
  | tinc (nsec : UInt64)
  | tset (nsec : UInt64)
  | getTavgNs

/-- The next access of a thread to the counter that it works on. -/
inductive Thread where
  | idle
  | incAvgcount (slot : Nat) (update : Update)
  | updateSum (slot : Nat) (update : Update)
  | incAvgcount2 (slot : Nat)
  | loadAvgcount2 (slot : Nat)
  | loadSum (slot : Nat) (count : UInt64)
  | compareAvgcount (slot : Nat) (sum count : UInt64)
  | returned (slot : Nat) (sum count : UInt64)

/-- `history` only records the updates of averages. -/
structure PerfCounters where
  mLowerBound : Int
  mUpperBound : Int
  mData : Nat → PerfCounterDataAnyD
  threads : Nat → Thread
  history : Nat → Updates Nat Update

namespace PerfCounters

def slotOf (counters : PerfCounters) (idx : Int) : Nat := (idx - counters.mLowerBound - 1).toNat

def setData (counters : PerfCounters) (slot : Nat) (data : PerfCounterDataAnyD) : PerfCounters :=
  { counters with mData := Function.update counters.mData slot data }

def setThread (counters : PerfCounters) (t : Nat) (thread : Thread) : PerfCounters :=
  { counters with threads := Function.update counters.threads t thread }

def setHistory (counters : PerfCounters) (slot : Nat) (updates : Updates Nat Update) :
    PerfCounters :=
  { counters with history := Function.update counters.history slot updates }

/-- The common part of `inc`, `set` and both `tinc`, for a counter of this kind. -/
def update (counters : PerfCounters) (t : Nat) (idx : Int) (flag : UInt8) (update : Update) :
    Except Stop PerfCounters :=
  if counters.mLowerBound < idx ∧ idx < counters.mUpperBound then
    let slot := counters.slotOf idx
    let data := counters.mData slot
    if ¬ data.Has flag then .ok counters
    else if data.Has perfcounterLongrunavg then
      .ok (counters.setThread t (.incAvgcount slot update))
    else .ok (counters.setData slot { data with u64 := update.apply data.u64 })
  else .error .kassertIdx

def inc (counters : PerfCounters) (t : Nat) (idx : Int) (amt : UInt64) :
    Except Stop PerfCounters :=
  counters.update t idx perfcounterU64 (.inc amt)

def set (counters : PerfCounters) (t : Nat) (idx : Int) (amt : UInt64) :
    Except Stop PerfCounters :=
  counters.update t idx perfcounterU64 (.set amt)

def tinc (counters : PerfCounters) (t : Nat) (idx : Int) (nsec : UInt64) :
    Except Stop PerfCounters :=
  counters.update t idx perfcounterTime (.inc nsec)

def dec (counters : PerfCounters) (idx : Int) (amt : UInt64) : Except Stop PerfCounters :=
  if counters.mLowerBound < idx ∧ idx < counters.mUpperBound then
    let slot := counters.slotOf idx
    let data := counters.mData slot
    if data.Has perfcounterLongrunavg then .error .kassertLongrunavg
    else if ¬ data.Has perfcounterU64 then .ok counters
    else .ok (counters.setData slot { data with u64 := data.u64 - amt })
  else .error .kassertIdx

/-- The sum of an average is written before the `abort`. -/
def tset (counters : PerfCounters) (idx : Int) (nsec : UInt64) : Except Stop PerfCounters :=
  if counters.mLowerBound < idx ∧ idx < counters.mUpperBound then
    let slot := counters.slotOf idx
    let data := counters.mData slot
    if ¬ data.Has perfcounterTime then .ok counters
    else if data.Has perfcounterLongrunavg then .error .abort
    else .ok (counters.setData slot { data with u64 := nsec })
  else .error .kassertIdx

def getTavgNs (counters : PerfCounters) (t : Nat) (idx : Int) : Except Stop PerfCounters :=
  if counters.mLowerBound < idx ∧ idx < counters.mUpperBound then
    let slot := counters.slotOf idx
    let data := counters.mData slot
    if ¬ data.Has perfcounterTime ∨ ¬ data.Has perfcounterLongrunavg then .ok counters
    else .ok (counters.setThread t (.loadAvgcount2 slot))
  else .error .kassertIdx

def call (counters : PerfCounters) (t : Nat) (idx : Int) : Call → Except Stop PerfCounters
  | .inc amt => counters.inc t idx amt
  | .dec amt => counters.dec idx amt
  | .set amt => counters.set t idx amt
  | .tinc nsec => counters.tinc t idx nsec
  | .tset nsec => counters.tset idx nsec
  | .getTavgNs => counters.getTavgNs t idx

/-- The next access of a thread that updates an average or is in `read_avg`. -/
def access (counters : PerfCounters) (t : Nat) : PerfCounters :=
  match counters.threads t with
  | .idle => counters
  | .incAvgcount slot update =>
      let data := counters.mData slot
      ((counters.setData slot { data with avgcount := data.avgcount + 1 }).setThread t
        (.updateSum slot update)).setHistory slot ((counters.history slot).start t)
  | .updateSum slot update =>
      let data := counters.mData slot
      ((counters.setData slot { data with u64 := update.apply data.u64 }).setThread t
        (.incAvgcount2 slot)).setHistory slot ((counters.history slot).make t update)
  | .incAvgcount2 slot =>
      let data := counters.mData slot
      ((counters.setData slot { data with avgcount2 := data.avgcount2 + 1 }).setThread t
        .idle).setHistory slot ((counters.history slot).finish t)
  | .loadAvgcount2 slot =>
      counters.setThread t (.loadSum slot (counters.mData slot).avgcount2)
  | .loadSum slot count =>
      counters.setThread t (.compareAvgcount slot (counters.mData slot).u64 count)
  | .compareAvgcount slot sum count =>
      if (counters.mData slot).avgcount ≠ count then
        counters.setThread t (.loadAvgcount2 slot)
      else counters.setThread t (.returned slot sum count)
  | .returned _ _ _ => counters

end PerfCounters

inductive Op where
  | call (t : Nat) (idx : Int) (call : Call)
  | access (t : Nat)

/-- A thread makes a call when its last one has returned. -/
def Enabled (counters : PerfCounters) : Op → Prop
  | .call t _ _ => counters.threads t = .idle ∨
      ∃ slot sum count, counters.threads t = .returned slot sum count
  | .access _ => True

def step (counters : PerfCounters) : Op → Except Stop PerfCounters
  | .call t idx call => counters.call t idx call
  | .access t => .ok (counters.access t)

def machine : Machine PerfCounters Op Stop where
  start counters :=
    (∀ slot, (counters.mData slot).u64 = 0 ∧ (counters.mData slot).avgcount = 0 ∧
      (counters.mData slot).avgcount2 = 0) ∧
    (∀ t, counters.threads t = .idle) ∧ ∀ slot, counters.history slot = .none
  enabled := Enabled
  step := step

/-- The sum after these updates. -/
def total (made : List Update) : UInt64 := made.foldl Update.apply 0

/-- The average that a thread is working on. -/
def Thread.slot : Thread → Option Nat
  | .idle => none
  | .incAvgcount slot _ => slot
  | .updateSum slot _ => slot
  | .incAvgcount2 slot => slot
  | .loadAvgcount2 slot => slot
  | .loadSum slot _ => slot
  | .compareAvgcount slot _ _ => slot
  | .returned _ _ _ => none

/-- A thread has started an update of this average and not finished it. -/
def Thread.Updating (slot : Nat) : Thread → Prop
  | .updateSum slot' _ => slot' = slot
  | .incAvgcount2 slot' => slot' = slot
  | _ => False

/-- What a reader knows about the updates of its average. -/
def Saw (updates : Updates Nat Update) : Thread → Prop
  | .loadSum _ count => ∃ n ≤ updates.finished, count = UInt64.ofNat n
  | .compareAvgcount _ sum count => ∃ n ≤ updates.finished, count = UInt64.ofNat n ∧
      ∃ seen, seen <+: updates.made ∧ n ≤ seen.length ∧ sum = total seen
  | _ => True

/-- The words of an average, and the threads that work on it. -/
structure Average (slot : Nat) (data : PerfCounterDataAnyD) (updates : Updates Nat Update)
    (threads : Nat → Thread) : Prop where
  counted : updates.Counted
  avgcount : data.avgcount = UInt64.ofNat updates.started
  avgcount2 : data.avgcount2 = UInt64.ofNat updates.finished
  sum : data.Has perfcounterLongrunavg → data.u64 = total updates.made
  before : ∀ t, t ∈ updates.before ↔ ∃ update, threads t = .updateSum slot update
  after : ∀ t, t ∈ updates.after ↔ threads t = .incAvgcount2 slot
  longrun : ∀ t, (threads t).slot = some slot → data.Has perfcounterLongrunavg
  saw : ∀ t, (threads t).slot = some slot → Saw updates (threads t)

def Inv (counters : PerfCounters) : Prop :=
  ∀ slot, Average slot (counters.mData slot) (counters.history slot) counters.threads

variable {counters counters' : PerfCounters} {slot slot' t : Nat} {data : PerfCounterDataAnyD}
  {updates : Updates Nat Update} {threads : Nat → Thread} {thread : Thread} {update : Update}

theorem total_append : total (updates.made ++ [update]) = update.apply (total updates.made) := by
  rw [total, List.foldl_append]
  rfl

theorem Saw.mono {updates' : Updates Nat Update} (h : Saw updates thread)
    (hfinished : updates.finished ≤ updates'.finished) (hmade : updates.made <+: updates'.made) :
    Saw updates' thread := by
  cases thread with
  | loadSum slot count =>
      obtain ⟨n, hn, hcount⟩ := h
      exact ⟨n, hn.trans hfinished, hcount⟩
  | compareAvgcount slot sum count =>
      obtain ⟨n, hn, hcount, seen, hseen, hlength, hsum⟩ := h
      exact ⟨n, hn.trans hfinished, hcount, seen, hseen.trans hmade, hlength, hsum⟩
  | idle | incAvgcount | updateSum | incAvgcount2 | loadAvgcount2 | returned => trivial

theorem Thread.slot_of_updating (h : thread.Updating slot) : thread.slot = some slot := by
  cases thread with
  | updateSum slot' update | incAvgcount2 slot' => exact congrArg some h
  | idle | incAvgcount | loadAvgcount2 | loadSum | compareAvgcount | returned => exact h.elim

namespace Average

/-- A thread goes from one access to the next, and the words and the updates change with it. -/
theorem move (h : Average slot data updates threads) {data' : PerfCounterDataAnyD}
    {updates' : Updates Nat Update} (htype : data'.type = data.type)
    (hcounted : updates'.Counted)
    (havgcount : data'.avgcount = UInt64.ofNat updates'.started)
    (havgcount2 : data'.avgcount2 = UInt64.ofNat updates'.finished)
    (hsum : data.Has perfcounterLongrunavg → data'.u64 = total updates'.made)
    (hfinished : updates.finished ≤ updates'.finished) (hmade : updates.made <+: updates'.made)
    (hbefore : ∀ t', t' ∈ updates'.before ↔
      if t' = t then ∃ update, thread = .updateSum slot update else t' ∈ updates.before)
    (hafter : ∀ t', t' ∈ updates'.after ↔
      if t' = t then thread = .incAvgcount2 slot else t' ∈ updates.after)
    (hlongrun : thread.slot = some slot → data.Has perfcounterLongrunavg)
    (hsaw : thread.slot = some slot → Saw updates' thread) :
    Average slot data' updates' (Function.update threads t thread) := by
  have hhas : ∀ flag, data'.Has flag ↔ data.Has flag := by
    intro flag
    unfold PerfCounterDataAnyD.Has
    rw [htype]
  refine ⟨hcounted, havgcount, havgcount2, fun hlong => hsum ((hhas _).mp hlong), fun t' => ?_,
    fun t' => ?_, fun t' hslot => ?_, fun t' hslot => ?_⟩
  · rw [hbefore]
    by_cases hsame : t' = t
    · rw [if_pos hsame, hsame, Function.update_self]
    · rw [if_neg hsame, Function.update_of_ne hsame]
      exact h.before t'
  · rw [hafter]
    by_cases hsame : t' = t
    · rw [if_pos hsame, hsame, Function.update_self]
    · rw [if_neg hsame, Function.update_of_ne hsame]
      exact h.after t'
  · rw [hhas]
    by_cases hsame : t' = t
    · rw [hsame, Function.update_self] at hslot
      exact hlongrun hslot
    · rw [Function.update_of_ne hsame] at hslot
      exact h.longrun t' hslot
  · by_cases hsame : t' = t
    · rw [hsame, Function.update_self] at hslot ⊢
      exact hsaw hslot
    · rw [Function.update_of_ne hsame] at hslot ⊢
      exact (h.saw t' hslot).mono hfinished hmade

/-- A thread that is not in the middle of an update of this average goes on. -/
theorem setThread (h : Average slot data updates threads)
    (hold : ¬ (threads t).Updating slot) (hnew : ¬ thread.Updating slot)
    (hlongrun : thread.slot = some slot → data.Has perfcounterLongrunavg)
    (hsaw : thread.slot = some slot → Saw updates thread) :
    Average slot data updates (Function.update threads t thread) := by
  refine h.move rfl h.counted h.avgcount h.avgcount2 h.sum le_rfl (List.prefix_refl _)
    (fun t' => ?_) (fun t' => ?_) hlongrun hsaw
  · split
    · rename_i hsame
      subst hsame
      rw [h.before]
      constructor
      · rintro ⟨_, ht⟩
        exact absurd (by rw [ht]; rfl) hold
      · rintro ⟨_, rfl⟩
        exact absurd rfl hnew
    · rfl
  · split
    · rename_i hsame
      subst hsame
      rw [h.after]
      constructor
      · intro ht
        exact absurd (by rw [ht]; rfl) hold
      · rintro rfl
        exact absurd rfl hnew
    · rfl

/-- A thread that works on another average goes on. -/
theorem setThread_of_ne (h : Average slot data updates threads)
    (hold : (threads t).slot ≠ some slot) (hnew : thread.slot ≠ some slot) :
    Average slot data updates (Function.update threads t thread) := by
  exact h.setThread (fun hupdating => hold (Thread.slot_of_updating hupdating))
    (fun hupdating => hnew (Thread.slot_of_updating hupdating))
    (fun hslot => absurd hslot hnew) fun hslot => absurd hslot hnew

theorem incAvgcount (h : Average slot data updates threads)
    (ht : threads t = .incAvgcount slot update) :
    Average slot { data with avgcount := data.avgcount + 1 } (updates.start t)
      (Function.update threads t (.updateSum slot update)) := by
  have hnot : t ∉ updates.before := by
    rw [h.before, ht]
    rintro ⟨_, hno⟩
    cases hno
  have hnot' : t ∉ updates.after := by
    rw [h.after, ht]
    intro hno
    cases hno
  refine h.move rfl (h.counted.start hnot) ?_ h.avgcount2 h.sum le_rfl (List.prefix_refl _)
    (fun t' => ?_) (fun t' => ?_) (fun _ => h.longrun t (by rw [ht]; rfl)) fun _ => trivial
  · show data.avgcount + 1 = UInt64.ofNat (updates.started + 1)
    rw [h.avgcount, UInt64.ofNat_add]
    rfl
  · show t' ∈ insert t updates.before ↔ _
    split
    · rename_i hsame
      subst hsame
      exact ⟨fun _ => ⟨update, rfl⟩, fun _ => Finset.mem_insert_self _ _⟩
    · rename_i hne
      rw [Finset.mem_insert, or_iff_right hne]
  · show t' ∈ updates.after ↔ _
    split
    · rename_i hsame
      subst hsame
      exact ⟨fun hmem => absurd hmem hnot', fun hno => by cases hno⟩
    · rfl

theorem updateSum (h : Average slot data updates threads)
    (ht : threads t = .updateSum slot update) :
    Average slot { data with u64 := update.apply data.u64 } (updates.make t update)
      (Function.update threads t (.incAvgcount2 slot)) := by
  have hmem : t ∈ updates.before := (h.before t).mpr ⟨update, ht⟩
  have hnot : t ∉ updates.after := by
    rw [h.after, ht]
    intro hno
    cases hno
  refine h.move rfl (h.counted.make hmem hnot) h.avgcount h.avgcount2 (fun hlong => ?_) le_rfl
    (List.prefix_append _ _) (fun t' => ?_) (fun t' => ?_) (fun _ => h.longrun t (by rw [ht]; rfl))
    fun _ => trivial
  · show update.apply data.u64 = total (updates.made ++ [update])
    rw [total_append, h.sum hlong]
  · show t' ∈ updates.before.erase t ↔ _
    split
    · rename_i hsame
      subst hsame
      exact ⟨fun hno => absurd hno (Finset.notMem_erase _ _), fun ⟨_, hno⟩ => by cases hno⟩
    · rename_i hne
      rw [Finset.mem_erase, and_iff_right hne]
  · show t' ∈ insert t updates.after ↔ _
    split
    · rename_i hsame
      subst hsame
      exact ⟨fun _ => rfl, fun _ => Finset.mem_insert_self _ _⟩
    · rename_i hne
      rw [Finset.mem_insert, or_iff_right hne]

theorem incAvgcount2 (h : Average slot data updates threads)
    (ht : threads t = .incAvgcount2 slot) :
    Average slot { data with avgcount2 := data.avgcount2 + 1 } (updates.finish t)
      (Function.update threads t .idle) := by
  have hmem : t ∈ updates.after := (h.after t).mpr ht
  have hnot : t ∉ updates.before := by
    rw [h.before, ht]
    rintro ⟨_, hno⟩
    cases hno
  refine h.move rfl (h.counted.finish hmem) h.avgcount ?_ h.sum (Nat.le_succ _)
    (List.prefix_refl _) (fun t' => ?_) (fun t' => ?_) (fun hslot => by cases hslot)
    fun hslot => by cases hslot
  · show data.avgcount2 + 1 = UInt64.ofNat (updates.finished + 1)
    rw [h.avgcount2, UInt64.ofNat_add]
    rfl
  · show t' ∈ updates.before ↔ _
    split
    · rename_i hsame
      subst hsame
      exact ⟨fun hno => absurd hno hnot, fun ⟨_, hno⟩ => by cases hno⟩
    · rfl
  · show t' ∈ updates.after.erase t ↔ _
    split
    · rename_i hsame
      subst hsame
      exact ⟨fun hno => absurd hno (Finset.notMem_erase _ _), fun hno => by cases hno⟩
    · rename_i hne
      rw [Finset.mem_erase, and_iff_right hne]

end Average

namespace Inv

/-- What a thread does to its own average; the others are left alone. -/
theorem move (h : Inv counters) (hold : (counters.threads t).slot = some slot)
    (hnew : ∀ slot', thread.slot = some slot' → slot' = slot)
    (haverage : Average slot data updates (Function.update counters.threads t thread)) :
    Inv (((counters.setData slot data).setThread t thread).setHistory slot updates) := by
  intro slot'
  show Average slot' (Function.update counters.mData slot data slot')
    (Function.update counters.history slot updates slot') (Function.update counters.threads t thread)
  by_cases hsame : slot' = slot
  · subst hsame
    rw [Function.update_self, Function.update_self]
    exact haverage
  · rw [Function.update_of_ne hsame, Function.update_of_ne hsame]
    refine (h slot').setThread_of_ne ?_ fun hslot => hsame (hnew slot' hslot)
    rw [hold]
    exact fun hslot => hsame (Option.some.inj hslot).symm

/-- A thread that is not in the middle of an update goes to an access of a reader, or to the first
one of an update. -/
theorem setThread (h : Inv counters)
    (hold : ∀ slot, ¬ (counters.threads t).Updating slot) (hnew : ∀ slot, ¬ thread.Updating slot)
    (hlongrun : ∀ slot, thread.slot = some slot →
      (counters.mData slot).Has perfcounterLongrunavg)
    (hsaw : ∀ slot, thread.slot = some slot → Saw (counters.history slot) thread) :
    Inv (counters.setThread t thread) :=
  fun slot => (h slot).setThread (hold slot) (hnew slot) (hlongrun slot) (hsaw slot)

/-- A counter that is no average is not tracked. -/
theorem setData (h : Inv counters) {u64 : UInt64}
    (hnot : ¬ (counters.mData slot).Has perfcounterLongrunavg) :
    Inv (counters.setData slot { counters.mData slot with u64 := u64 }) := by
  intro slot'
  show Average slot' (Function.update counters.mData slot _ slot') _ _
  by_cases hsame : slot' = slot
  · subst hsame
    rw [Function.update_self]
    have haverage := h slot'
    exact ⟨haverage.counted, haverage.avgcount, haverage.avgcount2, fun hlong => absurd hlong hnot,
      haverage.before, haverage.after, haverage.longrun, haverage.saw⟩
  · rw [Function.update_of_ne hsame]
    exact h slot'

theorem access (h : Inv counters) (t : Nat) : Inv (counters.access t) := by
  unfold PerfCounters.access
  split
  · exact h
  · rename_i slot update ht
    exact h.move (by rw [ht]; rfl) (fun _ hslot => (Option.some.inj hslot).symm)
      ((h slot).incAvgcount ht)
  · rename_i slot update ht
    exact h.move (by rw [ht]; rfl) (fun _ hslot => (Option.some.inj hslot).symm)
      ((h slot).updateSum ht)
  · rename_i slot ht
    exact h.move (by rw [ht]; rfl) (fun _ hslot => by cases hslot) ((h slot).incAvgcount2 ht)
  · rename_i slot ht
    refine h.setThread (fun slot' => ?_) (fun _ => id) (fun slot' hslot => ?_)
      fun slot' hslot => ?_
    · rw [ht]
      exact id
    · cases hslot
      exact (h slot).longrun t (by rw [ht]; rfl)
    · cases hslot
      exact ⟨_, le_rfl, (h slot).avgcount2⟩
  · rename_i slot count ht
    refine h.setThread (fun slot' => ?_) (fun _ => id) (fun slot' hslot => ?_)
      fun slot' hslot => ?_
    · rw [ht]
      exact id
    · cases hslot
      exact (h slot).longrun t (by rw [ht]; rfl)
    · cases hslot
      have hslot : (counters.threads t).slot = some slot := by rw [ht]; rfl
      have hsaw := (h slot).saw t hslot
      rw [ht] at hsaw
      obtain ⟨n, hn, hcount⟩ := hsaw
      exact ⟨n, hn, hcount, _, List.prefix_refl _, hn.trans (h slot).counted.finished_le,
        (h slot).sum ((h slot).longrun t hslot)⟩
  · rename_i slot sum count ht
    have hold : ∀ slot, ¬ (counters.threads t).Updating slot := by
      intro slot'
      rw [ht]
      exact id
    split
    · refine h.setThread hold (fun _ => id) (fun slot' hslot => ?_) fun _ _ => trivial
      cases hslot
      exact (h slot).longrun t (by rw [ht]; rfl)
    · exact h.setThread hold (fun _ => id) (fun _ hslot => by cases hslot)
        fun _ hslot => by cases hslot
  · exact h

theorem updateCall (h : Inv counters) (hidle : ∀ slot, ¬ (counters.threads t).Updating slot)
    (idx : Int) (flag : UInt8) :
    Ends (counters.update t idx flag update) Inv fun _ => True := by
  unfold PerfCounters.update
  split
  · dsimp only
    split
    · exact h
    · split
      · rename_i hlong
        refine h.setThread hidle (fun _ => id) (fun slot' hslot => ?_) fun _ _ => trivial
        cases hslot
        exact hlong
      · rename_i hnot
        exact h.setData hnot
  · trivial

theorem call (h : Inv counters) (hidle : ∀ slot, ¬ (counters.threads t).Updating slot)
    (idx : Int) (call : Call) : Ends (counters.call t idx call) Inv fun _ => True := by
  cases call with
  | inc amt | set amt | tinc nsec => exact h.updateCall hidle _ _
  | dec amt =>
      show Ends (counters.dec idx amt) _ _
      unfold PerfCounters.dec
      split
      · dsimp only
        split
        · trivial
        · rename_i hnot
          split
          · exact h
          · exact h.setData hnot
      · trivial
  | tset nsec =>
      show Ends (counters.tset idx nsec) _ _
      unfold PerfCounters.tset
      split
      · dsimp only
        split
        · exact h
        · split
          · trivial
          · rename_i hnot
            exact h.setData hnot
      · trivial
  | getTavgNs =>
      show Ends (counters.getTavgNs t idx) _ _
      unfold PerfCounters.getTavgNs
      split
      · dsimp only
        split
        · exact h
        · rename_i hboth
          rw [not_or, not_not, not_not] at hboth
          refine h.setThread hidle (fun _ => id) (fun slot' hslot => ?_) fun _ _ => trivial
          cases hslot
          exact hboth.2
      · trivial

theorem step (h : Inv counters) {op : Op} (henabled : Enabled counters op) :
    Ends (step counters op) Inv fun _ => True := by
  cases op with
  | access t => exact h.access t
  | call t idx call =>
      refine h.call (fun slot => ?_) idx call
      rcases henabled with ht | ⟨slot', sum, count, ht⟩
      · rw [ht]
        exact id
      · rw [ht]
        exact id

theorem start (h : machine.start counters) : Inv counters := by
  obtain ⟨hdata, hthreads, hhistory⟩ := h
  intro slot
  obtain ⟨hu64, havgcount, havgcount2⟩ := hdata slot
  rw [hhistory]
  refine ⟨Updates.Counted.none, havgcount, havgcount2, fun _ => hu64, fun t => ?_, fun t => ?_,
    fun t hslot => ?_, fun t hslot => ?_⟩
  · rw [hthreads]
    refine ⟨fun hno => absurd hno (Finset.notMem_empty t), ?_⟩
    rintro ⟨_, hno⟩
    cases hno
  · rw [hthreads]
    refine ⟨fun hno => absurd hno (Finset.notMem_empty t), fun hno => ?_⟩
    cases hno
  · rw [hthreads] at hslot
    cases hslot
  · rw [hthreads] at hslot
    cases hslot

end Inv

theorem inv_of_reachable (h : machine.Reachable counters) : Inv counters :=
  h.invariant (fun _ hstart => Inv.start hstart)
    fun _ _ _ _ hinv henabled hrun => (hinv.step henabled).value hrun

end RdmaCapsule.Common.PerfCounter
