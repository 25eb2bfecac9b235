import Mathlib

/-! Assignments to the fields of a state. Each has a key; one overwrites another with the same key,
and two with different keys can be exchanged. What a list of them makes is decided by the last one
for each key. -/
namespace RdmaCapsule.Foundation

structure Assignments (A : Type u) (K : Type v) (σ : Type w) where
  key : A → K
  put : A → σ → σ
  overwrites : ∀ a b s, key a = key b → put a (put b s) = put a s
  commutes : ∀ a b s, key a ≠ key b → put a (put b s) = put b (put a s)

namespace Assignments

variable {A : Type u} {K : Type v} {σ : Type w} (as : Assignments A K σ)

def run (list : List A) (s : σ) : σ := list.foldl (fun s a => as.put a s) s

/-- The last assignment with a key. -/
def last [DecidableEq K] (k : K) (list : List A) : Option A := list.reverse.find? fun a => as.key a = k

variable {as} {list list' : List A} {a : A} {k : K} {s : σ}

@[simp] theorem run_nil (s : σ) : as.run [] s = s := rfl

@[simp] theorem run_cons (a : A) (list : List A) (s : σ) :
    as.run (a :: list) s = as.run list (as.put a s) := rfl

theorem run_append (list list' : List A) (s : σ) :
    as.run (list ++ list') s = as.run list' (as.run list s) := List.foldl_append ..

variable [DecidableEq K]

theorem last_nil (k : K) : as.last k [] = none := rfl

theorem last_append (k : K) (list list' : List A) :
    as.last k (list ++ list') = (as.last k list').or (as.last k list) := by
  unfold last
  rw [List.reverse_append, List.find?_append]

theorem last_singleton (k : K) (a : A) :
    as.last k [a] = if as.key a = k then some a else none := by
  by_cases h : as.key a = k
  · simp [last, h]
  · simp [last, h]

theorem last_concat_self (list : List A) (a : A) : as.last (as.key a) (list ++ [a]) = some a := by
  rw [last_append, last_singleton, if_pos rfl]
  rfl

theorem last_concat (list : List A) (h : as.key a ≠ k) :
    as.last k (list ++ [a]) = as.last k list := by
  rw [last_append, last_singleton, if_neg h]
  rfl

theorem key_of_last (h : as.last k list = some a) : as.key a = k := by
  simpa using List.find?_some h

theorem last_mem (h : as.last k list = some a) : a ∈ list :=
  List.mem_reverse.mp (List.mem_of_find?_eq_some h)

theorem last_eq_none_iff : as.last k list = none ↔ ∀ a ∈ list, as.key a ≠ k := by
  simp [last]

/-- An assignment that is overwritten later might as well not be there. -/
theorem run_put (h : as.last (as.key a) list ≠ none) : as.run list (as.put a s) = as.run list s := by
  induction list generalizing s with
  | nil => exact absurd rfl h
  | cons b list ih =>
      rw [run_cons, run_cons]
      by_cases hkey : as.key b = as.key a
      · rw [as.overwrites b a s hkey]
      · rw [as.commutes b a s hkey]
        apply ih
        intro hnone
        apply h
        rw [last_eq_none_iff] at hnone ⊢
        intro b' hb'
        rcases List.mem_cons.mp hb' with rfl | hb'
        · exact hkey
        · exact hnone b' hb'

/-- One that is not overwritten can be made at the end. -/
theorem run_put_last (h : as.last (as.key a) list = none) :
    as.run list (as.put a s) = as.put a (as.run list s) := by
  rw [last_eq_none_iff] at h
  induction list generalizing s with
  | nil => rfl
  | cons b list ih =>
      rw [run_cons, run_cons, as.commutes b a s (h b List.mem_cons_self)]
      exact ih fun b' hb' => h b' (List.mem_cons_of_mem _ hb')

/-- Those with the key of the last one are not needed. -/
theorem run_filter (a : A) (list : List A) (s : σ) :
    as.put a (as.run list s) = as.put a (as.run (list.filter fun b => as.key b ≠ as.key a) s) := by
  induction list generalizing s with
  | nil => rfl
  | cons b list ih =>
      by_cases hkey : as.key b = as.key a
      · have hfilter : (b :: list).filter (fun b => as.key b ≠ as.key a) =
            list.filter fun b => as.key b ≠ as.key a := by
          simp [hkey]
        rw [hfilter, ← ih, run_cons]
        cases hlast : as.last (as.key b) list with
        | none => rw [run_put_last hlast, as.overwrites a b _ hkey.symm]
        | some b' => rw [run_put (by simp [hlast])]
      · have hfilter : (b :: list).filter (fun b => as.key b ≠ as.key a) =
            b :: list.filter fun b => as.key b ≠ as.key a := by
          simp [hkey]
        rw [hfilter, run_cons, run_cons, ih]

/-- The last assignment with a key, and what stands before and after it. -/
theorem split_of_last (h : as.last k list = some a) :
    ∃ front back, list = front ++ a :: back ∧ as.last k back = none := by
  induction list using List.reverseRecOn with
  | nil => exact nomatch h
  | append_singleton list b ih =>
      by_cases hkey : as.key b = k
      · subst hkey
        rw [last_concat_self] at h
        cases h
        exact ⟨list, [], rfl, rfl⟩
      · rw [last_concat list hkey] at h
        obtain ⟨front, back, rfl, hback⟩ := ih h
        refine ⟨front, back ++ [b], by simp, ?_⟩
        rw [last_concat back hkey, hback]

theorem last_filter {k' : K} (h : k ≠ k') :
    as.last k (list.filter fun a => as.key a ≠ k') = as.last k list := by
  unfold last
  rw [← List.filter_reverse, List.find?_filter]
  congr 1
  funext a
  by_cases hkey : as.key a = k
  · simp [hkey, h]
  · simp [hkey]

theorem last_filter_self (k : K) (list : List A) :
    as.last k (list.filter fun a => as.key a ≠ k) = none := by
  rw [last_eq_none_iff]
  intro a ha
  simpa using (List.mem_filter.mp ha).2

/-- Lists with the same last assignment for each key make the same. -/
theorem run_eq_of_last (h : ∀ k, as.last k list = as.last k list') :
    as.run list s = as.run list' s := by
  induction hn : list.length using Nat.strong_induction_on generalizing list list' with
  | _ n ih =>
      rcases List.eq_nil_or_concat' list with rfl | ⟨list, a, rfl⟩
      · have hnone : ∀ a ∈ list', False := by
          intro a ha
          exact last_eq_none_iff.mp (h (as.key a)).symm a ha rfl
        rw [List.eq_nil_iff_forall_not_mem.mpr hnone]
      · have hself : as.last (as.key a) list' = some a := by
          rw [← h, last_concat_self]
        obtain ⟨front, back, rfl, hback⟩ := split_of_last hself
        have hrun : as.run (front ++ a :: back) s = as.put a (as.run (front ++ back) s) := by
          rw [run_append, run_cons, run_put_last hback, run_append]
        have hlength : (list.filter fun b => as.key b ≠ as.key a).length < n := by
          have hle := List.length_filter_le (fun b => as.key b ≠ as.key a) list
          rw [List.length_append, List.length_singleton] at hn
          omega
        rw [hrun, run_append, run_cons, run_nil, run_filter a list, run_filter a (front ++ back)]
        congr 1
        apply ih _ hlength _ rfl
        intro k
        by_cases hkey : as.key a = k
        · subst hkey
          rw [last_filter_self, last_filter_self]
        · have hmiddle : as.last k (front ++ a :: back) = as.last k (front ++ back) := by
            rw [List.append_cons, last_append, last_concat front hkey, last_append]
          rw [last_filter (Ne.symm hkey), last_filter (Ne.symm hkey), ← last_concat list hkey, h,
            hmiddle]

end Assignments

end RdmaCapsule.Foundation
