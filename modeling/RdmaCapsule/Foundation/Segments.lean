import Mathlib

/-! A stream that lies in segments: each has a name and a number of bytes. Taking
bytes from the front finishes some segments and may leave a part of the next. -/
namespace RdmaCapsule.Foundation.Segments

variable {α : Type u} {segs more : List (α × Nat)} {n m : Nat}

def total (segs : List (α × Nat)) : Nat := (segs.map (·.2)).sum

/-- The segments that the first `n` bytes finish. -/
def done : Nat → List (α × Nat) → List α
  | _, [] => []
  | n, (a, size) :: rest => if size ≤ n then a :: done (n - size) rest else []

/-- What is there after the first `n` bytes. -/
def left : Nat → List (α × Nat) → List (α × Nat)
  | _, [] => []
  | n, (a, size) :: rest => if size ≤ n then left (n - size) rest else (a, size - n) :: rest

/-- No segment is empty. -/
def Positive (segs : List (α × Nat)) : Prop := ∀ seg ∈ segs, 0 < seg.2

@[simp] theorem total_nil : total ([] : List (α × Nat)) = 0 := rfl

@[simp] theorem total_cons (seg : α × Nat) (segs : List (α × Nat)) :
    total (seg :: segs) = seg.2 + total segs := by
  simp [total]

@[simp] theorem total_append (segs more : List (α × Nat)) :
    total (segs ++ more) = total segs + total more := by
  simp [total]

theorem left_zero (h : Positive segs) : left 0 segs = segs := by
  cases segs with
  | nil => rfl
  | cons seg rest =>
      have hpos : 0 < seg.2 := h seg List.mem_cons_self
      unfold left
      rw [if_neg (by omega), Nat.sub_zero]

theorem done_zero (h : Positive segs) : done 0 segs = [] := by
  cases segs with
  | nil => rfl
  | cons seg rest =>
      have hpos : 0 < seg.2 := h seg List.mem_cons_self
      unfold done
      rw [if_neg (by omega)]

theorem total_left (n : Nat) (segs : List (α × Nat)) : total (left n segs) = total segs - n := by
  induction segs generalizing n with
  | nil => simp [left]
  | cons seg rest ih =>
      unfold left
      split
      · rw [ih, total_cons]
        omega
      · simp only [total_cons]
        omega

theorem left_left (n m : Nat) (segs : List (α × Nat)) : left m (left n segs) = left (n + m) segs := by
  induction segs generalizing n with
  | nil => rfl
  | cons seg rest ih =>
      by_cases hfirst : seg.2 ≤ n
      · have hboth : seg.2 ≤ n + m := by omega
        have hsub : n + m - seg.2 = n - seg.2 + m := by omega
        simp only [left, if_pos hfirst, if_pos hboth, ih, hsub]
      · by_cases hboth : seg.2 ≤ n + m
        · have hpart : seg.2 - n ≤ m := by omega
          have hsub : m - (seg.2 - n) = n + m - seg.2 := by omega
          simp only [left, if_neg hfirst, if_pos hboth, if_pos hpart, hsub]
        · have hpart : ¬ seg.2 - n ≤ m := by omega
          have hsub : seg.2 - n - m = seg.2 - (n + m) := by omega
          simp only [left, if_neg hfirst, if_neg hboth, if_neg hpart, hsub]

theorem left_append (h : n ≤ total segs) (hmore : Positive more) :
    left n (segs ++ more) = left n segs ++ more := by
  induction segs generalizing n with
  | nil =>
      have hzero : n = 0 := by simpa using h
      rw [hzero]
      exact left_zero hmore
  | cons seg rest ih =>
      rw [total_cons] at h
      rw [List.cons_append]
      unfold left
      split
      · exact ih (by omega)
      · rfl

theorem Positive.left (h : Positive segs) (n : Nat) : Positive (left n segs) := by
  induction segs generalizing n with
  | nil => exact h
  | cons seg rest ih =>
      unfold Segments.left
      split
      · exact ih (fun seg' hseg' => h seg' (List.mem_cons_of_mem _ hseg')) _
      · intro seg' hseg'
        rcases List.mem_cons.mp hseg' with rfl | hrest
        · dsimp only
          omega
        · exact h seg' (List.mem_cons_of_mem _ hrest)

theorem Positive.append (h : Positive segs) (h' : Positive more) : Positive (segs ++ more) := by
  intro seg hseg
  exact (List.mem_append.mp hseg).elim (h seg) (h' seg)

end RdmaCapsule.Foundation.Segments
