import Mathlib

/-! The time stamps of the library: seconds and nanoseconds in 32 bits each. The operators convert
between these and the signed types of the accessors, and each has its own carry or borrow. -/
namespace RdmaCapsule.Common

structure UtimeT where
  tvSec : UInt32
  tvNsec : UInt32
  deriving DecidableEq

def capToU32Max (t : UInt64) : UInt32 := (min t 4294967295).toUInt32

namespace UtimeT

def normalize (t : UtimeT) : UtimeT :=
  if t.tvNsec > 1000000000 then
    { tvSec := capToU32Max (t.tvSec.toUInt64 + t.tvNsec.toUInt64 / 1000000000)
      tvNsec := (t.tvNsec.toUInt64 % 1000000000).toUInt32 }
  else t

/-- The constructor from a `time_t` and an `int`. -/
def new (s : Int64) (n : Int32) : UtimeT :=
  normalize ⟨s.toUInt64.toUInt32, n.toUInt32⟩

def sec (t : UtimeT) : Int64 := t.tvSec.toUInt64.toInt64

def nsec (t : UtimeT) : Int32 := t.tvNsec.toInt32

def toNsec (t : UtimeT) : UInt64 := t.tvNsec.toUInt64 + t.tvSec.toUInt64 * 1000000000

/-- `operator+` -/
def add (l r : UtimeT) : UtimeT :=
  let sec := l.sec.toUInt64 + r.sec.toUInt64
  new (capToU32Max sec).toUInt64.toInt64 (l.nsec + r.nsec)

/-- `operator+=` -/
def addAssign (l r : UtimeT) : UtimeT :=
  normalize
    { tvSec := capToU32Max (l.sec.toUInt64 + r.sec.toUInt64)
      tvNsec := l.tvNsec + r.nsec.toUInt32 }

/-- `operator-` -/
def sub (l r : UtimeT) : UtimeT :=
  new (l.sec - r.sec - if l.nsec < r.nsec then 1 else 0)
    (l.nsec - r.nsec + if l.nsec < r.nsec then 1000000000 else 0)

/-- `operator-=` -/
def subAssign (l r : UtimeT) : UtimeT :=
  let tvSec := (l.sec - r.sec).toUInt64.toUInt32
  if l.nsec ≥ r.nsec then ⟨tvSec, l.tvNsec - r.nsec.toUInt32⟩
  else
    { tvSec := tvSec - 1
      tvNsec := (l.tvNsec.toUInt64.toInt64 + (1000000000 - r.nsec.toInt64)).toUInt64.toUInt32 }

instance : Add UtimeT := ⟨add⟩

instance : Sub UtimeT := ⟨sub⟩

/-- Both sums are the same, a proper time stamp and exact, and both differences undo them. -/
structure Exact (a b : UtimeT) : Prop where
  same : a + b = a.addAssign b
  proper : (a + b).tvNsec < 1000000000
  total : (a + b).toNsec.toNat = a.toNsec.toNat + b.toNsec.toNat
  back : a + b - b = a
  backAssign : (a + b).subAssign b = a

variable {a b l r t : UtimeT}

theorem ext_toNat {t t' : UtimeT} (hsec : t.tvSec.toNat = t'.tvSec.toNat)
    (hnsec : t.tvNsec.toNat = t'.tvNsec.toNat) : t = t' := by
  cases t
  cases t'
  exact congrArg₂ mk (UInt32.toNat_inj.mp hsec) (UInt32.toNat_inj.mp hnsec)

@[simp] theorem sec_toUInt64 (t : UtimeT) : t.sec.toUInt64 = t.tvSec.toUInt64 := rfl

@[simp] theorem nsec_toUInt32 (t : UtimeT) : t.nsec.toUInt32 = t.tvNsec := rfl

theorem toNsec_toNat (t : UtimeT) :
    t.toNsec.toNat = t.tvNsec.toNat + t.tvSec.toNat * 1000000000 := by
  have hsec := t.tvSec.toNat_lt
  have hnsec := t.tvNsec.toNat_lt
  rw [toNsec, UInt64.toNat_add, UInt64.toNat_mul, UInt32.toNat_toUInt64, UInt32.toNat_toUInt64]
  simp only [UInt64.reduceToNat]
  omega

theorem capToU32Max_toNat {s : UInt64} (h : s.toNat < 2 ^ 32) : (capToU32Max s).toNat = s.toNat := by
  have hle : s ≤ 4294967295 := by
    rw [UInt64.le_iff_toNat_le]
    show s.toNat ≤ 4294967295
    omega
  have hmin : min s 4294967295 = s := if_pos hle
  rw [capToU32Max, hmin, UInt64.toNat_toUInt32, Nat.mod_eq_of_lt h]

/-- The second that `normalize` makes of the nanoseconds. Of just 10^9 of them it makes none. -/
def carry (n : Nat) : Nat := if 1000000000 < n then 1 else 0

theorem carry_cases (n : Nat) :
    (1000000000 < n ∧ carry n = 1) ∨ n ≤ 1000000000 ∧ carry n = 0 := by
  unfold carry
  split
  · rename_i hmore
    exact .inl ⟨hmore, rfl⟩
  · rename_i hle
    exact .inr ⟨Nat.le_of_not_lt hle, rfl⟩

theorem normalize_spec (hnsec : t.tvNsec.toNat < 2000000000)
    (hsec : t.tvSec.toNat + carry t.tvNsec.toNat < 2 ^ 32) :
    t.normalize.tvSec.toNat = t.tvSec.toNat + carry t.tvNsec.toNat ∧
      t.normalize.tvNsec.toNat = t.tvNsec.toNat - carry t.tvNsec.toNat * 1000000000 := by
  have hgt : t.tvNsec > 1000000000 ↔ 1000000000 < t.tvNsec.toNat := UInt32.lt_iff_toNat_lt
  unfold normalize carry at *
  by_cases hmore : 1000000000 < t.tvNsec.toNat
  · rw [if_pos hmore] at hsec ⊢
    rw [if_pos (hgt.mpr hmore)]
    have hsum : (t.tvSec.toUInt64 + t.tvNsec.toUInt64 / 1000000000).toNat = t.tvSec.toNat + 1 := by
      rw [UInt64.toNat_add, UInt64.toNat_div, UInt32.toNat_toUInt64, UInt32.toNat_toUInt64]
      simp only [UInt64.reduceToNat]
      omega
    constructor
    · rw [capToU32Max_toNat (by omega), hsum]
    · rw [UInt64.toNat_toUInt32, UInt64.toNat_mod, UInt32.toNat_toUInt64]
      simp only [UInt64.reduceToNat]
      omega
  · rw [if_neg hmore, if_neg (fun h => hmore (hgt.mp h))]
    exact ⟨rfl, by omega⟩

/-- What both additions come to. -/
structure Sum (a b t : UtimeT) : Prop where
  sec : t.tvSec.toNat = a.tvSec.toNat + b.tvSec.toNat + carry (a.tvNsec.toNat + b.tvNsec.toNat)
  nsec : t.tvNsec.toNat =
    a.tvNsec.toNat + b.tvNsec.toNat - carry (a.tvNsec.toNat + b.tvNsec.toNat) * 1000000000

/-- What the two time stamps add up to is normalized. -/
theorem normalize_sum (ha : a.tvNsec.toNat < 1000000000) (hb : b.tvNsec.toNat < 1000000000)
    (hsec : a.tvSec.toNat + b.tvSec.toNat + carry (a.tvNsec.toNat + b.tvNsec.toNat) < 2 ^ 32) :
    Sum a b (normalize ⟨capToU32Max (a.tvSec.toUInt64 + b.tvSec.toUInt64), a.tvNsec + b.tvNsec⟩) := by
  have hsum : (a.tvSec.toUInt64 + b.tvSec.toUInt64).toNat = a.tvSec.toNat + b.tvSec.toNat := by
    rw [UInt64.toNat_add, UInt32.toNat_toUInt64, UInt32.toNat_toUInt64]
    omega
  have hnsec : (a.tvNsec + b.tvNsec).toNat = a.tvNsec.toNat + b.tvNsec.toNat := by
    rw [UInt32.toNat_add]
    omega
  have hcap : (capToU32Max (a.tvSec.toUInt64 + b.tvSec.toUInt64)).toNat =
      a.tvSec.toNat + b.tvSec.toNat := by
    rw [capToU32Max_toNat (by omega), hsum]
  have hspec := normalize_spec
    (t := ⟨capToU32Max (a.tvSec.toUInt64 + b.tvSec.toUInt64), a.tvNsec + b.tvNsec⟩)
    (by rw [hnsec]; omega) (by rw [hcap, hnsec]; exact hsec)
  rw [hcap, hnsec] at hspec
  exact ⟨hspec.1, hspec.2⟩

theorem add_eq_addAssign (a b : UtimeT) : a + b = a.addAssign b := by
  show new _ _ = normalize _
  rw [new, Int32.toUInt32_add, UInt64.toUInt64_toInt64, UInt32.toUInt32_toUInt64]
  rfl

theorem add_sum (ha : a.tvNsec.toNat < 1000000000) (hb : b.tvNsec.toNat < 1000000000)
    (hsec : a.tvSec.toNat + b.tvSec.toNat + carry (a.tvNsec.toNat + b.tvNsec.toNat) < 2 ^ 32) :
    Sum a b (a + b) := by
  rw [add_eq_addAssign]
  exact normalize_sum ha hb hsec

/-- The second that a subtraction takes. -/
def borrow (x y : Nat) : Nat := if x < y then 1 else 0

theorem borrow_cases (x y : Nat) : (x < y ∧ borrow x y = 1) ∨ y ≤ x ∧ borrow x y = 0 := by
  unfold borrow
  split
  · rename_i hless
    exact .inl ⟨hless, rfl⟩
  · rename_i hle
    exact .inr ⟨Nat.le_of_not_lt hle, rfl⟩

/-- What both subtractions come to. -/
structure Difference (l r t : UtimeT) : Prop where
  sec : t.tvSec.toNat + r.tvSec.toNat + borrow l.tvNsec.toNat r.tvNsec.toNat = l.tvSec.toNat
  nsec : t.tvNsec.toNat + r.tvNsec.toNat =
    l.tvNsec.toNat + borrow l.tvNsec.toNat r.tvNsec.toNat * 1000000000

theorem nsec_toInt (h : t.tvNsec.toNat < 2 ^ 31) : t.nsec.toInt = t.tvNsec.toNat := by
  show t.tvNsec.toBitVec.toInt = t.tvNsec.toBitVec.toNat
  apply BitVec.toInt_eq_toNat_of_lt
  show 2 * t.tvNsec.toNat < 2 ^ 32
  omega

theorem nsec_lt_iff (hl : l.tvNsec.toNat < 2 ^ 31) (hr : r.tvNsec.toNat < 2 ^ 31) :
    l.nsec < r.nsec ↔ l.tvNsec.toNat < r.tvNsec.toNat := by
  rw [Int32.lt_iff_toInt_lt, nsec_toInt hl, nsec_toInt hr]
  omega

theorem normalize_eq_self (h : t.tvNsec.toNat ≤ 1000000000) : t.normalize = t := by
  apply if_neg
  intro hgt
  have hmore : 1000000000 < t.tvNsec.toNat := UInt32.lt_iff_toNat_lt.mp hgt
  omega

/-- The words that both subtractions compute. -/
def difference (l r : UtimeT) : UtimeT :=
  if l.tvNsec.toNat < r.tvNsec.toNat then
    ⟨l.tvSec - r.tvSec - 1, l.tvNsec - r.tvNsec + 1000000000⟩
  else ⟨l.tvSec - r.tvSec, l.tvNsec - r.tvNsec⟩

theorem difference_nsec (hl : l.tvNsec.toNat ≤ 1000000000) (hr : r.tvNsec.toNat < 1000000000) :
    (difference l r).tvNsec.toNat + r.tvNsec.toNat =
      l.tvNsec.toNat + borrow l.tvNsec.toNat r.tvNsec.toNat * 1000000000 := by
  unfold difference borrow
  by_cases hborrow : l.tvNsec.toNat < r.tvNsec.toNat
  · rw [if_pos hborrow, if_pos hborrow, UInt32.toNat_add, UInt32.toNat_sub]
    simp only [UInt32.reduceToNat]
    omega
  · rw [if_neg hborrow, if_neg hborrow, UInt32.toNat_sub]
    omega

theorem difference_spec (hl : l.tvNsec.toNat ≤ 1000000000) (hr : r.tvNsec.toNat < 1000000000)
    (hsec : r.tvSec.toNat + borrow l.tvNsec.toNat r.tvNsec.toNat ≤ l.tvSec.toNat) :
    Difference l r (difference l r) := by
  refine ⟨?_, difference_nsec hl hr⟩
  have hlsec := l.tvSec.toNat_lt
  unfold difference borrow at *
  by_cases hborrow : l.tvNsec.toNat < r.tvNsec.toNat
  · rw [if_pos hborrow] at hsec
    rw [if_pos hborrow, if_pos hborrow, UInt32.toNat_sub, UInt32.toNat_sub]
    simp only [UInt32.reduceToNat]
    omega
  · rw [if_neg hborrow] at hsec
    rw [if_neg hborrow, if_neg hborrow, UInt32.toNat_sub]
    omega

theorem sub_eq (hl : l.tvNsec.toNat ≤ 1000000000) (hr : r.tvNsec.toNat < 1000000000) :
    l - r = difference l r := by
  have hless := nsec_lt_iff (l := l) (r := r) (by omega) (by omega)
  have hnsec := difference_nsec hl hr
  have hcases := borrow_cases l.tvNsec.toNat r.tvNsec.toNat
  have hsame : (difference l r).normalize = difference l r := normalize_eq_self (by omega)
  rw [← hsame]
  show new _ _ = _
  unfold difference
  by_cases hborrow : l.tvNsec.toNat < r.tvNsec.toNat
  · rw [if_pos hborrow, if_pos (hless.mpr hborrow), if_pos (hless.mpr hborrow)]
    simp [new]
    rfl
  · have hnot := mt hless.mp hborrow
    rw [if_neg hborrow, if_neg hnot, if_neg hnot]
    simp [new]

/-- An `int` that is widened to a `long` and cut again. -/
theorem nsec_toInt64 (t : UtimeT) : t.nsec.toInt64.toUInt64.toUInt32 = t.tvNsec := by
  apply UInt32.toBitVec_inj.mp
  show BitVec.setWidth 32 (BitVec.signExtend 64 t.tvNsec.toBitVec) = t.tvNsec.toBitVec
  ext i hi
  have hwide : i < 64 := by omega
  rw [BitVec.getElem_setWidth, BitVec.getLsbD_signExtend, if_pos hi, decide_eq_true hwide,
    Bool.true_and, BitVec.getLsbD_eq_getElem hi]

theorem subAssign_eq (hl : l.tvNsec.toNat ≤ 1000000000) (hr : r.tvNsec.toNat < 1000000000) :
    l.subAssign r = difference l r := by
  have hless := nsec_lt_iff (l := l) (r := r) (by omega) (by omega)
  have hge : l.nsec ≥ r.nsec ↔ ¬ l.tvNsec.toNat < r.tvNsec.toNat := by
    rw [← hless]
    exact Int32.not_lt.symm
  have hsec : (l.sec - r.sec).toUInt64.toUInt32 = l.tvSec - r.tvSec := by simp
  unfold subAssign difference
  dsimp only
  rw [hsec]
  by_cases hborrow : l.tvNsec.toNat < r.tvNsec.toNat
  · have hnsec : (l.tvNsec.toUInt64.toInt64 + (1000000000 - r.nsec.toInt64)).toUInt64.toUInt32 =
        l.tvNsec + (1000000000 - r.tvNsec) := by
      rw [Int64.toUInt64_add, Int64.toUInt64_sub, UInt64.toUInt32_add, UInt64.toUInt32_sub,
        UInt64.toUInt64_toInt64, UInt32.toUInt32_toUInt64, nsec_toInt64]
      rfl
    have hsame : l.tvNsec + (1000000000 - r.tvNsec) = l.tvNsec - r.tvNsec + 1000000000 := by
      rw [sub_add_eq_add_sub, add_sub_assoc]
    rw [if_neg (fun h => hge.mp h hborrow), if_pos hborrow, hnsec, hsame]
  · rw [if_pos (hge.mpr hborrow), if_neg hborrow, nsec_toUInt32]

/-- A difference is taken back to what was added. -/
theorem Difference.eq {s : UtimeT} (hsum : Sum a b s) (h : Difference s b t)
    (ha : a.tvNsec.toNat < 1000000000) (hb : b.tvNsec.toNat < 1000000000) : t = a := by
  obtain ⟨hsec, hnsec⟩ := h
  have hsec' := hsum.sec
  have hnsec' := hsum.nsec
  have hcarry := carry_cases (a.tvNsec.toNat + b.tvNsec.toNat)
  have hborrow := borrow_cases s.tvNsec.toNat b.tvNsec.toNat
  exact ext_toNat (by omega) (by omega)

/-- The operators are exact unless the nanoseconds add up to a second and no more: these are not
carried. -/
theorem utime_arithmetic_exact_iff (a b : UtimeT) (ha : a.tvNsec < 1000000000)
    (hb : b.tvNsec < 1000000000)
    (htotal : a.toNsec.toNat + b.toNsec.toNat < 2 ^ 32 * 1000000000) :
    Exact a b ↔ a.tvNsec.toNat + b.tvNsec.toNat ≠ 1000000000 := by
  have ha' : a.tvNsec.toNat < 1000000000 := UInt32.lt_iff_toNat_lt.mp ha
  have hb' : b.tvNsec.toNat < 1000000000 := UInt32.lt_iff_toNat_lt.mp hb
  rw [toNsec_toNat, toNsec_toNat] at htotal
  have hcarry := carry_cases (a.tvNsec.toNat + b.tvNsec.toNat)
  have hsum := add_sum ha' hb' (by omega)
  have hsec := hsum.sec
  have hnsec := hsum.nsec
  constructor
  · intro hexact hsecond
    have hproper : (a + b).tvNsec.toNat < 1000000000 := UInt32.lt_iff_toNat_lt.mp hexact.proper
    omega
  · intro hother
    have hproper : (a + b).tvNsec.toNat < 1000000000 := by omega
    have hborrow := borrow_cases (a + b).tvNsec.toNat b.tvNsec.toNat
    have hle : b.tvSec.toNat + borrow (a + b).tvNsec.toNat b.tvNsec.toNat ≤
        (a + b).tvSec.toNat := by omega
    refine ⟨add_eq_addAssign a b, UInt32.lt_iff_toNat_lt.mpr hproper, ?_, ?_, ?_⟩
    · rw [toNsec_toNat, toNsec_toNat, toNsec_toNat]
      omega
    · rw [sub_eq hproper.le hb']
      exact (difference_spec hproper.le hb' hle).eq hsum ha' hb'
    · rw [subAssign_eq hproper.le hb']
      exact (difference_spec hproper.le hb' hle).eq hsum ha' hb'

/-- A carry and a borrow. -/
theorem utime_arithmetic_exact_iff_carry : Exact ⟨1, 600000000⟩ ⟨2, 700000000⟩ :=
  (utime_arithmetic_exact_iff ⟨1, 600000000⟩ ⟨2, 700000000⟩ (by decide) (by decide)
    (by decide)).mpr (by decide)

/-- Two halves of a second. -/
theorem utime_arithmetic_not_exact :
    (⟨0, 500000000⟩ + ⟨0, 500000000⟩ : UtimeT) = ⟨0, 1000000000⟩ ∧
      ¬ Exact ⟨0, 500000000⟩ ⟨0, 500000000⟩ := by
  refine ⟨by decide, fun hexact => ?_⟩
  exact absurd hexact.proper (by decide)

end UtimeT

end RdmaCapsule.Common
