import Mathlib

/-! Histograms over several axes. An axis has two loops of its own: one puts a value into a bucket,
the other lists the ranges of the buckets for a reader. The counters of all axes are one array. -/
namespace RdmaCapsule.Common

inductive ScaleTypeD where
  | scaleLinear
  | scaleLog2
  deriving DecidableEq

structure AxismRdmaConfigIgD where
  mScaleType : ScaleTypeD := .scaleLinear
  mMin : Int64 := 0
  mQuantSize : Int64 := 0
  mBuckets : Int32 := 0
  deriving DecidableEq

def getQuants (i : Int64) : ScaleTypeD → Int64
  | .scaleLinear => i
  | .scaleLog2 => 1 <<< (i - 1)

namespace AxismRdmaConfigIgD

def getBucketForAxis (value : Int64) (ac : AxismRdmaConfigIgD) : Int64 :=
  if value < ac.mMin then 0
  else
    let value := (value - ac.mMin) / ac.mQuantSize
    match ac.mScaleType with
    | .scaleLinear => min (value + 1) (ac.mBuckets - 1).toInt64
    | .scaleLog2 =>
        let indices := List.range' 1 (ac.mBuckets.toNatClampNeg - 1)
        match indices.find? fun i => decide (value < getQuants (.ofNat i) .scaleLog2) with
        | some i => .ofNat i
        | none => (ac.mBuckets - 1).toInt64

/-- What the loop of `get_axis_bucket_ranges` works on. -/
structure Listing where
  ret : List (Int64 × Int64)
  min : Int64

def listRange (ac : AxismRdmaConfigIgD) (s : Listing) (i : Nat) : Listing :=
  let maxExclusive := ac.mMin + getQuants (.ofNat i) ac.mScaleType * ac.mQuantSize
  { ret := s.ret.set i (s.min, maxExclusive - 1), min := maxExclusive }

/-- With one bucket, both ends are the same element. -/
def getAxisBucketRanges (ac : AxismRdmaConfigIgD) : List (Int64 × Int64) :=
  let buckets := ac.mBuckets.toNatClampNeg
  let listed := (List.range' 1 (buckets - 2)).foldl ac.listRange
    { ret := List.replicate buckets (0, 0), min := ac.mMin }
  let ret := listed.ret.modify 0 fun range => (range.1, ac.mMin - 1)
  let ret := ret.modify (buckets - 1) fun range => (listed.min, range.2)
  let ret := ret.modify 0 fun range => (Int64.minValue, range.2)
  ret.modify (buckets - 1) fun range => (range.1, Int64.maxValue)

def Accepted (ac : AxismRdmaConfigIgD) : Prop := ac.mBuckets > 0 ∧ ac.mQuantSize > 0

instance (ac : AxismRdmaConfigIgD) : Decidable ac.Accepted :=
  inferInstanceAs (Decidable (_ ∧ _))

end AxismRdmaConfigIgD

/-- The number of the counters of all axes. -/
def getRawSize (axes : Vector AxismRdmaConfigIgD dim) : Int64 :=
  axes.toList.foldl (fun ret ac => ret * ac.mBuckets.toInt64) 1

structure PerfHistogram (dim : Nat) where
  mRawData : List UInt64
  axes : Vector AxismRdmaConfigIgD dim
  accepted : ∀ ac ∈ axes, ac.Accepted
  sized : mRawData.length = (getRawSize axes).toNatClampNeg

namespace PerfHistogram

variable {dim : Nat}

def new (axes : List AxismRdmaConfigIgD) : Option (PerfHistogram dim) :=
  if hsize : axes.length = dim then
    let axes : Vector AxismRdmaConfigIgD dim := ⟨axes.toArray, hsize⟩
    if haccepted : ∀ ac ∈ axes.toList, ac.Accepted then
      some
        { mRawData := List.replicate (getRawSize axes).toNatClampNeg 0
          axes := axes
          accepted := fun ac hac => haccepted ac (Vector.mem_toList_iff.mpr hac)
          sized := List.length_replicate }
    else none
  else none

/-- `kassert` in an evaluator stops the whole computation. -/
def getRawIndexInternal (bucketEvaluator : Int64 → AxismRdmaConfigIgD → Option Int64) :
    List (AxismRdmaConfigIgD × Int64) → Int64 → Option Int64
  | [], startIndex => some startIndex
  | (ac, value) :: tail, startIndex => do
      let bucket ← bucketEvaluator value ac
      getRawIndexInternal bucketEvaluator tail (ac.mBuckets.toInt64 * startIndex + bucket)

def getRawIndexForValue (h : PerfHistogram dim) (values : Vector Int64 dim) : Option Int64 :=
  getRawIndexInternal (fun value ac => some (AxismRdmaConfigIgD.getBucketForAxis value ac))
    (h.axes.toList.zip values.toList) 0

def checkBucket (bucket : Int64) (ac : AxismRdmaConfigIgD) : Option Int64 :=
  if bucket ≥ 0 ∧ bucket < ac.mBuckets.toInt64 then some bucket else none

def getRawIndexForBucket (h : PerfHistogram dim) (buckets : Vector Int64 dim) : Option Int64 :=
  getRawIndexInternal checkBucket (h.axes.toList.zip buckets.toList) 0

/-- The place of `m_rawData[index]`, if it is one of the array. -/
def place (h : PerfHistogram dim) (index : Int64) : Option Nat :=
  if 0 ≤ index ∧ index.toNatClampNeg < h.mRawData.length then some index.toNatClampNeg else none

def increase (h : PerfHistogram dim) (k : Nat) : PerfHistogram dim :=
  { h with
    mRawData := h.mRawData.modify k (· + 1)
    sized := (List.length_modify ..).trans h.sized }

def inc (h : PerfHistogram dim) (values : Vector Int64 dim) : Option (PerfHistogram dim) := do
  let index ← h.getRawIndexForValue values
  let k ← h.place index
  return h.increase k

def readBucket (h : PerfHistogram dim) (buckets : Vector Int64 dim) : Option UInt64 := do
  let index ← h.getRawIndexForBucket buckets
  let k ← h.place index
  h.mRawData[k]?

end PerfHistogram

namespace AxismRdmaConfigIgD

variable {ac : AxismRdmaConfigIgD} {i j : Nat} {v : Int64}

def last (ac : AxismRdmaConfigIgD) : Nat := ac.mBuckets.toNatClampNeg - 1

/-- The quanta below the end of a bucket, as numbers that do not overflow. -/
def quanta : ScaleTypeD → Nat → Nat
  | _, 0 => 0
  | .scaleLinear, i + 1 => i + 1
  | .scaleLog2, i + 1 => 2 ^ i

def bound (ac : AxismRdmaConfigIgD) (i : Nat) : Int :=
  ac.mMin.toInt + quanta ac.mScaleType i * ac.mQuantSize.toInt

structure Fits (ac : AxismRdmaConfigIgD) : Prop where
  lowest : 0 < ac.last → -2 ^ 63 < ac.mMin.toInt
  highest : ∀ i < ac.last, 0 < i → ac.bound i < 2 ^ 63

def OffsetFits (ac : AxismRdmaConfigIgD) (v : Int64) : Prop :=
  ac.mMin ≤ v → v.toInt - ac.mMin.toInt < 2 ^ 63

def low (ac : AxismRdmaConfigIgD) (i : Nat) : Int := if i = 0 then -2 ^ 63 else ac.bound (i - 1)

def high (ac : AxismRdmaConfigIgD) (i : Nat) : Int :=
  if i = ac.last then 2 ^ 63 - 1 else ac.bound i - 1

instance (ac : AxismRdmaConfigIgD) : Decidable ac.Fits :=
  decidable_of_iff ((0 < ac.last → -2 ^ 63 < ac.mMin.toInt) ∧
    ∀ i < ac.last, 0 < i → ac.bound i < 2 ^ 63) ⟨fun h => ⟨h.1, h.2⟩, fun h => ⟨h.1, h.2⟩⟩

instance (ac : AxismRdmaConfigIgD) (v : Int64) : Decidable (ac.OffsetFits v) :=
  inferInstanceAs (Decidable (_ → _))

theorem Accepted.quantSize (h : ac.Accepted) : 0 < ac.mQuantSize.toInt :=
  Int64.lt_iff_toInt_lt.mp h.2

theorem Accepted.buckets_toNat (h : ac.Accepted) : ac.mBuckets.toNatClampNeg = ac.last + 1 := by
  have hpos : 0 < ac.mBuckets.toInt := Int32.lt_iff_toInt_lt.mp h.1
  have hcast := Int32.cast_toNatClampNeg ac.mBuckets (Int32.le_of_lt h.1)
  unfold last
  omega

theorem Accepted.buckets (h : ac.Accepted) : ac.mBuckets.toInt = ac.last + 1 := by
  rw [← Int32.cast_toNatClampNeg ac.mBuckets (Int32.le_of_lt h.1), h.buckets_toNat]
  rfl

theorem last_lt (ac : AxismRdmaConfigIgD) : ac.last < 2 ^ 31 := by
  have hlt := ac.mBuckets.toNatClampNeg_lt
  unfold last
  omega

theorem quanta_lt (st : ScaleTypeD) (i : Nat) : quanta st i < quanta st (i + 1) := by
  cases st with
  | scaleLinear =>
      cases i with
      | zero => exact Nat.one_pos
      | succ i => exact Nat.lt_succ_self _
  | scaleLog2 =>
      cases i with
      | zero => exact Nat.one_pos
      | succ i => exact Nat.pow_lt_pow_succ (by decide)

theorem bound_zero (ac : AxismRdmaConfigIgD) : ac.bound 0 = ac.mMin.toInt := by
  have hzero : quanta ac.mScaleType 0 = 0 := by cases ac.mScaleType <;> rfl
  rw [bound, hzero]
  simp

theorem Accepted.strictMono (h : ac.Accepted) : StrictMono ac.bound := by
  apply strictMono_nat_of_lt_succ
  intro i
  have hlt : (quanta ac.mScaleType i : Int) < quanta ac.mScaleType (i + 1) :=
    Int.ofNat_lt.mpr (quanta_lt _ i)
  have hscaled := Int.mul_lt_mul_of_pos_right hlt h.quantSize
  unfold bound
  omega

theorem Accepted.min_le_bound (h : ac.Accepted) (i : Nat) : ac.mMin.toInt ≤ ac.bound i := by
  rw [← bound_zero]
  exact h.strictMono.monotone i.zero_le

theorem Fits.bound_lt (h : ac.Fits) (hi : i < ac.last) : ac.bound i < 2 ^ 63 := by
  rcases Nat.eq_zero_or_pos i with rfl | hpos
  · rw [bound_zero]
    exact ac.mMin.toInt_lt
  · exact h.highest i hi hpos

/-! ### The ranges -/

theorem getQuants_linear (i : Nat) :
    getQuants (.ofNat i) .scaleLinear = .ofInt (quanta .scaleLinear i) := by
  have hquanta : quanta .scaleLinear i = i := by cases i <;> rfl
  rw [hquanta, Int64.ofInt_eq_ofNat]
  rfl

theorem getQuants_log2 (hpos : 0 < i) (hi : i ≤ 64) :
    getQuants (.ofNat i) .scaleLog2 = .ofInt (quanta .scaleLog2 i) := by
  have hall : ∀ k : Fin 64, getQuants (.ofNat (k + 1)) .scaleLog2 =
      .ofInt (quanta .scaleLog2 (k + 1)) := by decide +kernel
  have hk := hall ⟨i - 1, by omega⟩
  rwa [show (⟨i - 1, by omega⟩ : Fin 64).val + 1 = i by simp; omega] at hk

/-- With more buckets the bounds would not fit. -/
theorem Fits.last_le (h : ac.Fits) (hacc : ac.Accepted) (hst : ac.mScaleType = .scaleLog2) :
    ac.last ≤ 65 := by
  by_contra hmore
  have hbound := h.highest 65 (by omega) (by decide)
  have hmin := ac.mMin.le_toInt
  have hquant := hacc.quantSize
  rw [bound, hst, quanta] at hbound
  push_cast at hbound
  omega

theorem Fits.getQuants (h : ac.Fits) (hacc : ac.Accepted) (hpos : 0 < i) (hi : i < ac.last) :
    getQuants (.ofNat i) ac.mScaleType = .ofInt (quanta ac.mScaleType i) := by
  cases hst : ac.mScaleType with
  | scaleLinear => exact getQuants_linear i
  | scaleLog2 =>
      have hlast := h.last_le hacc hst
      exact getQuants_log2 hpos (by omega)

/-- After the ranges of the buckets before `k`. -/
structure Listed (ac : AxismRdmaConfigIgD) (s : Listing) (k : Nat) : Prop where
  length : s.ret.length = ac.last + 1
  min : s.min = .ofInt (ac.bound (k - 1))
  range : ∀ i, 0 < i → i < k → s.ret[i]? = some (.ofInt (ac.bound (i - 1)), .ofInt (ac.bound i - 1))

theorem Listed.listRange {s : Listing} {k : Nat} (hs : Listed ac s k) (h : ac.Fits)
    (hacc : ac.Accepted) (hpos : 0 < k) (hk : k < ac.last) :
    Listed ac (ac.listRange s k) (k + 1) := by
  have hmax : ac.mMin + Common.getQuants (.ofNat k) ac.mScaleType * ac.mQuantSize =
      .ofInt (ac.bound k) := by
    rw [h.getQuants hacc hpos hk, bound, Int64.ofInt_add, Int64.ofInt_mul, Int64.ofInt_toInt,
      Int64.ofInt_toInt]
  refine ⟨?_, ?_, ?_⟩
  · show (s.ret.set _ _).length = _
    rw [List.length_set]
    exact hs.length
  · exact hmax
  · intro i hi hik
    show (s.ret.set k (s.min, _ - 1))[i]? = _
    rw [hmax, hs.min, List.getElem?_set]
    by_cases heq : k = i
    · subst heq
      have hlength := hs.length
      rw [if_pos rfl, if_pos (by omega), Int64.ofInt_sub]
      rfl
    · rw [if_neg heq]
      exact hs.range i hi (by omega)

theorem listed (h : ac.Fits) (hacc : ac.Accepted) (n : Nat) (hn : n ≤ ac.last - 1) :
    Listed ac ((List.range' 1 n).foldl ac.listRange
      { ret := List.replicate (ac.last + 1) (0, 0), min := ac.mMin }) (n + 1) := by
  induction n with
  | zero =>
      refine ⟨List.length_replicate, ?_, fun i hi hlt => absurd hlt (by omega)⟩
      show ac.mMin = .ofInt (ac.bound 0)
      rw [bound_zero, Int64.ofInt_toInt]
  | succ n ih =>
      rw [List.range'_1_concat, List.foldl_append, List.foldl_cons, List.foldl_nil,
        Nat.add_comm 1 n]
      exact (ih (by omega)).listRange h hacc (by omega) (by omega)

theorem getElem?_getAxisBucketRanges (h : ac.Fits) (hacc : ac.Accepted) (hi : i ≤ ac.last) :
    (getAxisBucketRanges ac)[i]? =
      some (.ofInt (ac.low i), .ofInt (ac.high i)) := by
  have hl := listed h hacc (ac.last - 1) le_rfl
  have hbuckets : ac.last + 1 - 2 = ac.last - 1 := by omega
  unfold getAxisBucketRanges
  dsimp only
  rw [hacc.buckets_toNat, hbuckets, Nat.add_sub_cancel]
  generalize (List.range' 1 (ac.last - 1)).foldl ac.listRange _ = s at hl ⊢
  have hlength := hl.length
  have hmem : s.ret[i]? = some s.ret[i] := List.getElem?_eq_getElem (by omega)
  simp only [List.getElem?_modify, hmem, Option.map_some, Option.map_eq_map, low, high]
  rcases Nat.eq_zero_or_pos i with rfl | hpos
  · by_cases hlast : ac.last = 0
    · simp only [hlast, if_true]
      rfl
    · rw [if_neg hlast, if_pos rfl, if_neg hlast, if_pos rfl, if_pos rfl, if_neg (Ne.symm hlast),
        bound_zero, Int64.ofInt_sub, Int64.ofInt_toInt]
      rfl
  · have hfirst : ¬ 0 = i := by omega
    rw [if_neg hfirst, if_neg hfirst, if_neg (Ne.symm hfirst)]
    by_cases hlast : ac.last = i
    · rw [if_pos hlast, if_pos hlast, if_pos hlast.symm, hl.min, hlast]
      rfl
    · have hrange := hl.range i hpos (by omega)
      rw [if_neg hlast, if_neg hlast, if_neg (Ne.symm hlast), ← hrange, hmem]

theorem length_getAxisBucketRanges (h : ac.Fits) (hacc : ac.Accepted) :
    (getAxisBucketRanges ac).length = ac.last + 1 := by
  have hl := (listed h hacc (ac.last - 1) le_rfl).length
  have hbuckets : ac.last + 1 - 2 = ac.last - 1 := by omega
  unfold getAxisBucketRanges
  simp only [List.length_modify, hacc.buckets_toNat, hbuckets]
  exact hl

theorem Fits.low_le_high (h : ac.Fits) (hacc : ac.Accepted) (hi : i ≤ ac.last) :
    -2 ^ 63 ≤ ac.low i ∧ ac.low i ≤ ac.high i ∧ ac.high i < 2 ^ 63 := by
  have hmin := ac.mMin.le_toInt
  have hprev := hacc.min_le_bound (i - 1)
  unfold low high
  by_cases hlast : i = ac.last
  · rw [if_pos hlast]
    split
    · omega
    · have hlt := h.bound_lt (i := i - 1) (by omega)
      omega
  · rw [if_neg hlast]
    have hlt := h.bound_lt (i := i) (by omega)
    split
    · rename_i hzero
      have hlowest := h.lowest (by omega)
      rw [hzero, bound_zero] at hlt ⊢
      omega
    · have hstep : ac.bound (i - 1) < ac.bound i := hacc.strictMono (by omega)
      omega

/-- A published range, without the limits of its type. -/
theorem range_spec (h : ac.Fits) (hacc : ac.Accepted) {r : Int64 × Int64}
    (hr : (getAxisBucketRanges ac)[i]? = some r) :
    i ≤ ac.last ∧ r.1.toInt = ac.low i ∧ r.2.toInt = ac.high i := by
  have hlt : i < (getAxisBucketRanges ac).length := (List.getElem?_eq_some_iff.mp hr).1
  rw [length_getAxisBucketRanges h hacc] at hlt
  have hi : i ≤ ac.last := by omega
  rw [getElem?_getAxisBucketRanges h hacc hi] at hr
  obtain ⟨hlow, hle, hhigh⟩ := h.low_le_high hacc hi
  obtain rfl := Option.some.inj hr
  exact ⟨hi, Int64.toInt_ofInt_of_le hlow (by omega), Int64.toInt_ofInt_of_le (by omega) hhigh⟩

/-- Consecutive ranges, from the least `int64_t` to the greatest. -/
structure Tiles (ranges : List (Int64 × Int64)) : Prop where
  first : ranges.head?.map Prod.fst = some Int64.minValue
  last : ranges.getLast?.map Prod.snd = some Int64.maxValue
  nonempty : ∀ r ∈ ranges, r.1 ≤ r.2
  consecutive : ∀ i r r', ranges[i]? = some r → ranges[i + 1]? = some r' →
    r'.1.toInt = r.2.toInt + 1

theorem tiles (h : ac.Fits) (hacc : ac.Accepted) : Tiles (getAxisBucketRanges ac) := by
  have hlength := length_getAxisBucketRanges h hacc
  refine ⟨?_, ?_, ?_, ?_⟩
  · rw [List.head?_eq_getElem?, getElem?_getAxisBucketRanges h hacc (Nat.zero_le _), low,
      if_pos rfl]
    rfl
  · rw [List.getLast?_eq_getElem?, hlength, getElem?_getAxisBucketRanges h hacc (by omega), high,
      if_pos (by omega)]
    rfl
  · intro r hr
    obtain ⟨i, hi⟩ := List.getElem?_of_mem hr
    obtain ⟨hle, hlow, hhigh⟩ := range_spec h hacc hi
    rw [Int64.le_iff_toInt_le, hlow, hhigh]
    exact (h.low_le_high hacc hle).2.1
  · intro i r r' hr hr'
    have hlow := (range_spec h hacc hr').2.1
    have hhigh := (range_spec h hacc hr).2.2
    have hle := (range_spec h hacc hr').1
    rw [hlow, hhigh, low, high, if_neg (by omega), if_neg (by omega), Nat.add_sub_cancel]
    omega

/-- The index of a range that has a value in it. -/
theorem index_unique (hacc : ac.Accepted) (hi : i ≤ ac.last) (hj : j ≤ ac.last)
    (hvi : ac.low i ≤ v.toInt ∧ v.toInt ≤ ac.high i)
    (hvj : ac.low j ≤ v.toInt ∧ v.toInt ≤ ac.high j) : i = j := by
  have hnot : ∀ {i j}, i < j → j ≤ ac.last → v.toInt ≤ ac.high i → ¬ ac.low j ≤ v.toInt := by
    intro i j hij hj hhigh hlow
    rw [high, if_neg (by omega)] at hhigh
    rw [low, if_neg (by omega)] at hlow
    have hmono : ac.bound i ≤ ac.bound (j - 1) := hacc.strictMono.monotone (by omega)
    omega
  rcases Nat.lt_trichotomy i j with hlt | heq | hlt
  · exact absurd hvj.1 (hnot hlt hj hvi.2)
  · exact heq
  · exact absurd hvi.1 (hnot hlt hi hvj.2)

/-! ### The bucket of a value -/

/-- The whole quanta between the minimum and a value. -/
def offset (ac : AxismRdmaConfigIgD) (v : Int64) : Int :=
  (v.toInt - ac.mMin.toInt) / ac.mQuantSize.toInt

theorem offset_nonneg (hacc : ac.Accepted) (hv : ac.mMin ≤ v) : 0 ≤ ac.offset v := by
  have hle := Int64.le_iff_toInt_le.mp hv
  exact Int.ediv_nonneg (by omega) hacc.quantSize.le

theorem offset_le (hv : ac.mMin ≤ v) : ac.offset v ≤ v.toInt - ac.mMin.toInt := by
  have hle := Int64.le_iff_toInt_le.mp hv
  exact Int.ediv_le_self _ (by omega)

theorem toInt_offset (hacc : ac.Accepted) (hfits : ac.OffsetFits v) (hv : ac.mMin ≤ v) :
    ((v - ac.mMin) / ac.mQuantSize).toInt = ac.offset v := by
  have hquant := hacc.quantSize
  have hle := Int64.le_iff_toInt_le.mp hv
  have hlt := hfits hv
  have hsub : (v - ac.mMin).toInt = v.toInt - ac.mMin.toInt := by
    rw [Int64.toInt_sub]
    exact Int.bmod_eq_of_le (by omega) (by omega)
  have hne : ac.mQuantSize ≠ -1 := by
    intro hneg
    rw [hneg] at hquant
    exact absurd hquant (by decide)
  rw [Int64.toInt_div_of_ne_right _ _ hne, hsub, Int.tdiv_eq_ediv_of_nonneg (by omega)]
  rfl

theorem bound_le_iff (hacc : ac.Accepted) :
    ac.bound i ≤ v.toInt ↔ (quanta ac.mScaleType i : Int) ≤ ac.offset v := by
  rw [offset, Int.le_ediv_iff_mul_le hacc.quantSize, bound]
  omega

theorem within_iff (hacc : ac.Accepted) (hi : i ≤ ac.last) :
    (ac.low i ≤ v.toInt ∧ v.toInt ≤ ac.high i) ↔
      (i = 0 ∨ (quanta ac.mScaleType (i - 1) : Int) ≤ ac.offset v) ∧
        (i = ac.last ∨ ac.offset v < quanta ac.mScaleType i) := by
  have hmin := v.le_toInt
  have hmax := v.toInt_lt
  have hprev := bound_le_iff (v := v) (i := i - 1) hacc
  have hnext := bound_le_iff (v := v) (i := i) hacc
  unfold low high
  apply and_congr
  · by_cases hzero : i = 0
    · simp only [hzero, if_true, true_or, iff_true]
      exact hmin
    · simp only [hzero, if_false, false_or]
      exact hprev
  · by_cases hlast : i = ac.last
    · simp only [hlast, if_true, true_or, iff_true]
      omega
    · simp only [hlast, if_false, false_or]
      omega

/-- The bucket is the index of the range that has the value in it. -/
def Indexed (ac : AxismRdmaConfigIgD) (v : Int64) : Prop :=
  ∃ i, i ≤ ac.last ∧ getBucketForAxis v ac = .ofNat i ∧ ac.low i ≤ v.toInt ∧ v.toInt ≤ ac.high i

theorem indexed_of_lt (hv : v < ac.mMin) : ac.Indexed v := by
  have hlt := Int64.lt_iff_toInt_lt.mp hv
  have hmin := v.le_toInt
  refine ⟨0, Nat.zero_le _, if_pos hv, ?_, ?_⟩
  · rw [low, if_pos rfl]
    exact hmin
  · have hmax := v.toInt_lt
    unfold high
    split
    · omega
    · rw [bound_zero]
      omega

theorem toInt_last (hacc : ac.Accepted) : (ac.mBuckets - 1).toInt64 = .ofNat ac.last := by
  have hlast := ac.last_lt
  apply Int64.toInt_inj.mp
  rw [Int32.toInt_toInt64, Int32.toInt_sub, hacc.buckets, Int64.toInt_ofNat_of_lt (by omega)]
  simp only [Int32.reduceToInt]
  rw [Int.add_sub_cancel]
  exact Int.bmod_eq_of_le (by omega) (by omega)

theorem ofNat_inj (hi : i ≤ ac.last) (hj : j ≤ ac.last) (h : Int64.ofNat i = Int64.ofNat j) :
    i = j := by
  have hlast := ac.last_lt
  have hint := congrArg Int64.toInt h
  rw [Int64.toInt_ofNat_of_lt (by omega), Int64.toInt_ofNat_of_lt (by omega)] at hint
  omega

theorem quanta_linear (i : Nat) : quanta .scaleLinear i = i := by
  cases i <;> rfl

/-- The one value of a linear axis whose bucket number overflows. -/
theorem indexed_linear_iff (hacc : ac.Accepted) (hfits : ac.OffsetFits v)
    (hv : ac.mMin ≤ v) (hst : ac.mScaleType = .scaleLinear) :
    ac.Indexed v ↔ ac.offset v ≠ 2 ^ 63 - 1 := by
  have hnonneg := offset_nonneg hacc hv
  have hle := offset_le hv
  have hlt := hfits hv
  have hlast := ac.last_lt
  have htoInt := toInt_offset hacc hfits hv
  have hbucket : getBucketForAxis v ac =
      min ((v - ac.mMin) / ac.mQuantSize + 1) (.ofNat ac.last) := by
    unfold getBucketForAxis
    rw [if_neg (Int64.not_lt.mpr hv), hst, toInt_last hacc]
  have hlastInt : (Int64.ofNat ac.last).toInt = ac.last := Int64.toInt_ofNat_of_lt (by omega)
  generalize hq : (v - ac.mMin) / ac.mQuantSize = w at hbucket htoInt
  constructor
  · rintro ⟨i, hi, hindex, -, -⟩ heq
    have hw : w = Int64.maxValue := by
      apply Int64.toInt_inj.mp
      rw [htoInt, heq]
      rfl
    have hneg : (min (w + 1) (Int64.ofNat ac.last)).toInt < 0 := by
      have hle : w + 1 ≤ Int64.ofNat ac.last := by
        rw [Int64.le_iff_toInt_le, hlastInt, hw]
        exact Int.le_trans (by decide) (Int.natCast_nonneg _)
      rw [show min (w + 1) (Int64.ofNat ac.last) = w + 1 from if_pos hle, hw]
      decide
    rw [← hbucket, hindex, Int64.toInt_ofNat_of_lt (by omega)] at hneg
    omega
  · intro hne
    have hsucc : (w + 1).toInt = ac.offset v + 1 := by
      rw [Int64.toInt_add, htoInt]
      exact Int.bmod_eq_of_le (by simp only [Int64.reduceToInt]; omega)
        (by simp only [Int64.reduceToInt]; omega)
    by_cases hmore : ac.offset v + 1 ≤ ac.last
    · have hmin : min (w + 1) (Int64.ofNat ac.last) = w + 1 := by
        apply if_pos
        rw [Int64.le_iff_toInt_le, hsucc, hlastInt]
        exact hmore
      refine ⟨(ac.offset v + 1).toNat, by omega, ?_, ?_⟩
      · apply Int64.toInt_inj.mp
        rw [hbucket, hmin, hsucc, Int64.toInt_ofNat_of_lt (by omega)]
        omega
      · rw [within_iff hacc (by omega), hst, quanta_linear, quanta_linear]
        omega
    · have hmin : min (w + 1) (Int64.ofNat ac.last) = .ofNat ac.last := by
        apply if_neg
        rw [Int64.le_iff_toInt_le, hsucc, hlastInt]
        exact hmore
      refine ⟨ac.last, le_rfl, hbucket.trans hmin, ?_⟩
      rw [within_iff hacc le_rfl, hst, quanta_linear, quanta_linear]
      omega

/-- What the loop over the quanta of a logarithmic axis compares. -/
theorem lt_getQuants_iff {w : Int64} (hw : 0 ≤ w.toInt) (hpos : 0 < i) (hi : i ≤ 64) :
    w < getQuants (.ofNat i) .scaleLog2 ↔ i ≤ 63 ∧ w.toInt < quanta .scaleLog2 i := by
  rw [Int64.lt_iff_toInt_lt, getQuants_log2 hpos hi]
  obtain ⟨k, rfl⟩ : ∃ k, i = k + 1 := ⟨i - 1, by omega⟩
  by_cases hlast : k = 63
  · subst hlast
    have hneg : (Int64.ofInt (quanta .scaleLog2 (63 + 1))).toInt = -2 ^ 63 := by decide
    rw [hneg]
    omega
  · have hpow : (2 : Nat) ^ k ≤ 2 ^ 62 := Nat.pow_le_pow_right (by decide) (by omega)
    have hquanta : quanta .scaleLog2 (k + 1) = 2 ^ k := rfl
    rw [hquanta, Int64.toInt_ofInt_of_le (by omega) (by omega)]
    omega

/-- The quanta below the first one that is not passed are passed. -/
theorem quanta_pred_le {w : Int64} (hw : 0 ≤ w.toInt) (hpos : 0 < i) (hi : i ≤ 64)
    (hpassed : ∀ j, 1 ≤ j → j < i → (!decide (w < getQuants (.ofNat j) .scaleLog2)) = true) :
    (quanta .scaleLog2 (i - 1) : Int) ≤ w.toInt := by
  rcases Nat.eq_or_lt_of_le hpos with rfl | hmore
  · exact hw
  · have hprev := hpassed (i - 1) (by omega) (by omega)
    rw [Bool.not_eq_true', decide_eq_false_iff_not,
      lt_getQuants_iff hw (by omega) (by omega)] at hprev
    omega

theorem find?_log2_some {w : Int64} (hw : 0 ≤ w.toInt) {n : Nat} (hn : n ≤ 65)
    (h : (List.range' 1 n).find? (fun i => decide (w < getQuants (.ofNat i) .scaleLog2)) = some i) :
    0 < i ∧ i ≤ n ∧ i ≤ 63 ∧ (quanta .scaleLog2 (i - 1) : Int) ≤ w.toInt ∧
      w.toInt < quanta .scaleLog2 i := by
  obtain ⟨hless, hmem, hpassed⟩ := List.find?_range'_eq_some.mp h
  rw [List.mem_range'_1] at hmem
  rw [decide_eq_true_iff] at hless
  by_cases hshift : i = 65
  · -- The last quantum is shifted by more bits than the type has.
    subst hshift
    have hone : w.toInt < 1 := Int64.lt_iff_toInt_lt.mp hless
    have hfirst := quanta_pred_le (i := 2) hw (by decide) (by decide)
      fun j hj hlt => hpassed j hj (by omega)
    have hquanta : quanta .scaleLog2 (2 - 1) = 1 := rfl
    omega
  · rw [lt_getQuants_iff hw (by omega) (by omega)] at hless
    exact ⟨by omega, by omega, hless.1, quanta_pred_le hw (by omega) (by omega) hpassed, hless.2⟩

theorem find?_log2_none {w : Int64} (hw : 0 ≤ w.toInt) {n : Nat}
    (h : (List.range' 1 n).find? (fun i => decide (w < getQuants (.ofNat i) .scaleLog2)) = none) :
    (quanta .scaleLog2 (min (n - 1) 63) : Int) ≤ w.toInt := by
  have hpassed := List.find?_range'_eq_none.mp h
  exact quanta_pred_le (i := min (n - 1) 63 + 1) hw (by omega) (by omega)
    fun j hj hlt => hpassed j hj (by omega)

/-- Only a quantum of one leaves room for 66 logarithmic buckets. -/
theorem Fits.quantSize (h : ac.Fits) (hacc : ac.Accepted) (hst : ac.mScaleType = .scaleLog2)
    (hlast : ac.last = 65) : ac.mQuantSize.toInt = 1 := by
  have hbound := h.highest 64 (by omega) (by decide)
  have hmin := ac.mMin.le_toInt
  have hquant := hacc.quantSize
  rw [AxismRdmaConfigIgD.bound, hst, quanta] at hbound
  push_cast at hbound
  omega

theorem indexed_log2_iff (h : ac.Fits) (hacc : ac.Accepted) (hfits : ac.OffsetFits v)
    (hv : ac.mMin ≤ v) (hst : ac.mScaleType = .scaleLog2) :
    ac.Indexed v ↔ (ac.last = 65 → ac.offset v < 2 ^ 62) := by
  have hlt := hfits hv
  have hlast := h.last_le hacc hst
  have hle := offset_le hv
  have htoInt := toInt_offset hacc hfits hv
  have hnonneg : 0 ≤ ((v - ac.mMin) / ac.mQuantSize).toInt := htoInt ▸ offset_nonneg hacc hv
  unfold Indexed getBucketForAxis
  rw [if_neg (Int64.not_lt.mpr hv), hst, toInt_last hacc]
  dsimp only
  split
  · rename_i i hfind
    obtain ⟨hpos, hi, hsmall, hfrom, hto⟩ := find?_log2_some hnonneg hlast hfind
    rw [htoInt] at hfrom hto
    constructor
    · intro _ _
      have hpow : quanta .scaleLog2 i ≤ quanta .scaleLog2 63 :=
        (strictMono_nat_of_lt_succ (quanta_lt .scaleLog2)).monotone hsmall
      have hquanta : quanta .scaleLog2 63 = 2 ^ 62 := rfl
      omega
    · intro _
      refine ⟨i, hi, rfl, (within_iff hacc hi).mpr ?_⟩
      rw [hst]
      exact ⟨.inr hfrom, .inr hto⟩
  · rename_i hfind
    have hpast := find?_log2_none (n := ac.last) hnonneg hfind
    rw [htoInt] at hpast
    have hwithin := within_iff (v := v) hacc (le_refl ac.last)
    rw [hst] at hwithin
    have hiff : (∃ i, i ≤ ac.last ∧ Int64.ofNat ac.last = .ofNat i ∧ ac.low i ≤ v.toInt ∧
        v.toInt ≤ ac.high i) ↔ ac.low ac.last ≤ v.toInt ∧ v.toInt ≤ ac.high ac.last := by
      constructor
      · rintro ⟨i, hi, heq, hin⟩
        obtain rfl := ofNat_inj le_rfl hi heq
        exact hin
      · intro hin
        exact ⟨ac.last, le_rfl, rfl, hin⟩
    rw [hiff, hwithin]
    by_cases hmost : ac.last = 65
    · have hone := h.quantSize hacc hst hmost
      rw [hmost] at hpast ⊢
      have hquanta : quanta .scaleLog2 (min (65 - 1) 63) = 2 ^ 62 := rfl
      have hquanta' : quanta .scaleLog2 (65 - 1) = 2 ^ 63 := rfl
      omega
    · rw [show min (ac.last - 1) 63 = ac.last - 1 by omega] at hpast
      exact ⟨fun _ h => absurd h hmost, fun _ => ⟨.inr hpast, .inl rfl⟩⟩

/-- The values that get the right bucket. A linear axis adds one to the offset, and a logarithmic
one has two quanta that do not fit when it has 66 buckets. -/
def Classified (ac : AxismRdmaConfigIgD) (v : Int64) : Prop :=
  ac.mMin ≤ v →
    (ac.mScaleType = .scaleLinear → ac.mQuantSize = 1 → v.toInt - ac.mMin.toInt ≠ 2 ^ 63 - 1) ∧
      (ac.mScaleType = .scaleLog2 → ac.mBuckets = 66 → v.toInt - ac.mMin.toInt < 2 ^ 62)

instance (ac : AxismRdmaConfigIgD) (v : Int64) : Decidable (ac.Classified v) :=
  inferInstanceAs (Decidable (_ → _))

theorem indexed_iff (h : ac.Fits) (hacc : ac.Accepted) (hfits : ac.OffsetFits v) :
    ac.Indexed v ↔ ac.Classified v := by
  by_cases hv : ac.mMin ≤ v
  · have hquant := hacc.quantSize
    have hlt := hfits hv
    have hnonneg := Int64.le_iff_toInt_le.mp hv
    have hone : ac.mQuantSize = 1 ↔ ac.mQuantSize.toInt = 1 := Int64.toInt_inj.symm
    unfold Classified
    rw [forall_prop_of_true hv]
    cases hst : ac.mScaleType with
    | scaleLinear =>
        rw [indexed_linear_iff hacc hfits hv hst, offset, forall_prop_of_true rfl, hone,
          and_iff_left (fun h => nomatch h)]
        by_cases hq : ac.mQuantSize.toInt = 1
        · rw [hq, Int.ediv_one, forall_prop_of_true rfl]
        · refine iff_of_true (fun heq => ?_) fun h => absurd h hq
          have hmul := (Int.le_ediv_iff_mul_le hquant).mp heq.ge
          omega
    | scaleLog2 =>
        have hbuckets : ac.mBuckets = 66 ↔ ac.last = 65 := by
          rw [← Int32.toInt_inj, hacc.buckets]
          simp only [Int32.reduceToInt]
          omega
        rw [indexed_log2_iff h hacc hfits hv hst, hbuckets, forall_prop_of_true rfl,
          and_iff_right (fun h => nomatch h)]
        apply imp_congr_right
        intro hlast
        rw [offset, h.quantSize hacc hst hlast, Int.ediv_one]
  · exact iff_of_true (indexed_of_lt (Int64.not_le.mp hv)) fun h => absurd h hv

/-- What the two loops of an axis say about a value. -/
structure Agrees (ac : AxismRdmaConfigIgD) (v : Int64) : Prop where
  tiles : Tiles (getAxisBucketRanges ac)
  index : ∃ i < (getAxisBucketRanges ac).length, getBucketForAxis v ac = .ofNat i ∧
    ∀ j r, (getAxisBucketRanges ac)[j]? = some r → (r.1 ≤ v ∧ v ≤ r.2 ↔ j = i)

theorem agrees_iff (h : ac.Fits) (hacc : ac.Accepted) : ac.Agrees v ↔ ac.Indexed v := by
  have hin : ∀ {j r}, (getAxisBucketRanges ac)[j]? = some r →
      (r.1 ≤ v ∧ v ≤ r.2 ↔ ac.low j ≤ v.toInt ∧ v.toInt ≤ ac.high j) := by
    intro j r hr
    obtain ⟨-, hlow, hhigh⟩ := range_spec h hacc hr
    rw [Int64.le_iff_toInt_le, Int64.le_iff_toInt_le, hlow, hhigh]
  constructor
  · rintro ⟨-, i, hi, hbucket, honly⟩
    have hr := List.getElem?_eq_getElem hi
    exact ⟨i, (range_spec h hacc hr).1, hbucket, (hin hr).mp ((honly i _ hr).mpr rfl)⟩
  · rintro ⟨i, hi, hbucket, hv⟩
    refine ⟨tiles h hacc, i, ?_, hbucket, fun j r hr => ?_⟩
    · rw [length_getAxisBucketRanges h hacc]
      omega
    · rw [hin hr]
      constructor
      · intro hvj
        exact index_unique hacc (range_spec h hacc hr).1 hi hvj hv
      · rintro rfl
        exact hv

end AxismRdmaConfigIgD

namespace PerfHistogram

open AxismRdmaConfigIgD

/-- One counter is increased, and no others. -/
structure Counted (h h' : PerfHistogram 2) (i j : Int64) : Prop where
  axes : h'.axes = h.axes
  counter : ∃ k n, h.mRawData[k]? = some n ∧ h'.mRawData = h.mRawData.set k (n + 1) ∧
    h.readBucket #v[i, j] = some n ∧ h'.readBucket #v[i, j] = some (n + 1)
  others : ∀ i' j', i' ≠ i ∨ j' ≠ j → h'.readBucket #v[i', j'] = h.readBucket #v[i', j']

/-- The ranges that a reader gets are those of the counters. -/
structure Agrees (h : PerfHistogram 2) (x y : Int64) : Prop where
  fst : h.axes[0].Agrees x
  snd : h.axes[1].Agrees y
  counted : ∃ h', h.inc #v[x, y] = some h' ∧
    h.Counted h' (getBucketForAxis x h.axes[0]) (getBucketForAxis y h.axes[1])

variable {h : PerfHistogram 2} {i j : Nat}

/-- The place of a pair of buckets in the array. -/
def rawIndex (h : PerfHistogram 2) (i j : Nat) : Nat := (h.axes[1].last + 1) * i + j

theorem accepted_fst (h : PerfHistogram 2) : h.axes[0].Accepted :=
  h.accepted _ (Vector.getElem_mem _)

theorem accepted_snd (h : PerfHistogram 2) : h.axes[1].Accepted :=
  h.accepted _ (Vector.getElem_mem _)

theorem toInt64_buckets {ac : AxismRdmaConfigIgD} (hacc : ac.Accepted) :
    ac.mBuckets.toInt64 = .ofNat (ac.last + 1) := by
  have hlast := ac.last_lt
  apply Int64.toInt_inj.mp
  rw [Int32.toInt_toInt64, hacc.buckets, Int64.toInt_ofNat_of_lt (by omega)]
  rfl

theorem toList_axes (h : PerfHistogram 2) : h.axes.toList = [h.axes[0], h.axes[1]] := by
  rcases h.axes with ⟨⟨l⟩, hl⟩
  match l, hl with
  | [a, b], _ => rfl

theorem rawSize (h : PerfHistogram 2) :
    h.mRawData.length = (h.axes[0].last + 1) * (h.axes[1].last + 1) := by
  have hfst := h.axes[0].last_lt
  have hsnd := h.axes[1].last_lt
  have hlt : (h.axes[0].last + 1) * (h.axes[1].last + 1) ≤ 2 ^ 31 * 2 ^ 31 :=
    Nat.mul_le_mul hfst hsnd
  rw [h.sized, getRawSize, h.toList_axes, List.foldl_cons, List.foldl_cons, List.foldl_nil,
    toInt64_buckets h.accepted_fst, toInt64_buckets h.accepted_snd, Int64.one_mul,
    ← Int64.ofNat_mul]
  exact Int64.toNatClampNeg_ofNat_of_lt (by omega)

theorem rawIndex_lt (hi : i ≤ h.axes[0].last) (hj : j ≤ h.axes[1].last) :
    h.rawIndex i j < h.mRawData.length := by
  have hle : (h.axes[1].last + 1) * i ≤ (h.axes[1].last + 1) * h.axes[0].last :=
    Nat.mul_le_mul_left _ hi
  rw [h.rawSize, rawIndex, Nat.mul_comm (h.axes[0].last + 1), Nat.mul_succ]
  omega

theorem rawIndex_inj {i' j' : Nat} (hj : j ≤ h.axes[1].last) (hj' : j' ≤ h.axes[1].last)
    (heq : h.rawIndex i j = h.rawIndex i' j') : i = i' ∧ j = j' := by
  unfold rawIndex at heq
  have hdiv := congrArg (· / (h.axes[1].last + 1)) heq
  have hmod := congrArg (· % (h.axes[1].last + 1)) heq
  have hlt := Nat.lt_succ_of_le hj
  have hlt' := Nat.lt_succ_of_le hj'
  simp only [Nat.mul_add_mod, Nat.mul_add_div (Nat.succ_pos _), Nat.mod_eq_of_lt hlt,
    Nat.mod_eq_of_lt hlt', Nat.div_eq_of_lt hlt, Nat.div_eq_of_lt hlt', Nat.add_zero] at hdiv hmod
  exact ⟨hdiv, hmod⟩

theorem place_rawIndex (hi : i ≤ h.axes[0].last) (hj : j ≤ h.axes[1].last) :
    h.place (h.axes[1].mBuckets.toInt64 * (h.axes[0].mBuckets.toInt64 * 0 + .ofNat i) + .ofNat j) =
      some (h.rawIndex i j) := by
  have hfst := h.axes[0].last_lt
  have hsnd := h.axes[1].last_lt
  have hin := rawIndex_lt hi hj
  have hlt : h.rawIndex i j < 2 ^ 63 := by
    have hle : (h.axes[0].last + 1) * (h.axes[1].last + 1) ≤ 2 ^ 31 * 2 ^ 31 :=
      Nat.mul_le_mul hfst hsnd
    rw [h.rawSize] at hin
    omega
  rw [toInt64_buckets h.accepted_snd, Int64.mul_zero, Int64.zero_add,
    ← Int64.ofNat_mul, ← Int64.ofNat_add]
  show h.place (.ofNat (h.rawIndex i j)) = _
  rw [place, Int64.toNatClampNeg_ofNat_of_lt hlt, if_pos]
  refine ⟨?_, hin⟩
  rw [Int64.le_iff_toInt_le, Int64.toInt_ofNat_of_lt hlt]
  exact Int.natCast_nonneg _

theorem checkBucket_ofNat {ac : AxismRdmaConfigIgD} (hacc : ac.Accepted) (hi : i ≤ ac.last) :
    checkBucket (.ofNat i) ac = some (.ofNat i) := by
  have hlast := ac.last_lt
  apply if_pos
  rw [ge_iff_le, Int64.le_iff_toInt_le, Int64.lt_iff_toInt_lt, Int64.toInt_ofNat_of_lt (by omega),
    Int32.toInt_toInt64, hacc.buckets]
  exact ⟨Int.natCast_nonneg _, by omega⟩

theorem readBucket_ofNat (hi : i ≤ h.axes[0].last) (hj : j ≤ h.axes[1].last) :
    h.readBucket #v[.ofNat i, .ofNat j] = h.mRawData[h.rawIndex i j]? := by
  unfold readBucket getRawIndexForBucket
  rw [h.toList_axes]
  simp only [Vector.toList_mk, List.zip_cons_cons, List.zip_nil_left, getRawIndexInternal,
    checkBucket_ofNat h.accepted_fst hi, checkBucket_ofNat h.accepted_snd hj,
    Option.bind_eq_bind, Option.bind_some, place_rawIndex hi hj]

theorem checkBucket_cases {ac : AxismRdmaConfigIgD} (hacc : ac.Accepted) (a : Int64) :
    (∃ i, i ≤ ac.last ∧ a = .ofNat i) ∨ checkBucket a ac = none := by
  by_cases hin : a ≥ 0 ∧ a < ac.mBuckets.toInt64
  · have hlt := Int64.lt_iff_toInt_lt.mp hin.2
    have hcast := Int64.cast_toNatClampNeg a hin.1
    rw [Int32.toInt_toInt64, hacc.buckets] at hlt
    exact .inl ⟨a.toNatClampNeg, by omega, (Int64.ofNat_toNatClampNeg a hin.1).symm⟩
  · exact .inr (if_neg hin)

/-- Other numbers than those of buckets are not read. -/
theorem readBucket_cases (h : PerfHistogram 2) (a b : Int64) :
    (∃ i j, i ≤ h.axes[0].last ∧ j ≤ h.axes[1].last ∧ a = .ofNat i ∧ b = .ofNat j) ∨
      ∀ h' : PerfHistogram 2, h'.axes = h.axes → h'.readBucket #v[a, b] = none := by
  have hread : ∀ h' : PerfHistogram 2, h'.axes = h.axes → h'.readBucket #v[a, b] =
      ((checkBucket a h.axes[0]).bind fun i => (checkBucket b h.axes[1]).bind fun j =>
        (h'.place (h.axes[1].mBuckets.toInt64 * (h.axes[0].mBuckets.toInt64 * 0 + i) + j)).bind
          fun k => h'.mRawData[k]?) := by
    intro h' haxes
    unfold readBucket getRawIndexForBucket
    rw [h'.toList_axes, haxes]
    simp only [Vector.toList_mk, List.zip_cons_cons, List.zip_nil_left, getRawIndexInternal,
      Option.bind_eq_bind, Option.bind_assoc, Option.bind_some]
  rcases checkBucket_cases h.accepted_fst a with ⟨i, hi, ha⟩ | hnone
  · rcases checkBucket_cases h.accepted_snd b with ⟨j, hj, hb⟩ | hnone
    · exact .inl ⟨i, j, hi, hj, ha, hb⟩
    · right
      intro h' haxes
      rw [hread h' haxes, hnone]
      cases checkBucket a h.axes[0] with
      | none => rfl
      | some bucket => rfl
  · right
    intro h' haxes
    rw [hread h' haxes, hnone]
    rfl

theorem increase_counted (hi : i ≤ h.axes[0].last) (hj : j ≤ h.axes[1].last) :
    h.Counted (h.increase (h.rawIndex i j)) (.ofNat i) (.ofNat j) := by
  have hlt := rawIndex_lt hi hj
  have hdata : (h.increase (h.rawIndex i j)).mRawData =
      h.mRawData.set (h.rawIndex i j) (h.mRawData[h.rawIndex i j] + 1) := by
    show h.mRawData.modify _ _ = _
    rw [List.modify_eq_set, List.getElem?_eq_getElem hlt, Option.getD_some]
  refine ⟨rfl, ⟨h.rawIndex i j, _, List.getElem?_eq_getElem hlt, hdata, ?_, ?_⟩, ?_⟩
  · rw [readBucket_ofNat hi hj, List.getElem?_eq_getElem hlt]
  · rw [readBucket_ofNat (h := h.increase _) hi hj, hdata]
    exact List.getElem?_set_self hlt
  · intro a b hother
    rcases h.readBucket_cases a b with ⟨i', j', hi', hj', rfl, rfl⟩ | hnone
    · have hne : h.rawIndex i j ≠ h.rawIndex i' j' := by
        intro heq
        obtain ⟨rfl, rfl⟩ := rawIndex_inj hj hj' heq
        simp at hother
      rw [readBucket_ofNat (h := h.increase _) hi' hj', readBucket_ofNat hi' hj', hdata]
      exact List.getElem?_set_ne hne
    · rw [hnone h rfl]
      exact hnone _ rfl

theorem inc_eq {x y : Int64} (hi : i ≤ h.axes[0].last) (hj : j ≤ h.axes[1].last)
    (hx : getBucketForAxis x h.axes[0] = .ofNat i) (hy : getBucketForAxis y h.axes[1] = .ofNat j) :
    h.inc #v[x, y] = some (h.increase (h.rawIndex i j)) := by
  unfold inc getRawIndexForValue
  rw [h.toList_axes]
  simp only [Vector.toList_mk, List.zip_cons_cons, List.zip_nil_left, getRawIndexInternal,
    Option.bind_eq_bind, Option.bind_some, hx, hy, place_rawIndex hi hj]
  rfl

/-- The buckets are those of the published ranges, and the right counter is increased, unless the
bucket number of a value overflows. -/
theorem histogram_agrees_iff (h : PerfHistogram 2) (x y : Int64) (hfst : h.axes[0].Fits)
    (hsnd : h.axes[1].Fits) (hx : h.axes[0].OffsetFits x) (hy : h.axes[1].OffsetFits y) :
    h.Agrees x y ↔ h.axes[0].Classified x ∧ h.axes[1].Classified y := by
  rw [← indexed_iff hfst h.accepted_fst hx, ← indexed_iff hsnd h.accepted_snd hy]
  constructor
  · intro hagrees
    exact ⟨(agrees_iff hfst h.accepted_fst).mp hagrees.fst,
      (agrees_iff hsnd h.accepted_snd).mp hagrees.snd⟩
  · rintro ⟨hix, hiy⟩
    refine ⟨(agrees_iff hfst h.accepted_fst).mpr hix, (agrees_iff hsnd h.accepted_snd).mpr hiy, ?_⟩
    obtain ⟨i, hi, hbx, -⟩ := hix
    obtain ⟨j, hj, hby, -⟩ := hiy
    refine ⟨h.increase (h.rawIndex i j), inc_eq hi hj hbx hby, ?_⟩
    rw [hbx, hby]
    exact increase_counted hi hj

/-- A linear and a logarithmic axis. -/
theorem histogram_agrees_iff_mixed : ∃ h : PerfHistogram 2,
    new [⟨.scaleLinear, 0, 10, 4⟩, ⟨.scaleLog2, -3, 2, 5⟩] = some h ∧ h.Agrees 25 3 :=
  ⟨_, rfl, (histogram_agrees_iff _ 25 3 (by decide) (by decide) (by decide) (by decide)).mpr
    (by decide)⟩

/-- The greatest value of a linear axis that starts at zero. -/
theorem histogram_not_agrees : ∃ h : PerfHistogram 2,
    new [⟨.scaleLinear, 0, 1, 4⟩, ⟨.scaleLinear, 0, 1, 3⟩] = some h ∧
      h.axes[0].Fits ∧ h.axes[1].Fits ∧
      h.axes[0].OffsetFits Int64.maxValue ∧ h.axes[1].OffsetFits 0 ∧
      getBucketForAxis Int64.maxValue h.axes[0] = Int64.minValue ∧
      (h.inc #v[Int64.maxValue, 0]).isNone ∧ ¬ h.Agrees Int64.maxValue 0 := by
  refine ⟨_, rfl, by decide, by decide, by decide, by decide, by decide, by decide, ?_⟩
  intro hagrees
  obtain ⟨i, hi, hbucket, -⟩ := hagrees.fst.index
  have hnone : ∀ i < 4, getBucketForAxis Int64.maxValue ⟨.scaleLinear, 0, 1, 4⟩ ≠ .ofNat i := by
    decide
  exact hnone i hi hbucket

end PerfHistogram

end RdmaCapsule.Common
