import Mathlib

/-! Text in buffers. `sprintf` writes numbers in hexadecimal and a terminator,
`sscanf` reads them back; a text that spells a number is read as that number,
whatever its width. -/
namespace RdmaCapsule.Foundation.Text

variable {text rest buffer : List Char} {n bits : Nat} {c : Char}

abbrev nul : Char := '\x00'

/-- The text and its terminator over what the buffer held, or nothing if they do not fit. -/
def putString (text buffer : List Char) : Option (List Char) :=
  if text.length < buffer.length then some (text ++ nul :: buffer.drop (text.length + 1))
  else none

/-- `putString` from an offset on. -/
def putStringAt (offset : Nat) (text buffer : List Char) : Option (List Char) :=
  (putString text (buffer.drop offset)).map (buffer.take offset ++ ·)

/-- The text up to the terminator, or nothing if there is none. -/
def cString (buffer : List Char) : Option (List Char) :=
  if nul ∈ buffer then some (buffer.takeWhile (· != nul)) else none

theorem putString_eq (h : text.length < buffer.length) :
    putString text buffer = some (text ++ nul :: buffer.drop (text.length + 1)) := if_pos h

theorem length_put (h : text.length < buffer.length) :
    (text ++ nul :: buffer.drop (text.length + 1)).length = buffer.length := by
  simp only [List.length_append, List.length_cons, List.length_drop]
  omega

theorem cString_put (h : nul ∉ text) : cString (text ++ nul :: rest) = some text := by
  have hall : ∀ c ∈ text, (c != nul) = true := by
    intro c hc
    simp only [bne_iff_ne, ne_eq]
    rintro rfl
    exact h hc
  unfold cString
  rw [if_pos (by simp), List.takeWhile_append_of_pos hall]
  simp

/-- A text behind another one. -/
theorem putStringAt_append (before : List Char) (h : text.length < rest.length) :
    putStringAt before.length text (before ++ rest) =
      some (before ++ (text ++ nul :: rest.drop (text.length + 1))) := by
  unfold putStringAt
  rw [List.drop_left, List.take_left, putString_eq h]
  rfl

def hexValue (c : Char) : Option Nat :=
  if '0' ≤ c ∧ c ≤ '9' then some (c.toNat - '0'.toNat)
  else if 'a' ≤ c ∧ c ≤ 'f' then some (c.toNat - 'a'.toNat + 10)
  else if 'A' ≤ c ∧ c ≤ 'F' then some (c.toNat - 'A'.toNat + 10)
  else none

def isHexDigit (c : Char) : Bool := (hexValue c).isSome

def hexDigits (text : List Char) : Nat :=
  text.foldl (fun acc c => 16 * acc + (hexValue c).getD 0) 0

def isSpace (c : Char) : Bool :=
  c = ' ' ∨ c = '\t' ∨ c = '\n' ∨ c = '\x0b' ∨ c = '\x0c' ∨ c = '\r'

def skipSign : List Char → Bool × List Char
  | '-' :: text => (true, text)
  | '+' :: text => (false, text)
  | text => (false, text)

def skipBase : List Char → List Char
  | '0' :: 'x' :: text => text
  | '0' :: 'X' :: text => text
  | text => text

/-- `%x` into a variable of so many bits. The number is that of `strtoul`, 64 bits wide. -/
def scanHex (bits : Nat) (text : List Char) : Option (Nat × List Char) :=
  let (minus, text) := skipSign (text.dropWhile isSpace)
  let text := skipBase text
  let digits := text.takeWhile isHexDigit
  if digits = [] then none
  else
    let n := min (hexDigits digits) (2 ^ 64 - 1)
    let n := if minus then (2 ^ 64 - n) % 2 ^ 64 else n
    some (n % 2 ^ bits, text.dropWhile isHexDigit)

/-- `%s`. -/
def scanString (text : List Char) : Option (List Char × List Char) :=
  let text := text.dropWhile isSpace
  let word := text.takeWhile (!isSpace ·)
  if word = [] then none else some (word, text.dropWhile (!isSpace ·))

inductive Directive where
  | hex (bits : Nat)
  | char (c : Char)
  | string
  deriving DecidableEq, Repr

inductive Item where
  | number (n : Nat)
  | string (text : List Char)
  deriving DecidableEq, Repr

/-- The items that are assigned; the scan stops at the first directive that fails. -/
def sscanf : List Directive → List Char → List Item
  | [], _ => []
  | .hex bits :: format, text =>
      match scanHex bits text with
      | none => []
      | some (n, text) => .number n :: sscanf format text
  | .char _ :: _, [] => []
  | .char c :: format, c' :: text => if c' = c then sscanf format text else []
  | .string :: format, text =>
      match scanString text with
      | none => []
      | some (word, text) => .string word :: sscanf format text

/-- `%x`, without leading zeros. -/
def toHex (n : Nat) : List Char := Nat.toDigits 16 n

/-- `%0wx`. -/
def padHex (width n : Nat) : List Char := (toHex n).leftpad width '0'

/-- The text is one hexadecimal number. -/
structure Spells (text : List Char) (n : Nat) : Prop where
  nonempty : text ≠ []
  digits : ∀ c ∈ text, isHexDigit c = true
  value : hexDigits text = n

theorem hexValue_digitChar {d : Nat} (h : d < 16) : hexValue d.digitChar = some d := by
  interval_cases d <;> rfl

theorem hexDigits_append_digitChar {d : Nat} (h : d < 16) (text : List Char) :
    hexDigits (text ++ [d.digitChar]) = 16 * hexDigits text + d := by
  simp [hexDigits, List.foldl_append, hexValue_digitChar h]

theorem isHexDigit_digitChar {d : Nat} (h : d < 16) : isHexDigit d.digitChar = true := by
  simp [isHexDigit, hexValue_digitChar h]

theorem spells_toHex (n : Nat) : Spells (toHex n) n := by
  induction n using Nat.strong_induction_on with
  | _ n ih =>
      unfold toHex
      by_cases hn : n < 16
      · rw [Nat.toDigits_of_lt_base hn]
        refine ⟨by simp, ?_, ?_⟩
        · intro c hc
          rw [List.mem_singleton.mp hc]
          exact isHexDigit_digitChar hn
        · have hone := hexDigits_append_digitChar hn []
          simpa [hexDigits] using hone
      · have hmod : n % 16 < 16 := Nat.mod_lt n (by omega)
        obtain ⟨hne, hdigits, hvalue⟩ := ih (n / 16) (by omega)
        rw [Nat.toDigits_of_base_le (by omega) (by omega)]
        refine ⟨by simp, ?_, ?_⟩
        · intro c hc
          rcases List.mem_append.mp hc with hc | hc
          · exact hdigits c hc
          · rw [List.mem_singleton.mp hc]
            exact isHexDigit_digitChar hmod
        · rw [hexDigits_append_digitChar hmod]
          unfold toHex at hvalue
          omega

/-- Leading zeros do not change the number. -/
theorem Spells.zeros (h : Spells text n) (k : Nat) : Spells (List.replicate k '0' ++ text) n := by
  induction k with
  | zero => exact h
  | succ k ih =>
      rw [List.replicate_succ, List.cons_append]
      refine ⟨by simp, ?_, ih.value⟩
      intro c hc
      rcases List.mem_cons.mp hc with rfl | hc
      · rfl
      · exact ih.digits c hc

theorem spells_padHex (width n : Nat) : Spells (padHex width n) n := (spells_toHex n).zeros _

theorem length_toHex_le {width : Nat} (hwidth : 0 < width) (h : n < 16 ^ width) :
    (toHex n).length ≤ width := (Nat.length_toDigits_le_iff (by omega) hwidth).mpr h

theorem length_padHex {width : Nat} (hwidth : 0 < width) (h : n < 16 ^ width) :
    (padHex width n).length = width := by
  have hle := length_toHex_le hwidth h
  unfold padHex
  rw [List.length_leftpad]
  omega

theorem isSpace_of_isHexDigit (h : isHexDigit c = true) : isSpace c = false := by
  by_contra hspace
  simp only [isSpace, Bool.not_eq_false, decide_eq_true_eq] at hspace
  rcases hspace with rfl | rfl | rfl | rfl | rfl | rfl <;> exact absurd h (by decide)

theorem skipSign_of_isHexDigit (h : isHexDigit c = true) :
    skipSign (c :: rest) = (false, c :: rest) := by
  unfold skipSign
  split
  · rename_i heq
    cases heq
    exact absurd h (by decide)
  · rename_i heq
    cases heq
    exact absurd h (by decide)
  · rfl

theorem skipBase_of_isHexDigit (htext : ∀ c' ∈ text, isHexDigit c' = true)
    (hrest : ∀ c', rest.head? = some c' → c' ≠ 'x' ∧ c' ≠ 'X') :
    skipBase (c :: (text ++ rest)) = c :: (text ++ rest) := by
  have hsecond : ∀ c' tail, text ++ rest = c' :: tail → c' ≠ 'x' ∧ c' ≠ 'X' := by
    intro c' tail heq
    cases text with
    | nil => exact hrest c' (by simp_all)
    | cons c'' text =>
        cases heq
        have hhex := htext c' (by simp)
        constructor
        · rintro rfl
          exact absurd hhex (by decide)
        · rintro rfl
          exact absurd hhex (by decide)
  unfold skipBase
  split
  · rename_i heq
    exact absurd rfl (hsecond _ _ (List.cons.inj heq).2).1
  · rename_i heq
    exact absurd rfl (hsecond _ _ (List.cons.inj heq).2).2
  · rfl

/-- `rest` does not go on with a digit, nor is it the letter that `0` may be before. -/
structure EndsNumber (rest : List Char) : Prop where
  notDigit : ∀ c, rest.head? = some c → isHexDigit c = false
  notBase : ∀ c, rest.head? = some c → c ≠ 'x' ∧ c ≠ 'X'

theorem endsNumber_nil : EndsNumber [] := ⟨by simp, by simp⟩

theorem endsNumber_colon : EndsNumber (':' :: rest) := by
  constructor
  · intro c hc
    cases hc
    rfl
  · intro c hc
    cases hc
    decide

theorem EndsNumber.takeWhile (h : EndsNumber rest) : rest.takeWhile isHexDigit = [] := by
  cases rest with
  | nil => rfl
  | cons c rest => simp [h.notDigit c rfl]

theorem EndsNumber.dropWhile (h : EndsNumber rest) : rest.dropWhile isHexDigit = rest := by
  cases rest with
  | nil => rfl
  | cons c rest => simp [h.notDigit c rfl]

theorem Spells.scanHex (h : Spells text n) (hbits : bits ≤ 64) (hn : n < 2 ^ bits)
    (hrest : EndsNumber rest) : scanHex bits (text ++ rest) = some (n, rest) := by
  obtain ⟨c, tail, rfl⟩ := List.exists_cons_of_ne_nil h.nonempty
  have hc : isHexDigit c = true := h.digits c (by simp)
  have hpow : 2 ^ bits ≤ 2 ^ 64 := Nat.pow_le_pow_right (by omega) hbits
  have hmin : min n (2 ^ 64 - 1) = n := by omega
  have htail : ∀ c' ∈ tail, isHexDigit c' = true := by
    intro c' hc'
    exact h.digits c' (List.mem_cons_of_mem _ hc')
  have hbase : skipBase (c :: (tail ++ rest)) = c :: (tail ++ rest) :=
    skipBase_of_isHexDigit htail hrest.notBase
  unfold Text.scanHex
  rw [List.cons_append, List.dropWhile_cons_of_neg (by simp [isSpace_of_isHexDigit hc]),
    skipSign_of_isHexDigit hc]
  dsimp only
  rw [hbase, ← List.cons_append, List.takeWhile_append_of_pos h.digits,
    List.dropWhile_append_of_pos h.digits, hrest.takeWhile, hrest.dropWhile, List.append_nil,
    h.value, hmin, if_neg (by simp), if_neg (by simp), Nat.mod_eq_of_lt hn]

theorem Spells.sscanf_colon {format : List Directive} (h : Spells text n) (hbits : bits ≤ 64)
    (hn : n < 2 ^ bits) :
    sscanf (.hex bits :: .char ':' :: format) (text ++ ':' :: rest) =
      .number n :: sscanf format rest := by
  simp only [sscanf, h.scanHex hbits hn endsNumber_colon, if_true]

theorem Spells.sscanf_end (h : Spells text n) (hbits : bits ≤ 64) (hn : n < 2 ^ bits) :
    sscanf [.hex bits] text = [.number n] := by
  have hscan := h.scanHex hbits hn endsNumber_nil
  rw [List.append_nil] at hscan
  simp only [sscanf, hscan]

/-- Digits are a word for `%s`. -/
theorem Spells.sscanf_string (h : Spells text n) : sscanf [.string] text = [.string text] := by
  obtain ⟨c, tail, rfl⟩ := List.exists_cons_of_ne_nil h.nonempty
  have hword : ∀ c' ∈ c :: tail, (!isSpace c') = true := by
    intro c' hc'
    simp [isSpace_of_isHexDigit (h.digits c' hc')]
  have hhead : isSpace c = false := isSpace_of_isHexDigit (h.digits c (by simp))
  have htake : (c :: tail).takeWhile (!isSpace ·) = c :: tail := List.takeWhile_eq_self_iff.mpr hword
  have hscan : scanString (c :: tail) = some (c :: tail, (c :: tail).dropWhile (!isSpace ·)) := by
    unfold scanString
    rw [List.dropWhile_cons_of_neg (by simp [hhead])]
    dsimp only
    rw [htake, if_neg (by simp)]
  simp only [sscanf, hscan]

theorem Spells.append {text' : List Char} {n' : Nat} (h : Spells text n) (h' : Spells text' n') :
    ∃ m, Spells (text ++ text') m := by
  refine ⟨_, by simp [h.nonempty], ?_, rfl⟩
  intro c hc
  exact (List.mem_append.mp hc).elim (h.digits c) (h'.digits c)

theorem Spells.nul_notMem (h : Spells text n) : nul ∉ text := by
  intro hmem
  exact absurd (h.digits nul hmem) (by decide)

end RdmaCapsule.Foundation.Text
