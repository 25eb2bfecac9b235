import Mathlib
import RdmaCapsule.Foundation.Text

/-! Texts of numbers, each with a colon behind it, and a word at the end. They are given as a
grammar, without a scan; a scan makes all its conversions on these texts and on no others. -/
namespace RdmaCapsule.Foundation.Text

variable {text rest field digits word : List Char} {numbers : List Nat} {n bits : Nat} {c : Char}

/-- The value of the digits, with 64 bits. -/
def strtoul (minus : Bool) (digits : List Char) : Nat :=
  let n := min (hexDigits digits) (2 ^ 64 - 1)
  if minus then (2 ^ 64 - n) % 2 ^ 64 else n

/-- White space, a sign and a base, all of which may be missing, and digits. -/
inductive NumberText : List Char → Nat → Prop where
  | mk {spaces sign base digits : List Char} {minus : Bool}
      (hspaces : ∀ c ∈ spaces, isSpace c = true)
      (hsign : (sign, minus) = ([], false) ∨ (sign, minus) = (['+'], false) ∨
        (sign, minus) = (['-'], true))
      (hbase : base = [] ∨ base = ['0', 'x'] ∨ base = ['0', 'X'])
      (hdigits : digits ≠ []) (hhex : ∀ c ∈ digits, isHexDigit c = true) :
      NumberText (spaces ++ (sign ++ (base ++ digits))) (strtoul minus digits)

/-- The text begins with these numbers and this word. -/
inductive FieldText : List Char → List Nat → List Char → Prop where
  | word {spaces word rest : List Char} (hspaces : ∀ c ∈ spaces, isSpace c = true)
      (hword : word ≠ []) (hchars : ∀ c ∈ word, isSpace c = false)
      (hrest : ∀ c, rest.head? = some c → isSpace c = true) :
      FieldText (spaces ++ (word ++ rest)) [] word
  | number {field rest word : List Char} {n : Nat} {numbers : List Nat} (hfield : NumberText field n)
      (hrest : FieldText rest numbers word) : FieldText (field ++ ':' :: rest) (n :: numbers) word

/-- The format of such a text, from the widths of the variables. -/
def fieldsFormat : List Nat → List Directive
  | [] => [.string]
  | bits :: widths => .hex bits :: .char ':' :: fieldsFormat widths

/-- What is assigned. -/
def fieldsItems (widths numbers : List Nat) (word : List Char) : List Item :=
  List.zipWith (fun bits n => .number (n % 2 ^ bits)) widths numbers ++ [.string word]

theorem dropWhile_of_head {p : Char → Bool} (h : ∀ c, rest.head? = some c → p c = false) :
    rest.dropWhile p = rest := by
  cases rest with
  | nil => rfl
  | cons c rest => simp [h c rfl]

theorem takeWhile_of_head {p : Char → Bool} (h : ∀ c, rest.head? = some c → p c = false) :
    rest.takeWhile p = [] := by
  cases rest with
  | nil => rfl
  | cons c rest => simp [h c rfl]

theorem head_dropWhile {p : Char → Bool} (h : (text.dropWhile p).head? = some c) : p c = false := by
  have hnot := List.head?_dropWhile_not p text
  rw [h] at hnot
  simpa using hnot

theorem skipSign_eq (text : List Char) : ∃ sign, text = sign ++ (skipSign text).2 ∧
    ((sign, (skipSign text).1) = ([], false) ∨ (sign, (skipSign text).1) = (['+'], false) ∨
      (sign, (skipSign text).1) = (['-'], true)) := by
  unfold skipSign
  split
  · exact ⟨['-'], rfl, .inr (.inr rfl)⟩
  · exact ⟨['+'], rfl, .inr (.inl rfl)⟩
  · exact ⟨[], rfl, .inl rfl⟩

theorem skipBase_eq (text : List Char) : ∃ base, text = base ++ skipBase text ∧
    (base = [] ∨ base = ['0', 'x'] ∨ base = ['0', 'X']) := by
  unfold skipBase
  split
  · exact ⟨['0', 'x'], rfl, .inr (.inl rfl)⟩
  · exact ⟨['0', 'X'], rfl, .inr (.inr rfl)⟩
  · exact ⟨[], rfl, .inl rfl⟩

/-- A number that is scanned is a field in front of what is left. -/
theorem field_of_scanHex (h : scanHex bits text = some (n, rest)) :
    ∃ field m, text = field ++ rest ∧ NumberText field m ∧ n = m % 2 ^ bits := by
  unfold scanHex at h
  obtain ⟨sign, htext, hsign⟩ := skipSign_eq (text.dropWhile isSpace)
  obtain ⟨base, hafter, hbase⟩ := skipBase_eq (skipSign (text.dropWhile isSpace)).2
  dsimp only at h
  split at h
  · cases h
  · rename_i hdigits
    cases h
    have hspaces : ∀ c ∈ text.takeWhile isSpace, isSpace c = true := fun c hc =>
      List.mem_takeWhile_imp hc
    refine ⟨_, _, ?_, .mk hspaces hsign hbase hdigits fun c hc => List.mem_takeWhile_imp hc, rfl⟩
    · have hsplit := List.takeWhile_append_dropWhile (p := isSpace) (l := text)
      rw [htext, hafter, ← List.takeWhile_append_dropWhile (p := isHexDigit)
        (l := skipBase (skipSign (text.dropWhile isSpace)).2)] at hsplit
      calc text = _ := hsplit.symm
        _ = _ := by simp only [List.append_assoc]

theorem NumberText.scanHex (h : NumberText field n) :
    scanHex bits (field ++ ':' :: rest) = some (n % 2 ^ bits, ':' :: rest) := by
  obtain ⟨hspaces, hsign, hbase, hdigits, hhex⟩ := h
  rename_i spaces sign base digits minus
  obtain ⟨c, tail, rfl⟩ := List.exists_cons_of_ne_nil hdigits
  have hc : isHexDigit c = true := hhex c (by simp)
  have htail : ∀ c' ∈ tail, isHexDigit c' = true := fun c' hc' => hhex c' (List.mem_cons_of_mem _ hc')
  -- what comes first decides what is skipped
  have hbase' : skipBase (base ++ (c :: tail ++ ':' :: rest)) = c :: tail ++ ':' :: rest := by
    rcases hbase with rfl | rfl | rfl
    · exact skipBase_of_isHexDigit htail endsNumber_colon.notBase
    · rfl
    · rfl
  have hhead : ∃ c' tail', base ++ (c :: tail ++ ':' :: rest) = c' :: tail' ∧
      isHexDigit c' = true := by
    rcases hbase with rfl | rfl | rfl
    · exact ⟨c, _, rfl, hc⟩
    · exact ⟨'0', _, rfl, by decide⟩
    · exact ⟨'0', _, rfl, by decide⟩
  obtain ⟨c', tail', hfirst, hc'⟩ := hhead
  have hsign' : skipSign (sign ++ (base ++ (c :: tail ++ ':' :: rest))) =
      (minus, base ++ (c :: tail ++ ':' :: rest)) := by
    rcases hsign with hsign | hsign | hsign <;> cases hsign
    · rw [List.nil_append, hfirst]
      exact skipSign_of_isHexDigit hc'
    · rfl
    · rfl
  have hspace : (sign ++ (base ++ (c :: tail ++ ':' :: rest))).dropWhile isSpace =
      sign ++ (base ++ (c :: tail ++ ':' :: rest)) := by
    rcases hsign with hsign | hsign | hsign <;> cases hsign
    · rw [List.nil_append, hfirst]
      exact List.dropWhile_cons_of_neg (by simp [isSpace_of_isHexDigit hc'])
    · exact List.dropWhile_cons_of_neg (by decide)
    · exact List.dropWhile_cons_of_neg (by decide)
  unfold Text.scanHex
  rw [List.append_assoc, List.append_assoc, List.append_assoc, List.dropWhile_append_of_pos hspaces,
    hspace, hsign']
  dsimp only
  rw [hbase', List.takeWhile_append_of_pos hhex, List.dropWhile_append_of_pos hhex,
    endsNumber_colon.takeWhile, endsNumber_colon.dropWhile, List.append_nil, if_neg hdigits]
  rfl

theorem sscanf_string_iff : sscanf [.string] text = [.string word] ↔ FieldText text [] word := by
  constructor
  · intro h
    unfold sscanf scanString at h
    dsimp only at h
    split at h
    · cases h
    · rename_i hscan
      split at hscan
      · cases hscan
      · rename_i hword
        cases hscan
        obtain rfl : _ = word := Item.string.inj (List.cons.inj h).1
        have hspaces : ∀ c ∈ text.takeWhile isSpace, isSpace c = true := fun c hc =>
          List.mem_takeWhile_imp hc
        have hfields := FieldText.word hspaces hword
          (fun c hc => by simpa using List.mem_takeWhile_imp hc)
          fun c (hc : ((text.dropWhile isSpace).dropWhile (!isSpace ·)).head? = some c) => by
            simpa using head_dropWhile hc
        rwa [List.takeWhile_append_dropWhile, List.takeWhile_append_dropWhile] at hfields
  · intro h
    cases h with
    | word hspaces hword hchars hrest =>
        rename_i spaces rest
        have hstart : (word ++ rest).dropWhile isSpace = word ++ rest := by
          obtain ⟨c, tail, rfl⟩ := List.exists_cons_of_ne_nil hword
          exact dropWhile_of_head fun c' hc' => hchars c' (by simp_all)
        have hchars' : ∀ c ∈ word, (!isSpace c) = true := fun c hc => by simp [hchars c hc]
        have hend : rest.takeWhile (!isSpace ·) = [] :=
          takeWhile_of_head fun c hc => by simp [hrest c hc]
        have hscan : scanString (spaces ++ (word ++ rest)) = some (word, rest.dropWhile (!isSpace ·)) := by
          unfold scanString
          rw [List.dropWhile_append_of_pos hspaces, hstart]
          dsimp only
          rw [List.takeWhile_append_of_pos hchars', List.dropWhile_append_of_pos hchars', hend,
            List.append_nil, if_neg hword]
        simp only [sscanf, hscan]

theorem FieldText.sscanf (h : FieldText text numbers word) (widths : List Nat)
    (hlength : numbers.length = widths.length) :
    sscanf (fieldsFormat widths) text = fieldsItems widths numbers word := by
  induction h generalizing widths with
  | word hspaces hword hchars hrest =>
      obtain rfl := List.eq_nil_of_length_eq_zero hlength.symm
      exact sscanf_string_iff.mpr (.word hspaces hword hchars hrest)
  | number hfield _ ih =>
      cases widths with
      | nil => cases hlength
      | cons bits widths =>
          simp only [fieldsFormat, Text.sscanf, hfield.scanHex, if_true]
          rw [ih widths (Nat.succ.inj hlength)]
          rfl

theorem scanHex_of_sscanf {format : List Directive}
    (h : 1 < (sscanf (.hex bits :: .char ':' :: format) text).length) :
    ∃ n rest, scanHex bits text = some (n, ':' :: rest) ∧
      sscanf (.hex bits :: .char ':' :: format) text = .number n :: sscanf format rest := by
  cases hscan : scanHex bits text with
  | none => simp [sscanf, hscan] at h
  | some scanned =>
      obtain ⟨n, after⟩ := scanned
      cases after with
      | nil => simp [sscanf, hscan] at h
      | cons c rest =>
          by_cases hc : c = ':'
          · subst hc
            exact ⟨n, rest, rfl, by simp [sscanf, hscan]⟩
          · simp [sscanf, hscan, hc] at h

/-- A text on which a scan makes all its conversions has all the fields. -/
theorem fields_of_sscanf (widths : List Nat)
    (h : widths.length < (sscanf (fieldsFormat widths) text).length) :
    ∃ numbers word, FieldText text numbers word ∧ numbers.length = widths.length := by
  induction widths generalizing text with
  | nil =>
      unfold fieldsFormat Text.sscanf at h
      split at h
      · exact absurd h (Nat.lt_irrefl 0)
      · rename_i word rest hscan
        have hitems : sscanf [.string] text = [.string word] := by simp only [Text.sscanf, hscan]
        exact ⟨[], word, sscanf_string_iff.mp hitems, rfl⟩
  | cons bits widths ih =>
      rw [List.length_cons] at h
      have hmore : 1 < (sscanf (.hex bits :: .char ':' :: fieldsFormat widths) text).length :=
        Nat.lt_of_le_of_lt (Nat.succ_le_succ (Nat.zero_le _)) h
      obtain ⟨n, rest, hscan, hitems⟩ := scanHex_of_sscanf hmore
      rw [fieldsFormat, hitems, List.length_cons] at h
      obtain ⟨numbers, word, hfields, hlength⟩ := ih (Nat.lt_of_succ_lt_succ h)
      obtain ⟨field, m, rfl, hfield, -⟩ := field_of_scanHex hscan
      exact ⟨m :: numbers, word, .number hfield hfields, congrArg (· + 1) hlength⟩

end RdmaCapsule.Foundation.Text
