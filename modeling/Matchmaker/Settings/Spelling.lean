import Mathlib.Data.List.TakeWhile
import Matchmaker.Config

namespace Matchmaker

/-! Which texts spell a number. -/

/-- A plus sign or none, and decimal digits. -/
structure Numeral (text : List Char) (value : Nat) : Prop where
  parts : ∃ plus digits, text = plus ++ digits ∧
    (plus = [] ∨ plus = ['+']) ∧ digits ≠ [] ∧
    (∀ char ∈ digits, char.isDigit = true) ∧
    Nat.ofDigitChars 10 digits 0 = value

/-- A numeral with white space before and after it. -/
structure Spells (text : List Char) (value : Nat) : Prop where
  parts : ∃ before core after, text = before ++ core ++ after ∧
    (∀ char ∈ before, isWhitespace char = true) ∧
    (∀ char ∈ after, isWhitespace char = true) ∧ Numeral core value

section Digits

variable {char : Char} {digits text : List Char} {maxValue value result : Nat}

theorem isDigit_iff : char.isDigit = true ↔ '0' ≤ char ∧ char ≤ '9' := by
  simp [Char.isDigit, Char.le_def]

theorem toDigit_digit (digit : char.isDigit = true) :
    toDigit char = some (char.toNat - '0'.toNat) := by
  rw [toDigit, if_pos (isDigit_iff.mp digit)]

theorem toDigit_other (other : char.isDigit = false) : toDigit char = none := by
  rw [toDigit, if_neg]
  rw [← isDigit_iff, other]
  exact Bool.false_ne_true

theorem le_ofDigitChars (digits : List Char) (value : Nat) :
    value ≤ Nat.ofDigitChars 10 digits value := by
  induction digits generalizing value with
  | nil => simp
  | cons char rest induction =>
      rw [Nat.ofDigitChars_cons]
      exact Nat.le_trans (by omega) (induction _)

/-- The check for overflow at every digit is the check of the whole number. -/
theorem parseDigits_eq_ok (small : value ≤ maxValue) :
    parseDigits maxValue digits value = .ok result ↔
      (∀ char ∈ digits, char.isDigit = true) ∧
        Nat.ofDigitChars 10 digits value = result ∧ result ≤ maxValue := by
  induction digits generalizing value with
  | nil =>
      rw [parseDigits, Nat.ofDigitChars_nil]
      constructor
      · rintro ⟨⟩
        exact ⟨nofun, rfl, small⟩
      · rintro ⟨_, rfl, _⟩
        rfl
  | cons char rest induction =>
      rw [parseDigits, Nat.ofDigitChars_cons, Nat.mul_comm 10]
      cases digit : char.isDigit with
      | false =>
          rw [toDigit_other digit]
          simp [digit]
      | true =>
          rw [toDigit_digit digit]
          dsimp only
          split
          · rename_i overflow
            constructor
            · exact nofun
            · rintro ⟨_, rfl, bound⟩
              have grown := le_ofDigitChars rest
                (value * 10 + (char.toNat - '0'.toNat))
              omega
          · rename_i fits
            rw [induction (by omega)]
            simp [digit]

theorem not_isDigit_plus : '+'.isDigit = false := by decide

theorem parseUnsigned_eq_ok :
    parseUnsigned maxValue text = .ok result ↔
      Numeral text result ∧ result ≤ maxValue := by
  have plain : ∀ {digits : List Char} (plus : List Char),
      (plus = [] ∨ plus = ['+']) → digits ≠ [] →
      parseDigits maxValue digits 0 = .ok result →
      Numeral (plus ++ digits) result ∧ result ≤ maxValue := by
    intro digits plus sign some parsed
    obtain ⟨all, spelt, bound⟩ := (parseDigits_eq_ok (Nat.zero_le _)).mp parsed
    exact ⟨⟨plus, digits, rfl, sign, some, all, spelt⟩, bound⟩
  constructor
  · intro parsed
    unfold parseUnsigned at parsed
    split at parsed
    · cases parsed
    · cases parsed
    · rename_i rest more
      exact plain ['+'] (.inr rfl) (fun none => more (by rw [none])) parsed
    · rename_i some _ _
      exact plain [] (.inl rfl) some parsed
  · rintro ⟨⟨plus, digits, rfl, sign, some, all, spelt⟩, bound⟩
    have parsed : parseDigits maxValue digits 0 = .ok result :=
      (parseDigits_eq_ok (Nat.zero_le _)).mpr ⟨all, spelt, bound⟩
    obtain ⟨first, rest, rfl⟩ := List.exists_cons_of_ne_nil some
    rcases sign with rfl | rfl
    · have digit := all first List.mem_cons_self
      have noPlus : first ≠ '+' := by
        rintro rfl
        rw [not_isDigit_plus] at digit
        cases digit
      unfold parseUnsigned
      split
      · rename_i nothing
        cases nothing
      · rename_i alone
        cases alone
        exact absurd rfl noPlus
      · rename_i other
        cases other
        exact absurd rfl noPlus
      · exact parsed
    · exact parsed

end Digits

section Trim

variable {text core before after : List Char} {value : Nat}

/-- What `trim` takes off is white space. -/
theorem trim_parts (text : List Char) :
    ∃ before after, text = before ++ trim text ++ after ∧
      (∀ char ∈ before, isWhitespace char = true) ∧
      (∀ char ∈ after, isWhitespace char = true) := by
  let rest := text.dropWhile isWhitespace
  refine ⟨text.takeWhile isWhitespace,
    (rest.reverse.takeWhile isWhitespace).reverse, ?_, ?_, ?_⟩
  · have split : rest = trim text ++
        (rest.reverse.takeWhile isWhitespace).reverse := by
      rw [trim, ← List.reverse_append, List.takeWhile_append_dropWhile,
        List.reverse_reverse]
    rw [List.append_assoc, ← split]
    exact List.takeWhile_append_dropWhile.symm
  · exact fun char member => List.mem_takeWhile_imp member
  · intro char member
    exact List.mem_takeWhile_imp (List.mem_reverse.mp member)

theorem dropWhile_between {p : α → Bool} {before core after : List α}
    (some : core ≠ []) (kept : ∀ item ∈ core, p item = false)
    (dropped : ∀ item ∈ before, p item = true) :
    (before ++ (core ++ after)).dropWhile p = core ++ after := by
  obtain ⟨first, rest, rfl⟩ := List.exists_cons_of_ne_nil some
  rw [List.dropWhile_append_of_pos dropped, List.cons_append]
  apply List.dropWhile_cons_of_neg
  rw [kept first List.mem_cons_self]
  exact Bool.false_ne_true

theorem trim_eq (some : core ≠ [])
    (black : ∀ char ∈ core, isWhitespace char = false)
    (white : ∀ char ∈ before, isWhitespace char = true)
    (white' : ∀ char ∈ after, isWhitespace char = true) :
    trim (before ++ core ++ after) = core := by
  have backwards : core.reverse ≠ [] := fun none =>
    some (List.reverse_eq_nil_iff.mp none)
  rw [trim, List.append_assoc, dropWhile_between some black white,
    List.reverse_append]
  rw [← List.append_nil core.reverse, dropWhile_between backwards
    (fun char member => black char (List.mem_reverse.mp member))
    (fun char member => white' char (List.mem_reverse.mp member)),
    List.append_nil, List.reverse_reverse]

theorem isWhitespace_digit {char : Char} (digit : char.isDigit = true) :
    isWhitespace char = false := by
  obtain ⟨low, high⟩ := isDigit_iff.mp digit
  have low : 48 ≤ char.toNat := low
  have high : char.toNat ≤ 57 := high
  simp only [isWhitespace, Bool.or_eq_false_iff, Bool.and_eq_false_iff,
    decide_eq_false_iff_not, beq_eq_false_iff_ne]
  omega

theorem Numeral.black (numeral : Numeral text value) :
    text ≠ [] ∧ ∀ char ∈ text, isWhitespace char = false := by
  obtain ⟨plus, digits, rfl, sign, some, all, _⟩ := numeral.parts
  refine ⟨fun none => some (List.append_eq_nil_iff.mp none).2, ?_⟩
  intro char member
  rcases List.mem_append.mp member with inPlus | inDigits
  · rcases sign with rfl | rfl
    · cases inPlus
    · rw [List.mem_singleton.mp inPlus]
      decide
  · exact isWhitespace_digit (all char inDigits)

/-- What is read from a variable is what it spells, if that fits. -/
theorem parse_trim_eq_ok {maxValue : Nat} :
    parseUnsigned maxValue (trim text) = .ok value ↔
      Spells text value ∧ value ≤ maxValue := by
  rw [parseUnsigned_eq_ok]
  apply and_congr_left
  intro _
  constructor
  · intro numeral
    obtain ⟨before, after, split, white, white'⟩ := trim_parts text
    exact ⟨before, trim text, after, split, white, white', numeral⟩
  · intro spells
    obtain ⟨before, core, after, rfl, white, white', numeral⟩ := spells.parts
    obtain ⟨some, black⟩ := numeral.black
    rw [trim_eq some black white white']
    exact numeral

end Trim

/-- A text spells one number at most. -/
theorem Spells.unique {text : List Char} {value value' : Nat}
    (spells : Spells text value) (spells' : Spells text value') :
    value = value' := by
  have read := (@parse_trim_eq_ok text value (max value value')).mpr
    ⟨spells, Nat.le_max_left ..⟩
  have read' := (@parse_trim_eq_ok text value' (max value value')).mpr
    ⟨spells', Nat.le_max_right ..⟩
  exact Except.ok.inj (read.symm.trans read')

/-- A number is spelt by its decimal notation. -/
theorem spells_toString (value : Nat) :
    Spells (toString value).toList value := by
  refine ⟨[], (toString value).toList, [], by simp, nofun, nofun, ?_⟩
  rw [Nat.toString_eq_repr, Nat.toList_repr]
  exact ⟨[], _, rfl, .inl rfl, Nat.toDigits_ne_nil,
    fun char member => Nat.isDigit_of_mem_toDigits (by decide) (by decide) member,
    Nat.ofDigitChars_ten_toDigits⟩

end Matchmaker
