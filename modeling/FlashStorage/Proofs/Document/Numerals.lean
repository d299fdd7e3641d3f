import FlashStorage.Document.Date
import FlashStorage.Document.Number
import Mathlib.Tactic.ByContra

/-!
# Whole numbers are read back

A whole number in decimal digits, with a minus sign if it is negative, is read back
where a line end, a comma or a bracket follows it.  A date and a time start with
digits too, so before that the digits are shown to be neither: between the parts of a
date stand characters that never follow a digit here.
-/

namespace FlashStorage.Document

/-- The characters that stand right behind a value in a line of its own or in an
array. -/
def isCloser (c : Char) : Bool := c == '\n' || c == ',' || c == ']'

variable {digits rest : List Char} {c mark : Char}

theorem isCloser_iff : isCloser c = true ↔ c = '\n' ∨ c = ',' ∨ c = ']' := by
  simp [isCloser, or_assoc]

theorem isDecimalDigit_closer (hcloser : isCloser c = true) :
    isDecimalDigit c = false := by
  rcases isCloser_iff.mp hcloser with rfl | rfl | rfl
  · decide
  · decide
  · decide

theorem ne_of_test {test : Char → Bool} (hpasses : test c = true)
    (hfails : test mark = false) : c ≠ mark := by
  rintro rfl
  rw [hpasses] at hfails
  cases hfails

/-! ## Decimal digits -/

theorem isDecimalDigit_of_mem_toDigits {n : Nat} (hmem : c ∈ Nat.toDigits 10 n) :
    isDecimalDigit c = true := by
  have hdigit := Nat.isDigit_of_mem_toDigits (by decide) (by decide) hmem
  simpa [Char.isDigit, isDecimalDigit, Char.le_def] using hdigit

theorem digitsValue_eq_ofDigitChars
    (hdigits : ∀ digit ∈ digits, isDecimalDigit digit = true) (value : Nat) :
    digits.foldl (fun value digit => 10 * value + digitValue digit) value =
      Nat.ofDigitChars 10 digits value := by
  induction digits generalizing value with
  | nil => rw [List.foldl_nil, Nat.ofDigitChars_nil]
  | cons digit digits ih =>
      have hdigit := hdigits digit List.mem_cons_self
      have hvalue : digitValue digit = digit.toNat - '0'.toNat := by
        unfold digitValue
        rw [if_pos hdigit]
      rw [List.foldl_cons, Nat.ofDigitChars_cons, hvalue]
      exact ih (fun other hmem => hdigits other (List.mem_cons_of_mem _ hmem)) _

theorem digitsValue_toDigits (n : Nat) :
    digitsValue 10 (Nat.toDigits 10 n) = n := by
  unfold digitsValue
  rw [digitsValue_eq_ofDigitChars
    (fun _ hmem => isDecimalDigit_of_mem_toDigits hmem)]
  exact Nat.ofDigitChars_ten_toDigits

/-- Only zero is written with a zero in front. -/
theorem toDigits_of_head_zero {n : Nat} (hzero : Nat.toDigits 10 n = '0' :: rest) :
    rest = [] := by
  induction n using Nat.strongRecOn generalizing rest with
  | ind n ih =>
      by_cases hsmall : n < 10
      · rw [Nat.toDigits_of_lt_base hsmall] at hzero
        exact (List.cons.inj hzero).2.symm
      · exfalso
        have hlarge : 10 ≤ n := Nat.le_of_not_lt hsmall
        rw [Nat.toDigits_of_base_le (by decide) hlarge] at hzero
        cases hhigh : Nat.toDigits 10 (n / 10) with
        | nil => exact Nat.toDigits_ne_nil hhigh
        | cons first high =>
            rw [hhigh, List.cons_append] at hzero
            obtain ⟨rfl, _⟩ := List.cons.inj hzero
            have hnone := ih (n / 10) (by omega) hhigh
            have hvalue := digitsValue_toDigits (n / 10)
            rw [hhigh, hnone] at hvalue
            have hquotient : n / 10 = 0 := hvalue.symm
            omega

/-! ## Neither a date nor a time -/

section

variable (hdigits : ∀ digit ∈ digits, isDecimalDigit digit = true)
  (hcloser : isCloser c = true)

include hdigits hcloser

namespace Date

omit hdigits in
theorem fixedDigits_rest {count value : Nat} {left : List Char}
    (hread : fixedDigits count (digits ++ c :: rest) = some (value, left)) :
    left = digits.drop count ++ c :: rest := by
  unfold fixedDigits at hread
  by_cases hfront : ((digits ++ c :: rest).take count).length = count ∧
      ((digits ++ c :: rest).take count).all isDecimalDigit
  · have hcount : count ≤ digits.length := by
      by_contra hlong
      have hmem : c ∈ (digits ++ c :: rest).take count := by
        rw [List.take_append, List.mem_append]
        right
        obtain ⟨more, hmore⟩ :=
          Nat.exists_eq_succ_of_ne_zero (n := count - digits.length) (by omega)
        rw [hmore, List.take_succ_cons]
        exact List.mem_cons_self
      have hdigit := List.all_eq_true.mp hfront.2 c hmem
      rw [isDecimalDigit_closer hcloser] at hdigit
      cases hdigit
    rw [if_pos hfront] at hread
    obtain ⟨_, rfl⟩ := Prod.mk.inj (Option.some.inj hread)
    exact List.drop_append_of_le_length hcount
  · rw [if_neg hfront] at hread
    cases hread

/-- Behind digits that were read stand more digits or what follows all of them, and no
mark of a date or a time. -/
theorem skip_of_fixedDigits {count value : Nat} {left : List Char}
    (hread : fixedDigits count (digits ++ c :: rest) = some (value, left))
    (hmark : isDecimalDigit mark = false) (hother : isCloser mark = false) :
    skip mark left = none := by
  rw [fixedDigits_rest hcloser hread]
  cases hleft : digits.drop count with
  | nil =>
      have hne : c ≠ mark := by
        rintro rfl
        rw [hcloser] at hother
        cases hother
      simp [skip, hne]
  | cons digit more =>
      have hmem : digit ∈ digits.drop count := hleft ▸ List.mem_cons_self
      have hdigit := hdigits digit (List.mem_of_mem_drop hmem)
      simp [skip, ne_of_test hdigit hmark]

theorem skipDate_digits : skipDate (digits ++ c :: rest) = none := by
  unfold skipDate
  cases hread : fixedDigits 4 (digits ++ c :: rest) with
  | none => rfl
  | some answer =>
      obtain ⟨value, left⟩ := answer
      have hskip : skip '-' left = none :=
        skip_of_fixedDigits hdigits hcloser hread (by decide) (by decide)
      simp [hskip]

theorem skipTime_digits : skipTime (digits ++ c :: rest) = none := by
  unfold skipTime part
  cases hread : fixedDigits 2 (digits ++ c :: rest) with
  | none => rfl
  | some answer =>
      obtain ⟨value, left⟩ := answer
      have hskip : skip ':' left = none :=
        skip_of_fixedDigits hdigits hcloser hread (by decide) (by decide)
      by_cases hrange : value ≤ 23
      · simp [hrange, hskip]
      · simp [hrange]

theorem skipAny_digits : skipAny (digits ++ c :: rest) = none := by
  unfold skipAny
  rw [skipDate_digits hdigits hcloser]
  exact skipTime_digits hdigits hcloser

end Date

/-! ## Numbers -/

namespace Number

theorem moreDigits_append :
    moreDigits isDecimalDigit (digits ++ c :: rest) =
      some (digits, c :: rest) := by
  induction digits with
  | nil =>
      rcases isCloser_iff.mp hcloser with rfl | rfl | rfl
      · rfl
      · rfl
      · rfl
  | cons digit digits ih =>
      have hdigit := hdigits digit List.mem_cons_self
      have hscore : digit ≠ '_' := ne_of_test hdigit (by decide)
      have hrest := ih (fun other hmem =>
        hdigits other (List.mem_cons_of_mem _ hmem))
      rw [List.cons_append, moreDigits, if_pos hdigit, hrest]
      · rfl
      · exact hscore

omit hdigits in
theorem fraction?_closer : fraction? (c :: rest) = some (none, c :: rest) := by
  rcases isCloser_iff.mp hcloser with rfl | rfl | rfl
  · rfl
  · rfl
  · rfl

omit hdigits in
theorem exponent?_closer : exponent? (c :: rest) = some (none, c :: rest) := by
  rcases isCloser_iff.mp hcloser with rfl | rfl | rfl
  · rfl
  · rfl
  · rfl

end Number

end

theorem Date.skipAny_minus (text : List Char) : skipAny ('-' :: text) = none := by
  have hminus : isDecimalDigit '-' = false := by decide
  have hdigits : ∀ count, fixedDigits (count + 1) ('-' :: text) = none := by
    intro count
    simp [fixedDigits, hminus]
  simp [skipAny, skipDate, skipTime, part, hdigits]

namespace Number

/-- The digits of a number in front of a closing character. -/
theorem decimal_toDigits (n : Nat) (hcloser : isCloser c = true) :
    decimal (Nat.toDigits 10 n ++ c :: rest) =
      some (Nat.toDigits 10 n, c :: rest) := by
  have hdigits : ∀ digit ∈ Nat.toDigits 10 n, isDecimalDigit digit = true :=
    fun _ hmem => isDecimalDigit_of_mem_toDigits hmem
  cases hwritten : Nat.toDigits 10 n with
  | nil => exact absurd hwritten Nat.toDigits_ne_nil
  | cons first digits =>
      rw [hwritten] at hdigits
      by_cases hzero : first = '0'
      · subst hzero
        rw [toDigits_of_head_zero hwritten]
        rfl
      · have hfirst := hdigits first List.mem_cons_self
        have hmore : moreDigits isDecimalDigit (digits ++ c :: rest) =
            some (digits, c :: rest) :=
          moreDigits_append
            (fun digit hmem => hdigits digit (List.mem_cons_of_mem _ hmem))
            hcloser
        rw [List.cons_append, decimal, Number.digits, if_pos hfirst, hmore]
        · rfl
        · rintro _ hsame
          exact hzero (List.cons.inj hsame).1

theorem exists_toDigits_eq_cons (n : Nat) :
    ∃ first more, Nat.toDigits 10 n = first :: more ∧
      isDecimalDigit first = true := by
  cases hwritten : Nat.toDigits 10 n with
  | nil => exact absurd hwritten Nat.toDigits_ne_nil
  | cons first more =>
      exact ⟨first, more, rfl,
        isDecimalDigit_of_mem_toDigits (hwritten ▸ List.mem_cons_self)⟩

theorem sign_of_isDecimalDigit {first : Char} {more : List Char}
    (hfirst : isDecimalDigit first = true) :
    sign (first :: more) = (false, first :: more) := by
  have hplus : first ≠ '+' := ne_of_test hfirst (by decide)
  have hminus : first ≠ '-' := ne_of_test hfirst (by decide)
  simp [sign, hplus, hminus]

theorem special?_of_isDecimalDigit {first : Char} {more : List Char}
    (hfirst : isDecimalDigit first = true) : special? (first :: more) = none := by
  have hi : first ≠ 'i' := ne_of_test hfirst (by decide)
  have hn : first ≠ 'n' := ne_of_test hfirst (by decide)
  simp [special?, hi, hn]

/-- An integer that a configuration can hold. -/
def IsWord (value : Int) : Prop :=
  Int64.minValue.toInt ≤ value ∧ value ≤ Int64.maxValue.toInt

theorem isWord_of_le {n : Nat} (hlarge : (n : Int) ≤ Int64.maxValue.toInt) :
    IsWord n := by
  have hmin : Int64.minValue.toInt ≤ 0 := by decide
  exact ⟨Int.le_trans hmin (Int.natCast_nonneg n), hlarge⟩

theorem decimalNumber_of_sign {text : List Char} {negative : Bool} {n : Nat}
    (hcloser : isCloser c = true)
    (hsign : sign text = (negative, Nat.toDigits 10 n ++ c :: rest))
    (hword : IsWord (negateIf negative n)) :
    decimalNumber text = some (.integer (negateIf negative n), c :: rest) := by
  have hspecial : special? (Nat.toDigits 10 n ++ c :: rest) = none := by
    obtain ⟨first, more, hwritten, hfirst⟩ := exists_toDigits_eq_cons n
    rw [hwritten]
    exact special?_of_isDecimalDigit hfirst
  have hinteger : integer? (negateIf negative n) =
      some (.integer (negateIf negative n)) :=
    if_pos hword
  unfold decimalNumber
  simp [hsign, hspecial, decimal_toDigits n hcloser, fraction?_closer hcloser,
    exponent?_closer hcloser, digitsValue_toDigits, hinteger]

theorem number_toDigits {n : Nat} (hcloser : isCloser c = true)
    (hword : IsWord n) :
    number (Nat.toDigits 10 n ++ c :: rest) = some (.integer n, c :: rest) := by
  have hdecimal : number (Nat.toDigits 10 n ++ c :: rest) =
      decimalNumber (Nat.toDigits 10 n ++ c :: rest) := by
    obtain ⟨first, more, hwritten, _⟩ := exists_toDigits_eq_cons n
    by_cases hzero : first = '0'
    · -- Behind a leading zero stands the closing character, and no base sign.
      subst hzero
      rw [hwritten, toDigits_of_head_zero hwritten]
      rcases isCloser_iff.mp hcloser with rfl | rfl | rfl
      · rfl
      · rfl
      · rfl
    · rw [hwritten]
      simp [number, hzero]
  have hsign : sign (Nat.toDigits 10 n ++ c :: rest) =
      (false, Nat.toDigits 10 n ++ c :: rest) := by
    obtain ⟨first, more, hwritten, hfirst⟩ := exists_toDigits_eq_cons n
    rw [hwritten]
    exact sign_of_isDecimalDigit hfirst
  rw [hdecimal]
  exact decimalNumber_of_sign hcloser hsign hword

theorem number_minus_toDigits {n : Nat} (hcloser : isCloser c = true)
    (hword : IsWord (-n)) :
    number ('-' :: (Nat.toDigits 10 n ++ c :: rest)) =
      some (.integer (-n), c :: rest) := by
  have hsign : sign ('-' :: (Nat.toDigits 10 n ++ c :: rest)) =
      (true, Nat.toDigits 10 n ++ c :: rest) := rfl
  exact decimalNumber_of_sign hcloser hsign hword

end Number

end FlashStorage.Document
