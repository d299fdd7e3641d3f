import FlashStorage.Document.Printer
import FlashStorage.Document.Quoted

/-!
# Texts are read back

A text between quotation marks is read back character by character, in every style of
writing.  A character that is not escaped is none of those that mean something between
the marks.  One that is escaped has at most sixteen bits, and its four digits give it
back.
-/

namespace FlashStorage.Document

open Printer (Style hexDigit escape needsEscape character quoted)

namespace Quoted

variable {c : Char} {capital : Bool} {text : List Char}

theorem hexDigit_spec :
    ∀ capital, ∀ value < 16, isHexDigit (hexDigit capital value) = true ∧
      digitValue (hexDigit capital value) = value := by
  decide

theorem basic_digit {left value digit : Nat} (hmore : 1 < left)
    (hdigit : digit < 16) :
    basic (some (.digits left value)) (hexDigit capital digit :: text) =
      basic (some (.digits (left - 1) (16 * value + digit))) text := by
  obtain ⟨hhex, hvalue⟩ := hexDigit_spec capital digit hdigit
  have hnext : Escape.next? (.digits left value) (hexDigit capital digit) =
      some (.inr (.digits (left - 1) (16 * value + digit))) := by
    simp only [Escape.next?, hhex, hvalue, Nat.not_le_of_lt hmore, if_true,
      if_false]
  rw [basic, hnext]

theorem basic_last_digit {value digit : Nat} (hdigit : digit < 16)
    (hpoint : 16 * value + digit = c.toNat) :
    basic (some (.digits 1 value)) (hexDigit capital digit :: text) =
      emit [c] (basic none text) := by
  obtain ⟨hhex, hvalue⟩ := hexDigit_spec capital digit hdigit
  have hvalid : c.toNat.isValidChar := c.valid
  have hscalar : scalar? c.toNat = some c := by
    unfold scalar?
    rw [if_pos hvalid, Char.ofNat_toNat]
  have hnext : Escape.next? (.digits 1 value) (hexDigit capital digit) =
      some (.inl c) := by
    simp only [Escape.next?, hhex, hvalue, hpoint, hscalar, Nat.le_refl,
      if_true, Option.map_some]
  rw [basic, hnext]

theorem basic_escape (hshort : c.toNat < UInt16.size) :
    basic none (escape capital c ++ text) = emit [c] (basic none text) := by
  have hpoint : 16 * (16 * (16 * (16 * 0 + c.toNat / 4096 % 16) +
      c.toNat / 256 % 16) + c.toNat / 16 % 16) + c.toNat % 16 = c.toNat := by
    change c.toNat < 65536 at hshort
    omega
  calc
    basic none (escape capital c ++ text)
      = basic (some (.digits 4 0)) ((escape capital c).drop 2 ++ text) := rfl
    _ = emit [c] (basic none text) := by
        simp only [escape, List.drop_succ_cons, List.drop_zero,
          List.cons_append, List.nil_append]
        rw [basic_digit (by decide) (Nat.mod_lt _ (by decide)),
          basic_digit (by decide) (Nat.mod_lt _ (by decide)),
          basic_digit (by decide) (Nat.mod_lt _ (by decide)),
          basic_last_digit (Nat.mod_lt _ (by decide)) hpoint]

theorem toNat_lt_of_needsEscape (hneeds : needsEscape c = true) :
    c.toNat < UInt16.size := by
  have hascii : c.toNat < 128 := by
    simp only [needsEscape, isPrintable, Bool.or_eq_true, beq_iff_eq,
      Bool.not_eq_true', Bool.or_eq_false_iff, Bool.and_eq_false_iff,
      decide_eq_false_iff_not, bne_eq_false_iff_eq] at hneeds
    rcases hneeds with ((rfl | rfl) | rfl) | ⟨_, hcontrol | hdelete⟩
    · decide
    · decide
    · decide
    · omega
    · omega
  exact Nat.lt_trans hascii (by decide)

theorem basic_plain (hplain : needsEscape c = false) :
    basic none (c :: text) = emit [c] (basic none text) := by
  simp only [needsEscape, Bool.or_eq_false_iff, beq_eq_false_iff_ne,
    Bool.not_eq_false'] at hplain
  obtain ⟨⟨⟨hmark, hslash⟩, _⟩, hprintable⟩ := hplain
  simp [basic, hmark, hslash, hprintable]

theorem basic_character (style : Style) (c : Char) :
    basic none (character style c ++ text) = emit [c] (basic none text) := by
  unfold character
  cases hneeds : needsEscape c with
  | true =>
      exact basic_escape (toNat_lt_of_needsEscape hneeds)
  | false =>
      by_cases hchosen : style.escapes c = true ∧ c.toNat < UInt16.size
      · rw [if_pos (by simpa using hchosen)]
        exact basic_escape hchosen.2
      · rw [if_neg (by simpa using hchosen)]
        exact basic_plain hneeds

theorem basic_flatMap_character (style : Style) (characters : List Char) :
    basic none (characters.flatMap (character style) ++ '"' :: text) =
      some (characters, text) := by
  induction characters with
  | nil => rfl
  | cons c rest ih =>
      rw [List.flatMap_cons, List.append_assoc, basic_character, ih]
      rfl

theorem character_head_ne_mark (style : Style) (c : Char) :
    ∃ first more, character style c = first :: more ∧ first ≠ '"' := by
  unfold character
  by_cases hescaped :
      (needsEscape c || (style.escapes c && c.toNat < UInt16.size)) = true
  · rw [if_pos hescaped]
    exact ⟨'\\', _, rfl, by decide⟩
  · rw [if_neg hescaped]
    refine ⟨c, [], rfl, ?_⟩
    rintro rfl
    exact hescaped rfl

theorem quoted_eq_basic (hsingle : ∀ more, text ≠ '"' :: '"' :: more) :
    Quoted.quoted ('"' :: text) = basic none text := by
  rw [Quoted.quoted]
  intro more hsame
  exact hsingle more hsame

/-- A text between quotation marks is read back, unless the two marks of an empty one
are followed by a third. -/
theorem quoted_quoted {after : Char} (style : Style) (written : String)
    (hafter : after ≠ '"') :
    Quoted.quoted (Printer.quoted style written ++ after :: text) =
      some (written.toList, after :: text) := by
  have hsplit : Printer.quoted style written ++ after :: text =
      '"' :: (written.toList.flatMap (character style) ++
        '"' :: after :: text) := by
    simp [Printer.quoted]
  rw [hsplit, quoted_eq_basic, basic_flatMap_character]
  intro more hsame
  cases hcharacters : written.toList with
  | nil =>
      rw [hcharacters] at hsame
      have htail := (List.cons.inj hsame).2
      exact hafter (List.cons.inj htail).1
  | cons c rest =>
      obtain ⟨first, others, hfirst, hmark⟩ := character_head_ne_mark style c
      rw [hcharacters, List.flatMap_cons, hfirst] at hsame
      exact hmark (List.cons.inj hsame).1

end Quoted

end FlashStorage.Document
