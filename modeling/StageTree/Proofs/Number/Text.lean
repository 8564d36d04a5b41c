import StageTree.Number.Shortest

/-!
# The Characters of Number Texts

Number texts are told from every other label by their characters: digits, signs, points and
the few letters of powers of ten and of the words for special numbers. What is proved here is
that no number text has any other character, and that none is empty, so that each begins with
one of them. Which digits a text has plays no part in it.

## Main definitions

* `isNumeralChar`: The characters of number texts.

## Theorems

* `isDigit_of_mem_integerText`: The text of a natural number has digits only.
* `integerText_lead`: An integer's text begins with a numeral character.
* `Decimal.isNumeralChar_of_mem_text`, `Decimal.text_ne_nil`: The text of a decimal is a row
  of numeral characters that is not empty.
* `Binary64.isNumeralChar_of_mem_text`, `Binary64.text_lead`: A double's text is a row of
  numeral characters, and begins with one.
-/

namespace StageTree

/-- The characters of number texts: digits, signs, the point, and the letters of powers of ten
    and of the words for infinity and for what is not a number. -/
def isNumeralChar (c : Char) : Bool :=
  c.isDigit || ['-', '+', '.', 'e', 'a', 'f', 'i', 'n'].contains c

theorem isNumeralChar_of_isDigit {c : Char} (h : c.isDigit = true) : isNumeralChar c = true := by
  rw [isNumeralChar, h, Bool.true_or]

theorem isDigit_of_mem_digitsOf {n : Nat} {c : Char} (h : c ∈ digitsOf n) : c.isDigit = true :=
  Nat.isDigit_of_mem_toDigits (by decide) (by decide) h

theorem digitsOf_ne_nil (n : Nat) : digitsOf n ≠ [] := Nat.toDigits_ne_nil

theorem integerText_natCast (n : Nat) : integerText n = String.ofList (digitsOf n) := by
  rw [integerText, if_neg (by omega), Int.natAbs_natCast]

/-- The text of a natural number has digits only. -/
theorem isDigit_of_mem_integerText {n : Nat} {c : Char}
    (h : c ∈ (integerText n).toList) : c.isDigit = true := by
  rw [integerText_natCast, String.toList_ofList] at h
  exact isDigit_of_mem_digitsOf h

/-- A row that is not empty begins with a character of which holds what holds of all. -/
theorem exists_lead {p : Char → Bool} {cs : List Char} (hne : cs ≠ [])
    (h : ∀ c ∈ cs, p c = true) : ∃ c rest, cs = c :: rest ∧ p c = true := by
  rcases cs with _ | ⟨c, rest⟩
  · exact absurd rfl hne
  · exact ⟨c, rest, rfl, h c List.mem_cons_self⟩

/-- An integer's text begins with a numeral character. -/
theorem integerText_lead (n : Int) :
    ∃ c rest, (integerText n).toList = c :: rest ∧ isNumeralChar c = true := by
  -- A minus sign counts as a numeral character, as the digits do.
  by_cases hn : n < 0
  · refine ⟨'-', digitsOf n.natAbs, ?_, by decide⟩
    simp only [integerText, if_pos hn, String.toList_append, String.toList_ofList]
    rfl
  · rw [integerText, if_neg hn, String.toList_ofList]
    refine exists_lead (digitsOf_ne_nil _) (fun c hc => ?_)
    exact isNumeralChar_of_isDigit (isDigit_of_mem_digitsOf hc)

namespace Decimal

/-- Significant digits are digits of the coefficient. -/
theorem isDigit_of_mem_significantDigits {d : Decimal} {c : Char}
    (h : c ∈ d.significantDigits) : c.isDigit = true := by
  rw [significantDigits, List.mem_reverse] at h
  -- Cutting zeros off at the end means dropping them from the reversed digits.
  have hmem : c ∈ (digitsOf d.coefficient).reverse := (List.dropWhile_suffix _).mem h
  exact isDigit_of_mem_digitsOf (List.mem_reverse.1 hmem)

theorem isDigit_of_mem_zeros {count : Nat} {c : Char} (h : c ∈ zeros count) :
    c.isDigit = true := by
  rw [List.eq_of_mem_replicate h]
  decide

/-- The scale of a number is written with numeral characters only. -/
theorem isNumeralChar_of_mem_scaleText {power : Int} {c : Char} (h : c ∈ scaleText power) :
    isNumeralChar c = true := by
  rw [scaleText, List.mem_cons, List.mem_append] at h
  -- A sign comes first, then zeros up to two places, then the digits.
  rcases h with rfl | hzero | hdigit
  · split
    · decide
    · decide
  · exact isNumeralChar_of_isDigit (isDigit_of_mem_zeros hzero)
  · exact isNumeralChar_of_isDigit (isDigit_of_mem_digitsOf hdigit)

/-- A number without a scale is written with numeral characters only. -/
theorem isNumeralChar_of_mem_positionalText {digits : List Char} {point : Int} {c : Char}
    (hdigits : ∀ c ∈ digits, c.isDigit = true) (h : c ∈ positionalText digits point) :
    isNumeralChar c = true := by
  have hall : ∀ c ∈ digits, isNumeralChar c = true :=
    fun c hc => isNumeralChar_of_isDigit (hdigits c hc)
  -- The point stands in front of the digits, behind them, or among them.
  rw [positionalText] at h
  split at h
  · simp only [List.mem_append] at h
    rcases h with (h | h) | h
    · exact List.all_eq_true.1 (by decide : "0.".toList.all isNumeralChar = true) c h
    · exact isNumeralChar_of_isDigit (isDigit_of_mem_zeros h)
    · exact hall c h
  · split at h
    · simp only [List.mem_append] at h
      rcases h with (h | h) | h
      · exact hall c h
      · exact isNumeralChar_of_isDigit (isDigit_of_mem_zeros h)
      · exact List.all_eq_true.1 (by decide : ".0".toList.all isNumeralChar = true) c h
    · rw [List.mem_append, List.mem_cons] at h
      rcases h with h | rfl | h
      · exact hall c (List.mem_of_mem_take h)
      · decide
      · exact hall c (List.mem_of_mem_drop h)

/-- A number with a scale is written with numeral characters only. -/
theorem isNumeralChar_of_mem_scaledText {digits : List Char} {point : Int} {c : Char}
    (hdigits : ∀ c ∈ digits, c.isDigit = true) (h : c ∈ scaledText digits point) :
    isNumeralChar c = true := by
  have hall : ∀ c ∈ digits, isNumeralChar c = true :=
    fun c hc => isNumeralChar_of_isDigit (hdigits c hc)
  rw [scaledText, List.mem_append, List.mem_append, List.mem_cons] at h
  rcases h with (h | h) | rfl | h
  · exact hall c (List.mem_of_mem_take h)
  · split at h
    · exact absurd h List.not_mem_nil
    · rcases List.mem_cons.1 h with rfl | h
      · decide
      · exact hall c (List.mem_of_mem_drop h)
  · decide
  · exact isNumeralChar_of_mem_scaleText h

/-- A decimal number is written with numeral characters only. -/
theorem isNumeralChar_of_mem_text {d : Decimal} {c : Char} (h : c ∈ d.text) :
    isNumeralChar c = true := by
  rw [text] at h
  split at h
  · exact isNumeralChar_of_mem_positionalText (fun _ => isDigit_of_mem_significantDigits) h
  · exact isNumeralChar_of_mem_scaledText (fun _ => isDigit_of_mem_significantDigits) h

/-- Every text of a decimal has its point or the letter of its power of ten. -/
theorem text_ne_nil (d : Decimal) : d.text ≠ [] := by
  rw [text]
  split
  · rw [positionalText]
    split
    · exact List.cons_ne_nil _ _
    · split
      · exact List.append_ne_nil_of_right_ne_nil _ (List.cons_ne_nil _ _)
      · exact List.append_ne_nil_of_right_ne_nil _ (List.cons_ne_nil _ _)
  · exact List.append_ne_nil_of_right_ne_nil _ (List.cons_ne_nil _ _)

end Decimal

namespace Binary64

/-- The size of a double is written with numeral characters only. -/
theorem isNumeralChar_of_mem_magnitudeText {n : Nat} {c : Char} (h : c ∈ magnitudeText n) :
    isNumeralChar c = true := by
  rw [magnitudeText] at h
  split at h
  · exact List.all_eq_true.1 (by decide : "0.0".toList.all isNumeralChar = true) c h
  · exact Decimal.isNumeralChar_of_mem_text h

/-- A double's text is a row of numeral characters. -/
theorem isNumeralChar_of_mem_text {x : Binary64} {c : Char} (h : c ∈ x.text.toList) :
    isNumeralChar c = true := by
  -- The words are looked through, and a number has its sign and its magnitude.
  rcases x with _ | negative | ⟨negative, ordinal⟩
  · exact List.all_eq_true.1 (by decide : "nan".toList.all isNumeralChar = true) c h
  · rcases negative with _ | _
    · exact List.all_eq_true.1 (by decide : "inf".toList.all isNumeralChar = true) c h
    · exact List.all_eq_true.1 (by decide : "-inf".toList.all isNumeralChar = true) c h
  · rw [text, String.toList_ofList, List.mem_append] at h
    rcases h with hsign | hmagnitude
    · split at hsign
      · rw [List.mem_singleton.1 hsign]
        decide
      · exact absurd hsign List.not_mem_nil
    · exact isNumeralChar_of_mem_magnitudeText hmagnitude

theorem magnitudeText_ne_nil (n : Nat) : magnitudeText n ≠ [] := by
  rw [magnitudeText]
  split
  · decide
  · exact Decimal.text_ne_nil _

/-- A double's text begins with a numeral character. -/
theorem text_lead (x : Binary64) :
    ∃ c rest, x.text.toList = c :: rest ∧ isNumeralChar c = true := by
  refine exists_lead ?_ (fun _ => isNumeralChar_of_mem_text)
  rcases x with _ | negative | ⟨negative, ordinal⟩
  · decide
  · cases negative <;> decide
  · rw [text, String.toList_ofList]
    exact List.append_ne_nil_of_right_ne_nil _ (magnitudeText_ne_nil _)

end Binary64

end StageTree
