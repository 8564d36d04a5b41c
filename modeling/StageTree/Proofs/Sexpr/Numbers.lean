import Mathlib.Data.List.TakeWhile
import StageTree.Proofs.Number.Integers
import StageTree.Proofs.Sexpr.Coincidence
import StageTree.Proofs.Shown

/-!
# Numbers Read and Shown

What the label of a number says. The label of a fraction, read as an integer or as two of them
with a line between, is worth the fraction. The label of a floating-point number is read as an
equal number, and only the sign of zero is lost on the way. It is the text of an integer exactly
if the number is an integer below `10 ^ 21` in magnitude; every other number has a mark in its
label that tells it from an integer.

A whole number of a document becomes the nearest double, so its label is its own text as long as
all integers are doubles, and the text of another integer after that.

## Main definitions

* `integerOfText?`, `fractionOfText?`: What the text of an integer or of a fraction is worth.

## Theorems

* `fractionOfText?_label`: The label of a fraction is worth the fraction.
* `Binary64.unmarked_label_iff`: Whose label is that of an integer.
* `Binary64.ofText?_label`: The label of a floating-point number is read as an equal number.
* `Stage.whole_numbers_are_rounded`: What becomes of the whole numbers of a document.
* `Atom.labels_denote_numbers`: Labels of numbers denote the numbers.
-/

namespace StageTree

/-! ## What texts are worth -/

/-- The integer that digits write, perhaps after a minus sign. -/
def integerOfText? : List Char → Option Int
  | '-' :: digits =>
    if digits ≠ [] ∧ digits.all Char.isDigit then some (-(digitsValue digits : Int)) else none
  | digits =>
    if digits ≠ [] ∧ digits.all Char.isDigit then some (digitsValue digits) else none

/-- The fraction that an integer writes, or two of them with a line between. -/
def fractionOfText? (text : String) : Option ℚ :=
  let above := text.toList.takeWhile (· != '/')
  match text.toList.dropWhile (· != '/') with
  | [] => (integerOfText? above).map fun (n : Int) => (n : ℚ)
  | _ :: below => do
    let p ← integerOfText? above
    let q ← integerOfText? below
    if q = 0 then none else some ((p : ℚ) / q)

/-- An integer that was written is read back. -/
theorem integerOfText?_integerText (n : Int) : integerOfText? (integerText n).toList = some n := by
  have hdigits : digitsOf n.natAbs ≠ [] ∧ (digitsOf n.natAbs).all Char.isDigit = true :=
    ⟨digitsOf_ne_nil _, List.all_eq_true.2 fun _ => isDigit_of_mem_digitsOf⟩
  rw [integerText_toList]
  -- With a minus sign the first branch reads it, and without one no digit is taken for a sign.
  by_cases hn : n < 0
  · rw [if_pos hn, integerOfText?, if_pos hdigits, digitsValue_digitsOf, Option.some.injEq]
    omega
  · rw [if_neg hn]
    unfold integerOfText?
    split
    · rename_i heq
      exact absurd heq (digitsOf_ne_minus _ _)
    · rw [if_pos hdigits, digitsValue_digitsOf, Option.some.injEq]
      omega

/-- An integer is read as a fraction of its own. -/
theorem fractionOfText?_integerText (n : Int) : fractionOfText? (integerText n) = some (n : ℚ) := by
  have hplain : ∀ c ∈ (integerText n).toList, (c != '/') = true :=
    fun _ => bne_slash_of_mem_integerText
  rw [fractionOfText?, List.takeWhile_eq_self_iff.2 hplain, List.dropWhile_eq_nil_iff.2 hplain,
    integerOfText?_integerText]
  rfl

/-- A fraction that was written with a line is read back. -/
theorem fractionOfText?_fraction (p : Int) {q : Int} (hq : q ≠ 0) :
    fractionOfText? (integerText p ++ "/" ++ integerText q) = some ((p : ℚ) / q) := by
  have hplain : ∀ c ∈ (integerText p).toList, (c != '/') = true :=
    fun _ => bne_slash_of_mem_integerText
  -- The line is the first one, because integers have none.
  have habove : (integerText p ++ "/" ++ integerText q).toList.takeWhile (· != '/') =
      (integerText p).toList := by
    rw [toList_fraction, List.takeWhile_append_of_pos hplain,
      List.takeWhile_cons_of_neg (by decide), List.append_nil]
  have hbelow : (integerText p ++ "/" ++ integerText q).toList.dropWhile (· != '/') =
      '/' :: (integerText q).toList := by
    rw [toList_fraction, List.dropWhile_append_of_pos hplain,
      List.dropWhile_cons_of_neg (by decide)]
  rw [fractionOfText?, habove, hbelow]
  simp [integerOfText?_integerText, hq]

/-! ## Fractions -/

namespace Atom

/-- The label of a fraction is worth the fraction. -/
theorem fractionOfText?_label (p : Int) {q : Int} (hq : q ≠ 0) :
    fractionOfText? (rationalLabel p q) = some ((p : ℚ) / q) := by
  rcases rational_label_cases p q with ⟨n, hn⟩ | hlabel
  · rw [Text.plain.inj (label_of_hasInteger hn), fractionOfText?_integerText, Option.some.injEq]
    -- The integer that is written is the quotient, whichever way the fraction came to be one.
    cases hn with
    | zero => simp
    | whole => simp
    | negated =>
        push_cast
        rw [div_neg, div_one]
  · rw [Text.plain.inj hlabel]
    exact fractionOfText?_fraction p hq

/-- Fractions have the same label if they are written with the same integers, or both are
    written as the same one. -/
theorem rational_label_eq_iff (p q r s : Int) : (rational p q).label = (rational r s).label ↔
    (p = r ∧ q = s) ∨ ∃ n, (rational p q).HasInteger n ∧ (rational r s).HasInteger n := by
  rw [label_eq_iff]
  constructor
  · intro h
    cases h with
    | refl => exact .inl ⟨rfl, rfl⟩
    | integer hp hr => exact .inr ⟨_, hp, hr⟩
  · rintro (⟨rfl, rfl⟩ | ⟨n, hp, hr⟩)
    · exact .refl _
    · exact .integer hp hr

end Atom

/-! ## Floating-point numbers -/

namespace Binary64

variable {x : Binary64} {n : Int}

/-- The label of a number is that of an integer below `10 ^ 21`, or its text. -/
theorem label_cases (x : Binary64) :
    (∃ n : Int, x.value? = some (n : ℚ) ∧ n.natAbs < 10 ^ 21 ∧ x.label = integerText n) ∨
    ((¬∃ n : Int, x.value? = some (n : ℚ) ∧ n.natAbs < 10 ^ 21) ∧ x.label = x.text) := by
  by_cases h : ∃ n : Int, x.value? = some (n : ℚ) ∧ n.natAbs < 10 ^ 21
  · rcases h with ⟨n, hvalue, hlimit⟩
    exact .inl ⟨n, hvalue, hlimit,
      Text.plain.inj (Atom.label_of_hasInteger (.float hvalue hlimit))⟩
  · refine .inr ⟨h, Text.plain.inj ((Atom.float_label_cases x).resolve_left ?_)⟩
    rintro ⟨n, _ | _ | _ | ⟨hvalue, hlimit⟩⟩
    exact h ⟨n, hvalue, hlimit⟩

/-- The numbers with the label of an integer are the integers below `10 ^ 21` in magnitude. -/
theorem unmarked_label_iff (x : Binary64) :
    Unmarked x.label ↔ ∃ n : Int, x.value? = some (n : ℚ) ∧ n.natAbs < 10 ^ 21 := by
  rcases x.label_cases with ⟨n, hvalue, hlimit, hlabel⟩ | ⟨hnone, hlabel⟩
  · rw [hlabel]
    exact iff_of_true (unmarked_integerText n) ⟨n, hvalue, hlimit⟩
  · rw [hlabel]
    exact iff_of_false x.not_unmarked_text hnone

theorem numEq_self (h : x ≠ .nan) : x.numEq x = true := by
  cases x with
  | nan => exact absurd rfl h
  | infinite negative => exact beq_self_eq_true _
  | finite negative ordinal => simp [numEq]

/-- Digits are read as the number whose magnitude they write. -/
theorem magnitudeOfText?_digitsOf {k m : Nat} (h : magnitude m = k) (negative : Bool) :
    magnitudeOfText? negative (digitsOf k) = some (ofOrdinal negative m) := by
  have hdigits : ∀ c ∈ digitsOf k, c.isDigit = true := fun _ => isDigit_of_mem_digitsOf
  rcases exists_lead (digitsOf_ne_nil k) hdigits with ⟨c, rest, hlead, hc⟩
  have htake := takeGroupedDigits_append hdigits stopsDigits_nil false
  rw [List.append_nil] at htake
  have hread : Decimal.ofText? (digitsOf k) = some (.ofDigits (digitsOf k) [] 0) := by
    rw [Decimal.ofText?, htake]
    simp [digitsOf_ne_nil]
  -- The digits are worth the magnitude itself, and what is nearest to it is itself.
  have hnearest : Nearest (Decimal.ofDigits (digitsOf k) [] 0).value m := by
    rw [Decimal.value_ofDigits, List.append_nil, digitsValue_digitsOf, ← h]
    simpa using nearest_magnitude m
  rw [hlead, magnitudeOfText?_of_isDigit hc, ← hlead, hread, Option.map_some,
    Decimal.toBinary64_of_nearest hnearest]

/-- The text of an integer is read with its sign. -/
theorem takeSign_integerText (n : Int) :
    takeSign (integerText n).toList = (decide (n < 0), digitsOf n.natAbs) := by
  rw [integerText_toList]
  by_cases hn : n < 0
  · rw [if_pos hn, decide_eq_true hn]
    rfl
  · have hdigits : ∀ c ∈ digitsOf n.natAbs, c.isDigit = true := fun _ => isDigit_of_mem_digitsOf
    rcases exists_lead (digitsOf_ne_nil n.natAbs) hdigits with ⟨c, rest, hlead, hc⟩
    rw [if_neg hn, decide_eq_false hn, hlead, takeSign_of_isDigit hc]

/-- A number that is an integer has its size for its magnitude, and the sign of the integer unless
    it is zero. -/
theorem magnitude_of_value {negative : Bool} {ordinal : Fin (2047 * binadeSize)}
    (h : value? (.finite negative ordinal) = some (n : ℚ)) :
    magnitude ordinal.val = n.natAbs ∧ (decide (n < 0) = negative ∨ ordinal.val = 0) := by
  have hvalue : signed negative (magnitude ordinal.val) = n := Option.some.inj h
  have hnonneg := magnitude_nonneg ordinal.val
  rw [Nat.cast_natAbs, Int.cast_abs, ← hvalue]
  cases negative with
  | false =>
      simp only [signed, Bool.false_eq_true, if_false] at hvalue ⊢
      have hn : 0 ≤ n := by exact_mod_cast hvalue ▸ hnonneg
      exact ⟨(abs_of_nonneg hnonneg).symm, .inl (decide_eq_false (Int.not_lt.2 hn))⟩
  | true =>
      simp only [signed, if_true] at hvalue ⊢
      refine ⟨by rw [abs_neg, abs_of_nonneg hnonneg], ?_⟩
      by_cases hzero : ordinal.val = 0
      · exact .inr hzero
      · -- Away from zero the magnitude is positive, so the integer is negative.
        have hpos : magnitude 0 < magnitude ordinal.val :=
          magnitude_strictMono (Nat.pos_of_ne_zero hzero)
        rw [magnitude_zero] at hpos
        have hn : (n : ℚ) < 0 := by linarith
        exact .inl (decide_eq_true (by exact_mod_cast hn))

/-- The label of a number is read as an equal number. -/
theorem ofText?_label (h : x ≠ .nan) : ∃ y, ofText? x.label = some y ∧ y.numEq x = true := by
  -- A double is labelled as the integer that it is, or with its own text.
  rcases x.label_cases with ⟨n, hvalue, -, hlabel⟩ | ⟨-, hlabel⟩
  · have hnumeral : ∀ c ∈ (integerText n).toList, isNumeralChar c = true := by
      intro c hc
      rcases mem_integerText hc with rfl | hdigit
      · decide
      · exact isNumeralChar_of_isDigit hdigit
    cases x with
    | finite negative ordinal =>
        rcases magnitude_of_value hvalue with ⟨hmagnitude, hsign⟩
        refine ⟨ofOrdinal (decide (n < 0)) ordinal.val, ?_, ?_⟩
        · rw [hlabel, ofText?_of_numeral hnumeral, takeSign_integerText]
          exact magnitudeOfText?_digitsOf hmagnitude _
        · -- The sign can only differ at zero.
          rw [ofOrdinal_of_lt ordinal.isLt]
          simp only [numEq, beq_self_eq_true, Bool.true_and, Bool.or_eq_true, beq_iff_eq]
          exact hsign
    | _ => cases hvalue
  · rw [hlabel]
    exact ⟨x, ofText?_text x, numEq_self h⟩

end Binary64

/-! ## Whole numbers of documents -/

namespace Wire

/-- The number of binary digits of a number is told by the powers of two around it. -/
theorem bitLength_spec {n : Int} (h : n ≠ 0) :
    2 ^ (bitLength n - 1) ≤ n.natAbs ∧ n.natAbs < 2 ^ bitLength n := by
  rw [bitLength, if_neg h]
  exact ⟨Nat.log2_self_le (Int.natAbs_ne_zero.2 h), Nat.lt_log2_self⟩

end Wire

namespace Stage

open Wire Binary64

/-- The failure that reports a whole number that is too large. -/
def tooLarge (start : Text) (bits : Nat) : Failure :=
  .decode "Number is too large to represent" start
    (some ("integer of " ++ integerText bits ++ " bits")) none

/-- A whole number is read as the nearest double, unless that is infinite. -/
theorem readNode_int (start : Text) (n : Int) : reader.readNode start (.int n) =
    if (ofInt n).isInfinite then .error (.failure (tooLarge start (bitLength n)))
    else .ok (.atom (.float (ofInt n))) := by
  have hread : stageNode .reader nestingLimit (.int n) = wholeNumber 984 n := rfl
  have hroom : (Json.int n).nesting ≤ 984 := Nat.zero_le _
  rw [readNode, hread, wholeNumber]
  by_cases h : (ofInt n).isInfinite = true
  · have hpath : pathText start [] = start := Text.append_empty start
    simp only [h, if_true, reject, if_pos hroom, Defect.failure, hpath]
    rfl
  · simp only [h, Bool.false_eq_true, if_false]

/-- What becomes of the whole numbers of a document. A number is refused as too large, with its
    size, from `2 ^ 1024 - 2 ^ 970` on. Every other one is read as the nearest finite double, and
    larger numbers are read as doubles that are no smaller. The label of what was read is the text
    of the integer that it is, which up to `2 ^ 53` is the number of the document. -/
theorem whole_numbers_are_rounded (start : Text) :
    (∀ n : Int, 2 ^ 1024 - 2 ^ 970 ≤ n.natAbs → ∃ bits,
      2 ^ (bits - 1) ≤ n.natAbs ∧ n.natAbs < 2 ^ bits ∧
      reader.readNode start (.int n) = .error (.failure (tooLarge start bits))) ∧
    (∀ n : Int, n.natAbs < 2 ^ 1024 - 2 ^ 970 → ∃ (x : Binary64) (m : Int),
      reader.readNode start (.int n) = .ok (.atom (.float x)) ∧ IsNearest n x m ∧
      (n.natAbs ≤ 2 ^ 53 → Sexpr.tree (.atom (.float x)) = .leaf (integerText n)) ∧
      (m.natAbs < 10 ^ 21 → Sexpr.tree (.atom (.float x)) = .leaf (integerText m) ∧
        Unmarked (integerText m) ∧ integerOfText? (integerText m).toList = some m)) ∧
    ∀ (k n : Int) (x y : Binary64) (v w : ℚ), k ≤ n →
      reader.readNode start (.int k) = .ok (.atom (.float x)) →
      reader.readNode start (.int n) = .ok (.atom (.float y)) →
      x.value? = some v → y.value? = some w → v ≤ w := by
  refine ⟨fun n hlarge => ?_, fun n hsmall => ?_, ?_⟩
  · -- A number as large as this is refused, so it remains to count its bits.
    have hne : n ≠ 0 := by
      rintro rfl
      exact absurd hlarge (by decide +kernel)
    refine ⟨bitLength n, (bitLength_spec hne).1, (bitLength_spec hne).2, ?_⟩
    rw [readNode_int, if_pos ((isInfinite_ofInt n).2 hlarge)]
  · -- Below the boundary rounding stays finite, and the label is that of the rounded number.
    have hfinite : (ofInt n).isInfinite = false :=
      Bool.eq_false_iff.2 fun h => Nat.not_le.2 hsmall ((isInfinite_ofInt n).1 h)
    rcases ofInt_isNearest hfinite with ⟨m, hnearest, hexact⟩
    have hlabel (hm : m.natAbs < 10 ^ 21) :
        Sexpr.tree (.atom (.float (ofInt n))) = .leaf (integerText m) := by
      rw [Sexpr.tree, Atom.label_of_hasInteger (.float hnearest.value hm)]
    refine ⟨ofInt n, m, ?_, hnearest, fun hn => ?_, fun hm => ?_⟩
    · rw [readNode_int, hfinite]
      rfl
    · have hmn := hexact hn
      rw [hlabel (by omega), hmn]
    · exact ⟨hlabel hm, unmarked_integerText m, integerOfText?_integerText m⟩
  · -- What is read from an integer is its rounding, so the order is that of roundings.
    intro k n x y v w hle hx hy hv hw
    have hread {i : Int} {z : Binary64}
        (h : reader.readNode start (.int i) = .ok (.atom (.float z))) : z = ofInt i := by
      rw [readNode_int] at h
      split at h
      · cases h
      · cases h
        rfl
    rw [hread hx] at hv
    rw [hread hy] at hw
    exact ofInt_mono hle hv hw

end Stage

namespace Atom

/-- Labels of numbers denote the numbers. The label of a fraction that is one is worth it, and two
    fractions have the same label only if they are written with the same integers or as the same
    integer. The label of a floating-point number has no mark exactly if the number is an integer
    below `10 ^ 21` in magnitude, and is the text of that then. Otherwise it is the text of the
    number. Unless the number is none at all, its label is read as an equal number. -/
theorem labels_denote_numbers :
    (∀ p q : Int, q ≠ 0 → ∃ text : String, (rational p q).label = text ∧
      fractionOfText? text = some ((p : ℚ) / q)) ∧
    (∀ p q r s : Int, (rational p q).label = (rational r s).label ↔
      (p = r ∧ q = s) ∨ ∃ n, (rational p q).HasInteger n ∧ (rational r s).HasInteger n) ∧
    ∀ x : Binary64, ∃ text : String, (float x).label = text ∧
      (Unmarked text ↔ ∃ n : Int, x.value? = some (n : ℚ) ∧ n.natAbs < 10 ^ 21) ∧
      (∀ n : Int, x.value? = some (n : ℚ) → n.natAbs < 10 ^ 21 → text = integerText n) ∧
      (¬Unmarked text → text = x.text) ∧
      (x ≠ .nan → ∃ y, Binary64.ofText? text = some y ∧ y.numEq x = true) := by
  refine ⟨fun p q hq => ⟨_, rfl, fractionOfText?_label p hq⟩, rational_label_eq_iff, fun x => ?_⟩
  refine ⟨x.label, rfl, x.unmarked_label_iff, fun n hvalue hlimit => ?_, fun hmarked => ?_,
    Binary64.ofText?_label⟩
  · exact Text.plain.inj (label_of_hasInteger (.float hvalue hlimit))
  · rcases x.label_cases with ⟨n, hvalue, hlimit, -⟩ | ⟨-, hlabel⟩
    · exact absurd (x.unmarked_label_iff.2 ⟨n, hvalue, hlimit⟩) hmarked
    · exact hlabel

/-- Zero has no sign in its label. -/
example : (float (.zero true)).label = "0" := by decide +kernel

end Atom

end StageTree
