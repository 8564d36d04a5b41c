import StageTree.Proofs.Number.Rounding

/-!
# Number Texts Read Back

The text of a double is read as that double again. So doubles are told apart by their texts, and
a text without its point or its power of ten in the same place would still be read as the same
number.

A text is compared with what it writes in two steps. Every text of a decimal is a row of digits
with a point, a power of ten or both, and what such a text is read as is told by its parts
alone. The parts of a text are then seen to have the value of the decimal that was written.

## Main definitions

* `Decimal.Writes`: The numeral that a text of digits, a point and a power of ten writes.
* `Unmarked`: A text without a point, a power of ten or a word for what is no finite number.

## Theorems

* `Decimal.Writes.ofText?_eq`: A text is read as the numeral that it writes.
* `Decimal.exists_writes_text`: The text of a decimal writes a numeral of its value.
* `Binary64.ofText?_text`: The text of a double is read as the double.
* `unmarked_integerText`, `Binary64.not_unmarked_text`: What tells integers from doubles.
* `Binary64.text_ne_integerText`: The text of a double is not that of an integer.
-/

namespace StageTree

/-! ## Digits in front of a text -/

/-- A text goes on with something that cannot belong to the digits before it. -/
def StopsDigits (cs : List Char) : Prop := ∀ c ∈ cs.head?, c.isDigit = false ∧ c ≠ '_'

theorem stopsDigits_nil : StopsDigits [] := nofun

/-- Digits stop in front of what is neither a digit nor an underscore. -/
theorem stopsDigits_cons {c : Char} {cs : List Char} (hdigit : c.isDigit = false) (hc : c ≠ '_') :
    StopsDigits (c :: cs) := by
  intro d hd
  cases hd
  exact ⟨hdigit, hc⟩

theorem stopsDigits_point {cs : List Char} : StopsDigits ('.' :: cs) :=
  stopsDigits_cons (by decide) (by decide)

theorem stopsDigits_mark {cs : List Char} : StopsDigits ('e' :: cs) :=
  stopsDigits_cons (by decide) (by decide)

/-- From digits in front of what stops them all the digits are taken. -/
theorem takeGroupedDigits_append {ds cs : List Char} (hds : ∀ c ∈ ds, c.isDigit = true)
    (hcs : StopsDigits cs) (afterDigit : Bool) :
    takeGroupedDigits afterDigit (ds ++ cs) = (ds, cs) := by
  induction ds generalizing afterDigit with
  | nil =>
      cases cs with
      | nil => rfl
      | cons c rest =>
          rcases hcs c rfl with ⟨hdigit, hc⟩
          simp [takeGroupedDigits, hdigit, hc]
  | cons d ds ih =>
      rcases List.forall_mem_cons.1 hds with ⟨hd, hds⟩
      simp [takeGroupedDigits, hd, ih hds]

namespace Decimal

/-- The value of a numeral by its digits, wherever its point is. -/
theorem value_ofDigits (whole fraction : List Char) (e : Int) :
    (ofDigits whole fraction e).value =
      digitsValue (whole ++ fraction) * 10 ^ (e - fraction.length) := rfl

/-- The numeral that a text of digits, a point and a power of ten writes. -/
inductive Writes : List Char → Decimal → Prop where
  | point {whole fraction : List Char} (hne : whole ≠ []) (hwhole : ∀ c ∈ whole, c.isDigit = true)
    (hfraction : ∀ c ∈ fraction, c.isDigit = true) :
    Writes (whole ++ '.' :: fraction) (ofDigits whole fraction 0)
  | scale {whole : List Char} (power : Int) (hne : whole ≠ [])
    (hwhole : ∀ c ∈ whole, c.isDigit = true) :
    Writes (whole ++ 'e' :: scaleText power) (ofDigits whole [] power)
  | pointScale {whole fraction : List Char} (power : Int) (hne : whole ≠ [])
    (hwhole : ∀ c ∈ whole, c.isDigit = true) (hfraction : ∀ c ∈ fraction, c.isDigit = true) :
    Writes (whole ++ '.' :: (fraction ++ 'e' :: scaleText power)) (ofDigits whole fraction power)

/-- A text that writes a numeral begins with a digit. -/
theorem Writes.lead {cs : List Char} {d : Decimal} (h : Writes cs d) :
    ∃ c rest, cs = c :: rest ∧ c.isDigit = true := by
  have hlead {whole : List Char} (hne : whole ≠ []) (hwhole : ∀ c ∈ whole, c.isDigit = true)
      (more : List Char) : ∃ c rest, whole ++ more = c :: rest ∧ c.isDigit = true := by
    rcases exists_lead hne hwhole with ⟨c, rest, rfl, hc⟩
    exact ⟨c, rest ++ more, rfl, hc⟩
  cases h with
  | point hne hwhole _ => exact hlead hne hwhole _
  | scale _ hne hwhole => exact hlead hne hwhole _
  | pointScale _ hne hwhole _ => exact hlead hne hwhole _

/-- The text of a numeral has a point or the mark of a power of ten. -/
theorem Writes.exists_mark {cs : List Char} {d : Decimal} (h : Writes cs d) :
    '.' ∈ cs ∨ 'e' ∈ cs := by
  cases h with
  | point => exact Or.inl (List.mem_append_right _ List.mem_cons_self)
  | scale => exact Or.inr (List.mem_append_right _ List.mem_cons_self)
  | pointScale => exact Or.inl (List.mem_append_right _ List.mem_cons_self)

/-- A scale that was written is read back. -/
theorem scaleOfText?_scaleText (power : Int) : scaleOfText? (scaleText power) = some power := by
  have hdigits : ∀ c ∈ zeros (2 - (digitsOf power.natAbs).length) ++ digitsOf power.natAbs,
      c.isDigit = true := by
    intro c hc
    rcases List.mem_append.1 hc with hzero | hdigit
    · exact isDigit_of_mem_zeros hzero
    · exact isDigit_of_mem_digitsOf hdigit
  have hvalue : digitsValue (zeros (2 - (digitsOf power.natAbs).length) ++
      digitsOf power.natAbs) = power.natAbs := by
    rw [digitsValue_zeros_append, digitsValue_digitsOf]
  have htake := takeGroupedDigits_append hdigits stopsDigits_nil false
  rw [List.append_nil] at htake
  have hne : zeros (2 - (digitsOf power.natAbs).length) ++ digitsOf power.natAbs ≠ [] :=
    List.append_ne_nil_of_right_ne_nil _ (digitsOf_ne_nil _)
  -- Both signs are followed by the same digits.
  have hread (negative : Bool) (cs : List Char)
      (hsign : takeSign cs = (negative,
        zeros (2 - (digitsOf power.natAbs).length) ++ digitsOf power.natAbs)) :
      scaleOfText? cs = some (if negative then -(power.natAbs : Int) else power.natAbs) := by
    rw [scaleOfText?, hsign]
    simp only [htake, hvalue]
  by_cases hneg : power < 0
  · rw [scaleText, hread true _ (by rw [if_pos hneg]; rfl)]
    simp only [if_true, Option.some.injEq]
    omega
  · rw [scaleText, hread false _ (by rw [if_neg hneg]; rfl)]
    simp only [Bool.false_eq_true, if_false, Option.some.injEq]
    omega

/-- A text is read as the numeral that it writes. -/
theorem Writes.ofText?_eq {cs : List Char} {d : Decimal} (h : Writes cs d) :
    ofText? cs = some d := by
  cases h with
  | @point whole fraction hne hwhole hfraction =>
      have hafter := takeGroupedDigits_append hfraction stopsDigits_nil false
      rw [List.append_nil] at hafter
      rw [ofText?, takeGroupedDigits_append hwhole stopsDigits_point]
      simp [hafter, hne]
  | @scale whole power hne hwhole =>
      rw [ofText?, takeGroupedDigits_append hwhole stopsDigits_mark]
      simp [scaleOfText?_scaleText, hne]
  | @pointScale whole fraction power hne hwhole hfraction =>
      rw [ofText?, takeGroupedDigits_append hwhole stopsDigits_point]
      simp [takeGroupedDigits_append hfraction stopsDigits_mark, scaleOfText?_scaleText, hne]

/-! ## The texts of decimals -/

/-- The value of a decimal by its significant digits. -/
theorem value_eq_significant (d : Decimal) :
    d.value = digitsValue d.significantDigits *
      10 ^ (d.pointPosition - d.significantDigits.length) := by
  rcases d.exists_digitsOf_eq with ⟨count, hdigits⟩
  have hcoefficient : d.coefficient = digitsValue d.significantDigits * 10 ^ count := by
    rw [← digitsValue_append_zeros, ← hdigits, digitsValue_digitsOf]
  have hpoint : d.pointPosition - d.significantDigits.length = count + d.exponent := by
    rw [pointPosition, hdigits, zeros, List.length_append, List.length_replicate]
    push_cast
    ring
  rw [value, hpoint, zpow_add₀ (by norm_num), zpow_natCast, hcoefficient]
  push_cast
  ring

/-- A number that is not zero has a digit that counts. -/
theorem significantDigits_ne_nil {d : Decimal} (h : 0 < d.coefficient) :
    d.significantDigits ≠ [] := by
  intro hnil
  rcases d.exists_digitsOf_eq with ⟨count, hdigits⟩
  have hvalue := digitsValue_digitsOf d.coefficient
  -- With zeros only the value would be zero.
  rw [hdigits, hnil, List.nil_append, digitsValue_zeros] at hvalue
  omega

section Text

variable {d : Decimal} (h : 0 < d.coefficient)

include h

theorem take_ne_nil {k : Nat} (hk : 0 < k) : d.significantDigits.take k ≠ [] := by
  rw [Ne, List.take_eq_nil_iff]
  rintro (hzero | hnil)
  · omega
  · exact significantDigits_ne_nil h hnil

/-- A text with its point writes the digits that it has, scaled by where the point is. -/
theorem positionalText_writes :
    ∃ e, Writes (positionalText d.significantDigits d.pointPosition) e ∧ e.value = d.value := by
  have hdigits : ∀ c ∈ d.significantDigits, c.isDigit = true :=
    fun _ => isDigit_of_mem_significantDigits
  have hzeros (count : Nat) : ∀ c ∈ zeros count, c.isDigit = true :=
    fun _ => isDigit_of_mem_zeros
  rw [positionalText, value_eq_significant]
  by_cases hsmall : d.pointPosition ≤ 0
  · -- Zeros in front of the digits count for nothing but the place of the point.
    have hwrites : Writes (zeros 1 ++ '.' :: (zeros (-d.pointPosition).toNat ++
        d.significantDigits)) _ :=
      .point (List.cons_ne_nil _ _) (hzeros 1) (List.forall_mem_append.2 ⟨hzeros _, hdigits⟩)
    rw [if_pos hsmall]
    refine ⟨_, hwrites, ?_⟩
    rw [value_ofDigits, digitsValue_zeros_append, digitsValue_zeros_append, List.length_append,
      zeros, List.length_replicate]
    congr 2
    omega
  · rw [if_neg hsmall]
    by_cases hwhole : d.significantDigits.length ≤ d.pointPosition.toNat
    · -- Zeros behind the digits stand for powers of ten.
      have hwrites : Writes ((d.significantDigits ++
          zeros (d.pointPosition.toNat - d.significantDigits.length)) ++ '.' :: zeros 1) _ :=
        .point (List.append_ne_nil_of_left_ne_nil (significantDigits_ne_nil h) _)
          (List.forall_mem_append.2 ⟨hdigits, hzeros _⟩) (hzeros 1)
      have hexponent : d.pointPosition - d.significantDigits.length =
          (d.pointPosition.toNat - d.significantDigits.length : Nat) := by omega
      rw [if_pos hwhole]
      refine ⟨_, hwrites, ?_⟩
      rw [value_ofDigits, digitsValue_append_zeros, digitsValue_append_zeros, hexponent,
        zpow_natCast]
      simp only [zeros, List.length_replicate, Nat.cast_one, zero_sub, zpow_neg_one]
      push_cast
      field_simp
    · -- The point stands among the digits.
      have hwrites : Writes (d.significantDigits.take d.pointPosition.toNat ++ '.' ::
          d.significantDigits.drop d.pointPosition.toNat) _ :=
        .point (take_ne_nil h (by omega)) (fun c hc => hdigits c (List.mem_of_mem_take hc))
          (fun c hc => hdigits c (List.mem_of_mem_drop hc))
      rw [if_neg hwhole]
      refine ⟨_, hwrites, ?_⟩
      rw [value_ofDigits, List.take_append_drop, List.length_drop]
      congr 2
      omega

/-- A text with a power of ten writes the digits that it has, too. -/
theorem scaledText_writes :
    ∃ e, Writes (scaledText d.significantDigits d.pointPosition) e ∧ e.value = d.value := by
  have hdigits : ∀ c ∈ d.significantDigits, c.isDigit = true :=
    fun _ => isDigit_of_mem_significantDigits
  have hlength : 0 < d.significantDigits.length :=
    List.length_pos_of_ne_nil (significantDigits_ne_nil h)
  have hfirst : ∀ c ∈ d.significantDigits.take 1, c.isDigit = true :=
    fun c hc => hdigits c (List.mem_of_mem_take hc)
  rw [scaledText, value_eq_significant]
  -- A single digit is written without a point, and more digits with one behind the first.
  by_cases hone : d.significantDigits.length ≤ 1
  · rw [if_pos hone, List.append_nil]
    refine ⟨_, .scale (d.pointPosition - 1) (take_ne_nil h Nat.one_pos) hfirst, ?_⟩
    rw [value_ofDigits, List.append_nil, List.take_of_length_le hone]
    congr 2
    simp only [List.length_nil]
    omega
  · rw [if_neg hone, List.append_assoc, List.cons_append]
    refine ⟨_, .pointScale (d.pointPosition - 1) (take_ne_nil h Nat.one_pos) hfirst
      (fun c hc => hdigits c (List.mem_of_mem_drop hc)), ?_⟩
    rw [value_ofDigits, List.take_append_drop, List.length_drop]
    congr 2
    omega

end Text

/-- The text of a decimal writes a numeral of its value. -/
theorem exists_writes_text {d : Decimal} (h : 0 < d.coefficient) :
    ∃ e, Writes d.text e ∧ e.value = d.value := by
  rw [text]
  split
  · exact positionalText_writes h
  · exact scaledText_writes h

end Decimal

/-! ## The characters of a text -/

theorem toLower_of_isDigit {c : Char} (h : c.isDigit = true) : c.toLower = c := by
  rcases toNat_of_isDigit h with ⟨_, hhigh⟩
  refine dif_neg fun hcapital => ?_
  have hlow : 'A'.toNat ≤ c.toNat := UInt32.le_iff_toNat_le.1 hcapital.1
  exact absurd (hlow.trans_lt hhigh) (by decide)

/-- Digits are no white space. -/
theorem isPlainBlank_of_isDigit {c : Char} (h : c.isDigit = true) : isPlainBlank c = false := by
  rcases toNat_of_isDigit h with ⟨hlow, _⟩
  rw [isPlainBlank, Bool.or_eq_false_iff, Bool.and_eq_false_iff]
  refine ⟨Or.inr (decide_eq_false fun hle => ?_), beq_eq_false_iff_ne.2 fun heq => ?_⟩
  · have hhigh : c.toNat ≤ '\r'.toNat := UInt32.le_iff_toNat_le.1 hle
    exact absurd (hlow.trans hhigh) (by decide)
  · rw [heq] at hlow
    exact absurd hlow (by decide)

/-- Characters of number texts stay as they are when a text is read. -/
theorem numeralChar_eq_self {c : Char} (h : isNumeralChar c = true) :
    numeralChar c = c ∧ c.toLower = c ∧ isPlainBlank c = false := by
  rw [isNumeralChar, Bool.or_eq_true] at h
  rcases h with hdigit | hother
  · rcases toNat_of_isDigit hdigit with ⟨hlow, hhigh⟩
    exact ⟨if_pos (by omega), toLower_of_isDigit hdigit, isPlainBlank_of_isDigit hdigit⟩
  · have hall : ['-', '+', '.', 'e', 'a', 'f', 'i', 'n'].all
        (fun c => numeralChar c == c && (c.toLower == c && !isPlainBlank c)) = true := by decide
    have hc := List.all_eq_true.1 hall c (List.contains_iff_mem.1 hother)
    simpa only [Bool.and_eq_true, beq_iff_eq, Bool.not_eq_true'] using hc

theorem map_eq_self {f : Char → Char} {cs : List Char} (h : ∀ c ∈ cs, f c = c) :
    cs.map f = cs :=
  (List.map_congr_left h).trans (List.map_id cs)

/-- Nothing is cut off a text without white space. -/
theorem trimWhere_eq_self {p : Char → Bool} {cs : List Char} (h : ∀ c ∈ cs, p c = false) :
    trimWhere p cs = cs := by
  have hdrop (ds : List Char) (hds : ∀ d ∈ ds, p d = false) : ds.dropWhile p = ds := by
    cases ds with
    | nil => rfl
    | cons d ds => rw [List.dropWhile_cons, hds d List.mem_cons_self, if_neg Bool.false_ne_true]
  have hreverse : ∀ c ∈ cs.reverse, p c = false := fun c hc => h c (List.mem_reverse.1 hc)
  rw [trimWhere, hdrop cs h, hdrop cs.reverse hreverse, List.reverse_reverse]

namespace Binary64

/-- A row of numeral characters is read as it is. -/
theorem ofText?_of_numeral {text : String} (h : ∀ c ∈ text.toList, isNumeralChar c = true) :
    ofText? text = magnitudeOfText? (takeSign text.toList).1 (takeSign text.toList).2 := by
  have hplain : text.toList.map numeralChar = text.toList :=
    map_eq_self fun c hc => (numeralChar_eq_self (h c hc)).1
  have hlower : text.toList.map Char.toLower = text.toList :=
    map_eq_self fun c hc => (numeralChar_eq_self (h c hc)).2.1
  have htrim : trimWhere isPlainBlank text.toList = text.toList :=
    trimWhere_eq_self fun c hc => (numeralChar_eq_self (h c hc)).2.2
  rw [ofText?, numberText, hplain, htrim, hlower]

variable {n : Nat}

-- The words for infinity and for what is not a number do not begin with a digit.
theorem magnitudeOfText?_of_isDigit {c : Char} (hc : c.isDigit = true) (rest : List Char)
    (negative : Bool) : magnitudeOfText? negative (c :: rest) =
      (Decimal.ofText? (c :: rest)).map fun d => d.toBinary64 negative := by
  have hword {w : Char} {word : List Char} (hw : w.isDigit = false) : c :: rest ≠ w :: word := by
    intro heq
    rw [(List.cons.inj heq).1, hw] at hc
    exact Bool.false_ne_true hc
  have hinf : c :: rest ≠ "inf".toList := hword rfl
  have hinfinity : c :: rest ≠ "infinity".toList := hword rfl
  have hnan : c :: rest ≠ "nan".toList := hword rfl
  rw [magnitudeOfText?, if_neg (by simp only [hinf, hinfinity, decide_false, Bool.or_self,
    Bool.false_eq_true, not_false_eq_true]), if_neg hnan]

/-- A text that writes a decimal number is read as the double nearest to that number. -/
theorem magnitudeOfText?_of_writes {cs : List Char} {d : Decimal} (h : d.Writes cs)
    (hn : Nearest d.value n) (negative : Bool) :
    magnitudeOfText? negative cs = some (ofOrdinal negative n) := by
  rcases h.lead with ⟨c, rest, rfl, hc⟩
  rw [magnitudeOfText?_of_isDigit hc, h.ofText?_eq, Option.map_some,
    Decimal.toBinary64_of_nearest hn]

/-- The text of a double writes a decimal number to which that double is nearest. -/
theorem exists_writes_magnitudeText (hn : n < 2047 * binadeSize) :
    ∃ d : Decimal, d.Writes (magnitudeText n) ∧ Nearest d.value n := by
  rw [magnitudeText]
  split
  · -- Zero is written as it is, and other doubles with their shortest digits.
    rename_i hzero
    have hzeros : ∀ c ∈ Decimal.zeros 1, c.isDigit = true :=
      fun _ => Decimal.isDigit_of_mem_zeros
    have hwrites : Decimal.Writes "0.0".toList (.ofDigits (Decimal.zeros 1) (Decimal.zeros 1) 0) :=
      .point (List.cons_ne_nil _ _) hzeros hzeros
    refine ⟨_, hwrites, ?_⟩
    rw [Decimal.value_ofDigits, digitsValue_zeros_append, digitsValue_zeros, Nat.cast_zero,
      zero_mul, hzero, ← magnitude_zero]
    exact nearest_magnitude 0
  · rename_i hpos
    rcases Decimal.exists_writes_text (shortest_coefficient_pos (by omega) hn) with
      ⟨d, hwrites, hvalue⟩
    refine ⟨d, hwrites, ?_⟩
    rw [hvalue]
    exact shortest_nearest hn

/-- A digit is no sign. -/
theorem takeSign_of_isDigit {c : Char} (hc : c.isDigit = true) (rest : List Char) :
    takeSign (c :: rest) = (false, c :: rest) := by
  unfold takeSign
  split
  · rename_i heq
    cases heq
    exact absurd hc (by decide)
  · rename_i heq
    cases heq
    exact absurd hc (by decide)
  · rfl

/-- The text of a double is read as the double. -/
theorem ofText?_text (x : Binary64) : ofText? x.text = some x := by
  rw [ofText?_of_numeral fun _ => isNumeralChar_of_mem_text]
  cases x with
  | nan => decide
  | infinite negative => cases negative <;> decide
  | finite negative ordinal =>
      rcases exists_writes_magnitudeText ordinal.isLt with ⟨d, hwrites, hnearest⟩
      have hread := magnitudeOfText?_of_writes hwrites hnearest negative
      rw [ofOrdinal_of_lt ordinal.isLt] at hread
      rw [text, String.toList_ofList]
      cases negative with
      | true => exact hread
      | false =>
          -- A digit comes first, and that is no sign.
          rcases hwrites.lead with ⟨c, rest, hlead, hc⟩
          rw [hlead] at hread ⊢
          rw [if_neg Bool.false_ne_true, List.nil_append, takeSign_of_isDigit hc]
          exact hread

/-- Doubles are told apart by their texts. -/
theorem text_injective {x y : Binary64} (h : x.text = y.text) : x = y := by
  rw [← Option.some.injEq, ← ofText?_text, ← ofText?_text, h]

end Binary64

/-! ## Texts of integers and of doubles -/

/-- A text that could be that of an integer: it has no point and no power of ten, and none of the
    words for infinity and for what is not a number. -/
structure Unmarked (text : String) : Prop where
  point : '.' ∉ text.toList
  scale : 'e' ∉ text.toList
  infinity : ¬"inf".toList <:+: text.toList
  notNumber : ¬"nan".toList <:+: text.toList

/-- Integers are written without a point, a scale or a word. -/
theorem unmarked_integerText (n : Int) : Unmarked (integerText n) := by
  have hnot {c : Char} (hc : c ≠ '-' ∧ c.isDigit = false) : c ∉ (integerText n).toList := by
    intro hmem
    rcases mem_integerText hmem with hminus | hdigit
    · exact hc.1 hminus
    · rw [hc.2] at hdigit
      exact Bool.false_ne_true hdigit
  -- Both words have a letter, and an integer has none.
  have hletter : 'n' ∉ (integerText n).toList := hnot (by decide)
  exact ⟨hnot (by decide), hnot (by decide), fun h => hletter (h.subset (by decide)),
    fun h => hletter (h.subset (by decide))⟩

namespace Binary64

/-- Every text of a double has a mark that no integer has. -/
theorem not_unmarked_text (x : Binary64) : ¬Unmarked x.text := by
  intro h
  cases x with
  | nan => exact h.notNumber (by decide)
  | infinite negative =>
      refine h.infinity ?_
      cases negative <;> decide
  | finite negative ordinal =>
      rcases exists_writes_magnitudeText ordinal.isLt with ⟨d, hwrites, _⟩
      have hmem {c : Char} (hc : c ∈ magnitudeText ordinal.val) :
          c ∈ (text (.finite negative ordinal)).toList := by
        rw [text, String.toList_ofList]
        exact List.mem_append_right _ hc
      -- A double is written with a point or with a scale, whichever value it has.
      rcases hwrites.exists_mark with hpoint | hscale
      · exact h.point (hmem hpoint)
      · exact h.scale (hmem hscale)

/-- The text of a double is not that of an integer. -/
theorem text_ne_integerText (x : Binary64) (n : Int) : x.text ≠ integerText n := by
  intro h
  have hunmarked := unmarked_integerText n
  rw [← h] at hunmarked
  exact x.not_unmarked_text hunmarked

end Binary64

end StageTree
