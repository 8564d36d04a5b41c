import StageTree.Proofs.Json.Strings

/-!
# Numbers and Words

The reader of numbers and words reads what the grammar writes, and nothing else.

A number is read as far as it goes, so it is read back only in front of a text that cannot go on
with it. After a value in a document there is a gap, a comma, a closing bracket or nothing, and
none of these can.

## Main definitions

* `Stops`: What follows a value in a document.
* `LongRun`: A text holds more digits in a row than may be.

## Theorems

* `takeNumeral_sound`: What is read as a number is written as one.
* `takeNumeral_complete`: A number that is written is read.
* `scalar_sound`: What is read as a number or a word is written as one.
* `scalar_error`: A number that is refused though it is one has too many digits.
-/

namespace StageTree

namespace Json

variable {cs front rest ds left : List Char} {n : Numeral} {j : Json}

/-! ## Digits -/

/-- What is taken are digits, and what is left comes after them. -/
theorem takeDigits_eq (h : takeDigits cs = (ds, left)) :
    cs = ds ++ left ∧ ∀ c ∈ ds, c.isDigit = true := by
  cases h
  exact ⟨List.takeWhile_append_dropWhile.symm, List.all_eq_true.1 List.all_takeWhile⟩

/-- Digits are taken up to the first character that is none. -/
theorem takeDigits_append (hds : ∀ c ∈ ds, c.isDigit = true)
    (hrest : ∀ c ∈ rest.head?, c.isDigit = false) : takeDigits (ds ++ rest) = (ds, rest) := by
  rw [takeDigits, List.takeWhile_append_of_pos hds, List.dropWhile_append_of_pos hds]
  cases rest with
  | nil => rw [List.takeWhile_nil, List.dropWhile_nil, List.append_nil]
  | cons c rest =>
      have hc : ¬ c.isDigit = true := Bool.eq_false_iff.1 (hrest c rfl)
      rw [List.takeWhile_cons_of_neg hc, List.dropWhile_cons_of_neg hc, List.append_nil]

/-- Digits have a first one. -/
theorem Digits.exists_cons (h : Digits ds) : ∃ d more, ds = d :: more ∧ d.isDigit = true := by
  cases ds with
  | nil => exact absurd rfl h.ne_nil
  | cons d more => exact ⟨d, more, rfl, h.all d List.mem_cons_self⟩

/-! ## What is read is written -/

theorem takeMinus_sound {negative : Bool} (h : takeMinus cs = (negative, left)) :
    cs = (if negative then ['-'] else []) ++ left := by
  unfold takeMinus at h
  split at h <;> cases h <;> rfl

/-- What is taken as the whole part is a zero, or digits that do not begin with one. -/
theorem takeWhole_sound (h : takeWhole cs = (ds, left)) (hne : ds ≠ []) :
    cs = ds ++ left ∧ WholeText ds := by
  unfold takeWhole at h
  split at h
  · cases h
    exact ⟨rfl, ⟨hne, List.forall_mem_singleton.2 rfl⟩, fun _ => rfl⟩
  · rename_i hzero
    rcases takeDigits_eq h with ⟨hcs, hall⟩
    refine ⟨hcs, ⟨hne, hall⟩, fun hhead => ?_⟩
    -- A zero in front would have been taken alone.
    rcases List.head?_eq_some_iff.1 hhead with ⟨more, rfl⟩
    exact absurd hcs (hzero _)

/-- A point is taken only with digits after it. -/
theorem takeFraction_sound {fraction : Option (List Char)}
    (h : takeFraction cs = (fraction, left)) :
    ∃ point, cs = point ++ left ∧ FractionText point fraction := by
  unfold takeFraction at h
  split at h
  · split at h
    · cases h
      exact ⟨[], rfl, .none⟩
    · rename_i ds after hne htaken
      cases h
      rcases takeDigits_eq htaken with ⟨rfl, hall⟩
      exact ⟨'.' :: ds, rfl, .some ⟨hne, hall⟩⟩
  · cases h
    exact ⟨[], rfl, .none⟩

theorem takeSign_sound {negative : Bool} (h : takeSign cs = (negative, left)) :
    ∃ sign, cs = sign ++ left ∧ SignText sign negative := by
  unfold takeSign at h
  split at h
  · cases h
    exact ⟨['-'], rfl, .minus⟩
  · cases h
    exact ⟨['+'], rfl, .plus⟩
  · cases h
    exact ⟨[], rfl, .none⟩

/-- A mark for a scale is taken only with digits after it. -/
theorem takeScale_sound {scale : Option Int} (h : takeScale cs = (scale, left)) :
    ∃ power, cs = power ++ left ∧ ScaleText power scale := by
  unfold takeScale at h
  split at h
  · rename_i mark more
    split at h
    · rename_i hmark
      rw [Bool.or_eq_true, decide_eq_true_eq, decide_eq_true_eq] at hmark
      split at h
      rename_i negative unsigned htaken
      rcases takeSign_sound htaken with ⟨sign, rfl, hsign⟩
      split at h
      · cases h
        exact ⟨[], rfl, .none⟩
      · rename_i ds after hne hdigits
        cases h
        rcases takeDigits_eq hdigits with ⟨rfl, hall⟩
        refine ⟨mark :: (sign ++ ds), ?_, .some hmark hsign ⟨hne, hall⟩⟩
        rw [List.cons_append, List.append_assoc]
    · cases h
      exact ⟨[], rfl, .none⟩
  · cases h
    exact ⟨[], rfl, .none⟩

/-- What is read as a number is written as one. -/
theorem takeNumeral_sound (h : takeNumeral cs = some (n, rest)) :
    ∃ front, cs = front ++ rest ∧ NumeralText front n := by
  -- Each part is taken from what the one before it left.
  rcases hminus : takeMinus cs with ⟨negative, unsigned⟩
  rcases hwhole : takeWhole unsigned with ⟨whole, afterWhole⟩
  rcases hpoint : takeFraction afterWhole with ⟨fraction, afterPoint⟩
  rcases hscale : takeScale afterPoint with ⟨scale, after⟩
  simp only [takeNumeral, hminus, hwhole, hpoint, hscale] at h
  split at h
  · cases h
  · rename_i hne
    cases h
    rcases takeWhole_sound hwhole (mt List.isEmpty_iff.2 hne) with ⟨rfl, htext⟩
    rcases takeFraction_sound hpoint with ⟨point, rfl, hfraction⟩
    rcases takeScale_sound hscale with ⟨power, rfl, hpower⟩
    refine ⟨_, ?_, .parts negative htext hfraction hpower⟩
    rw [takeMinus_sound hminus, List.append_assoc, List.append_assoc, List.append_assoc]

/-! ## What is written is read -/

/-- What follows a value in a document: a gap, a comma, a closing bracket or nothing. -/
def Stops (cs : List Char) : Prop :=
  ∀ c ∈ cs.head?, isGap c = true ∨ c = ',' ∨ c = ']' ∨ c = '}'

/-- What follows a value is no part of a number. -/
theorem Stops.head (h : Stops rest) {c : Char} (hc : c ∈ rest.head?) :
    c.isDigit = false ∧ c ≠ '.' ∧ c ≠ 'e' ∧ c ≠ 'E' := by
  -- Neither a gap nor a mark of punctuation can go on with a number.
  rcases h c hc with hgap | rfl | rfl | rfl
  · simp only [isGap, Bool.or_eq_true, decide_eq_true_eq] at hgap
    rcases hgap with ((rfl | rfl) | rfl) | rfl <;> decide
  · decide
  · decide
  · decide

theorem takeMinus_append (negative : Bool) (hcs : ∀ c ∈ cs.head?, c.isDigit = true) :
    takeMinus ((if negative then ['-'] else []) ++ cs) = (negative, cs) := by
  cases negative with
  | true => rfl
  | false =>
      change takeMinus cs = _
      unfold takeMinus
      split
      · exact absurd (hcs '-' rfl) (by decide)
      · rfl

/-- A whole part is taken up to what is no digit. -/
theorem takeWhole_append (h : WholeText ds) (hrest : ∀ c ∈ rest.head?, c.isDigit = false) :
    takeWhole (ds ++ rest) = (ds, rest) := by
  unfold takeWhole
  split
  · -- A whole part that begins with a zero is the zero alone.
    rename_i after hzero
    rcases h.digits.exists_cons with ⟨d, more, rfl, _⟩
    cases hzero
    cases h.zero rfl
    rfl
  · exact takeDigits_append h.digits.all hrest

/-- A fraction is taken up to what is no digit. -/
theorem takeFraction_append {point : List Char} {fraction : Option (List Char)}
    (h : FractionText point fraction)
    (hrest : ∀ c ∈ rest.head?, c.isDigit = false ∧ c ≠ '.') :
    takeFraction (point ++ rest) = (fraction, rest) := by
  cases h with
  | none =>
      rw [List.nil_append]
      unfold takeFraction
      split
      · exact absurd rfl (hrest '.' rfl).2
      · rfl
  | some hds =>
      rename_i ds
      rw [List.cons_append, takeFraction, takeDigits_append hds.all fun c hc => (hrest c hc).1]
      split
      · rename_i hnil
        cases hnil
        exact absurd rfl hds.ne_nil
      · rename_i hsome
        cases hsome
        rfl

theorem takeSign_append {sign : List Char} {negative : Bool} (h : SignText sign negative)
    (hcs : ∀ c ∈ cs.head?, c.isDigit = true) : takeSign (sign ++ cs) = (negative, cs) := by
  cases h with
  | plus => rfl
  | minus => rfl
  | none =>
      rw [List.nil_append]
      unfold takeSign
      split
      · exact absurd (hcs '-' rfl) (by decide)
      · exact absurd (hcs '+' rfl) (by decide)
      · rfl

/-- A scale is taken up to what is no digit. -/
theorem takeScale_append {power : List Char} {scale : Option Int} (h : ScaleText power scale)
    (hrest : ∀ c ∈ rest.head?, c.isDigit = false ∧ c ≠ 'e' ∧ c ≠ 'E') :
    takeScale (power ++ rest) = (scale, rest) := by
  cases h with
  | none =>
      rw [List.nil_append]
      unfold takeScale
      split
      · rename_i mark more
        rcases hrest mark rfl with ⟨_, he, hE⟩
        rw [decide_eq_false he, decide_eq_false hE]
        rfl
      · rfl
  | some hmark hsign hds =>
      rename_i mark sign ds negative
      have hmark' : (decide (mark = 'e') || decide (mark = 'E')) = true := by
        rw [Bool.or_eq_true, decide_eq_true_eq, decide_eq_true_eq]
        exact hmark
      rcases hds.exists_cons with ⟨d, more, rfl, hd⟩
      have htaken : takeSign (sign ++ (d :: more ++ rest)) = (negative, d :: more ++ rest) :=
        takeSign_append hsign fun c hc => by cases hc; exact hd
      rw [List.cons_append, List.append_assoc, takeScale, if_pos hmark', htaken]
      simp only
      rw [takeDigits_append hds.all fun c hc => (hrest c hc).1]
      rfl

/-- What follows the point of a number, if the number goes on, is no digit. -/
theorem ScaleText.head_append {power : List Char} {scale : Option Int}
    (h : ScaleText power scale) (hrest : Stops rest) :
    ∀ c ∈ (power ++ rest).head?, c.isDigit = false ∧ c ≠ '.' := by
  intro c hc
  cases h with
  | none => exact ⟨(hrest.head hc).1, (hrest.head hc).2.1⟩
  | some hmark =>
      cases hc
      rcases hmark with rfl | rfl <;> decide

/-- A number that is written is read. -/
theorem takeNumeral_complete (h : NumeralText front n) (hrest : Stops rest) :
    takeNumeral (front ++ rest) = some (n, rest) := by
  cases h with
  | parts negative hwhole hpoint hpower =>
      rename_i whole point power fraction scale
      -- Each part stops in front of the next one, or of what follows the numeral.
      have hpower' := hpower.head_append hrest
      have hpoint' : ∀ c ∈ (point ++ (power ++ rest)).head?, c.isDigit = false := by
        intro c hc
        cases hpoint with
        | none => exact (hpower' c hc).1
        | some => cases hc; decide
      have hunsigned : ∀ c ∈ (whole ++ (point ++ (power ++ rest))).head?, c.isDigit = true := by
        rcases hwhole.digits.exists_cons with ⟨d, more, rfl, hd⟩
        intro c hc
        cases hc
        exact hd
      have hnonempty : ¬ whole.isEmpty = true := mt List.isEmpty_iff.1 hwhole.digits.ne_nil
      simp only [takeNumeral, List.append_assoc, takeMinus_append negative hunsigned,
        takeWhole_append hwhole hpoint', takeFraction_append hpoint hpower',
        takeScale_append hpower fun c hc =>
          ⟨(hrest.head hc).1, (hrest.head hc).2.2⟩, if_neg hnonempty]

/-! ## Words and numbers -/

/-- A number begins with a digit, after its minus sign. -/
theorem NumeralText.exists_digit (h : NumeralText front n) :
    ∃ d more, d.isDigit = true ∧ (front = d :: more ∨ front = '-' :: d :: more) := by
  cases h with
  | parts negative hwhole _ _ =>
      rcases hwhole.digits.exists_cons with ⟨d, more, rfl, hd⟩
      cases negative with
      | true => exact ⟨d, _, hd, Or.inr rfl⟩
      | false => exact ⟨d, _, hd, Or.inl rfl⟩

-- The only word with a sign goes on with a letter.
theorem takeWord_digit {d : Char} (hd : d.isDigit = true) (more : List Char) :
    takeWord (d :: more) = none ∧ takeWord ('-' :: d :: more) = none := by
  constructor
  · unfold takeWord
    split
    -- No word has a digit at its front or behind a minus sign.
    case h_7 => rfl
    all_goals
      rename_i hword
      cases hword
      exact absurd hd (by decide)
  · unfold takeWord
    split
    case h_6 hword =>
      cases hword
      exact absurd hd (by decide)
    case h_7 => rfl
    all_goals
      rename_i hword
      cases hword

/-- A number is no word. -/
theorem takeWord_numeral (h : NumeralText front n) (rest : List Char) :
    takeWord (front ++ rest) = none := by
  rcases h.exists_digit with ⟨d, more, hd, rfl | rfl⟩
  · exact (takeWord_digit hd (more ++ rest)).1
  · exact (takeWord_digit hd (more ++ rest)).2

/-- What is read as a word is written as one. -/
theorem takeWord_sound {digits : Nat} (h : takeWord cs = some (j, rest)) :
    ∃ front, cs = front ++ rest ∧ Scalar digits front j := by
  unfold takeWord at h
  split at h
  · cases h; exact ⟨_, rfl, .null⟩
  · cases h; exact ⟨_, rfl, .true⟩
  · cases h; exact ⟨_, rfl, .false⟩
  · cases h; exact ⟨_, rfl, .notNumber⟩
  · cases h; exact ⟨_, rfl, .infinity⟩
  · cases h; exact ⟨_, rfl, .minusInfinity⟩
  · cases h

/-- A number that becomes a document is written as one. -/
theorem Numeral.toJson_sound (h : NumeralText front n) (hj : n.toJson = .ok j) :
    Scalar integerDigitLimit front j := by
  rcases n with ⟨negative, whole, fraction, scale⟩
  -- Only a numeral without a point and a scale becomes an integer.
  unfold Numeral.toJson at hj
  split at hj
  · rename_i hfraction hscale
    cases hfraction
    cases hscale
    split at hj
    · cases hj
    · rename_i hshort
      cases hj
      exact .integer h (Nat.not_lt.1 hshort)
  · rename_i hfloat
    cases hj
    refine .float h ?_
    cases fraction with
    | some _ => exact Or.inl nofun
    | none =>
        cases scale with
        | some _ => exact Or.inr nofun
        | none => exact absurd rfl (hfloat rfl)

/-- Without a point and a scale a numeral is an integer, if it is short enough. -/
theorem Numeral.toJson_whole {negative : Bool} {whole : List Char}
    (hshort : whole.length ≤ integerDigitLimit) :
    Numeral.toJson ⟨negative, whole, none, none⟩ = .ok (.int (signed negative whole)) :=
  if_neg (Nat.not_lt.2 hshort)

/-- With a point or a scale a numeral is a double, however long it is. -/
theorem Numeral.toJson_float (h : n.fraction ≠ none ∨ n.scale ≠ none) :
    n.toJson = .ok (.float ((Decimal.ofDigits n.whole (n.fraction.getD [])
      (n.scale.getD 0)).toBinary64 n.negative)) := by
  unfold Numeral.toJson
  split
  · rename_i hfraction hscale
    exact absurd h (not_or.2 ⟨not_not_intro hfraction, not_not_intro hscale⟩)
  · rfl

/-- A text holds more digits in a row than may be. -/
def LongRun (digits : Nat) (cs : List Char) : Prop :=
  ∃ run, run <:+: cs ∧ (∀ c ∈ run, c.isDigit = true) ∧ digits < run.length

/-- A long row of digits in a part of a text is one in the text. -/
theorem LongRun.mono {digits : Nat} (h : LongRun digits cs) (hcs : cs <:+ left) :
    LongRun digits left := by
  rcases h with ⟨run, hrun, hdigits⟩
  exact ⟨run, hrun.trans hcs.isInfix, hdigits⟩

/-- The whole part of a numeral is a row of digits in its text. -/
theorem NumeralText.whole_infix (h : NumeralText front n) :
    n.whole <:+: front ∧ ∀ c ∈ n.whole, c.isDigit = true := by
  cases h with
  | parts negative hwhole _ _ => exact ⟨⟨_, _, List.append_assoc ..⟩, hwhole.digits.all⟩

/-- A numeral is refused only for having too many digits. -/
theorem Numeral.toJson_error {fault : Fault} (hj : n.toJson = .error fault) :
    integerDigitLimit < n.whole.length ∧ fault = .longInteger n.whole.length := by
  unfold Numeral.toJson at hj
  split at hj
  · split at hj
    · rename_i hlong
      cases hj
      exact ⟨hlong, rfl⟩
    · cases hj
  · cases hj

/-- What is read as a number or a word is written as one. -/
theorem scalar_sound {t : Taken Json cs.length} (h : scalar cs = .ok t) :
    ∃ front, cs = front ++ t.rest ∧ Scalar integerDigitLimit front t.value := by
  unfold scalar at h
  split at h
  · rename_i hword
    cases h
    exact takeWord_sound hword
  · split at h
    · cases h
    · rename_i hnumeral
      split at h
      · cases h
      · rename_i hj
        cases h
        rcases takeNumeral_sound hnumeral with ⟨front, hcs, hfront⟩
        exact ⟨front, hcs, Numeral.toJson_sound hfront hj⟩

/-- A number or a word that is refused is malformed, or it has too many digits. -/
theorem scalar_error {fault : Fault} (h : scalar cs = .error fault) :
    (∃ complaint left, fault = .malformed complaint left) ∨
      ∃ digits, fault = .longInteger digits ∧ LongRun integerDigitLimit cs := by
  unfold scalar at h
  split at h
  · cases h
  · split at h
    · cases h
      exact Or.inl ⟨_, _, rfl⟩
    · rename_i hnumeral
      split at h
      · rename_i hj
        cases h
        rcases takeNumeral_sound hnumeral with ⟨front, rfl, hfront⟩
        rcases Numeral.toJson_error hj with ⟨hlong, rfl⟩
        refine Or.inr ⟨_, rfl, _, ?_, hfront.whole_infix.2, hlong⟩
        exact hfront.whole_infix.1.trans (List.infix_append' [] front _)
      · cases h

end Json

end StageTree
