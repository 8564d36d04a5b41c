import StageTree.Proofs.Json.Grammar

/-!
# Texts in Quotes

The reader of texts in quotes reads what the grammar writes, and nothing else.

The reader joins the halves of a character as it goes: after a first half it looks whether the
second half follows. The grammar joins them when all pieces are known. The two agree since a
piece that is a code unit is written in one way only, so the reader sees from the text whether
the next piece is one.

## Theorems

* `takeEscape_sound`: What an escape is read as.
* `stringFrom_sound`: What is read as a text in quotes is written as one.
* `stringFrom_pieces`: What is written in quotes is read.
-/

namespace StageTree

namespace Json

variable {opening cs left rest body : List Char} {done : List CodePoint} {ps : List Piece}
  {c : Char} {p : CodePoint} {text : Text}

/-! ## Code units -/

-- Something must follow the digits, and in a text in quotes something always does.
theorem takeUnit_of_ne_nil (a b c d : Char) (h : left ≠ []) :
    takeUnit (a :: b :: c :: d :: left) = some (hexDigitsValue? [a, b, c, d], left) := by
  cases left with
  | nil => exact absurd rfl h
  | cons next rest => rfl

/-- A code unit is taken from four characters. -/
theorem takeUnit_eq_some {unit : Option Nat} (h : takeUnit cs = some (unit, left)) :
    ∃ a b c d, cs = a :: b :: c :: d :: left ∧ hexDigitsValue? [a, b, c, d] = unit := by
  unfold takeUnit at h
  split at h
  · cases h
    exact ⟨_, _, _, _, rfl, rfl⟩
  · cases h

/-- A piece that is a code unit is seen from the text. -/
theorem PiecesText.exists_unit {low : Nat} (h : PiecesText body (.unit low :: ps))
    (rest : List Char) : ∃ digits left, body ++ '"' :: rest = '\\' :: 'u' :: digits ∧
      takeUnit digits = some (some low, left) := by
  cases h with
  | cons hpiece hrest =>
      cases hpiece with
      | unit hvalue =>
          rename_i more a b c d
          refine ⟨a :: b :: c :: d :: (more ++ '"' :: rest), more ++ '"' :: rest, rfl, ?_⟩
          rw [← hvalue]
          exact takeUnit_of_ne_nil a b c d (List.append_ne_nil_of_right_ne_nil more nofun)

/-- A code unit stands alone if it is no first half, or if no second half follows. -/
theorem pointsOf_lone {value : Nat}
    (h : isHighHalf value = false ∨ ∀ low more, ps = .unit low :: more → isLowHalf low = false) :
    pointsOf (.unit value :: ps) = CodePoint.ofNat value :: pointsOf ps := by
  cases ps with
  | nil => rfl
  | cons p more =>
      cases p with
      | char c => rfl
      | unit low =>
          have hpair : (isHighHalf value && isLowHalf low) = false := by
            rcases h with hhigh | hlow
            · rw [hhigh, Bool.false_and]
            · rw [hlow low more rfl, Bool.and_false]
          rw [pointsOf, hpair]
          rfl

/-! ## What is read is written -/

/-- What follows the escape of a code unit. -/
theorem PiecesText.unit_append {a b c d : Char} {value : Nat}
    (hvalue : hexDigitsValue? [a, b, c, d] = some value) (h : PiecesText body ps) :
    PiecesText ('\\' :: 'u' :: a :: b :: c :: d :: body) (.unit value :: ps) :=
  .cons (.unit hvalue) h

/-- What is read behind a first half is written as one piece with it, or as two. -/
theorem takeSecondHalf_sound {high : Nat} {a b c' d : Char}
    (hhigh : hexDigitsValue? [a, b, c', d] = some high) (hhalf : isHighHalf high = true)
    (h : takeSecondHalf high cs = .ok (p, left)) (hbody : PiecesText body ps)
    (hleft : left = body ++ '"' :: rest) :
    ∃ body' ps', PiecesText body' ps' ∧
      '\\' :: 'u' :: a :: b :: c' :: d :: cs = body' ++ '"' :: rest ∧
      pointsOf ps' = p :: pointsOf ps := by
  -- A half that stands alone is one piece, and the next piece is no second half.
  have hlone (hcs : cs = body ++ '"' :: rest)
      (hnext : ∀ low more, ps = .unit low :: more → isLowHalf low = false) :
      ∃ body' ps', PiecesText body' ps' ∧
        '\\' :: 'u' :: a :: b :: c' :: d :: cs = body' ++ '"' :: rest ∧
        pointsOf ps' = CodePoint.ofNat high :: pointsOf ps :=
    ⟨_, _, hbody.unit_append hhigh, by rw [hcs]; rfl, pointsOf_lone (Or.inr hnext)⟩
  unfold takeSecondHalf at h
  split at h
  · rename_i digits
    split at h
    · -- No code unit follows, but then no piece that is one does, either.
      rename_i hnone
      cases h
      refine hlone hleft fun low more hps => ?_
      rcases (hps ▸ hbody).exists_unit rest with ⟨_, _, hdigits, hunit⟩
      cases hleft.trans hdigits
      cases hnone.symm.trans hunit
    · cases h
    · rename_i low after hsome
      split at h
      · rename_i hlow
        rw [Except.ok.injEq, Prod.mk.injEq] at h
        rcases h with ⟨rfl, rfl⟩
        rcases takeUnit_eq_some hsome with ⟨e, f, g, i, rfl, hvalue⟩
        refine ⟨_, _, (hbody.unit_append hvalue).unit_append hhigh, by rw [hleft]; rfl, ?_⟩
        rw [pointsOf, hhalf, hlow]
        rfl
      · rename_i hlow
        cases h
        refine hlone hleft fun _ more hps => ?_
        rcases (hps ▸ hbody).exists_unit rest with ⟨_, _, hdigits, hunit⟩
        cases hleft.trans hdigits
        cases hsome.symm.trans hunit
        exact Bool.eq_false_iff.2 hlow
  · rename_i hno
    cases h
    refine hlone hleft fun low more hps => ?_
    rcases (hps ▸ hbody).exists_unit rest with ⟨digits, _, hdigits, _⟩
    exact absurd (hleft.trans hdigits) (hno digits)

/-- What is read as an escape is written as one or two pieces. -/
theorem takeEscape_sound (h : takeEscape opening cs = .ok (p, left)) (hbody : PiecesText body ps)
    (hleft : left = body ++ '"' :: rest) :
    ∃ body' ps', PiecesText body' ps' ∧ '\\' :: cs = body' ++ '"' :: rest ∧
      pointsOf ps' = p :: pointsOf ps := by
  unfold takeEscape at h
  split at h
  · cases h
  · -- A code unit is one piece, unless it is a first half with the second one behind it.
    unfold takeCodePoint at h
    split at h
    · rename_i value after hunit
      rcases takeUnit_eq_some hunit with ⟨a, b, c', d, rfl, hvalue⟩
      split at h
      · rename_i hhalf
        exact takeSecondHalf_sound hvalue hhalf h hbody hleft
      · rename_i hhalf
        rw [Except.ok.injEq, Prod.mk.injEq] at h
        rcases h with ⟨rfl, rfl⟩
        exact ⟨_, _, hbody.unit_append hvalue, by rw [hleft]; rfl,
          pointsOf_lone (Or.inl (Bool.eq_false_iff.2 hhalf))⟩
    · cases h
  · rename_i letter after _
    split at h
    · rename_i escaped hescape
      rw [Except.ok.injEq, Prod.mk.injEq] at h
      rcases h with ⟨rfl, rfl⟩
      exact ⟨_, _, .cons (.escape hescape) hbody, by rw [hleft]; rfl, rfl⟩
    · cases h

-- By induction on what is left of the text, as it is read.
theorem stringFrom_sound (h : stringFrom opening done cs = .ok (text, rest)) :
    ∃ body ps, PiecesText body ps ∧ cs = body ++ '"' :: rest ∧
      text = Text.ofPoints (done.reverse ++ pointsOf ps) := by
  fun_induction stringFrom opening done cs with
  | case1 => cases h
  | case2 done after =>
      cases h
      exact ⟨[], [], .nil, rfl, by rw [pointsOf, List.append_nil]⟩
  | case3 => cases h
  | case4 done after c left htaken ih =>
      rcases ih h with ⟨body, ps, hbody, hleft, htext⟩
      rcases takeEscape_sound htaken hbody hleft with ⟨body', ps', hbody', hcs, hchars⟩
      refine ⟨body', ps', hbody', hcs, ?_⟩
      rw [htext, hchars, List.reverse_cons, List.append_assoc, List.singleton_append]
  | case5 => cases h
  | case6 done c after hquote hescape hvisible ih =>
      rcases ih h with ⟨body, ps, hbody, hafter, htext⟩
      -- The conditions of a plain character are those under which the earlier cases do not apply.
      refine ⟨[c] ++ body, .char c :: ps, .cons (.plain ?_ ?_ ?_) hbody, ?_, ?_⟩
      · exact hquote
      · exact hescape
      · exact Nat.not_lt.1 hvisible
      · rw [hafter]
        rfl
      · rw [htext, pointsOf, List.reverse_cons, List.append_assoc, List.singleton_append]

/-! ## What is written is read -/

theorem stringFrom_escape (h : takeEscape opening cs = .ok (p, left)) :
    stringFrom opening done ('\\' :: cs) = stringFrom opening (p :: done) left := by
  rw [stringFrom]
  split
  · rename_i herror
    cases herror.symm.trans h
  · rename_i hok
    cases hok.symm.trans h
    rfl

/-- A short escape stands for its character. -/
theorem takeEscape_letter {letter : Char} (h : simpleEscape? letter = some c) :
    takeEscape opening (letter :: cs) = .ok (.char c, cs) := by
  unfold takeEscape
  split
  · contradiction
  · rename_i hletter
    cases hletter
    cases h
  · rename_i hletter
    cases hletter
    rw [h]

/-- A text that begins with the escape of a code unit is written by a piece that is one. -/
theorem PiecesText.unit_of_escape {digits : List Char} (h : PiecesText body ps)
    (hdigits : body ++ '"' :: rest = '\\' :: 'u' :: digits) :
    ∃ low more, ps = .unit low :: more := by
  cases h with
  | nil => cases hdigits
  | cons hpiece _ =>
      cases hpiece with
      | plain _ hescape _ =>
          simp only [List.cons_append, List.cons.injEq] at hdigits
          exact absurd hdigits.1 hescape
      | escape hletter =>
          simp only [List.cons_append, List.cons.injEq] at hdigits
          rw [hdigits.2.1] at hletter
          cases hletter
      | unit _ => exact ⟨_, _, rfl⟩

/-- A first half stays alone if no second half comes next. -/
theorem takeSecondHalf_lone {high : Nat} (h : PiecesText body ps)
    (hnext : ∀ low more, ps = .unit low :: more → isLowHalf low = false) :
    takeSecondHalf high (body ++ '"' :: rest) =
      .ok (CodePoint.ofNat high, body ++ '"' :: rest) := by
  unfold takeSecondHalf
  split
  · rename_i digits hdigits
    rcases h.unit_of_escape hdigits with ⟨low, more, rfl⟩
    rcases h.exists_unit rest with ⟨_, left, hdigits', hunit⟩
    cases hdigits.symm.trans hdigits'
    rw [hunit]
    exact if_neg (Bool.eq_false_iff.1 (hnext low more rfl))
  · rfl

/-- The escape of a first half looks for the second one. -/
theorem takeEscape_unit {a b c d : Char} {value : Nat}
    (hvalue : hexDigitsValue? [a, b, c, d] = some value) (hleft : left ≠ []) :
    takeEscape opening ('u' :: a :: b :: c :: d :: left) =
      if isHighHalf value then takeSecondHalf value left
      else .ok (CodePoint.ofNat value, left) := by
  rw [takeEscape, takeCodePoint, takeUnit_of_ne_nil a b c d hleft, hvalue]

/-- A code unit that is no part of a pair stands for itself. -/
theorem takeEscape_lone {a b c d : Char} {value : Nat}
    (hvalue : hexDigitsValue? [a, b, c, d] = some value) (h : PiecesText body ps)
    (hnext : isHighHalf value = false ∨
      ∀ low more, ps = .unit low :: more → isLowHalf low = false) :
    takeEscape opening ('u' :: a :: b :: c :: d :: (body ++ '"' :: rest)) =
      .ok (CodePoint.ofNat value, body ++ '"' :: rest) := by
  rw [takeEscape_unit hvalue (List.append_ne_nil_of_right_ne_nil body (List.cons_ne_nil '"' rest))]
  split
  · rename_i hhigh
    exact takeSecondHalf_lone h (hnext.resolve_left (by rw [hhigh]; nofun))
  · rfl

/-- Two halves stand for one character. -/
theorem takeEscape_pair {a b c d e f g i : Char} {high low : Nat}
    (hhigh : hexDigitsValue? [a, b, c, d] = some high) (hhalf : isHighHalf high = true)
    (hlow : hexDigitsValue? [e, f, g, i] = some low) (hhalf' : isLowHalf low = true)
    (hleft : left ≠ []) :
    takeEscape opening
        ('u' :: a :: b :: c :: d :: '\\' :: 'u' :: e :: f :: g :: i :: left) =
      .ok (.char (joinHalves high low), left) := by
  rw [takeEscape_unit hhigh (List.cons_ne_nil _ _), if_pos hhalf, takeSecondHalf,
    takeUnit_of_ne_nil e f g i hleft, hlow]
  exact if_pos hhalf'

/-- A character that needs no escape stands for itself. -/
theorem stringFrom_plain (hquote : c ≠ '"') (hescape : c ≠ '\\') (hvisible : 0x20 ≤ c.toNat) :
    stringFrom opening done (c :: cs) = stringFrom opening (c :: done) cs := by
  rw [stringFrom, if_neg (Nat.not_lt.2 hvisible)]
  · exact hquote
  · exact hescape

-- The code points read so far are kept in reverse order.
theorem stringFrom_step {more : List CodePoint}
    (hstep : stringFrom opening done cs = stringFrom opening (p :: done) left)
    (hread : stringFrom opening (p :: done) left =
      .ok (Text.ofPoints ((p :: done).reverse ++ more), rest)) :
    stringFrom opening done cs = .ok (Text.ofPoints (done.reverse ++ p :: more), rest) := by
  rw [hstep, hread, List.reverse_cons, ← List.append_cons]

-- By induction on the pieces, two of which may make one character.
theorem stringFrom_pieces (h : PiecesText body ps) (opening : List Char)
    (done : List CodePoint) (rest : List Char) :
    stringFrom opening done (body ++ '"' :: rest) =
      .ok (Text.ofPoints (done.reverse ++ pointsOf ps), rest) := by
  fun_induction pointsOf ps generalizing body done with
  | case1 =>
      cases h
      rw [List.nil_append, stringFrom, List.append_nil]
  | case2 c ps ih =>
      cases h with
      | cons hpiece hrest =>
          refine stringFrom_step ?_ (ih hrest (c :: done))
          cases hpiece with
          | plain hquote hescape hvisible => exact stringFrom_plain hquote hescape hvisible
          | escape hletter => exact stringFrom_escape (takeEscape_letter hletter)
  -- Two pieces are read as one character here.
  | case3 high low ps hhalves ih =>
      rw [Bool.and_eq_true] at hhalves
      cases h with
      | cons hhigh hrest =>
          cases hrest with
          | cons hlow hrest =>
              refine stringFrom_step ?_ (ih hrest (.char (joinHalves high low) :: done))
              cases hhigh with
              | unit hhigh =>
                  cases hlow with
                  | unit hlow =>
                      exact stringFrom_escape (takeEscape_pair hhigh hhalves.1 hlow hhalves.2
                        (List.append_ne_nil_of_right_ne_nil _ (List.cons_ne_nil '"' rest)))
  | case4 high low ps hhalves ih =>
      cases h with
      | cons hhigh hrest =>
          refine stringFrom_step ?_ (ih hrest (CodePoint.ofNat high :: done))
          cases hhigh with
          | unit hhigh =>
              refine stringFrom_escape (takeEscape_lone hhigh hrest ?_)
              rw [Bool.and_eq_true, Classical.not_and_iff_not_or_not, Bool.not_eq_true,
                Bool.not_eq_true] at hhalves
              refine hhalves.imp_right fun hlow _ _ hps => ?_
              cases hps
              exact hlow
  | case5 value ps hno ih =>
      cases h with
      | cons hpiece hrest =>
          refine stringFrom_step ?_ (ih hrest (CodePoint.ofNat value :: done))
          cases hpiece with
          | unit hvalue =>
              refine stringFrom_escape (takeEscape_lone hvalue hrest (Or.inr ?_))
              intro low more hps
              exact absurd hps (hno low more)

/-! ## What is refused -/

/-- A fault that is not about a limit. -/
def Fault.IsMalformed (fault : Fault) : Prop := ∃ complaint left, fault = .malformed complaint left

variable {fault : Fault}

theorem takeSecondHalf_error {high : Nat} (h : takeSecondHalf high cs = .error fault) :
    fault.IsMalformed := by
  unfold takeSecondHalf at h
  split at h
  · split at h
    · cases h
    · cases h
      exact ⟨_, _, rfl⟩
    · split at h <;> cases h
  · cases h

theorem takeEscape_error (h : takeEscape opening cs = .error fault) : fault.IsMalformed := by
  unfold takeEscape at h
  split at h
  · cases h
    exact ⟨_, _, rfl⟩
  · unfold takeCodePoint at h
    split at h
    · split at h
      · exact takeSecondHalf_error h
      · cases h
    · cases h
      exact ⟨_, _, rfl⟩
  · split at h
    · cases h
    · cases h
      exact ⟨_, _, rfl⟩

/-- A text is refused only for what is malformed in it. -/
theorem stringFrom_error (h : stringFrom opening done cs = .error fault) : fault.IsMalformed := by
  fun_induction stringFrom opening done cs with
  | case1 =>
      cases h
      exact ⟨_, _, rfl⟩
  | case2 => cases h
  | case3 _ _ _ htaken =>
      cases h
      exact takeEscape_error htaken
  | case4 _ _ _ _ _ ih => exact ih h
  | case5 =>
      cases h
      exact ⟨_, _, rfl⟩
  | case6 _ _ _ _ _ _ ih => exact ih h

/-! ## Texts in quotes -/

theorem string_eq_ok {t : Taken Text (cs.length + 1)} (h : string cs = .ok t) :
    stringFrom ('"' :: cs) [] cs = .ok (t.value, t.rest) := by
  unfold string at h
  split at h
  · cases h
  · rename_i htaken
    cases h
    exact htaken

/-- No text in quotes is past a limit. -/
theorem string_error (h : string cs = .error fault) : fault.IsMalformed := by
  unfold string at h
  split at h
  · rename_i herror
    cases h
    exact stringFrom_error herror
  · cases h

/-- What is read in quotes is written in quotes. -/
theorem string_sound {t : Taken Text (cs.length + 1)} (h : string cs = .ok t) :
    ∃ front, '"' :: cs = front ++ t.rest ∧ StringText front t.value := by
  rcases stringFrom_sound (string_eq_ok h) with ⟨body, ps, hbody, hcs, htext⟩
  refine ⟨'"' :: (body ++ ['"']), ?_, ?_⟩
  · rw [List.cons_append, List.append_assoc, List.singleton_append, ← hcs]
  · rw [htext]
    exact .quoted hbody

/-- What is written in quotes is read. -/
theorem string_complete (h : StringText cs text) (rest : List Char) :
    ∃ after, cs ++ rest = '"' :: after ∧
      ∃ t, string after = .ok t ∧ t.value = text ∧ t.rest = rest := by
  cases h with
  | quoted hbody =>
      rename_i body ps
      refine ⟨body ++ '"' :: rest, by rw [List.cons_append, List.append_assoc]; rfl, ?_⟩
      have hread := stringFrom_pieces hbody ('"' :: (body ++ '"' :: rest)) [] rest
      unfold string
      split
      · rename_i herror
        cases herror.symm.trans hread
      · rename_i htaken
        cases htaken.symm.trans hread
        exact ⟨_, rfl, rfl, rfl⟩

end Json

end StageTree
