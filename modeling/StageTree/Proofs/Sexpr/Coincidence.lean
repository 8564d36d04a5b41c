import StageTree.Proofs.Legibility
import StageTree.Proofs.Number.Reading
import StageTree.Proofs.Tree.Same

/-!
# Reader Values That Look Alike

Which reader values have equal trees. The shape of a value can be read off its tree, and so can
every atom, up to a few coincidences that are meant: the empty list is written like a symbol,
characters are written by their names, and numbers are written like the integers that they
equal.

Nothing else coincides, although labels hold texts without escapes. What begins a label tells
the kind of atom, as far as that matters, and of the atoms of a kind no two others are written
alike.

## Main definitions

* `Atom.HasInteger`: The integer that a number is written like.
* `Atom.Coincide`: Atoms that are meant to have the same label.
* `Sexpr.Coincide`: Values of the same shape whose atoms coincide.

## Theorems

* `Atom.label_eq_iff`: Atoms have the same label if and only if they coincide.
* `Sexpr.same_tree_iff_coincide`: Values have equal trees if and only if they coincide.
-/

namespace StageTree

/-! ## Coincidences -/

/-- The integer that a number is written like. -/
inductive Atom.HasInteger : Atom → Int → Prop where
  /-- A fraction with nothing above the line, whatever is below. -/
  | zero (denominator : Int) : HasInteger (.rational 0 denominator) 0
  /-- A fraction of one. -/
  | whole (n : Int) : HasInteger (.rational n 1) n
  /-- A fraction of minus one. -/
  | negated (n : Int) : HasInteger (.rational n (-1)) (-n)
  /-- A floating-point number whose value is an integer below `10 ^ 21` in magnitude. -/
  | float {x : Binary64} {n : Int} (hvalue : x.value? = some (n : ℚ))
    (hlimit : n.natAbs < 10 ^ 21) : HasInteger (.float x) n

/-- Atoms that are meant to have the same label. -/
inductive Atom.Coincide : Atom → Atom → Prop where
  | refl (a : Atom) : Coincide a a
  /-- The empty list looks like a symbol. -/
  | nilSymbol : Coincide .nil (.symbol "()")
  /-- The symbol looks like the empty list. -/
  | symbolNil : Coincide (.symbol "()") .nil
  /-- Characters are the same after those that cannot be seen are named. -/
  | char {s t : Text} (h : (charName? s).getD s = (charName? t).getD t) :
    Coincide (.char s) (.char t)
  /-- Numbers are written like the same integer. -/
  | integer {a b : Atom} {n : Int} (ha : a.HasInteger n) (hb : b.HasInteger n) : Coincide a b
  /-- Floating-point numbers are equal as numbers, or both are not a number. -/
  | float {x y : Binary64} (h : x.numEq y = true ∨ x = .nan ∧ y = .nan) :
    Coincide (.float x) (.float y)

/-- Values of the same shape whose atoms coincide, place by place. -/
inductive Sexpr.Coincide : Sexpr → Sexpr → Prop where
  | atom {a b : Atom} (h : a.Coincide b) : Coincide (.atom a) (.atom b)
  | vector {xs ys : List Sexpr} (h : List.Forall₂ Coincide xs ys) :
    Coincide (.vector xs) (.vector ys)
  | pair {a b c d : Sexpr} (hcar : Coincide a c) (hcdr : Coincide b d) :
    Coincide (.pair a b) (.pair c d)

/-! ## Numbers -/

theorem slash_notMem_integerText (n : Int) : '/' ∉ (integerText n).toList := by
  intro h
  rcases mem_integerText h with hminus | hdigit
  · exact absurd hminus (by decide)
  · exact absurd hdigit (by decide)

theorem bne_slash_of_mem_integerText {n : Int} {c : Char} (h : c ∈ (integerText n).toList) :
    (c != '/') = true := by
  refine bne_iff_ne.2 fun hslash => ?_
  rw [hslash] at h
  exact slash_notMem_integerText n h

theorem toList_fraction (p q : Int) : (integerText p ++ "/" ++ integerText q).toList =
    (integerText p).toList ++ '/' :: (integerText q).toList := by
  rw [String.toList_append, String.toList_append, List.append_assoc]
  rfl

theorem slash_mem_fraction (p q : Int) :
    '/' ∈ (integerText p ++ "/" ++ integerText q).toList := by
  rw [toList_fraction]
  exact List.mem_append_right _ List.mem_cons_self

/-- Fractions are told apart by what is above and below the line. -/
theorem fraction_injective {p q r s : Int}
    (h : integerText p ++ "/" ++ integerText q = integerText r ++ "/" ++ integerText s) :
    p = r ∧ q = s := by
  have hlist := congrArg String.toList h
  rw [toList_fraction, toList_fraction] at hlist
  rcases append_cons_inj (fun _ => bne_slash_of_mem_integerText)
    (fun _ => bne_slash_of_mem_integerText) (by decide) (by decide) hlist with ⟨habove, hbelow⟩
  exact ⟨integerText_injective (String.toList_injective habove),
    integerText_injective (String.toList_injective (List.cons.inj hbelow).2)⟩

namespace Atom

variable {a b : Atom} {n : Int} {x y : Binary64}

theorem labelInteger?_eq_some : x.labelInteger? = some n ↔ HasInteger (.float x) n := by
  have hlimit : integerLabelLimit = 10 ^ 21 := rfl
  rw [Binary64.labelInteger?, hlimit]
  constructor
  · intro h
    split at h
    · rename_i m hvalue
      split at h
      · rename_i hm
        cases h
        exact .float (Binary64.integer?_eq_some.1 hvalue) hm
      · cases h
    · cases h
  · -- Only the last constructor is about doubles.
    rintro (_ | _ | _ | ⟨hvalue, hn⟩)
    rw [Binary64.integer?_eq_some.2 hvalue]
    exact if_pos hn

/-- What is written like an integer has the label of that integer. -/
theorem label_of_hasInteger (h : a.HasInteger n) : a.label = .plain (integerText n) := by
  cases h with
  | zero denominator => rfl
  -- Zero above the line is looked for first, whatever is below.
  | whole n =>
      rw [label, rationalLabel]
      split
      · rename_i hzero
        rw [hzero]
        rfl
      · exact congrArg Text.plain (if_pos rfl)
  | negated n =>
      rw [label, rationalLabel]
      split
      · rename_i hzero
        rw [hzero]
        rfl
      · rw [if_neg (by decide)]
        exact congrArg Text.plain (if_pos rfl)
  | @float x n hvalue hlimit =>
      rw [label, Binary64.label, labelInteger?_eq_some.2 (.float hvalue hlimit)]

/-- A fraction is written like an integer, or with its line. -/
theorem rational_label_cases (p q : Int) :
    (∃ n, HasInteger (.rational p q) n) ∨
      (rational p q).label = .plain (integerText p ++ "/" ++ integerText q) := by
  -- The cases are those of the label: nothing above the line, or one or minus one below.
  by_cases hzero : p = 0
  · rw [hzero]
    exact Or.inl ⟨0, .zero q⟩
  · by_cases hone : q = 1
    · rw [hone]
      exact Or.inl ⟨p, .whole p⟩
    · by_cases hminus : q = -1
      · rw [hminus]
        exact Or.inl ⟨-p, .negated p⟩
      · rw [label, rationalLabel, if_neg hzero, if_neg hone, if_neg hminus]
        exact Or.inr rfl

/-- A floating-point number is written like an integer, or as it is. -/
theorem float_label_cases (x : Binary64) :
    (∃ n, HasInteger (.float x) n) ∨ (float x).label = .plain x.text := by
  rw [label, Binary64.label]
  cases hinteger : x.labelInteger? with
  | some n => exact Or.inl ⟨n, labelInteger?_eq_some.1 hinteger⟩
  | none => exact Or.inr rfl

/-- Zero is an integer, with either sign. -/
theorem hasInteger_zero (negative : Bool) (ordinal : Fin (2047 * binadeSize))
    (h : ordinal.val = 0) : HasInteger (.float (.finite negative ordinal)) 0 := by
  refine .float ?_ (by decide)
  rw [Binary64.value?, h, Binary64.magnitude_zero]
  cases negative <;> simp

/-- Numbers that are equal as numbers are the same, or both zero. -/
theorem label_eq_of_numEq (h : x.numEq y = true) : (float x).label = (float y).label := by
  cases x with
  | nan => cases h
  | infinite negative =>
      cases y with
      | infinite other => rw [beq_iff_eq.1 h]
      | _ => cases h
  | finite negative m =>
      cases y with
      | finite other n =>
          rw [Binary64.numEq, Bool.and_eq_true, Bool.or_eq_true, beq_iff_eq, beq_iff_eq,
            beq_iff_eq] at h
          rcases h with ⟨hordinal, rfl | hzero⟩
          · rw [Fin.ext hordinal]
          · -- Both zeros are labelled as the integer zero.
            rw [label_of_hasInteger (hasInteger_zero negative m hzero),
              label_of_hasInteger (hasInteger_zero other n (hordinal ▸ hzero))]
      | _ => cases h

/-! ## Labels -/

/-- Atoms that coincide have the same label. -/
theorem Coincide.label_eq (h : a.Coincide b) : a.label = b.label := by
  cases h with
  | refl => rfl
  | nilSymbol => decide
  | symbolNil => decide
  -- The label of a character starts with a fixed mark, and the rest is what coincides.
  | char h => rw [label, label, charLabel, charLabel, h]
  | integer ha hb => rw [label_of_hasInteger ha, label_of_hasInteger hb]
  | float h =>
      rcases h with hequal | ⟨rfl, rfl⟩
      · exact label_eq_of_numEq hequal
      · rfl

/-- How a label begins. -/
inductive Opening where
  /-- With a character. -/
  | char
  /-- With one of the words for values that have no text. -/
  | word
  | quoted
  | string
  | number
  deriving DecidableEq

/-- How the label of an atom begins. -/
def opening : Atom → Opening
  | .void | .boolean _ => .word
  | .nil | .symbol _ => .quoted
  | .char _ => .char
  | .string _ => .string
  | .rational _ _ | .float _ => .number

/-- How a row of code points begins, as the label of an atom. -/
def openingOf : List CodePoint → Opening
  | .char '#' :: c :: _ => if c = .char '\\' then .char else .word
  | c :: _ => if c = .char '\'' then .quoted else if c = .char '"' then .string else .number
  | [] => .number

/-- What begins with a numeral character is the label of a number. -/
theorem openingOf_number {label : String}
    (h : ∃ c rest, label.toList = c :: rest ∧ isNumeralChar c = true) :
    openingOf (Text.points label) = .number := by
  rcases h with ⟨c, rest, hlabel, hc⟩
  have hne (mark : Char) (hmark : isNumeralChar mark = false) :
      CodePoint.char c ≠ .char mark := by
    intro heq
    rw [← CodePoint.char.inj heq, hc] at hmark
    cases hmark
  -- None of the marks that other labels begin with is a numeral character.
  rw [Text.points_plain, hlabel, List.map_cons]
  unfold openingOf
  split
  · rename_i heq
    exact absurd (List.cons.inj heq).1 (hne '#' (by decide))
  · rename_i heq
    rw [← (List.cons.inj heq).1, if_neg (hne '\'' (by decide)), if_neg (hne '"' (by decide))]
  · rfl

/-- The opening of a label is that of its atom. -/
theorem openingOf_label (a : Atom) : openingOf a.label.points = a.opening := by
  cases a with
  -- Words have fixed labels, and the other labels begin with a fixed mark or as a number.
  | void => decide
  | nil => decide
  | boolean value => cases value <;> decide
  | char text =>
      rw [label, charLabel, Text.points_append]
      rfl
  | string text =>
      rw [label, Text.append_assoc, Text.points_append]
      rfl
  | symbol text =>
      rw [label, Text.points_append]
      rfl
  | rational numerator denominator => exact openingOf_number (rationalLabel_lead _ _)
  | float value => exact openingOf_number value.label_lead

/-- Atoms with the same label open alike. -/
theorem opening_eq_of_label_eq (h : a.label = b.label) : a.opening = b.opening := by
  rw [← openingOf_label, ← openingOf_label, h]

/-- Words are told apart by their labels. -/
theorem eq_of_word (ha : a.opening = .word) (hb : b.opening = .word) (h : a.label = b.label) :
    a = b := by
  -- There are three words, so the labels can be compared one by one.
  have hwords {c : Atom} (hc : c.opening = .word) :
      c = .void ∨ c = .boolean true ∨ c = .boolean false := by
    cases c with
    | void => exact Or.inl rfl
    | boolean value => cases value <;> simp
    | _ => cases hc
  rcases hwords ha with rfl | rfl | rfl <;> rcases hwords hb with rfl | rfl | rfl <;>
    first | rfl | exact absurd h (by decide)

/-- A number is written like an integer, as a fraction or as a floating-point number. -/
theorem number_label_cases (h : a.opening = .number) :
    (∃ n, a.HasInteger n) ∨
      (∃ p q, a = .rational p q ∧
        a.label = .plain (integerText p ++ "/" ++ integerText q)) ∨
      ∃ x, a = .float x ∧ a.label = .plain x.text := by
  cases a with
  | rational p q =>
      rcases rational_label_cases p q with hinteger | hlabel
      · exact Or.inl hinteger
      · exact Or.inr (Or.inl ⟨p, q, rfl, hlabel⟩)
  | float x =>
      rcases float_label_cases x with hinteger | hlabel
      · exact Or.inl hinteger
      · exact Or.inr (Or.inr ⟨x, rfl, hlabel⟩)
  | _ => cases h

/-- A fraction with a line is no integer. -/
theorem fraction_ne_integerText (p q n : Int) :
    integerText p ++ "/" ++ integerText q ≠ integerText n := by
  intro h
  have hslash := slash_mem_fraction p q
  rw [h] at hslash
  exact slash_notMem_integerText n hslash

/-- A fraction with a line is no text of a double. -/
theorem fraction_ne_text (p q : Int) (x : Binary64) :
    integerText p ++ "/" ++ integerText q ≠ x.text := by
  intro h
  have hslash := slash_mem_fraction p q
  rw [h] at hslash
  exact absurd (Binary64.isNumeralChar_of_mem_text hslash) (by decide)

/-- Of numbers only those that are written like the same integer have the same label. -/
theorem coincide_of_number (ha : a.opening = .number) (hb : b.opening = .number)
    (h : a.label = b.label) : a.Coincide b := by
  -- A label of a number is an integer, a fraction with a line, or the text of a double.
  rcases number_label_cases ha with ⟨m, hm⟩ | ⟨p, q, rfl, hlabel⟩ | ⟨x, rfl, hlabel⟩
  · rw [label_of_hasInteger hm] at h
    rcases number_label_cases hb with ⟨n, hn⟩ | ⟨r, s, rfl, hother⟩ | ⟨y, rfl, hother⟩
    · rw [label_of_hasInteger hn, Text.plain.injEq] at h
      rw [integerText_injective h] at hm
      exact .integer hm hn
    · rw [hother, Text.plain.injEq] at h
      exact absurd h.symm (fraction_ne_integerText r s m)
    · rw [hother, Text.plain.injEq] at h
      exact absurd h.symm (y.text_ne_integerText m)
  · rw [hlabel] at h
    rcases number_label_cases hb with ⟨n, hn⟩ | ⟨r, s, rfl, hother⟩ | ⟨y, rfl, hother⟩
    · rw [label_of_hasInteger hn, Text.plain.injEq] at h
      exact absurd h (fraction_ne_integerText p q n)
    · rw [hother, Text.plain.injEq] at h
      rcases fraction_injective h with ⟨rfl, rfl⟩
      exact .refl _
    · rw [hother, Text.plain.injEq] at h
      exact absurd h (fraction_ne_text p q y)
  · rw [hlabel] at h
    rcases number_label_cases hb with ⟨n, hn⟩ | ⟨r, s, rfl, hother⟩ | ⟨y, rfl, hother⟩
    · rw [label_of_hasInteger hn, Text.plain.injEq] at h
      exact absurd h (x.text_ne_integerText n)
    · rw [hother, Text.plain.injEq] at h
      exact absurd h.symm (fraction_ne_text r s x)
    · rw [hother, Text.plain.injEq] at h
      rw [Binary64.text_injective h]
      exact .refl _

/-- Atoms with the same label coincide. -/
theorem coincide_of_label_eq (h : a.label = b.label) : a.Coincide b := by
  -- The openings leave only pairs of the same kind. The empty list is compared as a symbol.
  have hopening := opening_eq_of_label_eq h
  have hnil : label .nil = label (.symbol "()") := by decide
  cases a with
  | void =>
      rw [eq_of_word rfl hopening.symm h]
      exact .refl b
  | boolean value =>
      rw [eq_of_word rfl hopening.symm h]
      exact .refl b
  | nil =>
      cases b with
      | nil => exact .refl _
      | symbol t =>
          rw [hnil, label, label, Text.append_right_inj] at h
          rw [← h]
          exact .nilSymbol
      | _ => cases hopening
  | symbol s =>
      cases b with
      | nil =>
          rw [hnil, label, label, Text.append_right_inj] at h
          rw [h]
          exact .symbolNil
      | symbol t =>
          rw [label, label, Text.append_right_inj] at h
          rw [h]
          exact .refl _
      | _ => cases hopening
  | char s =>
      cases b with
      | char t =>
          rw [label, label, charLabel, charLabel, Text.append_right_inj] at h
          exact .char h
      | _ => cases hopening
  | string s =>
      cases b with
      | string t =>
          rw [label, label, Text.append_left_inj, Text.append_right_inj] at h
          rw [h]
          exact .refl _
      | _ => cases hopening
  | rational p q => exact coincide_of_number rfl hopening.symm h
  | float x => exact coincide_of_number rfl hopening.symm h

/-- Atoms have the same label if and only if they coincide. -/
theorem label_eq_iff : a.label = b.label ↔ a.Coincide b := ⟨coincide_of_label_eq, Coincide.label_eq⟩

end Atom

/-! ## Trees -/

namespace Sexpr

variable {a b : Atom} {xs ys : List Sexpr} {s t u v : Sexpr}

theorem coincide_atom : Coincide (.atom a) (.atom b) ↔ a.Coincide b := ⟨fun | .atom h => h, .atom⟩

theorem coincide_vector : Coincide (.vector xs) (.vector ys) ↔ List.Forall₂ Coincide xs ys :=
  ⟨fun | .vector h => h, .vector⟩

theorem coincide_pair : Coincide (.pair s t) (.pair u v) ↔ Coincide s u ∧ Coincide t v :=
  ⟨fun | .pair hcar hcdr => ⟨hcar, hcdr⟩, fun ⟨hcar, hcdr⟩ => .pair hcar hcdr⟩

/-- Reader values have equal trees if and only if they have the same shape and their atoms
    coincide. -/
theorem same_tree_iff_coincide (s t : Sexpr) : s.tree.same t.tree = true ↔ s.Coincide t := by
  induction s generalizing t with
  | atom a =>
      cases t with
      | atom b => rw [tree, tree, Tree.same_leaf, Atom.label_eq_iff, coincide_atom]
      | _ => exact iff_of_false Tree.not_same_leaf_branch (by rintro ⟨⟩)
  | vector elements ih =>
      cases t with
      | atom b => exact iff_of_false Tree.not_same_branch_leaf (by rintro ⟨⟩)
      | vector others =>
          simp [tree, trees_eq, Tree.same_branch, Tree.forall₂_same_map ih, coincide_vector]
      -- The names of the branches tell vectors and pairs apart.
      | pair car cdr => exact iff_of_false (by simp [tree, Tree.same_branch]) (by rintro ⟨⟩)
  | pair car cdr ihcar ihcdr =>
      cases t with
      | atom b => exact iff_of_false Tree.not_same_branch_leaf (by rintro ⟨⟩)
      | vector others => exact iff_of_false (by simp [tree, Tree.same_branch]) (by rintro ⟨⟩)
      | pair car' cdr' => simp [tree, Tree.same_branch, ihcar, ihcdr, coincide_pair]

/-- The letter t and the truth value are told apart by the backslash. -/
example : (tree (.atom (.char "t"))).same (tree (.atom (.boolean true))) = false := by
  decide

end Sexpr

end StageTree
