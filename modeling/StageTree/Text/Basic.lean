/-!
# Texts

Rows of code points.

Not every code point is a character. Surrogates are halves of pairs, and only a pair stands for
a character. A document can hold one half alone all the same, since it may write it as an
escape, and then no bytes stand for the text. So a text is a run of characters that surrogates
may interrupt. Two surrogates next to each other stay two code points, also if they are the
halves of one pair.

## Main definitions

* `Surrogate`, `CodePoint`: A surrogate, and a character or a surrogate.
* `Text`: A text. A text without surrogates is given by its characters.
* `Text.points`, `Text.ofPoints`: The code points of a text, and the text of some code points.
* `Text.concat`, `Text.intercalate`: Texts put together.

## Theorems

* `Text.ofPoints_points`, `Text.points_ofPoints`: A text is its code points.
* `Text.points_append`: The code points of texts put together.
-/

namespace StageTree

/-- A surrogate, counted from the first one. -/
abbrev Surrogate := Fin 0x800

/-- The number of a surrogate among the code points. -/
def Surrogate.code (u : Surrogate) : Nat := 0xd800 + u.val

/-- A code point. -/
inductive CodePoint where
  | char (c : Char)
  /-- Half of a pair, which is no character. -/
  | surrogate (u : Surrogate)
  deriving DecidableEq

namespace CodePoint

instance : Coe Char CodePoint := ⟨.char⟩

/-- The number of a code point. -/
def toNat : CodePoint → Nat
  | .char c => c.toNat
  | .surrogate u => u.code

/-- Whether a code point is a surrogate. -/
def isSurrogate : CodePoint → Bool
  | .char _ => false
  | .surrogate _ => true

/-- The code point with a number. -/
def ofNat (n : Nat) : CodePoint :=
  if h : 0xd800 ≤ n ∧ n < 0xe000 then .surrogate ⟨n - 0xd800, by omega⟩ else .char (Char.ofNat n)

/-- A code point is the one with its number. -/
theorem ofNat_toNat (p : CodePoint) : ofNat p.toNat = p := by
  cases p with
  | char c =>
    have hvalid : c.toNat < 0xd800 ∨ 0xdfff < c.toNat ∧ c.toNat < 0x110000 := c.valid
    rw [ofNat, toNat, dif_neg (by omega), Char.ofNat_toNat]
  | surrogate u =>
    have hu : 0xd800 ≤ u.code ∧ u.code < 0xe000 := by
      unfold Surrogate.code
      omega
    rw [ofNat, toNat, dif_pos hu]
    exact congrArg CodePoint.surrogate (Fin.ext (Nat.add_sub_cancel_left _ _))

end CodePoint

/-- A text: a run of characters, after which a surrogate and more text may stand. -/
inductive Text where
  /-- Characters alone. -/
  | plain (run : String)
  | broken (run : String) (u : Surrogate) (rest : Text)
  deriving DecidableEq

namespace Text

instance : Coe String Text := ⟨.plain⟩

instance : Inhabited Text := ⟨.plain ""⟩

/-- The code points of a text. -/
def points : Text → List CodePoint
  | .plain run => run.toList.map .char
  | .broken run u rest => run.toList.map .char ++ .surrogate u :: rest.points

/-- The text of some code points, after a run of characters with the last one first. -/
def ofPointsAfter (run : List Char) : List CodePoint → Text
  | [] => .plain (String.ofList run.reverse)
  | .char c :: rest => ofPointsAfter (c :: run) rest
  | .surrogate u :: rest => .broken (String.ofList run.reverse) u (ofPointsAfter [] rest)

/-- The text of some code points. -/
def ofPoints (ps : List CodePoint) : Text := ofPointsAfter [] ps

/-- How many code points a text has. -/
def length (t : Text) : Nat := t.points.length

/-- Two texts, the second one behind the first one. The runs that meet become one. -/
def append : Text → Text → Text
  | .plain run, .plain other => .plain (run ++ other)
  | .plain run, .broken other u rest => .broken (run ++ other) u rest
  | .broken run u rest, t => .broken run u (append rest t)

instance : Append Text := ⟨append⟩

/-- Texts one after the other. -/
def concat (ts : List Text) : Text := ts.foldl (· ++ ·) ""

/-- Texts one after the other, with a text between any two. -/
def intercalate (between : Text) : List Text → Text
  | [] => ""
  | t :: rest => rest.foldl (fun done t => done ++ between ++ t) t

/-- The numbers of a text's code points. -/
def codes (t : Text) : List Nat := t.points.map CodePoint.toNat

/-- Texts are ordered by the numbers of their code points, the first ones first. -/
instance : LT Text := ⟨fun a b => a.codes < b.codes⟩

instance (a b : Text) : Decidable (a < b) := inferInstanceAs (Decidable (a.codes < b.codes))

/-! ## Code points -/

@[simp] theorem points_plain (run : String) : (plain run).points = run.toList.map .char := rfl

@[simp] theorem points_append (a b : Text) : (a ++ b).points = a.points ++ b.points := by
  change (append a b).points = _
  fun_induction append a b with
  | case1 run other => simp [points]
  | case2 run other u rest => simp [points]
  | case3 run u rest t ih => simp [points, ih]

/-- The run that comes first is the first part of the text. -/
theorem points_ofPointsAfter (run : List Char) (ps : List CodePoint) :
    (ofPointsAfter run ps).points = run.reverse.map .char ++ ps := by
  fun_induction ofPointsAfter run ps with
  | case1 run => simp
  | case2 run c rest ih => simp [ih]
  | case3 run u rest ih => simp [points, ih]

@[simp] theorem points_ofPoints (ps : List CodePoint) : (ofPoints ps).points = ps :=
  points_ofPointsAfter [] ps

/-- Characters join the run before them. -/
theorem ofPointsAfter_chars (cs run : List Char) (ps : List CodePoint) :
    ofPointsAfter run (cs.map .char ++ ps) = ofPointsAfter (cs.reverse ++ run) ps := by
  induction cs generalizing run with
  | nil => rfl
  | cons c rest ih => simp [ofPointsAfter, ih]

@[simp] theorem ofPoints_points (t : Text) : ofPoints t.points = t := by
  unfold ofPoints
  induction t with
  | plain run =>
    simpa [ofPointsAfter] using ofPointsAfter_chars run.toList [] []
  | broken run u rest ih => simp [points, ofPointsAfter_chars, ofPointsAfter, ih]

/-- Texts with the same code points are the same. -/
theorem points_injective {a b : Text} (h : a.points = b.points) : a = b := by
  rw [← ofPoints_points a, h, ofPoints_points]

theorem points_inj {a b : Text} : a.points = b.points ↔ a = b :=
  ⟨points_injective, congrArg points⟩

/-- The numbers of the code points tell texts apart. -/
theorem codes_injective {a b : Text} (h : a.codes = b.codes) : a = b := by
  refine points_injective (List.map_inj_right (fun p q hpq => ?_) |>.1 h)
  rw [← CodePoint.ofNat_toNat p, hpq, CodePoint.ofNat_toNat]

/-- Texts without surrogates are compared by their characters. -/
@[simp] theorem plain_beq_plain (a b : String) : (plain a == plain b) = (a == b) := by
  rw [Bool.eq_iff_iff, beq_iff_eq, beq_iff_eq, plain.injEq]

theorem append_assoc (a b c : Text) : a ++ b ++ c = a ++ (b ++ c) :=
  points_injective (by simp only [points_append, List.append_assoc])

@[simp] theorem append_empty (t : Text) : t ++ plain "" = t := points_injective (by simp)

@[simp] theorem empty_append (t : Text) : plain "" ++ t = t := points_injective (by simp)

/-- What follows one text is what follows another one if the texts put together are the same. -/
theorem append_right_inj (a : Text) {b c : Text} : a ++ b = a ++ c ↔ b = c := by
  rw [← points_inj, points_append, points_append, List.append_cancel_left_eq, points_inj]

/-- What stands before the same text is the same if the texts put together are. -/
theorem append_left_inj {a b : Text} (c : Text) : a ++ c = b ++ c ↔ a = b := by
  rw [← points_inj, points_append, points_append, List.append_cancel_right_eq, points_inj]

/-- Text in front of texts in a row stands in front of all of them. -/
theorem foldl_append (t : Text) (ts : List Text) : ts.foldl (· ++ ·) t = t ++ concat ts := by
  unfold concat
  induction ts generalizing t with
  | nil => simp
  | cons first rest ih => rw [List.foldl_cons, List.foldl_cons, ih, ih (_ ++ _), append_assoc,
      empty_append]

@[simp] theorem concat_nil : concat [] = "" := rfl

@[simp] theorem concat_cons (t : Text) (ts : List Text) : concat (t :: ts) = t ++ concat ts := by
  rw [concat, List.foldl_cons, empty_append, foldl_append]

/-- A text in front of the first one stands in front of all of them. -/
theorem intercalate_append (between a b : Text) (ts : List Text) :
    intercalate between ((a ++ b) :: ts) = a ++ intercalate between (b :: ts) := by
  simp only [intercalate]
  induction ts generalizing b with
  | nil => rfl
  | cons t rest ih => rw [List.foldl_cons, List.foldl_cons, append_assoc a, append_assoc a, ih]

@[simp] theorem intercalate_singleton (between t : Text) : intercalate between [t] = t := rfl

/-- Every text after the first one stands behind the text between. -/
theorem intercalate_cons_cons (between t u : Text) (ts : List Text) :
    intercalate between (t :: u :: ts) = t ++ between ++ intercalate between (u :: ts) :=
  intercalate_append between (t ++ between) u ts

/-- The code points of texts with a text between them. -/
theorem points_intercalate (between : Text) (ts : List Text) :
    (intercalate between ts).points = between.points.intercalate (ts.map points) := by
  induction ts with
  | nil => rfl
  | cons t rest ih =>
    cases rest with
    | nil => simp
    | cons u rest => simp [intercalate_cons_cons, ih, List.intercalate_cons_cons]

end Text

end StageTree
