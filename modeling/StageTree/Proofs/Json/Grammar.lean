import StageTree.Json.Reader

/-!
# The Grammar of JSON

Which texts write a document, and which document it is, as relations between texts and
documents. They know nothing of a reader: a text is put together from the texts of its parts,
and what stands after it plays no role.

Two limits are part of the relation, since both are limits on the text and not on the document:
how many digits a whole number may have, and how deep arrays and objects may nest. The members
of an object with the same key are all in the text, but only the last of them is in the
document.

## Main definitions

* `Spaced`: Something is written with gaps around it.
* `PieceText`, `pointsOf`, `StringText`: The pieces of a text in quotes, and what they mean.
* `NumeralText`: A number as written.
* `ListText`, `Bracketed`, `Member`: Items and members.
* `Writes`: A text writes a document.
-/

namespace StageTree

namespace Json

variable {α : Type}

/-! ## Gaps -/

/-- A text in which nothing is written. -/
def Gap (cs : List Char) : Prop := ∀ c ∈ cs, isGap c = true

/-- A text in which something is written, with gaps around it. -/
def Spaced (Written : List Char → α → Prop) (cs : List Char) (a : α) : Prop :=
  ∃ before core after, Gap before ∧ Written core a ∧ Gap after ∧ cs = before ++ (core ++ after)

/-! ## Texts in quotes -/

/-- A piece of a text in quotes. -/
inductive Piece where
  | char (c : Char)
  /-- A code unit, which may be one half of a character. -/
  | unit (value : Nat)

/-- How a piece is written. -/
inductive PieceText : List Char → Piece → Prop where
  /-- A character that is no control character stands for itself. -/
  | plain {c : Char} (hquote : c ≠ '"') (hescape : c ≠ '\\') (hvisible : 0x20 ≤ c.toNat) :
    PieceText [c] (.char c)
  /-- Some characters have an escape of one letter. -/
  | escape {letter c : Char} (h : simpleEscape? letter = some c) :
    PieceText ['\\', letter] (.char c)
  /-- Every code unit has an escape of four digits. -/
  | unit {a b c d : Char} {value : Nat} (h : hexDigitsValue? [a, b, c, d] = some value) :
    PieceText ['\\', 'u', a, b, c, d] (.unit value)

/-- How pieces are written, one after the other. -/
inductive PiecesText : List Char → List Piece → Prop where
  | nil : PiecesText [] []
  | cons {cs rest : List Char} {p : Piece} {ps : List Piece} (h : PieceText cs p)
    (hrest : PiecesText rest ps) : PiecesText (cs ++ rest) (p :: ps)

/-- The code points that pieces mean. Two halves of a character that stand next to each other are
    joined, and a half alone is kept as it is. -/
def pointsOf : List Piece → List CodePoint
  | [] => []
  | .char c :: rest => .char c :: pointsOf rest
  | .unit high :: .unit low :: rest =>
    if isHighHalf high && isLowHalf low then .char (joinHalves high low) :: pointsOf rest
    else .ofNat high :: pointsOf (.unit low :: rest)
  | .unit value :: rest => .ofNat value :: pointsOf rest

/-- A text in quotes. -/
inductive StringText : List Char → Text → Prop where
  | quoted {body : List Char} {ps : List Piece} (h : PiecesText body ps) :
    StringText ('"' :: (body ++ ['"'])) (.ofPoints (pointsOf ps))

/-! ## Numbers -/

/-- Some digits, at least one. -/
structure Digits (ds : List Char) : Prop where
  ne_nil : ds ≠ []
  all : ∀ c ∈ ds, c.isDigit = true

/-- The digits before the point: a zero alone, or digits that do not start with one. -/
structure WholeText (ds : List Char) : Prop where
  digits : Digits ds
  zero : ds.head? = some '0' → ds = ['0']

/-- The digits after the point, if there is one. -/
inductive FractionText : List Char → Option (List Char) → Prop where
  | none : FractionText [] none
  | some {ds : List Char} (h : Digits ds) : FractionText ('.' :: ds) (some ds)

/-- The sign of a power of ten, and whether it is a minus sign. -/
inductive SignText : List Char → Bool → Prop where
  | none : SignText [] false
  | plus : SignText ['+'] false
  | minus : SignText ['-'] true

/-- An integer by its sign and its digits. -/
def signed (negative : Bool) (ds : List Char) : Int :=
  if negative then -(digitsValue ds : Int) else digitsValue ds

/-- The power of ten, if there is one. -/
inductive ScaleText : List Char → Option Int → Prop where
  | none : ScaleText [] none
  | some {mark : Char} {sign ds : List Char} {negative : Bool} (hmark : mark = 'e' ∨ mark = 'E')
    (hsign : SignText sign negative) (hds : Digits ds) :
    ScaleText (mark :: (sign ++ ds)) (some (signed negative ds))

/-- A number as written: a minus sign or none, and then its parts. -/
inductive NumeralText : List Char → Numeral → Prop where
  | parts {whole point power : List Char} {fraction : Option (List Char)} {scale : Option Int}
    (negative : Bool) (hwhole : WholeText whole) (hfraction : FractionText point fraction)
    (hscale : ScaleText power scale) :
    NumeralText ((if negative then ['-'] else []) ++ (whole ++ (point ++ power)))
      ⟨negative, whole, fraction, scale⟩

/-- What is written without brackets. A whole number has at most so many digits. -/
inductive Scalar (digits : Nat) : List Char → Json → Prop where
  | null : Scalar digits ['n', 'u', 'l', 'l'] .null
  | true : Scalar digits ['t', 'r', 'u', 'e'] (.bool true)
  | false : Scalar digits ['f', 'a', 'l', 's', 'e'] (.bool false)
  | notNumber : Scalar digits ['N', 'a', 'N'] (.float .nan)
  | infinity : Scalar digits ['I', 'n', 'f', 'i', 'n', 'i', 't', 'y'] (.float (.infinite false))
  | minusInfinity :
    Scalar digits ['-', 'I', 'n', 'f', 'i', 'n', 'i', 't', 'y'] (.float (.infinite true))
  | string {cs : List Char} {text : Text} (h : StringText cs text) : Scalar digits cs (.str text)
  /-- A number without a point and a power of ten is whole. -/
  | integer {cs whole : List Char} {negative : Bool}
    (h : NumeralText cs ⟨negative, whole, none, none⟩) (hshort : whole.length ≤ digits) :
    Scalar digits cs (.int (signed negative whole))
  /-- Any other number is the nearest floating-point number. -/
  | float {cs : List Char} {n : Numeral} (h : NumeralText cs n)
    (hfloat : n.fraction ≠ none ∨ n.scale ≠ none) :
    Scalar digits cs (.float ((Decimal.ofDigits n.whole (n.fraction.getD [])
      (n.scale.getD 0)).toBinary64 n.negative))

/-! ## Arrays and objects -/

/-- Items with commas between them. -/
inductive ListText (Item : List Char → α → Prop) : List Char → List α → Prop where
  | one {cs : List Char} {a : α} (h : Item cs a) : ListText Item cs [a]
  | more {cs rest : List Char} {a : α} {as : List α} (h : Item cs a)
    (hrest : ListText Item rest as) : ListText Item (cs ++ ',' :: rest) (a :: as)

/-- Items between brackets, or none. -/
inductive Bracketed (first last : Char) (Item : List Char → α → Prop) :
    List Char → List α → Prop where
  | none {gap : List Char} (h : Gap gap) : Bracketed first last Item (first :: (gap ++ [last])) []
  | some {body : List Char} {as : List α} (h : ListText Item body as) :
    Bracketed first last Item (first :: (body ++ [last])) as

/-- A key and a value with a colon between them. -/
inductive Member (Value : List Char → Json → Prop) : List Char → Text × Json → Prop where
  | pair {cs rest : List Char} {key : Text} {value : Json} (hkey : Spaced StringText cs key)
    (hvalue : Spaced Value rest value) : Member Value (cs ++ ':' :: rest) (key, value)

/-- The members of an object with some more that are written. Of members with the same key the
    last one stands, in the place of the first one. -/
def putAll (found written : List (Text × Json)) : List (Text × Json) :=
  written.foldl (fun members member => putMember members member.1 member.2) found

/-- A text writes a document, with whole numbers of at most so many digits, and with arrays and
    objects that nest at most so deep. -/
def Writes (digits : Nat) : Nat → List Char → Json → Prop
  | 0 => Scalar digits
  | room + 1 => fun cs j =>
    Scalar digits cs j ∨
      (∃ items, Bracketed '[' ']' (Spaced (Writes digits room)) cs items ∧ j = .arr items) ∨
      ∃ members, Bracketed '{' '}' (Member (Writes digits room)) cs members ∧
        j = .obj (putAll [] members)

end Json

end StageTree
