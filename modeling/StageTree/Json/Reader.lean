import StageTree.Json.Basic
import StageTree.Number.Decimal
import StageTree.Text.Hex

/-!
# Reading JSON

From a text to a document, or to the first place where the text is no document.

The reader goes through the text once. Each step takes something off the front of what is
left, and its result holds what is left after it together with a proof that this is shorter,
which is why the loops over items and members end. Arrays and objects take one unit of
nesting room each, and the recursion of the reader is on that room.

A refusal holds the text that was left at its place. The place is counted only once, for the
message.

## Main definitions

* `Json.Complaint`: What can be wrong with a text.
* `Json.ReadError`: Why a text is not read: it is malformed, or past a limit.
* `Json.Taken`: Something read off the front of a text.
* `Json.read`: The document that a text writes.
-/

namespace StageTree

namespace Json

/-- What can be wrong with a text that should be a document. -/
inductive Complaint where
  | expectingValue
  /-- A member must start with its key. -/
  | expectingKey
  /-- A key must be followed by a colon. -/
  | expectingColon
  /-- An item or a member must be followed by a comma or by the end. -/
  | expectingComma
  | extraData
  | unterminatedString
  /-- A control character stands in a text. -/
  | controlCharacter
  | badEscape
  /-- A code point escape does not have its four digits. -/
  | badCodePoint
  /-- The text starts with a byte order mark. -/
  | byteOrderMark
  deriving DecidableEq

/-- The wording of a complaint. -/
def Complaint.text : Complaint → String
  | .expectingValue => "Expecting value"
  | .expectingKey => "Expecting property name enclosed in double quotes"
  | .expectingColon => "Expecting ':' delimiter"
  | .expectingComma => "Expecting ',' delimiter"
  | .extraData => "Extra data"
  | .unterminatedString => "Unterminated string starting at"
  | .controlCharacter => "Invalid control character at"
  | .badEscape => "Invalid \\escape"
  | .badCodePoint => "Invalid \\uXXXX escape"
  | .byteOrderMark => "Unexpected UTF-8 BOM (decode using utf-8-sig)"

/-- Why reading stops. -/
inductive Fault where
  /-- The text is malformed where only `left` is left of it. -/
  | malformed (complaint : Complaint) (left : List Char)
  /-- A whole number has more digits than are read. -/
  | longInteger (digits : Nat)
  /-- Arrays and objects nest deeper than the room. -/
  | tooDeep

/-- The most digits of a whole number that are read. -/
def integerDigitLimit : Nat := 4300

/-- Something read off the front of a text that was `bound` characters long, and what is left
    of the text. Something was read, so less is left. -/
structure Taken (α : Type) (bound : Nat) where
  /-- What was read. -/
  value : α
  /-- What is left. -/
  rest : List Char
  /-- Less is left than there was. -/
  shorter : rest.length < bound

/-- Whether a character may stand between the tokens of a document. -/
def isGap (c : Char) : Bool := c = ' ' || c = '\t' || c = '\n' || c = '\r'

/-- A text without the gap at its front. -/
def skipGap (cs : List Char) : List Char := cs.dropWhile isGap

/-- Skipping a gap never makes a text longer. -/
theorem length_skipGap_le (cs : List Char) : (skipGap cs).length ≤ cs.length :=
  (List.dropWhile_suffix isGap).length_le

/-! ## Texts -/

/-- The character that a one-letter escape stands for. -/
def simpleEscape? : Char → Option Char
  | '"' => some '"'
  | '\\' => some '\\'
  | '/' => some '/'
  | 'b' => some '\x08'
  | 'f' => some '\x0c'
  | 'n' => some '\n'
  | 'r' => some '\r'
  | 't' => some '\t'
  | _ => none

/-- Whether a code unit is the first half of a pair. -/
def isHighHalf (unit : Nat) : Bool := 0xd800 ≤ unit && unit < 0xdc00

/-- Whether a code unit is the second half of a pair. -/
def isLowHalf (unit : Nat) : Bool := 0xdc00 ≤ unit && unit < 0xe000

/-- The character that two halves make together. -/
def joinHalves (high low : Nat) : Char :=
  Char.ofNat (0x10000 + (high - 0xd800) * 0x400 + (low - 0xdc00))

/-- The code unit that four digits at the front of a text write, if they are digits, and what
    follows them. Something must follow: the end of the text is refused here. -/
def takeUnit : List Char → Option (Option Nat × List Char)
  | a :: b :: c :: d :: next :: rest => some (hexDigitsValue? [a, b, c, d], next :: rest)
  | _ => none

/-- Read the first half of a pair, whose second half follows in an escape of its own. Whatever
    else follows, the half stands alone. -/
def takeSecondHalf (high : Nat) (left : List Char) : Except Fault (CodePoint × List Char) :=
  match left with
  | '\\' :: 'u' :: digits =>
    match takeUnit digits with
    -- Too little text for an escape is left to be refused as one.
    | none => .ok (.ofNat high, left)
    | some (none, _) => .error (.malformed .badCodePoint ('u' :: digits))
    | some (some low, rest) =>
      if isLowHalf low then .ok (.char (joinHalves high low), rest) else .ok (.ofNat high, left)
  | _ => .ok (.ofNat high, left)

/-- Read a code point escape after its letter. -/
def takeCodePoint (digits : List Char) : Except Fault (CodePoint × List Char) :=
  match takeUnit digits with
  | some (some unit, left) =>
    if isHighHalf unit then takeSecondHalf unit left else .ok (.ofNat unit, left)
  | _ => .error (.malformed .badCodePoint ('u' :: digits))

/-- Read an escape after its backslash, in a text that starts at `opening`. -/
def takeEscape (opening cs : List Char) : Except Fault (CodePoint × List Char) :=
  match cs with
  | [] => .error (.malformed .unterminatedString opening)
  | 'u' :: digits => takeCodePoint digits
  | c :: rest =>
    match simpleEscape? c with
    | some escaped => .ok (.char escaped, rest)
    | none => .error (.malformed .badEscape ('\\' :: cs))

/-- Reading a code unit leaves less than there was. -/
theorem takeUnit_length {cs rest : List Char} {unit : Option Nat}
    (h : takeUnit cs = some (unit, rest)) : rest.length < cs.length := by
  unfold takeUnit at h
  split at h <;> simp_all
  rw [← h.2]
  simp only [List.length_cons]
  omega

/-- Reading a second half leaves no more than there was. -/
theorem takeSecondHalf_length {high : Nat} {left rest : List Char} {p : CodePoint}
    (h : takeSecondHalf high left = .ok (p, rest)) : rest.length ≤ left.length := by
  unfold takeSecondHalf at h
  split at h
  · rename_i digits
    split at h
    · simp_all
    · simp at h
    · rename_i low after taken
      have := takeUnit_length taken
      split at h
      · simp only [Except.ok.injEq, Prod.mk.injEq] at h
        rw [← h.2]
        simp only [List.length_cons]
        omega
      · simp_all
  · simp_all

/-- Reading an escape leaves no more than there was after its backslash. -/
theorem takeEscape_length {opening cs rest : List Char} {p : CodePoint}
    (h : takeEscape opening cs = .ok (p, rest)) : rest.length ≤ cs.length := by
  unfold takeEscape at h
  split at h
  · simp at h
  · rename_i digits
    unfold takeCodePoint at h
    split at h
    · rename_i unit left taken
      have := takeUnit_length taken
      simp only [List.length_cons]
      split at h
      · have := takeSecondHalf_length h
        omega
      · simp only [Except.ok.injEq, Prod.mk.injEq] at h
        rw [← h.2]
        omega
    · simp at h
  · split at h
    · simp only [Except.ok.injEq, Prod.mk.injEq] at h
      rw [← h.2]
      simp
    · simp at h

/-- Read the rest of a text after its opening quote. `opening` is the text from that quote on,
    and `done` holds the code points read so far, the last one first. -/
def stringFrom (opening : List Char) (done : List CodePoint) (cs : List Char) :
    Except Fault (Text × List Char) :=
  match cs with
  | [] => .error (.malformed .unterminatedString opening)
  | '"' :: rest => .ok (.ofPoints done.reverse, rest)
  | '\\' :: rest =>
    match _taken : takeEscape opening rest with
    | .error fault => .error fault
    | .ok (p, left) => stringFrom opening (p :: done) left
  | c :: rest =>
    if c.toNat < 0x20 then .error (.malformed .controlCharacter (c :: rest))
    else stringFrom opening (c :: done) rest
  termination_by cs.length
  decreasing_by
    · have := takeEscape_length _taken
      simp only [List.length_cons]
      omega
    · simp

/-- A text that is read leaves less than there was. -/
theorem stringFrom_length {opening : List Char} {done : List CodePoint} {cs : List Char}
    {text : Text} {rest : List Char}
    (h : stringFrom opening done cs = .ok (text, rest)) : rest.length < cs.length := by
  fun_induction stringFrom opening done cs with
  | case1 => simp at h
  | case2 => simp_all
  | case3 => simp at h
  | case4 done rest' c left taken ih =>
    have := takeEscape_length taken
    have := ih h
    simp only [List.length_cons]
    omega
  | case5 => simp at h
  | case6 done c rest' _ _ _ ih =>
    have := ih h
    simp only [List.length_cons]
    omega

/-- Read a text whose opening quote has been seen. -/
def string (afterQuote : List Char) : Except Fault (Taken Text (afterQuote.length + 1)) :=
  match taken : stringFrom ('"' :: afterQuote) [] afterQuote with
  | .error fault => .error fault
  | .ok (text, rest) => .ok ⟨text, rest, Nat.lt_succ_of_lt (stringFrom_length taken)⟩

/-! ## Numbers -/

/-- A number as written. -/
structure Numeral where
  /-- Whether it starts with a minus sign. -/
  negative : Bool
  /-- The digits before the point. -/
  whole : List Char
  /-- The digits after the point, if there is one. -/
  fraction : Option (List Char)
  /-- The power of ten, if there is one. -/
  scale : Option Int

/-- The digits before the point, at the front of a text: a zero alone, or digits that do not
    start with one. -/
def takeWhole : List Char → List Char × List Char
  | '0' :: rest => (['0'], rest)
  | cs => takeDigits cs

/-- The digits after a point, at the front of a text. -/
def takeFraction (cs : List Char) : Option (List Char) × List Char :=
  match cs with
  | '.' :: rest =>
    match takeDigits rest with
    -- A point without digits is not part of the number.
    | ([], _) => (none, cs)
    | (digits, left) => (some digits, left)
  | _ => (none, cs)

/-- The power of ten at the front of a text. -/
def takeScale (cs : List Char) : Option Int × List Char :=
  match cs with
  | mark :: rest =>
    if mark = 'e' || mark = 'E' then
      match takeSign rest with
      | (negative, unsigned) =>
        match takeDigits unsigned with
        -- Neither is a mark without digits, with or without a sign.
        | ([], _) => (none, cs)
        | (digits, left) =>
          (some (if negative then -(digitsValue digits : Int) else digitsValue digits), left)
    else (none, cs)
  | [] => (none, cs)

/-- A minus sign, if one is written, and what follows it. -/
def takeMinus : List Char → Bool × List Char
  | '-' :: rest => (true, rest)
  | cs => (false, cs)

/-- The longest number at the front of a text, if one starts there. -/
def takeNumeral (cs : List Char) : Option (Numeral × List Char) :=
  let minus := takeMinus cs
  let whole := takeWhole minus.2
  if whole.1.isEmpty then none
  else
    let fraction := takeFraction whole.2
    let scale := takeScale fraction.2
    some (⟨minus.1, whole.1, fraction.1, scale.1⟩, scale.2)

/-- The document that a number as written stands for: a floating-point number if it has a
    fraction or a power of ten, and a whole number otherwise. -/
def Numeral.toJson (n : Numeral) : Except Fault Json :=
  match n.fraction, n.scale with
  | none, none =>
    if integerDigitLimit < n.whole.length then .error (.longInteger n.whole.length)
    else
      let magnitude : Int := digitsValue n.whole
      .ok (.int (if n.negative then -magnitude else magnitude))
  | fraction, scale =>
    .ok (.float ((Decimal.ofDigits n.whole (fraction.getD []) (scale.getD 0)).toBinary64
      n.negative))

/-- What follows the digits at the front of a text is no longer than the text, and shorter if
    there are digits. -/
theorem takeDigits_length (cs : List Char) :
    (takeDigits cs).1.length + (takeDigits cs).2.length = cs.length := by
  rw [takeDigits, ← List.length_append, List.takeWhile_append_dropWhile]

/-- Digits before a point are part of the text. -/
theorem takeWhole_length (cs : List Char) :
    (takeWhole cs).1.length + (takeWhole cs).2.length = cs.length := by
  unfold takeWhole
  split
  · simp only [List.length_cons, List.length_nil]
    omega
  · exact takeDigits_length _

/-- Reading a fraction leaves no more than there was. -/
theorem takeFraction_length (cs : List Char) : (takeFraction cs).2.length ≤ cs.length := by
  unfold takeFraction
  split
  · rename_i rest
    have := takeDigits_length rest
    grind
  · exact Nat.le_refl _

/-- Reading a sign leaves no more than there was. -/
theorem takeSign_length (cs : List Char) : (takeSign cs).2.length ≤ cs.length := by
  unfold takeSign
  split <;> simp

/-- Reading a power of ten leaves no more than there was. -/
theorem takeScale_length (cs : List Char) : (takeScale cs).2.length ≤ cs.length := by
  unfold takeScale
  split
  · rename_i mark rest
    have hsign := takeSign_length rest
    have hdigits := takeDigits_length (takeSign rest).2
    grind
  · exact Nat.le_refl _

/-- Reading a minus sign leaves no more than there was. -/
theorem takeMinus_length (cs : List Char) : (takeMinus cs).2.length ≤ cs.length := by
  unfold takeMinus
  split <;> simp

/-- A number that is read leaves less than there was. -/
theorem takeNumeral_length {cs : List Char} {n : Numeral} {rest : List Char}
    (h : takeNumeral cs = some (n, rest)) : rest.length < cs.length := by
  have hminus := takeMinus_length cs
  have hwhole := takeWhole_length (takeMinus cs).2
  have hfraction := takeFraction_length (takeWhole (takeMinus cs).2).2
  have hscale := takeScale_length (takeFraction (takeWhole (takeMinus cs).2).2).2
  unfold takeNumeral at h
  simp only at h
  split at h
  · simp at h
  · rename_i nonempty
    have : (takeWhole (takeMinus cs).2).1.length ≠ 0 := by
      simpa [List.isEmpty_iff, List.length_eq_zero_iff] using nonempty
    simp only [Option.some.injEq, Prod.mk.injEq] at h
    rw [← h.2]
    omega

/-! ## Values -/

/-- A word that stands for a document, at the front of a text. -/
def takeWord : List Char → Option (Json × List Char)
  | 'n' :: 'u' :: 'l' :: 'l' :: rest => some (.null, rest)
  | 't' :: 'r' :: 'u' :: 'e' :: rest => some (.bool true, rest)
  | 'f' :: 'a' :: 'l' :: 's' :: 'e' :: rest => some (.bool false, rest)
  | 'N' :: 'a' :: 'N' :: rest => some (.float .nan, rest)
  | 'I' :: 'n' :: 'f' :: 'i' :: 'n' :: 'i' :: 't' :: 'y' :: rest =>
    some (.float (.infinite false), rest)
  | '-' :: 'I' :: 'n' :: 'f' :: 'i' :: 'n' :: 'i' :: 't' :: 'y' :: rest =>
    some (.float (.infinite true), rest)
  | _ => none

/-- A word that is read leaves less than there was. -/
theorem takeWord_length {cs rest : List Char} {j : Json}
    (h : takeWord cs = some (j, rest)) : rest.length < cs.length := by
  unfold takeWord at h
  split at h <;> simp_all <;> omega

/-- Read a word or a number. -/
def scalar (cs : List Char) : Except Fault (Taken Json cs.length) :=
  match word : takeWord cs with
  | some (j, rest) => .ok ⟨j, rest, takeWord_length word⟩
  | none =>
    match numeral : takeNumeral cs with
    | none => .error (.malformed .expectingValue cs)
    | some (n, rest) =>
      match n.toJson with
      | .error fault => .error fault
      | .ok j => .ok ⟨j, rest, takeNumeral_length numeral⟩

/-- How a value is read. -/
abbrev ValueReader := (cs : List Char) → Except Fault (Taken Json cs.length)

/-- Read the items of an array from the first one on, up to its closing bracket. `done` holds
    the items read so far, the last one first. -/
def itemsFrom (item : ValueReader) (bound : Nat) (done : List Json) (cs : List Char)
    (fits : cs.length ≤ bound) : Except Fault (Taken (List Json) bound) :=
  match item cs with
  | .error fault => .error fault
  | .ok t =>
    match next : skipGap t.rest with
    | ']' :: rest => .ok ⟨(t.value :: done).reverse, rest, by
        have := length_skipGap_le t.rest
        have := t.shorter
        simp only [next, List.length_cons] at *
        omega⟩
    | ',' :: rest =>
      itemsFrom item bound (t.value :: done) (skipGap rest) (by
        have := length_skipGap_le rest
        have := length_skipGap_le t.rest
        have := t.shorter
        simp only [next, List.length_cons] at *
        omega)
    | left => .error (.malformed .expectingComma left)
  termination_by cs.length
  decreasing_by
    have := length_skipGap_le rest
    have := length_skipGap_le t.rest
    have := t.shorter
    simp only [next, List.length_cons] at *
    omega

/-- Read an array after its opening bracket. -/
def array (item : ValueReader) (cs : List Char) : Except Fault (Taken Json (cs.length + 1)) :=
  match next : skipGap cs with
  | ']' :: rest => .ok ⟨.arr [], rest, by
      have := length_skipGap_le cs
      simp only [next, List.length_cons] at *
      omega⟩
  | first =>
    match itemsFrom item (cs.length + 1) [] first (by
        have := length_skipGap_le cs
        simp only [next] at *
        omega) with
    | .error fault => .error fault
    | .ok t => .ok ⟨.arr t.value, t.rest, t.shorter⟩

/-- Read a key and its colon, and skip the gap after them. -/
def key (cs : List Char) : Except Fault (Taken Text cs.length) :=
  match cs with
  | '"' :: afterQuote =>
    match string afterQuote with
    | .error fault => .error fault
    | .ok t =>
      match next : skipGap t.rest with
      | ':' :: rest => .ok ⟨t.value, skipGap rest, by
          have := length_skipGap_le rest
          have := length_skipGap_le t.rest
          have := t.shorter
          simp only [next, List.length_cons] at *
          omega⟩
      | left => .error (.malformed .expectingColon left)
  | left => .error (.malformed .expectingKey left)

/-- Read the members of an object from the first one on, up to its closing brace. `done` holds
    the members read so far. -/
def membersFrom (item : ValueReader) (bound : Nat) (done : List (Text × Json))
    (cs : List Char) (fits : cs.length ≤ bound) :
    Except Fault (Taken (List (Text × Json)) bound) :=
  match key cs with
  | .error fault => .error fault
  | .ok k =>
    match item k.rest with
    | .error fault => .error fault
    | .ok t =>
      match next : skipGap t.rest with
      | '}' :: rest => .ok ⟨putMember done k.value t.value, rest, by
          have := length_skipGap_le t.rest
          have := t.shorter
          have := k.shorter
          simp only [next, List.length_cons] at *
          omega⟩
      | ',' :: rest =>
        membersFrom item bound (putMember done k.value t.value) (skipGap rest) (by
          have := length_skipGap_le rest
          have := length_skipGap_le t.rest
          have := t.shorter
          have := k.shorter
          simp only [next, List.length_cons] at *
          omega)
      | left => .error (.malformed .expectingComma left)
  termination_by cs.length
  decreasing_by
    have := length_skipGap_le rest
    have := length_skipGap_le t.rest
    have := t.shorter
    have := k.shorter
    simp only [next, List.length_cons] at *
    omega

/-- Read an object after its opening brace. -/
def object (item : ValueReader) (cs : List Char) : Except Fault (Taken Json (cs.length + 1)) :=
  match next : skipGap cs with
  | '}' :: rest => .ok ⟨.obj [], rest, by
      have := length_skipGap_le cs
      simp only [next, List.length_cons] at *
      omega⟩
  | first =>
    match membersFrom item (cs.length + 1) [] first (by
        have := length_skipGap_le cs
        simp only [next] at *
        omega) with
    | .error fault => .error fault
    | .ok t => .ok ⟨.obj t.value, t.rest, t.shorter⟩

/-- Read the value at the front of a text. An array or an object takes a unit of room. -/
def value (room : Nat) : ValueReader
  | [] => .error (.malformed .expectingValue [])
  | '"' :: rest =>
    match string rest with
    | .error fault => .error fault
    | .ok t => .ok ⟨.str t.value, t.rest, t.shorter⟩
  | '[' :: rest =>
    match room with
    | 0 => .error .tooDeep
    | room + 1 => array (value room) rest
  | '{' :: rest =>
    match room with
    | 0 => .error .tooDeep
    | room + 1 => object (value room) rest
  | c :: rest => scalar (c :: rest)

/-! ## Whole texts -/

/-- Why a text is not read. -/
inductive ReadError where
  /-- The text is malformed at a character, which is on a line and in a column of it. -/
  | malformed (complaint : Complaint) (line column position : Nat)
  /-- A whole number has more digits than are read. -/
  | longInteger (digits : Nat)
  /-- Arrays and objects nest deeper than the room. -/
  | tooDeep
  deriving DecidableEq

/-- The column of the place after some characters: how many of them follow the last line end,
    counted from one. -/
def columnAfter (before : List Char) : Nat :=
  (before.reverse.takeWhile (· != '\n')).length + 1

/-- The complaint about a text where only `left` is left of it. -/
def ReadError.at (text : List Char) (complaint : Complaint) (left : List Char) : ReadError :=
  let position := text.length - left.length
  let before := text.take position
  .malformed complaint (before.count '\n' + 1) (columnAfter before) position

/-- The error of a whole text for a fault met in it. -/
def ReadError.ofFault (text : List Char) : Fault → ReadError
  | .malformed complaint left => .at text complaint left
  | .longInteger digits => .longInteger digits
  | .tooDeep => .tooDeep

/-- The document that a text writes. -/
def read (room : Nat) (text : List Char) : Except ReadError Json :=
  -- A byte order mark is looked for before gaps are skipped.
  if text.head? = some '\ufeff' then .error (.at text .byteOrderMark text)
  else
    match value room (skipGap text) with
    | .error fault => .error (.ofFault text fault)
    | .ok t =>
      match skipGap t.rest with
      | [] => .ok t.value
      | left => .error (.at text .extraData left)

/-- The message of a malformed text. -/
def malformedMessage (complaint : Complaint) (line column position : Nat) : String :=
  complaint.text ++ ": line " ++ integerText line ++ " column " ++ integerText column
    ++ " (char " ++ integerText position ++ ")"

/-- The message of a whole number that is too long. -/
def longIntegerMessage (digits : Nat) : String :=
  "Exceeds the limit (" ++ integerText integerDigitLimit
    ++ " digits) for integer string conversion: value has " ++ integerText digits
    ++ " digits; use sys.set_int_max_str_digits() to increase the limit"

end Json

end StageTree
