import StageTree.Number.Decimal
import StageTree.Text.Basic
import StageTree.Text.Hex

/-!
# UTF-8

Reading bytes as UTF-8 text, and saying where and why they are not; and writing text as bytes,
and saying where it cannot be.

A character is one to four bytes. The first byte tells how many, and the range of the second
one is narrowed after four of the first bytes, so that no character has two spellings, none
is a surrogate and none lies past the last code point. Reading stops at the first byte that
cannot go on: the bytes that were good up to there are the ones the refusal names.

Every character has bytes and no surrogate has any, so a text that is read has no surrogates,
and a text with surrogates is not written.

## Main definitions

* `Utf8.Refusal`: Where bytes stop being text, and why.
* `Utf8.decode`: The text of some bytes, or the first refusal.
* `Utf8.encode`: The bytes of a run of characters.
* `Utf8.Obstacle`: The surrogates that keep a text from being written.
* `Utf8.encodable`, `Utf8.obstacle?`: Whether a text can be written as bytes, and whether a
  stream takes it that may take some surrogates too.
-/

namespace StageTree

namespace Utf8

/-- Why bytes are not text. -/
inductive Reason where
  | invalidStart
  /-- The byte after the ones named does not go on with the character. -/
  | invalidContinuation
  | unexpectedEnd
  deriving DecidableEq

/-- The wording of a reason. -/
def Reason.text : Reason → String
  | .invalidStart => "invalid start byte"
  | .invalidContinuation => "invalid continuation byte"
  | .unexpectedEnd => "unexpected end of data"

/-- Where bytes stop being text: the first byte of the refused character, its position, how
    many bytes of it were good, and why it is refused. -/
structure Refusal where
  /-- The first byte of the refused character. -/
  byte : UInt8
  /-- The offset of that byte. -/
  position : Nat
  /-- How many bytes the refusal covers, at least one. -/
  length : Nat
  reason : Reason
  deriving DecidableEq

/-- The message of a refusal. -/
def Refusal.message (r : Refusal) : String :=
  let place :=
    if r.length ≤ 1 then
      "byte 0x" ++ String.ofList (hexDigits 2 r.byte.toNat) ++ " in position "
        ++ integerText r.position
    else
      "bytes in position " ++ integerText r.position ++ "-"
        ++ integerText (r.position + r.length - 1 : Nat)
  "'utf-8' codec can't decode " ++ place ++ ": " ++ r.reason.text

/-- How many bytes follow a first byte, and the range of the first of them; nothing if no
    character starts with the byte. -/
def followers? (first : UInt8) : Option (Nat × UInt8 × UInt8) :=
  if first < 0x80 then some (0, 0x80, 0xbf)
  else if first < 0xc2 then none
  else if first < 0xe0 then some (1, 0x80, 0xbf)
  else if first = 0xe0 then some (2, 0xa0, 0xbf)
  else if first = 0xed then some (2, 0x80, 0x9f)
  else if first < 0xf0 then some (2, 0x80, 0xbf)
  else if first = 0xf0 then some (3, 0x90, 0xbf)
  else if first < 0xf4 then some (3, 0x80, 0xbf)
  else if first = 0xf4 then some (3, 0x80, 0x8f)
  else none

/-- The bits of a first byte that belong to the code point. -/
def leadBits (first : UInt8) (count : Nat) : Nat :=
  match count with
  | 0 => first.toNat
  | 1 => first.toNat % 0x20
  | 2 => first.toNat % 0x10
  | _ => first.toNat % 0x08

/-- What reading a character comes to: its code point, how many bytes it has and the bytes
    after it, or how many bytes were good and why the next one is not. -/
inductive Continued where
  | complete (code length : Nat) (rest : List UInt8)
  | short (good : Nat) (reason : Reason)

/-- Read `count` more bytes of a character whose code point begins with `code`. The first of
    them must lie between `low` and `high`, and the others in the whole range of continuation
    bytes. -/
def continueChar (count : Nat) (low high : UInt8) (good code : Nat) (bytes : List UInt8) :
    Continued :=
  match count, bytes with
  | 0, rest => .complete code good rest
  | _ + 1, [] => .short good .unexpectedEnd
  | count + 1, b :: rest =>
    if low ≤ b && b ≤ high then
      continueChar count 0x80 0xbf (good + 1) (code * 0x40 + b.toNat % 0x40) rest
    else .short good .invalidContinuation

/-- Read one character at the front of some bytes. -/
def takeChar (first : UInt8) (rest : List UInt8) : Continued :=
  match followers? first with
  | none => .short 0 .invalidStart
  | some (count, low, high) => continueChar count low high 1 (leadBits first count) rest

/-- The bytes that reading a character leaves are no more than there were. -/
theorem continueChar_length {count low high good code bytes code' length rest}
    (h : continueChar count low high good code bytes = .complete code' length rest) :
    rest.length ≤ bytes.length := by
  fun_induction continueChar count low high good code bytes with
  | case1 => simp_all
  | case2 => simp at h
  | case3 low high good code count b rest' hb ih =>
    have := ih h
    simp only [List.length_cons]
    omega
  | case4 => simp at h

/-- Reading a character leaves no more bytes than stood after its first one. -/
theorem takeChar_length {first bytes code length rest}
    (h : takeChar first bytes = .complete code length rest) : rest.length ≤ bytes.length := by
  unfold takeChar at h
  split at h
  · simp at h
  · exact continueChar_length h

/-- Read characters, with those already read in reverse order in `done`. -/
def decodeFrom (position : Nat) (done : List Char) (bytes : List UInt8) :
    Except Refusal (List Char) :=
  match bytes with
  | [] => .ok done.reverse
  | first :: rest =>
    match _taken : takeChar first rest with
    | .complete code length left =>
      decodeFrom (position + length) (Char.ofNat code :: done) left
    | .short good reason => .error ⟨first, position, max good 1, reason⟩
  termination_by bytes.length
  decreasing_by
    have := takeChar_length _taken
    simp only [List.length_cons]
    omega

/-- The text of some bytes, or the place where they stop being text. -/
def decode (bytes : List UInt8) : Except Refusal (List Char) := decodeFrom 0 [] bytes

/-- The bytes of a run of characters. -/
def encode (text : String) : List UInt8 := text.toUTF8.toList

/-- Surrogates in a row that keep a text from being written. -/
structure Obstacle where
  /-- The first surrogate. -/
  first : Surrogate
  /-- How many code points stand before it. -/
  position : Nat
  /-- How many surrogates there are, at least one. -/
  length : Nat
  deriving DecidableEq

/-- The message of an obstacle. -/
def Obstacle.message (o : Obstacle) : String :=
  let place :=
    if o.length ≤ 1 then
      "character '\\u" ++ String.ofList (hexDigits 4 o.first.code) ++ "' in position "
        ++ integerText o.position
    else
      "characters in position " ++ integerText o.position ++ "-"
        ++ integerText (o.position + o.length - 1 : Nat)
  "'utf-8' codec can't encode " ++ place ++ ": surrogates not allowed"

/-- The obstacle that starts with a surrogate, before the given rest of a text. -/
def Obstacle.before (position : Nat) (u : Surrogate) (rest : Text) : Obstacle :=
  ⟨u, position, (rest.points.takeWhile CodePoint.isSurrogate).length + 1⟩

/-- The characters of a text that has nothing else, or the first obstacle. -/
def encodable : Text → Except Obstacle String
  | .plain run => .ok run
  | .broken run u rest => .error (.before run.length u rest)

/-- The first obstacle in a text for a stream that takes some surrogates as they are. -/
def obstacle? (takes : Surrogate → Bool) (position : Nat) : Text → Option Obstacle
  | .plain _ => none
  | .broken run u rest =>
    if takes u then obstacle? takes (position + run.length + 1) rest
    else some (.before (position + run.length) u rest)

end Utf8

end StageTree
