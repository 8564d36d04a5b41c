import Mathlib.Tactic.SplitIfs
import StageTree.Text.Utf8

/-!
# UTF-8 and Its Inverse

Reading bytes as text is the inverse of writing text as bytes: bytes are read as a text if and
only if they are the bytes of that text. So no bytes are two texts, and no text is refused.

Both directions go character by character. The first byte of a character says how many others
belong to it, and each of these contributes six bits to the code point. The ranges of the bytes
are those that the arithmetic of the writer produces: outside of them there would be a shorter
spelling, a surrogate or nothing at all. So a text with surrogates has no bytes, and a stream
takes it only if it takes all of them as they are.

## Main definitions

* `Utf8.Spells`: The bytes of a character, by their ranges.

## Theorems

* `Utf8.takeChar_sound`, `Utf8.takeChar_of_spells`: A character is read from bytes in its ranges.
* `Utf8.Spells.exists_char`, `Utf8.spells_encodeChar`: They are the bytes that are written for it.
* `Utf8.decode_eq_ok`: Bytes are a text if and only if they are its bytes.
* `Utf8.encodable_eq_ok`, `Utf8.obstacle?_eq_none`: The texts that have bytes, and those that a
  stream takes.
-/

namespace StageTree

namespace Utf8

/-- What a first byte says of the bytes after it, by its value. -/
theorem followers?_eq (first : UInt8) :
    followers? first =
      if first.toNat < 0x80 then some (0, 0x80, 0xbf)
      else if first.toNat < 0xc2 then none
      else if first.toNat < 0xe0 then some (1, 0x80, 0xbf)
      else if first.toNat < 0xf0 then
        some (2, if first.toNat = 0xe0 then 0xa0 else 0x80,
          if first.toNat = 0xed then 0x9f else 0xbf)
      else if first.toNat < 0xf5 then
        some (3, if first.toNat = 0xf0 then 0x90 else 0x80,
          if first.toNat = 0xf4 then 0x8f else 0xbf)
      else none := by
  unfold followers?
  simp only [UInt8.lt_iff_toNat_lt, ← UInt8.toNat_inj, UInt8.reduceToNat]
  split_ifs <;> first | rfl | omega

theorem continueChar_zero_eq {low high : UInt8} {good code code' length : Nat}
    {bytes rest : List UInt8} :
    continueChar 0 low high good code bytes = .complete code' length rest ↔
      code = code' ∧ good = length ∧ bytes = rest := by
  rw [continueChar, Continued.complete.injEq]

/-- One more byte is read if it is in its range. -/
theorem continueChar_succ_eq {count good code code' length : Nat} {low high : UInt8}
    {bytes rest : List UInt8} :
    continueChar (count + 1) low high good code bytes = .complete code' length rest ↔
      ∃ b more, bytes = b :: more ∧ (low.toNat ≤ b.toNat ∧ b.toNat ≤ high.toNat) ∧
        continueChar count 0x80 0xbf (good + 1) (code * 0x40 + b.toNat % 0x40) more =
          .complete code' length rest := by
  cases bytes with
  | nil => exact ⟨nofun, nofun⟩
  | cons b more =>
      rw [continueChar]
      simp only [Bool.and_eq_true, decide_eq_true_eq, UInt8.le_iff_toNat_le]
      split
      · rename_i hrange
        refine ⟨fun h => ⟨b, more, rfl, hrange, h⟩, ?_⟩
        rintro ⟨_, _, ⟨rfl⟩, _, h⟩
        exact h
      · rename_i hrange
        refine ⟨nofun, ?_⟩
        rintro ⟨_, _, ⟨rfl⟩, h, _⟩
        exact absurd h hrange

/-- A byte that goes on with a character. -/
def Continues (b : UInt8) : Prop := 0x80 ≤ b.toNat ∧ b.toNat ≤ 0xbf

/-- The bytes of a character, and its code point. -/
inductive Spells : List UInt8 → Nat → Prop where
  | one {a : UInt8} (ha : a.toNat < 0x80) : Spells [a] a.toNat
  | two {a b : UInt8} (ha : 0xc2 ≤ a.toNat ∧ a.toNat < 0xe0) (hb : Continues b) :
    Spells [a, b] (a.toNat % 0x20 * 0x40 + b.toNat % 0x40)
  | three {a b c : UInt8} (ha : 0xe0 ≤ a.toNat ∧ a.toNat < 0xf0) (hb : Continues b)
    (hlow : a.toNat = 0xe0 → 0xa0 ≤ b.toNat) (hhigh : a.toNat = 0xed → b.toNat ≤ 0x9f)
    (hc : Continues c) :
    Spells [a, b, c] ((a.toNat % 0x10 * 0x40 + b.toNat % 0x40) * 0x40 + c.toNat % 0x40)
  | four {a b c d : UInt8} (ha : 0xf0 ≤ a.toNat ∧ a.toNat < 0xf5) (hb : Continues b)
    (hlow : a.toNat = 0xf0 → 0x90 ≤ b.toNat) (hhigh : a.toNat = 0xf4 → b.toNat ≤ 0x8f)
    (hc : Continues c) (hd : Continues d) :
    Spells [a, b, c, d] (((a.toNat % 0x08 * 0x40 + b.toNat % 0x40) * 0x40 + c.toNat % 0x40) *
      0x40 + d.toNat % 0x40)

-- After some first bytes the range of the second one ends or begins somewhere else.
theorem narrowed_iff (p q : Prop) [Decidable p] [Decidable q] {low high : UInt8}
    (hlow : 0x80 ≤ low.toNat) (hhigh : high.toNat ≤ 0xbf) {b : UInt8} :
    ((if p then low else 0x80).toNat ≤ b.toNat ∧ b.toNat ≤ (if q then high else 0xbf).toNat) ↔
      Continues b ∧ (p → low.toNat ≤ b.toNat) ∧ (q → b.toNat ≤ high.toNat) := by
  unfold Continues
  by_cases hp : p <;> by_cases hq : q <;>
    simp only [hp, hq, if_true, if_false, UInt8.reduceToNat, true_implies, false_implies,
      and_true, true_and] <;> omega

/-- The second of three bytes is limited so that no shorter spelling and no surrogate is met. -/
theorem narrowed_three (first b : UInt8) :
    ((if first.toNat = 0xe0 then (0xa0 : UInt8) else 0x80).toNat ≤ b.toNat ∧
        b.toNat ≤ (if first.toNat = 0xed then (0x9f : UInt8) else 0xbf).toNat) ↔
      Continues b ∧ (first.toNat = 0xe0 → 0xa0 ≤ b.toNat) ∧
        (first.toNat = 0xed → b.toNat ≤ 0x9f) :=
  narrowed_iff _ _ (by decide) (by decide)

/-- The second of four bytes is limited so that no shorter spelling and nothing past the last plane
    is met. -/
theorem narrowed_four (first b : UInt8) :
    ((if first.toNat = 0xf0 then (0x90 : UInt8) else 0x80).toNat ≤ b.toNat ∧
        b.toNat ≤ (if first.toNat = 0xf4 then (0x8f : UInt8) else 0xbf).toNat) ↔
      Continues b ∧ (first.toNat = 0xf0 → 0x90 ≤ b.toNat) ∧
        (first.toNat = 0xf4 → b.toNat ≤ 0x8f) :=
  narrowed_iff _ _ (by decide) (by decide)

/-- What is taken off the front of some bytes as a character is in the ranges of one. -/
theorem takeChar_sound {first : UInt8} {bytes rest : List UInt8} {code length : Nat}
    (h : takeChar first bytes = .complete code length rest) :
    ∃ spelled, first :: bytes = spelled ++ rest ∧ length = spelled.length ∧
      Spells spelled code := by
  rw [takeChar, followers?_eq] at h
  -- The first byte says how many bytes follow.
  by_cases hone : first.toNat < 0x80
  · rw [if_pos hone] at h
    rcases continueChar_zero_eq.1 h with ⟨rfl, rfl, rfl⟩
    exact ⟨[first], rfl, rfl, .one hone⟩
  rw [if_neg hone] at h
  by_cases hnone : first.toNat < 0xc2
  · rw [if_pos hnone] at h
    cases h
  rw [if_neg hnone] at h
  by_cases htwo : first.toNat < 0xe0
  · rw [if_pos htwo] at h
    rcases continueChar_succ_eq.1 h with ⟨b, _, rfl, hb, h⟩
    rcases continueChar_zero_eq.1 h with ⟨rfl, rfl, rfl⟩
    exact ⟨[first, b], rfl, rfl, .two ⟨Nat.not_lt.1 hnone, htwo⟩ hb⟩
  rw [if_neg htwo] at h
  by_cases hthree : first.toNat < 0xf0
  · rw [if_pos hthree] at h
    rcases continueChar_succ_eq.1 h with ⟨b, _, rfl, hb, h⟩
    rcases continueChar_succ_eq.1 h with ⟨c, _, rfl, hc, h⟩
    rcases continueChar_zero_eq.1 h with ⟨rfl, rfl, rfl⟩
    rcases (narrowed_three _ b).1 hb with ⟨hb, hlow, hhigh⟩
    exact ⟨[first, b, c], rfl, rfl, .three ⟨Nat.not_lt.1 htwo, hthree⟩ hb hlow hhigh hc⟩
  rw [if_neg hthree] at h
  by_cases hfour : first.toNat < 0xf5
  · rw [if_pos hfour] at h
    rcases continueChar_succ_eq.1 h with ⟨b, _, rfl, hb, h⟩
    rcases continueChar_succ_eq.1 h with ⟨c, _, rfl, hc, h⟩
    rcases continueChar_succ_eq.1 h with ⟨d, _, rfl, hd, h⟩
    rcases continueChar_zero_eq.1 h with ⟨rfl, rfl, rfl⟩
    rcases (narrowed_four _ b).1 hb with ⟨hb, hlow, hhigh⟩
    exact ⟨[first, b, c, d], rfl, rfl,
      .four ⟨Nat.not_lt.1 hthree, hfour⟩ hb hlow hhigh hc hd⟩
  · rw [if_neg hfour] at h
    cases h

/-- A character is taken off the front of bytes that begin with its bytes. -/
theorem takeChar_of_spells {first : UInt8} {bytes rest spelled : List UInt8} {code : Nat}
    (hspelled : Spells spelled code) (hbytes : first :: bytes = spelled ++ rest) :
    takeChar first bytes = .complete code spelled.length rest := by
  rw [takeChar, followers?_eq]
  -- The first byte tells how many follow, and each of them has to be in its range.
  cases hspelled with
  | one ha =>
      cases hbytes
      rw [if_pos ha]
      exact continueChar_zero_eq.2 ⟨rfl, rfl, rfl⟩
  | two ha hb =>
      cases hbytes
      rw [if_neg (by omega), if_neg (by omega), if_pos ha.2]
      refine continueChar_succ_eq.2 ⟨_, _, rfl, hb, ?_⟩
      exact continueChar_zero_eq.2 ⟨rfl, rfl, rfl⟩
  | three ha hb hlow hhigh hc =>
      cases hbytes
      rw [if_neg (by omega), if_neg (by omega), if_neg (by omega), if_pos ha.2]
      refine continueChar_succ_eq.2 ⟨_, _, rfl, (narrowed_three _ _).2 ⟨hb, hlow, hhigh⟩, ?_⟩
      refine continueChar_succ_eq.2 ⟨_, _, rfl, hc, ?_⟩
      exact continueChar_zero_eq.2 ⟨rfl, rfl, rfl⟩
  | four ha hb hlow hhigh hc hd =>
      cases hbytes
      rw [if_neg (by omega), if_neg (by omega), if_neg (by omega), if_neg (by omega),
        if_pos ha.2]
      refine continueChar_succ_eq.2 ⟨_, _, rfl, (narrowed_four _ _).2 ⟨hb, hlow, hhigh⟩, ?_⟩
      refine continueChar_succ_eq.2 ⟨_, _, rfl, hc, ?_⟩
      refine continueChar_succ_eq.2 ⟨_, _, rfl, hd, ?_⟩
      exact continueChar_zero_eq.2 ⟨rfl, rfl, rfl⟩

theorem ofNat_eq_iff {n : Nat} {b : UInt8} : UInt8.ofNat n = b ↔ n % 256 = b.toNat := by
  rw [← UInt8.toNat_inj, UInt8.toNat_ofNat']

/-- The bytes of a character, by its code point. -/
theorem encodeChar_eq (c : Char) :
    String.utf8EncodeChar c =
      if c.toNat ≤ 0x7f then [UInt8.ofNat c.toNat]
      else if c.toNat ≤ 0x7ff then
        [UInt8.ofNat (c.toNat / 0x40 % 0x20 + 0xc0), UInt8.ofNat (c.toNat % 0x40 + 0x80)]
      else if c.toNat ≤ 0xffff then
        [UInt8.ofNat (c.toNat / 0x1000 % 0x10 + 0xe0), UInt8.ofNat (c.toNat / 0x40 % 0x40 + 0x80),
          UInt8.ofNat (c.toNat % 0x40 + 0x80)]
      else
        [UInt8.ofNat (c.toNat / 0x40000 % 0x08 + 0xf0),
          UInt8.ofNat (c.toNat / 0x1000 % 0x40 + 0x80),
          UInt8.ofNat (c.toNat / 0x40 % 0x40 + 0x80), UInt8.ofNat (c.toNat % 0x40 + 0x80)] := rfl

theorem Spells.of_eq {spelled : List UInt8} {code code' : Nat} (h : Spells spelled code)
    (hcode : code = code') : Spells spelled code' := hcode ▸ h

/-- Bytes spell scalar values only. -/
theorem Spells.valid {spelled : List UInt8} {code : Nat} (h : Spells spelled code) :
    code < 0xd800 ∨ 0xdfff < code ∧ code < 0x110000 := by
  cases h with
  | one ha => omega
  | two ha hb =>
      -- The bits of the bytes are put together, and no two spellings give the same ones.
      unfold Continues at hb
      omega
  | three ha hb hlow hhigh hc =>
      unfold Continues at hb hc
      omega
  | four ha hb hlow hhigh hc hd =>
      unfold Continues at hb hc hd
      omega

/-- Bytes in the ranges of a character are those that are written for it. -/
theorem Spells.exists_char {spelled : List UInt8} {code : Nat} (h : Spells spelled code) :
    ∃ c : Char, c.toNat = code ∧ String.utf8EncodeChar c = spelled := by
  have hcode : (Char.ofNatAux code h.valid).toNat = code := rfl
  refine ⟨Char.ofNatAux code h.valid, hcode, ?_⟩
  rw [encodeChar_eq, hcode]
  cases h with
  | one ha =>
      rw [if_pos (by omega), UInt8.ofNat_toNat]
  | two ha hb =>
      unfold Continues at hb
      rw [if_neg (by omega), if_pos (by omega)]
      simp only [List.cons.injEq, ofNat_eq_iff, and_true]
      omega
  | three ha hb hlow hhigh hc =>
      unfold Continues at hb hc
      rw [if_neg (by omega), if_neg (by omega), if_pos (by omega)]
      simp only [List.cons.injEq, ofNat_eq_iff, and_true]
      omega
  | four ha hb hlow hhigh hc hd =>
      unfold Continues at hb hc hd
      rw [if_neg (by omega), if_neg (by omega), if_neg (by omega)]
      simp only [List.cons.injEq, ofNat_eq_iff, and_true]
      omega

/-- The bytes that are written for a character are in the ranges of one. -/
theorem spells_encodeChar (c : Char) : Spells (String.utf8EncodeChar c) c.toNat := by
  -- How many bytes are written depends on the size of the code alone.
  have hcode : c.toNat < 0xd800 ∨ 0xdfff < c.toNat ∧ c.toNat < 0x110000 := c.valid
  have hbyte {n : Nat} : (UInt8.ofNat n).toNat = n % 256 := UInt8.toNat_ofNat'
  rw [encodeChar_eq]
  generalize c.toNat = v at hcode
  by_cases hone : v ≤ 0x7f
  · rw [if_pos hone]
    refine Spells.of_eq (.one ?_) ?_ <;> rw [hbyte] <;> omega
  rw [if_neg hone]
  by_cases htwo : v ≤ 0x7ff
  · rw [if_pos htwo]
    refine Spells.of_eq (.two ?_ ?_) ?_ <;> simp only [Continues, hbyte] <;> omega
  rw [if_neg htwo]
  by_cases hthree : v ≤ 0xffff
  · rw [if_pos hthree]
    refine Spells.of_eq (.three ?_ ?_ ?_ ?_ ?_) ?_ <;> simp only [Continues, hbyte] <;> omega
  · rw [if_neg hthree]
    refine Spells.of_eq (.four ?_ ?_ ?_ ?_ ?_ ?_) ?_ <;> simp only [Continues, hbyte] <;> omega

/-! ## Texts -/

/-- A character is read from its bytes, and only from them. -/
theorem takeChar_iff {first : UInt8} {bytes rest : List UInt8} {code length : Nat} :
    takeChar first bytes = .complete code length rest ↔
      ∃ c : Char, c.toNat = code ∧ length = (String.utf8EncodeChar c).length ∧
        first :: bytes = String.utf8EncodeChar c ++ rest := by
  constructor
  · intro h
    rcases takeChar_sound h with ⟨spelled, hbytes, hlength, hspelled⟩
    rcases hspelled.exists_char with ⟨c, hc, rfl⟩
    exact ⟨c, hc, hlength, hbytes⟩
  · rintro ⟨c, rfl, rfl, hbytes⟩
    exact takeChar_of_spells (spells_encodeChar c) hbytes

-- By induction on the bytes that are left, as they are read. Those that were read are the bytes
-- of the characters that were.
theorem decodeFrom_sound {position : Nat} {done cs : List Char} {bytes : List UInt8}
    (h : decodeFrom position done bytes = .ok cs) :
    ∃ more, cs = done.reverse ++ more ∧ bytes = more.flatMap String.utf8EncodeChar := by
  fun_induction decodeFrom position done bytes with
  | case1 position done =>
      cases h
      exact ⟨[], (List.append_nil _).symm, rfl⟩
  | case2 position done first rest code length left htaken ih =>
      rcases takeChar_iff.1 htaken with ⟨c, rfl, _, hbytes⟩
      rcases ih h with ⟨more, hcs, rfl⟩
      refine ⟨c :: more, ?_, ?_⟩
      · rw [hcs, Char.ofNat_toNat, List.reverse_cons, List.append_assoc, List.singleton_append]
      · rw [hbytes, List.flatMap_cons]
  | case3 => cases h

-- By induction on the characters.
theorem decodeFrom_encoded (position : Nat) (done cs : List Char) :
    decodeFrom position done (cs.flatMap String.utf8EncodeChar) = .ok (done.reverse ++ cs) := by
  induction cs generalizing position done with
  | nil =>
      rw [List.flatMap_nil, decodeFrom, List.append_nil]
  | cons c cs ih =>
      rcases List.exists_cons_of_ne_nil (@String.utf8EncodeChar_ne_nil c) with ⟨first, rest, hc⟩
      have htaken : takeChar first (rest ++ cs.flatMap String.utf8EncodeChar) =
          .complete c.toNat (first :: rest).length (cs.flatMap String.utf8EncodeChar) :=
        takeChar_iff.2 ⟨c, rfl, by rw [hc], by rw [hc, List.cons_append]⟩
      rw [List.flatMap_cons, hc, List.cons_append, decodeFrom]
      split
      · rename_i hcomplete
        cases htaken.symm.trans hcomplete
        rw [ih, Char.ofNat_toNat, List.reverse_cons, List.append_assoc, List.singleton_append]
      · rename_i hshort
        cases htaken.symm.trans hshort

/-- The loop that lists bytes puts the rest behind those in hand. -/
theorem toList_loop (bytes : ByteArray) (i : Nat) (done : List UInt8) :
    ByteArray.toList.loop bytes i done = done.reverse ++ bytes.data.toList.drop i := by
  induction h : bytes.size - i generalizing i done with
  | zero =>
      rw [ByteArray.toList.loop, if_neg (by omega), List.drop_eq_nil_of_le, List.append_nil]
      rw [Array.length_toList]
      exact Nat.le_of_sub_eq_zero h
  | succ n ih =>
      have hi : i < bytes.size := Nat.lt_of_sub_eq_succ h
      have hget : bytes.get! i = bytes.data.toList[i] := by
        rw [ByteArray.get!, getElem!_pos bytes.data i hi, Array.getElem_toList]
      rw [ByteArray.toList.loop, if_pos hi, ih _ _ (by omega), List.reverse_cons,
        List.append_assoc, List.singleton_append, hget, List.getElem_cons_drop]

/-- The bytes of a text are those of its characters. -/
theorem encode_ofList (cs : List Char) :
    encode (String.ofList cs) = cs.flatMap String.utf8EncodeChar := by
  rw [encode, String.toUTF8_eq_toByteArray, String.toByteArray_ofList, ByteArray.toList,
    toList_loop, List.reverse_nil, List.nil_append, List.drop_zero, List.utf8Encode,
    List.toList_data_toByteArray]

/-- Bytes are a text if and only if they are the bytes of the text. -/
theorem decode_eq_ok {bytes : List UInt8} {cs : List Char} :
    decode bytes = .ok cs ↔ bytes = encode (String.ofList cs) := by
  rw [encode_ofList]
  constructor
  · intro h
    rcases decodeFrom_sound h with ⟨more, rfl, hbytes⟩
    exact hbytes
  · rintro rfl
    exact decodeFrom_encoded 0 [] cs

/-! ## Texts with surrogates -/

variable {text : Text} {o : Obstacle}

/-- The texts with bytes are the runs of characters. -/
theorem encodable_eq_ok {content : String} : encodable text = .ok content ↔ text = content := by
  cases text with
  | plain run => rw [encodable, Except.ok.injEq, Text.plain.injEq]
  | broken run u rest => exact iff_of_false nofun nofun

/-- A text without bytes has a surrogate. -/
theorem mem_of_encodable (h : encodable text = .error o) : .surrogate o.first ∈ text.points := by
  cases text with
  | plain run => cases h
  | broken run u rest =>
      cases h
      exact List.mem_append_right _ List.mem_cons_self

/-- A stream takes a text if it takes every surrogate in it. -/
theorem obstacle?_eq_none {takes : Surrogate → Bool} {position : Nat} :
    obstacle? takes position text = none ↔ ∀ u, .surrogate u ∈ text.points → takes u = true := by
  -- A run without surrogates is taken by every stream.
  induction text generalizing position with
  | plain run =>
      refine iff_of_true rfl fun u hu => ?_
      rcases List.mem_map.1 hu with ⟨c, -, heq⟩
      cases heq
  | broken run v rest ih =>
      have hmem (u : Surrogate) : .surrogate u ∈ (Text.broken run v rest).points ↔
          u = v ∨ .surrogate u ∈ rest.points := by
        simp [Text.points]
      rw [obstacle?]
      by_cases hv : takes v = true
      · simp [hv, ih, hmem]
      · rw [if_neg hv]
        exact iff_of_false (Option.some_ne_none _) fun h => hv (h v ((hmem v).2 (.inl rfl)))

/-- What a stream does not take of a text is a surrogate in it. -/
theorem mem_of_obstacle? {takes : Surrogate → Bool} {position : Nat}
    (h : obstacle? takes position text = some o) :
    .surrogate o.first ∈ text.points ∧ takes o.first = false := by
  induction text generalizing position with
  | plain run => cases h
  | broken run v rest ih =>
      rw [obstacle?] at h
      split at h
      · rcases ih h with ⟨hmem, htakes⟩
        exact ⟨List.mem_append_right _ (List.mem_cons_of_mem _ hmem), htakes⟩
      · rename_i hv
        cases h
        exact ⟨List.mem_append_right _ List.mem_cons_self, Bool.eq_false_iff.2 hv⟩

end Utf8

end StageTree
