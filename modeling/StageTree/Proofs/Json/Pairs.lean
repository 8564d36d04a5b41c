import Mathlib.Data.List.Chain
import StageTree.Json.Reader

/-!
# Split Pairs

What becomes of surrogates when a text is written with escapes and read again. A surrogate is
written like the half of a pair that it is. So two of them next to each other that are the halves
of one pair are read as the character that the pair stands for, and any other one is read as it
was. A text that no such pair splits is kept, and no other text is.

## Main definitions

* `Halves`: Two code points that are the halves of a pair.
* `joinPairs`, `Text.joined`: A text with a character for every split pair.
* `Text.Unsplit`: A text without split pairs.

## Theorems

* `isChain_joinPairs`: Joining leaves no pair split.
* `Text.joined_eq_iff`: The texts that joining keeps are those without split pairs.
-/

namespace StageTree

namespace Json

/-- Two code points are the halves of a pair, in their order. -/
def Halves (p q : CodePoint) : Prop := isHighHalf p.toNat = true ∧ isLowHalf q.toNat = true

instance (p q : CodePoint) : Decidable (Halves p q) :=
  inferInstanceAs (Decidable (isHighHalf p.toNat = true ∧ isLowHalf q.toNat = true))

/-- Code points with a character for every two that are the halves of a pair. -/
def joinPairs : List CodePoint → List CodePoint
  | [] => []
  | .surrogate high :: .surrogate low :: rest =>
    if isHighHalf high.code && isLowHalf low.code then
      .char (joinHalves high.code low.code) :: joinPairs rest
    else .surrogate high :: joinPairs (.surrogate low :: rest)
  | p :: rest => p :: joinPairs rest

/-- No character is one half of a pair. -/
theorem halves_of_char (c : Char) : isHighHalf c.toNat = false ∧ isLowHalf c.toNat = false := by
  have hvalid : c.toNat < 0xd800 ∨ 0xdfff < c.toNat ∧ c.toNat < 0x110000 := c.valid
  simp only [isHighHalf, isLowHalf, Bool.and_eq_false_iff, decide_eq_false_iff_not]
  omega

/-- A character is no half of a pair. -/
theorem not_halves_of_char {c : Char} {p : CodePoint} :
    ¬Halves (.char c) p ∧ ¬Halves p (.char c) := by
  rcases halves_of_char c with ⟨hhigh, hlow⟩
  exact ⟨fun h => Bool.false_ne_true (hhigh.symm.trans h.1),
    fun h => Bool.false_ne_true (hlow.symm.trans h.2)⟩

variable {ps : List CodePoint} {p q : CodePoint}

/-- Joining keeps the first code point, or puts a character in its place. -/
theorem head?_joinPairs (hq : q ∈ (joinPairs ps).head?) : q ∈ ps.head? ∨ ∃ c, q = .char c := by
  fun_cases joinPairs ps with
  | case1 => cases hq
  | case2 high low rest hhalves =>
      rw [joinPairs, if_pos hhalves] at hq
      cases hq
      exact .inr ⟨_, rfl⟩
  | case3 high low rest hhalves =>
      rw [joinPairs, if_neg hhalves] at hq
      exact .inl hq
  | case4 p rest hno =>
      rw [joinPairs] at hq
      · exact .inl hq
      · exact hno

/-- Joining leaves no pair split. -/
theorem isChain_joinPairs (ps : List CodePoint) :
    (joinPairs ps).IsChain fun p q => ¬Halves p q := by
  fun_induction joinPairs ps with
  | case1 => exact .nil
  | case2 high low rest _ ih => exact List.isChain_cons.2 ⟨fun _ _ => not_halves_of_char.1, ih⟩
  | case3 high low rest hhalves ih =>
      refine List.isChain_cons.2 ⟨fun q hq => ?_, ih⟩
      -- Next comes the other surrogate, which is no half of this pair, or a character.
      rcases head?_joinPairs hq with hlow | ⟨c, rfl⟩
      · cases hlow
        exact fun h => hhalves (Bool.and_eq_true_iff.2 h)
      · exact not_halves_of_char.2
  | case4 p rest hno ih =>
      refine List.isChain_cons.2 ⟨fun q hq => ?_, ih⟩
      rcases head?_joinPairs hq with hhead | ⟨c, rfl⟩
      · cases p with
        | char c => exact not_halves_of_char.1
        | surrogate high =>
            cases q with
            | char c => exact not_halves_of_char.2
            | surrogate low =>
                rcases List.head?_eq_some_iff.1 hhead with ⟨others, rfl⟩
                exact absurd rfl (hno high low others rfl)
      · exact not_halves_of_char.2

/-- Where no pair is split there is nothing to join. -/
theorem joinPairs_of_isChain (h : ps.IsChain fun p q => ¬Halves p q) : joinPairs ps = ps := by
  fun_induction joinPairs ps with
  | case1 => rfl
  | case2 high low rest hhalves _ =>
      exact absurd (Bool.and_eq_true_iff.1 hhalves) (List.isChain_cons_cons.1 h).1
  | case3 high low rest _ ih => rw [ih (List.isChain_cons_cons.1 h).2]
  | case4 p rest _ ih => rw [ih (List.isChain_cons.1 h).2]

end Json

namespace Text

/-- A text with a character for every split pair. -/
def joined (t : Text) : Text := .ofPoints (Json.joinPairs t.points)

/-- No pair is split in a text: no high surrogate is directly followed by a low one. -/
def Unsplit (t : Text) : Prop := t.points.IsChain fun p q => ¬Json.Halves p q

instance (t : Text) : Decidable t.Unsplit :=
  inferInstanceAs (Decidable (t.points.IsChain fun p q => ¬Json.Halves p q))

/-- Where the pairs of a text have been joined, none is left. -/
theorem unsplit_joined (t : Text) : t.joined.Unsplit := by
  rw [Unsplit, joined, points_ofPoints]
  exact Json.isChain_joinPairs t.points

/-- The texts that joining keeps are those without split pairs. -/
theorem joined_eq_iff {t : Text} : t.joined = t ↔ t.Unsplit := by
  refine ⟨fun h => h ▸ unsplit_joined t, fun h => ?_⟩
  rw [joined, Json.joinPairs_of_isChain h, ofPoints_points]

/-- No pair is split in a row of characters. -/
theorem unsplit_plain (run : String) : (plain run).Unsplit := by
  rw [Unsplit, points_plain, List.isChain_map]
  exact List.isChain_iff_getElem.2 fun _ _ => Json.not_halves_of_char.1

end Text

end StageTree
