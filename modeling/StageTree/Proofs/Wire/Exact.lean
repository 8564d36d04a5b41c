import StageTree.Proofs.Wire.Refusals
import StageTree.Proofs.Wire.Sound

/-!
# Exact Readings

Every reader reads exactly the documents that have its form, as the value whose form they have,
and refuses all others. The limit on nesting is a part of the statement: a document that has
the form is found too deep if its value takes more room than there is, and documents that are
not deep are never found too deep, whether they have the form or not.

## Main definitions

* `ReadsExactly`: A reader reads exactly what has a form.

## Theorems

* `sexpr_readsExactly`: Reader values.
* `expressions_readExactly`: Parsed and analyzed expressions.
-/

namespace StageTree

namespace Wire

/-- A reader reads exactly what has a form. -/
structure ReadsExactly {α : Type} (read : Nat → Json → Reading α) (Form : Json → α → Prop)
    (nesting : α → Nat) : Prop where
  /-- What is read is a value that the document has the form of and that there is room for. -/
  ok_iff : ∀ room j a, read room j = .ok a ↔ Form j a ∧ nesting a ≤ room
  /-- A document that has the form of a value that there is no room for is too deep. -/
  tooDeep_of_form : ∀ room j a, Form j a → room < nesting a → read room j = .error .tooDeep
  /-- A document that does not have the form of any value is refused for a defect, unless it
      is too deep. -/
  defective_of_not_form : ∀ room j, (¬∃ a, Form j a) → read room j ≠ .error .tooDeep →
    ∃ d, read room j = .error (.defective d)
  /-- Only a deep document is too deep. -/
  deep_of_tooDeep : ∀ room j, read room j = .error .tooDeep → 2 * room < 3 * j.nesting + 2

-- Soundness says what is read, and the room that a form takes says when it is. What is neither
-- read nor too deep can only have a defect.
theorem readsExactly {α : Type} {read : Nat → Json → Reading α} {Form : Json → α → Prop}
    {nesting : α → Nat} (hsound : ∀ room, Sound (read room) Form)
    (hform : ∀ room, ReadsInRoom (read room) Form nesting room)
    (hrefuses : ∀ room j, Refuses (2 * room < 3 * j.nesting + 2) j (read room j)) :
    ReadsExactly read Form nesting where
  ok_iff room j a := by
    constructor
    · intro h
      have hja := hsound room j a h
      refine ⟨hja, ?_⟩
      -- With less room than the nesting the reading of a form is refused.
      by_contra hlong
      rw [hform room j a hja, inRoom_of_lt (Nat.not_le.1 hlong)] at h
      cases h
    · rintro ⟨hja, hroom⟩
      rw [hform room j a hja, inRoom_of_le hroom]
  tooDeep_of_form room j a hja hroom := by rw [hform room j a hja, inRoom_of_lt hroom]
  defective_of_not_form room j hnone hdeep := by
    cases h : read room j with
    | ok a => exact absurd ⟨a, hsound room j a h⟩ hnone
    | error refusal =>
        cases refusal with
        | defective d => exact ⟨d, rfl⟩
        | tooDeep => exact absurd h hdeep
  deep_of_tooDeep room j h := by
    have hdeep := hrefuses room j
    rw [h] at hdeep
    exact hdeep

/-- Reader values are read exactly from the documents that denote them. -/
theorem sexpr_readsExactly : ReadsExactly sexpr Denotes Sexpr.nesting :=
  readsExactly sexpr_sound sexpr_inRoom sexpr_refuses

/-- A fraction is neither reduced nor given its sign in another place. -/
example : sexpr 1 (.obj [("type", .str "ScmRational"),
      ("value", .obj [("numerator", .int 2), ("denominator", .int (-4))])]) =
    .ok (.atom (.rational 2 (-4))) := by
  rfl

/-- Parsed and analyzed expressions are read exactly from the documents of their forms. -/
theorem expressions_readExactly :
    ReadsExactly parsed ParsedForm Parsed.Expr.nesting ∧
    ReadsExactly analyzed AnalyzedForm Analyzed.Expr.nesting :=
  ⟨readsExactly parsed_sound parsed_inRoom parsed_refuses,
    readsExactly analyzed_sound analyzed_inRoom analyzed_refuses⟩

end Wire

end StageTree
