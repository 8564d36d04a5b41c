import StageTree.Proofs.Service
import StageTree.Text.Newline

/-!
# Line Ends in Documents

A text that is read from a file has a line feed for every line end. This does not change which
document it is read as: outside of quotes line ends are gaps, and inside of them there are none.

What becomes of a text depends on the character before it, since a line feed that follows a
carriage return is dropped. So what is shown of a text is shown whatever stands before it, and
then it holds of texts that are put together from others.

## Main definitions

* `unifyAfter`: Line ends are unified in a text that follows a character.
* `Json.Unifies`: A kind of text means the same when its line ends are unified.

## Theorems

* `unifyAfter_append`: A text that is put together is unified part by part.
* `Json.unifies_writes`: What a text writes does not change.
* `readDocument_unifyNewlines`: What a text is read as does not change.
-/

namespace StageTree

variable {α : Type} {before c : Char} {cs ds : List Char}

/-! ## Part by part -/

/-- A text that follows a character, with every line end written as a line feed. -/
def unifyAfter (before : Char) : List Char → List Char
  | [] => []
  | c :: rest => unifiedChar before c ++ unifyAfter c rest

/-- Unifying the line ends of a text is going along it with the character before in hand. -/
theorem unifyNewlines_eq (cs : List Char) : unifyNewlines cs = unifyAfter '\n' cs := by
  have hzip (before : Char) : ((before :: cs).zip cs).flatMap
      (fun pair => unifiedChar pair.1 pair.2) = unifyAfter before cs := by
    induction cs generalizing before with
    | nil => rfl
    | cons c rest ih => rw [List.zip_cons_cons, List.flatMap_cons, ih, unifyAfter]
  exact hzip '\n'

/-- A text that is put together is unified part by part, each part after a character. -/
theorem unifyAfter_append (before : Char) (cs ds : List Char) :
    ∃ c, unifyAfter before (cs ++ ds) = unifyAfter before cs ++ unifyAfter c ds := by
  induction cs generalizing before with
  | nil => exact ⟨before, rfl⟩
  | cons d rest ih =>
      rcases ih d with ⟨c, hc⟩
      refine ⟨c, ?_⟩
      rw [List.cons_append, unifyAfter, unifyAfter, hc, List.append_assoc]

/-- A character that ends no line. -/
def InLine (c : Char) : Prop := c ≠ '\r' ∧ c ≠ '\n'

instance (c : Char) : Decidable (InLine c) := inferInstanceAs (Decidable (_ ∧ _))

/-- A character that does not end a line is kept. -/
theorem unifyAfter_cons (h : InLine c) (before : Char) (cs : List Char) :
    unifyAfter before (c :: cs) = c :: unifyAfter c cs := by
  have hkept : unifiedChar before c = [c] := by
    rw [unifiedChar, if_neg h.1, if_neg (by simp [h.2])]
  rw [unifyAfter, hkept, List.singleton_append]

/-- A text without line ends stays as it is. -/
theorem unifyAfter_of_inLine (h : ∀ c ∈ cs, InLine c) (before : Char) :
    unifyAfter before cs = cs := by
  induction cs generalizing before with
  | nil => rfl
  | cons c rest ih =>
      rcases List.forall_mem_cons.1 h with ⟨hc, hrest⟩
      rw [unifyAfter_cons hc, ih hrest]

/-- No character comes in but line feeds. -/
theorem mem_unifyAfter (h : c ∈ unifyAfter before cs) : c = '\n' ∨ c ∈ cs := by
  induction cs generalizing before with
  | nil => cases h
  | cons d rest ih =>
      rw [unifyAfter, List.mem_append] at h
      rcases h with h | h
      · -- A character gives a line feed, itself, or nothing.
        unfold unifiedChar at h
        split at h
        · exact Or.inl (List.mem_singleton.1 h)
        · split at h
          · cases h
          · rw [List.mem_singleton.1 h]
            exact Or.inr List.mem_cons_self
      · exact (ih h).imp_right (List.mem_cons_of_mem d)

namespace Json

/-! ## What stays on its line -/

theorem Mark.inLine (h : Mark c) : InLine c := by
  constructor
  all_goals
    rintro rfl
    revert h
    decide

theorem inLine_of_simpleEscape? (h : simpleEscape? c = some before) : InLine c := by
  constructor
  all_goals
    rintro rfl
    cases h

theorem inLine_of_hexValue? {value : Nat} (h : hexValue? c = some value) : InLine c := by
  constructor
  all_goals
    rintro rfl
    cases h

/-- Hexadecimal digits end no line. -/
theorem inLine_of_hexDigitsValue? {value : Nat} (h : hexDigitsValue? cs = some value) :
    ∀ c ∈ cs, InLine c := by
  rw [hexDigitsValue?, ← List.foldr_reverse] at h
  intro c hc
  rw [← List.mem_reverse] at hc
  -- The last digit is the first one of the reversed row, and what it is added to has a value too.
  generalize cs.reverse = ds at h hc
  induction ds generalizing value with
  | nil => cases hc
  | cons d rest ih =>
      rw [List.foldr_cons] at h
      rcases Option.bind_eq_some_iff.1 h with ⟨lead, hlead, htail⟩
      rcases Option.bind_eq_some_iff.1 htail with ⟨digit, hdigit, -⟩
      rcases List.mem_cons.1 hc with rfl | hc
      · exact inLine_of_hexValue? hdigit
      · exact ih hlead hc

/-- What is written in a string ends no line, for line ends are escaped there. -/
theorem PieceText.inLine {p : Piece} (h : PieceText cs p) : ∀ c ∈ cs, InLine c := by
  have hescape : InLine '\\' := by decide
  cases h with
  | plain _ _ hvisible =>
      refine List.forall_mem_singleton.2 ⟨?_, ?_⟩
      all_goals
        rintro rfl
        revert hvisible
        decide
  | escape h =>
      exact List.forall_mem_cons.2 ⟨hescape,
        List.forall_mem_singleton.2 (inLine_of_simpleEscape? h)⟩
  | unit h =>
      exact List.forall_mem_cons.2 ⟨hescape, List.forall_mem_cons.2 ⟨by decide,
        inLine_of_hexDigitsValue? h⟩⟩

/-- A text in quotes stands on one line. -/
theorem StringText.inLine {text : Text} (h : StringText cs text) : ∀ c ∈ cs, InLine c := by
  have hpieces {cs : List Char} {ps : List Piece} (h : PiecesText cs ps) :
      ∀ c ∈ cs, InLine c := by
    induction h with
    | nil => nofun
    | cons hpiece _ ih => exact List.forall_mem_append.2 ⟨hpiece.inLine, ih⟩
  cases h with
  | quoted h =>
      refine List.forall_mem_cons.2 ⟨by decide, List.forall_mem_append.2 ⟨hpieces h, ?_⟩⟩
      exact List.forall_mem_singleton.2 (by decide)

/-- A value without parts stands on one line. -/
theorem Scalar.inLine {digits : Nat} {j : Json} (h : Scalar digits cs j) :
    ∀ c ∈ cs, InLine c := by
  cases h with
  | string h => exact h.inLine
  | integer h _ => exact fun c hc => (h.forall_mark c hc).inLine
  | float h _ => exact fun c hc => (h.forall_mark c hc).inLine
  | _ => exact fun c hc => (forall_mark_of_all (by decide) c hc).inLine

/-! ## What means the same -/

/-- A kind of text means the same when its line ends are unified, whatever stands before it. -/
def Unifies (Written : List Char → α → Prop) : Prop :=
  ∀ cs a, Written cs a → ∀ before, Written (unifyAfter before cs) a

variable {Written : List Char → α → Prop} {Value : List Char → Json → Prop} {first last : Char}

/-- What stands on one line is not changed. -/
theorem unifies_of_inLine (h : ∀ cs a, Written cs a → ∀ c ∈ cs, InLine c) : Unifies Written := by
  intro cs a hcs before
  rw [unifyAfter_of_inLine (h cs a hcs)]
  exact hcs

theorem unifies_stringText : Unifies StringText := unifies_of_inLine fun _ _ h => h.inLine

theorem unifies_scalar (digits : Nat) : Unifies (Scalar digits) :=
  unifies_of_inLine fun _ _ h => h.inLine

/-- A gap is still one when its line ends are unified. -/
theorem Gap.unified (h : Gap cs) (before : Char) : Gap (unifyAfter before cs) := by
  intro c hc
  rcases mem_unifyAfter hc with rfl | hc
  · rfl
  · exact h c hc

theorem Unifies.spaced (h : Unifies Written) : Unifies (Spaced Written) := by
  rintro cs a ⟨gap, core, after, hgap, hcore, hafter, rfl⟩ before
  rcases unifyAfter_append before gap (core ++ after) with ⟨c, hgaps⟩
  rcases unifyAfter_append c core after with ⟨d, hrest⟩
  refine ⟨_, _, _, hgap.unified before, h core a hcore c, hafter.unified d, ?_⟩
  rw [hgaps, hrest]

/-- In a list the line ends stand around the commas, or in the items. -/
theorem Unifies.listText (h : Unifies Written) : Unifies (ListText Written) := by
  -- The character before an item is what the item in front of it ends with.
  intro cs as hcs
  induction hcs with
  | one hitem => exact fun before => .one (h _ _ hitem before)
  | @more item rest _ _ hitem _ ih =>
      intro before
      rcases unifyAfter_append before item (',' :: rest) with ⟨c, happend⟩
      rw [happend, unifyAfter_cons (by decide)]
      exact .more (h _ _ hitem before) (ih ',')

/-- Brackets stay around what they are around. -/
theorem unifyAfter_between (hfirst : InLine first) (hlast : InLine last) (before : Char)
    (body : List Char) : unifyAfter before (first :: (body ++ [last])) =
      first :: (unifyAfter first body ++ [last]) := by
  rcases unifyAfter_append first body [last] with ⟨c, happend⟩
  rw [unifyAfter_cons hfirst, happend, unifyAfter_cons hlast, unifyAfter]

/-- Between brackets the line ends stand in the gaps, or in the items. -/
theorem Unifies.bracketed (h : Unifies Written) (hfirst : InLine first) (hlast : InLine last) :
    Unifies (Bracketed first last Written) := by
  intro cs as hcs before
  cases hcs with
  | none hgap =>
      rw [unifyAfter_between hfirst hlast]
      exact .none (hgap.unified first)
  | some hlist =>
      rw [unifyAfter_between hfirst hlast]
      exact .some (h.listText _ _ hlist first)

/-- In a member the line ends stand around the colon, or in the value. -/
theorem Unifies.member (h : Unifies Value) : Unifies (Member Value) := by
  intro cs member hcs before
  cases hcs with
  | @pair key rest _ _ hkey hvalue =>
      rcases unifyAfter_append before key (':' :: rest) with ⟨c, happend⟩
      rw [happend, unifyAfter_cons (by decide)]
      exact .pair (unifies_stringText.spaced _ _ hkey before) (h.spaced _ _ hvalue ':')

/-- What a text writes does not change. -/
theorem unifies_writes (digits room : Nat) : Unifies (Writes digits room) := by
  induction room with
  | zero => exact unifies_scalar digits
  | succ room ih =>
      rintro cs j (h | ⟨items, h, rfl⟩ | ⟨members, h, rfl⟩) before
      · exact Or.inl (unifies_scalar digits cs j h before)
      · have harray := ih.spaced.bracketed (by decide) (by decide) cs items h before
        exact Or.inr (Or.inl ⟨items, harray, rfl⟩)
      · have hobject := ih.member.bracketed (by decide) (by decide) cs members h before
        exact Or.inr (Or.inr ⟨members, hobject, rfl⟩)

end Json

/-- A text whose line ends are unified is read as the same document. -/
theorem readDocument_unifyNewlines {j : Json} (h : readDocument cs = .ok j) :
    readDocument (unifyNewlines cs) = .ok j := by
  rw [unifyNewlines_eq]
  exact Service.readDocument_eq_ok.2
    ((Json.unifies_writes _ _).spaced cs j (Service.readDocument_eq_ok.1 h) '\n')

end StageTree
