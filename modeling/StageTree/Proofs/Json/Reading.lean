import StageTree.Proofs.Json.Lists

/-!
# Documents

A document is read from a text exactly if the text writes it, with gaps around it. A text that
is not read is malformed, or there is a limit that it is past.

The reader and the grammar both go down into arrays and objects with less and less room, so what
is known of the reader at one depth gives what the loops over items and members need at the next
one.

## Main definitions

* `Fault.Warranted`: What a fault says of a text.

## Theorems

* `value_sound`, `value_complete`: A value is read if and only if it is written.
* `value_error`: A text is past the limit that it is refused for.
* `read_eq_ok`: A text is read as a document if and only if it writes the document.
* `read_error`: A text is past the limit that it is refused for.
-/

namespace StageTree

namespace Json

variable {cs front rest text : List Char} {j : Json} {room : Nat} {fault : Fault}

/-! ## What is written -/

/-- A value without parts needs no room. -/
theorem Scalar.writes {digits : Nat} (h : Scalar digits cs j) : Writes digits room cs j := by
  cases room with
  | zero => exact h
  | succ room => exact Or.inl h

theorem mark_of_isDigit {c : Char} (h : c.isDigit = true) : Mark c ∧ c ≠ ']' := by
  have ⟨low, high⟩ := toNat_of_isDigit h
  refine ⟨⟨Nat.le_trans (by decide) low, Nat.lt_trans high (by decide)⟩, ?_⟩
  rintro rfl
  exact absurd h (by decide)

-- Whether every character of a text is seen is checked on the text, not on all characters.
theorem forall_mark_of_all (h : (cs.all fun c => Mark c) = true) : ∀ c ∈ cs, Mark c :=
  fun c hc => of_decide_eq_true (List.all_eq_true.1 h c hc)

/-- Numerals are written with marks only. -/
theorem NumeralText.forall_mark {n : Numeral} (h : NumeralText cs n) : ∀ c ∈ cs, Mark c := by
  -- A numeral is its sign, the whole part, the fraction and the scale, each made of marks.
  have hdigits {ds : List Char} (h : Digits ds) : ∀ c ∈ ds, Mark c :=
    fun c hc => (mark_of_isDigit (h.all c hc)).1
  cases h with
  | parts negative hwhole hpoint hpower =>
      refine List.forall_mem_append.2 ⟨?_, List.forall_mem_append.2 ⟨hdigits hwhole.digits,
        List.forall_mem_append.2 ⟨?_, ?_⟩⟩⟩
      · cases negative <;> exact forall_mark_of_all (by decide)
      · cases hpoint with
        | none => nofun
        | some hds => exact List.forall_mem_cons.2 ⟨by decide, hdigits hds⟩
      · cases hpower with
        | none => nofun
        | some hmark hsign hds =>
            refine List.forall_mem_cons.2 ⟨?_, List.forall_mem_append.2 ⟨?_, hdigits hds⟩⟩
            · rcases hmark with rfl | rfl <;> decide
            · cases hsign <;> exact forall_mark_of_all (by decide)

/-- A text of which every character is seen. -/
theorem marked_of_forall {c : Char} (hc : c ≠ ']') (h : ∀ d ∈ c :: cs, Mark d) :
    Marked (c :: cs) := by
  have hne := List.cons_ne_nil c cs
  exact ⟨⟨c, cs, rfl, h c List.mem_cons_self, hc⟩, _, _,
    (List.dropLast_concat_getLast hne).symm, h _ (List.getLast_mem hne)⟩

theorem NumeralText.marked {n : Numeral} (h : NumeralText cs n) : Marked cs := by
  have hall := h.forall_mark
  -- A numeral opens neither a string nor anything with parts.
  rcases h.exists_digit with ⟨d, more, hd, rfl | rfl⟩
  · exact marked_of_forall (mark_of_isDigit hd).2 hall
  · exact marked_of_forall (by decide) hall

theorem Scalar.marked {digits : Nat} (h : Scalar digits cs j) : Marked cs := by
  cases h with
  | string h => exact h.marked
  | integer h _ => exact h.marked
  | float h _ => exact h.marked
  | _ => exact marked_of_forall (by decide) (forall_mark_of_all (by decide))

/-- A value is set apart from the gaps around it. -/
theorem Writes.marked {digits : Nat} (h : Writes digits room cs j) : Marked cs := by
  have hlist {α : Type} {first last : Char} {Item : List Char → α → Prop} {as : List α}
      (hfirst : Mark first) (hne : first ≠ ']') (hlast : Mark last)
      (h : Bracketed first last Item cs as) : Marked cs := by
    cases h with
    | none _ => exact marked_between hfirst hne hlast _
    | some _ => exact marked_between hfirst hne hlast _
  cases room with
  | zero => exact Scalar.marked h
  | succ room =>
      rcases h with h | ⟨items, h, rfl⟩ | ⟨members, h, rfl⟩
      · exact h.marked
      · exact hlist (by decide) (by decide) (by decide) h
      · exact hlist (by decide) (by decide) (by decide) h

/-! ## Values -/

/-- What begins with no quote, bracket or brace is read as a value without parts. -/
theorem value_scalar {c : Char} (hquote : c ≠ '"') (harray : c ≠ '[') (hobject : c ≠ '{') :
    value room (c :: cs) = scalar (c :: cs) := by
  rw [value]
  · exact hquote
  · exact harray
  · exact hobject

/-- What is read is written, if that is so for the parts. -/
theorem value_sound_step
    (inner : ∀ less, room = less + 1 → Sound (value less) (Writes integerDigitLimit less)) :
    Sound (value room) (Writes integerDigitLimit room) := by
  -- The cases are those of the first character: none, a quote, a bracket, a brace, or another one.
  intro cs t h
  unfold value at h
  split at h
  · cases h
  · split at h
    · cases h
    · rename_i hread
      cases h
      rcases string_sound hread with ⟨front, hcs, hfront⟩
      exact ⟨front, hcs, (Scalar.string hfront).writes⟩
  · split at h
    · cases h
    · rename_i less
      rcases array_sound (inner less rfl) h with ⟨front, items, hcs, hfront, hvalue⟩
      exact ⟨front, hcs, Or.inr (Or.inl ⟨items, hfront, hvalue⟩)⟩
  · split at h
    · cases h
    · rename_i less
      rcases object_sound (inner less rfl) h with ⟨front, written, hcs, hfront, hvalue⟩
      exact ⟨front, hcs, Or.inr (Or.inr ⟨written, hfront, hvalue⟩)⟩
  · rcases scalar_sound h with ⟨front, hcs, hfront⟩
    exact ⟨front, hcs, hfront.writes⟩

/-- What is read as a value is written as one. -/
theorem value_sound (room : Nat) : Sound (value room) (Writes integerDigitLimit room) := by
  induction room with
  | zero => exact value_sound_step nofun
  | succ room ih =>
      refine value_sound_step fun less h => ?_
      cases h
      exact ih

/-! ## Limits -/

/-- Whether a character opens an array or an object. -/
def opensNesting (c : Char) : Bool := c = '[' || c = '{'

/-- What a fault says of a text. -/
def Fault.Warranted (room : Nat) (cs : List Char) : Fault → Prop
  | .malformed _ _ => True
  | .longInteger _ => LongRun integerDigitLimit cs
  | .tooDeep => room < cs.countP opensNesting

theorem Fault.IsMalformed.warranted (h : fault.IsMalformed) : fault.Warranted room cs := by
  rcases h with ⟨_, _, rfl⟩
  exact trivial

/-- What a fault says of an end of a text inside an array or an object. -/
theorem Fault.Warranted.of_suffix {c : Char} {left : List Char} (h : fault.Warranted room left)
    (hc : opensNesting c = true) (hleft : left <:+ cs) : fault.Warranted (room + 1) (c :: cs) := by
  cases fault with
  | malformed _ _ => exact trivial
  | longInteger _ => exact LongRun.mono h (hleft.trans (List.suffix_cons c cs))
  | tooDeep =>
      change room < left.countP opensNesting at h
      change room + 1 < (c :: cs).countP opensNesting
      rw [List.countP_cons_of_pos hc]
      exact Nat.succ_lt_succ (Nat.lt_of_lt_of_le h hleft.sublist.countP_le)

/-- A refusal is warranted, if those of the parts are. -/
theorem value_error_step
    (inner : ∀ less, room = less + 1 → ∀ cs fault, value less cs = .error fault →
      fault.Warranted less cs)
    (h : value room cs = .error fault) : fault.Warranted room cs := by
  unfold value at h
  split at h
  · cases h
    exact trivial
  · split at h
    · rename_i hread
      cases h
      exact (string_error hread).warranted
    · cases h
  · split at h
    · cases h
      exact Nat.lt_of_lt_of_le Nat.zero_lt_one (by simp [opensNesting])
    · rename_i less
      rcases array_error (value_sound less) h with h | ⟨left, hleft, h⟩
      · exact h.warranted
      · -- The bracket that is open allows for one more level.
        exact (inner less rfl left fault h).of_suffix (by decide) hleft
  · split at h
    · cases h
      exact Nat.lt_of_lt_of_le Nat.zero_lt_one (by simp [opensNesting])
    · rename_i less
      rcases object_error (value_sound less) h with h | ⟨left, hleft, h⟩
      · exact h.warranted
      · exact (inner less rfl left fault h).of_suffix (by decide) hleft
  · rcases scalar_error h with h | ⟨digits, rfl, hlong⟩
    · exact Fault.IsMalformed.warranted h
    · exact hlong

/-- A text is past the limit that it is refused for. -/
theorem value_error (h : value room cs = .error fault) : fault.Warranted room cs := by
  induction room generalizing cs fault with
  | zero => exact value_error_step nofun h
  | succ room ih =>
      refine value_error_step (fun less hroom cs fault h => ?_) h
      cases hroom
      exact ih h

/-! ## What is written is read -/

/-- A value is written without parts, or there is room for its parts. -/
theorem Writes.inner {digits : Nat} (h : Writes digits room cs j) :
    Scalar digits cs j ∨ ∃ less, room = less + 1 ∧
      ((∃ items, Bracketed '[' ']' (Spaced (Writes digits less)) cs items ∧ j = .arr items) ∨
        ∃ members, Bracketed '{' '}' (Member (Writes digits less)) cs members ∧
          j = .obj (putAll [] members)) := by
  cases room with
  | zero => exact Or.inl h
  | succ less => exact h.imp_right fun h => ⟨less, rfl, h⟩

/-- A numeral is read up to where it stops. -/
theorem value_numeral {n : Numeral} (h : NumeralText front n) (hj : n.toJson = .ok j)
    (hrest : Stops rest) : Gives (value room (front ++ rest)) j rest := by
  have hgives := scalar_numeral h hj hrest
  have hdigit {d : Char} (hd : d.isDigit = true) : d ≠ '"' ∧ d ≠ '[' ∧ d ≠ '{' := by
    refine ⟨?_, ?_, ?_⟩ <;> rintro rfl <;> exact absurd hd (by decide)
  rcases h.exists_digit with ⟨d, more, hd, rfl | rfl⟩
  · rw [List.cons_append, value_scalar (hdigit hd).1 (hdigit hd).2.1 (hdigit hd).2.2]
    exact hgives
  · rw [List.cons_append, value_scalar (by decide) (by decide) (by decide)]
    exact hgives

/-- A value without parts is read up to where it stops. -/
theorem Scalar.gives (h : Scalar integerDigitLimit front j) (hrest : Stops rest) :
    Gives (value room (front ++ rest)) j rest := by
  cases h with
  | string h =>
      rcases string_complete h rest with ⟨after, hcs, t, hread, hvalue, hleft⟩
      rw [hcs]
      unfold value
      simp only [hread]
      exact ⟨_, rfl, congrArg Json.str hvalue, hleft⟩
  | integer h hshort => exact value_numeral h (Numeral.toJson_whole hshort) hrest
  | float h hfloat => exact value_numeral h (Numeral.toJson_float hfloat) hrest
  | _ =>
      rw [List.cons_append, value_scalar (by decide) (by decide) (by decide)]
      exact ⟨_, rfl, rfl, rfl⟩

/-- What is written is read, if that is so for the parts. -/
theorem value_complete_step
    (inner : ∀ less, room = less + 1 → Complete (value less) (Writes integerDigitLimit less)) :
    Complete (value room) (Writes integerDigitLimit room) where
  marked _ _ h := h.marked
  gives front j rest h hrest := by
    rcases h.inner with hscalar | ⟨less, rfl, ⟨items, hitems, rfl⟩ | ⟨members, hmembers, rfl⟩⟩
    · exact hscalar.gives hrest
    · rcases array_complete (inner less rfl) hitems with ⟨after, hcs, hgives⟩
      rw [hcs]
      unfold value
      exact hgives
    · rcases object_complete (inner less rfl) hmembers with ⟨after, hcs, hgives⟩
      rw [hcs]
      unfold value
      exact hgives

/-- What is written as a value is read, whatever follows it in a document. -/
theorem value_complete (room : Nat) : Complete (value room) (Writes integerDigitLimit room) := by
  induction room with
  | zero => exact value_complete_step nofun
  | succ room ih =>
      refine value_complete_step fun less h => ?_
      cases h
      exact ih

/-! ## Whole texts -/

-- The end of a text stops whatever is read before it.
theorem stops_nil : Stops [] := nofun

/-- A document that is read is written in the text, with gaps around it. -/
theorem read_sound (h : read room text = .ok j) :
    Spaced (Writes integerDigitLimit room) text j := by
  unfold read at h
  split at h
  · cases h
  · split at h
    · cases h
    · rename_i hread
      split at h
      · rename_i hend
        cases h
        rcases (value_sound room).spaced hread hend with ⟨front, hcs, hfront⟩
        rcases exists_gap hcs with ⟨gap, hgap, htext⟩
        have hspaced {j : Json} (h : Spaced (Writes integerDigitLimit room) front j) :
            Spaced (Writes integerDigitLimit room) text j := by
          rw [htext, List.append_nil]
          exact h.gap_append hgap
        exact hspaced hfront
      · cases h

/-- A text that writes a document does not start with a byte order mark. -/
theorem head?_ne_byteOrderMark (h : Spaced (Writes integerDigitLimit room) text j) :
    text.head? ≠ some '\ufeff' := by
  -- The first character is in the gap, or it is the first mark of the value.
  rcases h with ⟨before, core, after, hbefore, hcore, _, rfl⟩
  intro hhead
  cases before with
  | nil =>
      rcases hcore.marked.first with ⟨c, more, rfl, hc, _⟩
      cases hhead
      exact absurd hc (by decide)
  | cons c more =>
      cases hhead
      exact absurd (hbefore '\ufeff' List.mem_cons_self) (by decide)

/-- A document that is written in a text, with gaps around it, is read. -/
theorem read_complete (h : Spaced (Writes integerDigitLimit room) text j) :
    read room text = .ok j := by
  -- A gap or a mark comes first, and the byte order mark is neither.
  have hmark := head?_ne_byteOrderMark h
  rcases h with ⟨before, core, after, hbefore, hcore, hafter, rfl⟩
  have hstop : Stops (after ++ []) := stops_nil.gap_append hafter
  rw [List.append_nil] at hstop
  have hgives : Gives (value room (skipGap (before ++ (core ++ after)))) j after := by
    rw [hcore.marked.skipGap_append hbefore]
    exact (value_complete room).gives hcore hstop
  have hend : skipGap after = [] := by
    rw [← List.append_nil after, skipGap, List.dropWhile_append_of_pos hafter, List.dropWhile_nil]
  rcases hgives with ⟨t, hread, hvalue, hrest⟩
  rw [read, if_neg hmark]
  simp only [hread, hrest, hend, hvalue]

/-- A text is read as a document if and only if it writes the document. -/
theorem read_eq_ok : read room text = .ok j ↔ Spaced (Writes integerDigitLimit room) text j :=
  ⟨read_sound, read_complete⟩

/-- What a refusal says of a text. -/
def ReadError.Warranted (room : Nat) (text : List Char) : ReadError → Prop
  | .malformed _ _ _ _ => True
  | .longInteger _ => LongRun integerDigitLimit text
  | .tooDeep => room < text.countP opensNesting

/-- A text is past the limit that it is refused for. -/
theorem read_error {error : ReadError} (h : read room text = .error error) :
    error.Warranted room text := by
  unfold read at h
  split at h
  · cases h
    exact trivial
  · split at h
    · rename_i fault hread
      cases h
      have hsuffix := skipGap_suffix text
      have hfault := value_error hread
      cases fault with
      | malformed _ _ => exact trivial
      | longInteger _ => exact LongRun.mono hfault hsuffix
      | tooDeep => exact Nat.lt_of_lt_of_le hfault hsuffix.sublist.countP_le
    · split at h
      · cases h
      · cases h
        exact trivial

end Json

end StageTree
