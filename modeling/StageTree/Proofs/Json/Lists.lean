import StageTree.Proofs.Json.Numbers

/-!
# Arrays and Objects

The readers of arrays and objects read what the grammar writes, and nothing else, if the reader
of the values inside does.

How values are read plays no role here, so it is an argument, and what is known about it is that
it is sound and complete for the values. The loops over items and over members start after a gap
has been skipped, while the grammar has the gap in the item: so a gap may be put in front of
items that are written, and items are read from behind the gap in front of them.

## Main definitions

* `Marked`: A text that is seen at both of its ends.
* `Gives`: A reader has read something and left a rest.
* `Sound`, `Complete`: A reader of values reads nothing but what is written, and all of it.

## Theorems

* `array_sound`, `object_sound`: What is read is written.
* `array_complete`, `object_complete`: What is written is read.
* `array_error`, `object_error`: Only a value inside can be past a limit.
-/

namespace StageTree

namespace Json

variable {α : Type} {cs gap core left rest body : List Char} {c : Char}

/-! ## Gaps -/

theorem gap_nil : Gap [] := nofun

/-- What is skipped is a gap. -/
theorem exists_gap (h : skipGap cs = left) : ∃ gap, Gap gap ∧ cs = gap ++ left :=
  ⟨cs.takeWhile isGap, List.all_eq_true.1 List.all_takeWhile, by
    rw [← h, skipGap, List.takeWhile_append_dropWhile]⟩

theorem skipGap_append (h : Gap gap) (hc : isGap c = false) :
    skipGap (gap ++ c :: rest) = c :: rest := by
  rw [skipGap, List.dropWhile_append_of_pos h,
    List.dropWhile_cons_of_neg (Bool.eq_false_iff.1 hc)]

/-- A value stops in front of white space and of the marks that follow values. -/
theorem stops_cons (h : isGap c = true ∨ c = ',' ∨ c = ']' ∨ c = '}') (rest : List Char) :
    Stops (c :: rest) := by
  intro d hd
  cases hd
  exact h

/-- A gap after a value does not go on with it. -/
theorem Stops.gap_append (h : Gap gap) (hrest : Stops rest) : Stops (gap ++ rest) := by
  intro c hc
  cases gap with
  | nil => exact hrest c hc
  | cons d more =>
      cases hc
      exact Or.inl (h c List.mem_cons_self)

/-- A gap may be put in front of something that has gaps around it. -/
theorem Spaced.gap_append {Written : List Char → α → Prop} {a : α} (hgap : Gap gap)
    (h : Spaced Written cs a) : Spaced Written (gap ++ cs) a := by
  rcases h with ⟨before, core, after, hbefore, hcore, hafter, rfl⟩
  refine ⟨gap ++ before, core, after, ?_, hcore, hafter, (List.append_assoc ..).symm⟩
  exact List.forall_mem_append.2 ⟨hgap, hbefore⟩

theorem Member.gap_append {Value : List Char → Json → Prop} {member : Text × Json}
    (hgap : Gap gap) (h : Member Value cs member) : Member Value (gap ++ cs) member := by
  cases h with
  | pair hkey hvalue =>
      rw [← List.append_assoc]
      exact .pair (hkey.gap_append hgap) hvalue

theorem ListText.gap_append {Item : List Char → α → Prop} {as : List α}
    (hitem : ∀ {cs a}, Item cs a → Item (gap ++ cs) a) (h : ListText Item cs as) :
    ListText Item (gap ++ cs) as := by
  cases h with
  | one h => exact .one (hitem h)
  | more h hrest =>
      rw [← List.append_assoc]
      exact .more (hitem h) hrest

/-! ## Ends that are seen -/

/-- A character of ASCII that is seen. -/
def Mark (c : Char) : Prop := 0x21 ≤ c.toNat ∧ c.toNat < 0x7f

instance : DecidablePred Mark := fun _ => inferInstanceAs (Decidable (_ ∧ _))

/-- Marks are no white space. -/
theorem Mark.isGap_eq_false (h : Mark c) : isGap c = false := by
  have hne (d : Char) (hd : d.toNat < 0x21) : c ≠ d := by
    rintro rfl
    exact absurd h.1 (Nat.not_le.2 hd)
  rw [isGap, decide_eq_false (hne ' ' (by decide)), decide_eq_false (hne '\t' (by decide)),
    decide_eq_false (hne '\n' (by decide)), decide_eq_false (hne '\r' (by decide))]
  rfl

/-- A text that is seen at both ends. A bracket that closes an array does not stand at its
    front. -/
structure Marked (cs : List Char) : Prop where
  first : ∃ c more, cs = c :: more ∧ Mark c ∧ c ≠ ']'
  last : ∃ more c, cs = more ++ [c] ∧ Mark c

/-- What is read after the gap in front of a text. -/
theorem Marked.skipGap_append (h : Marked core) (hgap : Gap gap) (left : List Char) :
    skipGap (gap ++ (core ++ left)) = core ++ left := by
  rcases h.first with ⟨c, more, rfl, hc, _⟩
  exact Json.skipGap_append hgap hc.isGap_eq_false

/-- What stands between two marks is set apart from the gaps around it. -/
theorem marked_between {first last : Char} (hfirst : Mark first) (hne : first ≠ ']')
    (hlast : Mark last) (body : List Char) : Marked (first :: (body ++ [last])) :=
  ⟨⟨first, _, rfl, hfirst, hne⟩, ⟨first :: body, last, rfl, hlast⟩⟩

/-! ## Readers -/

/-- A reader has read something and left a rest. -/
def Gives {bound : Nat} (result : Except Fault (Taken α bound)) (a : α) (rest : List Char) :
    Prop :=
  ∃ t, result = .ok t ∧ t.value = a ∧ t.rest = rest

/-- A reader of values reads nothing but what is written. -/
def Sound (item : ValueReader) (Value : List Char → Json → Prop) : Prop :=
  ∀ ⦃cs⦄ ⦃t : Taken Json cs.length⦄, item cs = .ok t →
    ∃ front, cs = front ++ t.rest ∧ Value front t.value

/-- A reader of values reads all that is written, whatever follows it in a document. -/
structure Complete (item : ValueReader) (Value : List Char → Json → Prop) : Prop where
  marked : ∀ ⦃front j⦄, Value front j → Marked front
  gives : ∀ ⦃front j rest⦄, Value front j → Stops rest → Gives (item (front ++ rest)) j rest

variable {item : ValueReader} {Value : List Char → Json → Prop} {bound : Nat} {fault : Fault}

/-- What a value is read from, with the gap that is skipped after it. -/
theorem Sound.spaced (hitem : Sound item Value) {t : Taken Json cs.length}
    (hread : item cs = .ok t) (hnext : skipGap t.rest = left) :
    ∃ front, cs = front ++ left ∧ Spaced Value front t.value := by
  rcases hitem hread with ⟨front, hcs, hvalue⟩
  rcases exists_gap hnext with ⟨gap, hgap, hrest⟩
  refine ⟨front ++ gap, ?_, [], front, gap, gap_nil, hvalue, hgap, rfl⟩
  exact hcs.trans (by rw [hrest, List.append_assoc])

/-- What is written as a number is read as the document that the number becomes. -/
theorem scalar_numeral {n : Numeral} {front : List Char} {j : Json} (h : NumeralText front n)
    (hj : n.toJson = .ok j) (hrest : Stops rest) : Gives (scalar (front ++ rest)) j rest := by
  -- A numeral is no word, so it is read as what it is.
  have hword := takeWord_numeral h rest
  have hnumeral := takeNumeral_complete h hrest
  unfold scalar
  split
  · rename_i heq
    cases heq.symm.trans hword
  · split
    · rename_i heq
      cases heq.symm.trans hnumeral
    · rename_i heq
      cases heq.symm.trans hnumeral
      simp only [hj]
      exact ⟨_, rfl, rfl, rfl⟩

/-! ## Items -/

variable {done : List Json} {fits : cs.length ≤ bound}

-- By induction on what is left of the text, as it is read.
theorem itemsFrom_sound (hitem : Sound item Value) {t : Taken (List Json) bound}
    (h : itemsFrom item bound done cs fits = .ok t) :
    ∃ body items, cs = body ++ ']' :: t.rest ∧ ListText (Spaced Value) body items ∧
      t.value = done.reverse ++ items := by
  -- The items that were read are kept in reverse order.
  fun_induction itemsFrom item bound done cs fits with
  | case1 => cases h
  | case2 done cs fits first hread rest hnext =>
      cases h
      rcases hitem.spaced hread hnext with ⟨front, hcs, hfront⟩
      exact ⟨front, [first.value], hcs, .one hfront, List.reverse_cons⟩
  -- What was left after the comma is an end of the text, so an end of that is one, too.
  | case3 done cs fits first hread rest hnext ih =>
      rcases hitem.spaced hread hnext with ⟨front, hcs, hfront⟩
      rcases ih h with ⟨body, items, hrest, hbody, hitems⟩
      rcases exists_gap hrest with ⟨gap, hgap, hrest⟩
      refine ⟨front ++ ',' :: (gap ++ body), first.value :: items, ?_,
        .more hfront (hbody.gap_append fun h => h.gap_append hgap), ?_⟩
      · exact hcs.trans (by rw [hrest, List.append_assoc, List.cons_append, List.append_assoc])
      · rw [hitems, List.reverse_cons, List.append_assoc, List.singleton_append]
  | case4 => cases h

theorem skipGap_suffix (cs : List Char) : skipGap cs <:+ cs := List.dropWhile_suffix isGap

-- What is left when a value inside is refused is an end of the text, so whatever the refusal
-- says of what is left it says of the text.
theorem itemsFrom_error (hitem : Sound item Value)
    (h : itemsFrom item bound done cs fits = .error fault) :
    fault.IsMalformed ∨ ∃ left, left <:+ cs ∧ item left = .error fault := by
  fun_induction itemsFrom item bound done cs fits with
  | case1 done cs fits fault' hread =>
      cases h
      exact Or.inr ⟨cs, List.suffix_rfl, hread⟩
  | case2 => cases h
  | case3 done cs fits first hread rest hnext ih =>
      rcases hitem.spaced hread hnext with ⟨front, hcs, _⟩
      refine (ih h).imp_right fun ⟨left, hleft, hfault⟩ => ⟨left, ?_, hfault⟩
      have hrest : rest <:+ cs := ⟨front ++ [','], by rw [hcs, List.append_assoc]; rfl⟩
      exact (hleft.trans (skipGap_suffix rest)).trans hrest
  | case4 =>
      cases h
      exact Or.inl ⟨_, _, rfl⟩

/-- An item in front of the closing bracket is the last one. -/
theorem itemsFrom_last {t : Taken Json cs.length} (hread : item cs = .ok t)
    (hnext : skipGap t.rest = ']' :: rest) :
    Gives (itemsFrom item bound done cs fits) (done.reverse ++ [t.value]) rest := by
  unfold itemsFrom
  simp only [hread]
  split
  · rename_i hend
    cases hend.symm.trans hnext
    exact ⟨_, rfl, List.reverse_cons, rfl⟩
  · rename_i hcomma
    cases hcomma.symm.trans hnext
  · rename_i hno _
    exact absurd hnext (hno rest)

/-- What is left after a comma is no longer than the text. -/
theorem length_after_comma {bound : Nat} (hnext : skipGap left = c :: rest)
    (hleft : left.length < bound) : (skipGap rest).length ≤ bound := by
  have hskip := length_skipGap_le left
  rw [hnext, List.length_cons] at hskip
  have hrest := length_skipGap_le rest
  omega

/-- After an item in front of a comma the others are read. -/
theorem itemsFrom_more {t : Taken Json cs.length} (hread : item cs = .ok t)
    (hnext : skipGap t.rest = ',' :: rest) :
    ∃ fits', itemsFrom item bound done cs fits =
      itemsFrom item bound (t.value :: done) (skipGap rest) fits' := by
  rw [itemsFrom]
  simp only [hread]
  split
  · rename_i hend
    cases hend.symm.trans hnext
  · rename_i hcomma
    cases hcomma.symm.trans hnext
    exact ⟨Nat.le_trans (length_after_comma hnext t.shorter) fits, rfl⟩
  · rename_i _ hno
    exact absurd hnext (hno rest)

/-- A value is read from behind the gap in front of it, up to the gap after it. -/
theorem Complete.reads (hitem : Complete item Value) {j : Json} (h : Spaced Value body j)
    (hstop : Stops (c :: rest)) (hc : isGap c = false) :
    ∃ t, item (skipGap (body ++ c :: rest)) = .ok t ∧ t.value = j ∧
      skipGap t.rest = c :: rest := by
  rcases h with ⟨before, core, after, hbefore, hcore, hafter, rfl⟩
  have hskip : skipGap (before ++ (core ++ after) ++ c :: rest) = core ++ (after ++ c :: rest) := by
    -- Behind the gap comes a mark, and no value begins with that bracket.
    rw [List.append_assoc, List.append_assoc, (hitem.marked hcore).skipGap_append hbefore]
  rcases hitem.gives hcore (hstop.gap_append hafter) with ⟨t, hread, hvalue, hrest⟩
  rw [hskip]
  exact ⟨t, hread, hvalue, by rw [hrest, skipGap_append hafter hc]⟩

-- By induction on the items.
theorem itemsFrom_complete (hitem : Complete item Value) {items : List Json}
    (h : ListText (Spaced Value) body items) (hcs : cs = skipGap (body ++ ']' :: rest)) :
    Gives (itemsFrom item bound done cs fits) (done.reverse ++ items) rest := by
  induction h generalizing cs done with
  | one h =>
      rcases hitem.reads (c := ']') h (stops_cons (by decide) rest) (by decide) with
        ⟨t, hread, rfl, hnext⟩
      subst hcs
      exact itemsFrom_last hread hnext
  | more h _ ih =>
      rename_i _ more _ _ _
      rw [List.append_assoc, List.cons_append] at hcs
      rcases hitem.reads (c := ',') h (stops_cons (by decide) (more ++ ']' :: rest)) (by decide)
        with ⟨t, hread, rfl, hnext⟩
      subst hcs
      rcases itemsFrom_more hread hnext with ⟨fits', heq⟩
      rw [heq]
      have hgives : Gives (itemsFrom item bound (t.value :: done) _ fits')
          ((t.value :: done).reverse ++ _) rest := ih rfl
      rwa [List.reverse_cons, List.append_assoc, List.singleton_append] at hgives

/-! ## Brackets -/

variable {Item : List Char → α → Prop} {as : List α} {first last : Char}

/-- Brackets with nothing but a gap between them. -/
theorem bracketed_nil (h : skipGap cs = last :: rest) :
    ∃ front, first :: cs = front ++ rest ∧ Bracketed first last Item front [] := by
  rcases exists_gap h with ⟨gap, hgap, rfl⟩
  refine ⟨_, ?_, .none hgap⟩
  rw [List.cons_append, List.append_assoc, List.singleton_append]

/-- Brackets with items that are read from behind a gap. -/
theorem bracketed_list (hitem : ∀ {gap cs a}, Gap gap → Item cs a → Item (gap ++ cs) a)
    (h : skipGap cs = body ++ last :: rest) (hbody : ListText Item body as) :
    ∃ front, first :: cs = front ++ rest ∧ Bracketed first last Item front as := by
  rcases exists_gap h with ⟨gap, hgap, rfl⟩
  refine ⟨_, ?_, .some (hbody.gap_append (hitem hgap))⟩
  rw [List.cons_append, List.append_assoc, List.append_assoc, List.singleton_append]

/-- What follows an opening bracket: a gap and the closing one, or items and the closing one. -/
theorem Bracketed.after_first {front : List Char} (hlast : isGap last = false)
    (h : Bracketed first last Item front as) (rest : List Char) :
    ∃ after, front ++ rest = first :: after ∧
      (skipGap after = last :: rest ∧ as = [] ∨
        ∃ body, after = body ++ last :: rest ∧ ListText Item body as) := by
  cases h with
  | none hgap =>
      refine ⟨_ ++ last :: rest, ?_, Or.inl ⟨skipGap_append hgap hlast, rfl⟩⟩
      rw [List.cons_append, List.append_assoc, List.singleton_append]
  | some hbody =>
      refine ⟨_ ++ last :: rest, ?_, Or.inr ⟨_, rfl, hbody⟩⟩
      rw [List.cons_append, List.append_assoc, List.singleton_append]

/-! ## Arrays -/

/-- What is read as an array is written as one. -/
theorem array_sound (hitem : Sound item Value) {t : Taken Json (cs.length + 1)}
    (h : array item cs = .ok t) :
    ∃ front items, '[' :: cs = front ++ t.rest ∧ Bracketed '[' ']' (Spaced Value) front items ∧
      t.value = .arr items := by
  unfold array at h
  split at h
  · rename_i hnext
    cases h
    rcases bracketed_nil hnext with ⟨front, hcs, hfront⟩
    exact ⟨front, [], hcs, hfront, rfl⟩
  · split at h
    · cases h
    · rename_i hitems
      cases h
      rcases itemsFrom_sound hitem hitems with ⟨body, items, hfirst, hbody, hvalue⟩
      rcases bracketed_list (fun hgap h => h.gap_append hgap) hfirst hbody
        with ⟨front, hcs, hfront⟩
      exact ⟨front, items, hcs, hfront, congrArg Json.arr hvalue⟩

/-- An array is refused for its commas or brackets, or for an item. -/
theorem array_error (hitem : Sound item Value) (h : array item cs = .error fault) :
    fault.IsMalformed ∨ ∃ left, left <:+ cs ∧ item left = .error fault := by
  unfold array at h
  split at h
  · cases h
  · split at h
    · rename_i herror
      cases h
      refine (itemsFrom_error hitem herror).imp_right fun ⟨left, hleft, hfault⟩ => ?_
      exact ⟨left, hleft.trans (skipGap_suffix cs), hfault⟩
    · cases h

/-- What does not begin like any item does not begin like a list of them. -/
theorem ListText.skipGap_ne {Item : List Char → α → Prop} {as : List α}
    (hitem : ∀ {cs a} left, Item cs a → skipGap (cs ++ left) ≠ c :: rest)
    (h : ListText Item body as) (left : List Char) : skipGap (body ++ left) ≠ c :: rest := by
  cases h with
  | one h => exact hitem left h
  | more h _ =>
      rw [List.append_assoc]
      exact hitem _ h

/-- An item does not begin with the closing bracket, so the array is not empty. -/
theorem Complete.skipGap_ne (hitem : Complete item Value) {j : Json} (h : Spaced Value body j)
    (left rest : List Char) : skipGap (body ++ left) ≠ ']' :: rest := by
  rcases h with ⟨before, core, after, hbefore, hcore, _, rfl⟩
  rw [List.append_assoc, List.append_assoc, (hitem.marked hcore).skipGap_append hbefore]
  rcases (hitem.marked hcore).first with ⟨c, more, rfl, _, hne⟩
  intro heq
  exact hne (List.cons.inj heq).1

/-- What is written as an array is read as one. -/
theorem array_complete (hitem : Complete item Value) {front : List Char} {items : List Json}
    (h : Bracketed '[' ']' (Spaced Value) front items) :
    ∃ after, front ++ rest = '[' :: after ∧ Gives (array item after) (.arr items) rest := by
  -- An array without items is told by its bracket, and an item begins with no bracket.
  rcases h.after_first (by decide) rest with ⟨after, hcs, ⟨hskip, rfl⟩ | ⟨body, rfl, hbody⟩⟩
  · refine ⟨after, hcs, ?_⟩
    unfold array
    split
    · rename_i hnext
      cases hnext.symm.trans hskip
      exact ⟨_, rfl, rfl, rfl⟩
    · rename_i hno
      exact absurd hskip (hno rest)
  · refine ⟨_, hcs, ?_⟩
    unfold array
    split
    · rename_i left hnext
      exact absurd hnext (hbody.skipGap_ne (fun more h => hitem.skipGap_ne h more left) _)
    · rcases itemsFrom_complete hitem hbody rfl with ⟨t, hread, hvalue, hrest⟩
      rw [hread]
      exact ⟨_, rfl, congrArg Json.arr hvalue, hrest⟩

/-! ## Members -/

variable {found : List (Text × Json)}

/-- What is read as a key is written as one, with a colon after it. -/
theorem key_sound {k : Taken Text cs.length} (h : key cs = .ok k) :
    ∃ name gap gap', cs = name ++ (gap ++ ':' :: (gap' ++ k.rest)) ∧ StringText name k.value ∧
      Gap gap ∧ Gap gap' := by
  unfold key at h
  split at h
  · split at h
    · cases h
    · rename_i hname
      split at h
      · rename_i rest hnext
        cases h
        rcases string_sound hname with ⟨name, hcs, hname⟩
        rcases exists_gap hnext with ⟨gap, hgap, hafter⟩
        rcases exists_gap (rfl : skipGap rest = _) with ⟨gap', hgap', hrest⟩
        refine ⟨name, gap, gap', hcs.trans ?_, hname, hgap, hgap'⟩
        exact congrArg (name ++ ·) (hafter.trans (congrArg (gap ++ ':' :: ·) hrest))
      · cases h
  · cases h

theorem key_error (h : key cs = .error fault) : fault.IsMalformed := by
  unfold key at h
  split at h
  · split at h
    · rename_i hname
      cases h
      exact string_error hname
    · split at h
      · cases h
      · cases h
        exact ⟨_, _, rfl⟩
  · cases h
    exact ⟨_, _, rfl⟩

/-- A key with a colon after it is read, and so are the gaps around the colon. -/
theorem key_complete {name : List Char} {text : Text} (h : StringText name text)
    (hgap : Gap gap) : Gives (key (name ++ (gap ++ ':' :: rest))) text (skipGap rest) := by
  rcases string_complete h (gap ++ ':' :: rest) with ⟨after, hcs, t, hread, hvalue, hrest⟩
  have hskip : skipGap t.rest = ':' :: rest := by rw [hrest, skipGap_append hgap (by decide)]
  rw [hcs]
  unfold key
  simp only [hread]
  split
  · rename_i hnext
    cases hnext.symm.trans hskip
    exact ⟨_, rfl, hvalue, rfl⟩
  · rename_i hno
    exact absurd hskip (hno rest)

/-- What a member is read from, with the gap that is skipped after it. -/
theorem Sound.member (hitem : Sound item Value) {k : Taken Text cs.length}
    {t : Taken Json k.rest.length} (hkey : key cs = .ok k) (hread : item k.rest = .ok t)
    (hnext : skipGap t.rest = left) :
    ∃ front, cs = front ++ left ∧ Member Value front (k.value, t.value) := by
  rcases key_sound hkey with ⟨name, gap, gap', hcs, hname, hgap, hgap'⟩
  rcases hitem.spaced hread hnext with ⟨front, hrest, hfront⟩
  refine ⟨name ++ gap ++ ':' :: (gap' ++ front), hcs.trans ?_,
    .pair ⟨[], name, gap, gap_nil, hname, hgap, rfl⟩ (hfront.gap_append hgap')⟩
  rw [hrest]
  simp only [List.append_assoc, List.cons_append]

-- By induction on what is left of the text, as it is read.
theorem membersFrom_sound (hitem : Sound item Value) {t : Taken (List (Text × Json)) bound}
    (h : membersFrom item bound found cs fits = .ok t) :
    ∃ body written, cs = body ++ '}' :: t.rest ∧ ListText (Member Value) body written ∧
      t.value = putAll found written := by
  fun_induction membersFrom item bound found cs fits with
  | case1 => cases h
  | case2 => cases h
  | case3 found cs fits k hkey first hread rest hnext =>
      cases h
      rcases hitem.member hkey hread hnext with ⟨front, hcs, hfront⟩
      exact ⟨front, [(k.value, first.value)], hcs, .one hfront, rfl⟩
  | case4 found cs fits k hkey first hread rest hnext ih =>
      rcases hitem.member hkey hread hnext with ⟨front, hcs, hfront⟩
      rcases ih h with ⟨body, written, hrest, hbody, hwritten⟩
      rcases exists_gap hrest with ⟨gap, hgap, hrest⟩
      refine ⟨front ++ ',' :: (gap ++ body), (k.value, first.value) :: written, hcs.trans ?_,
        .more hfront (hbody.gap_append fun h => h.gap_append hgap), hwritten⟩
      rw [hrest, List.append_assoc, List.cons_append, List.append_assoc]
  | case5 => cases h

/-- Members are refused for their keys, colons or commas, or for a value. -/
theorem membersFrom_error (hitem : Sound item Value)
    (h : membersFrom item bound found cs fits = .error fault) :
    fault.IsMalformed ∨ ∃ left, left <:+ cs ∧ item left = .error fault := by
  fun_induction membersFrom item bound found cs fits with
  | case1 found cs fits fault' hkey =>
      cases h
      exact Or.inl (key_error hkey)
  | case2 found cs fits k hkey fault' hread =>
      cases h
      rcases key_sound hkey with ⟨name, gap, gap', hcs, _⟩
      -- The value is read from behind the key, the colon and the gaps around it.
      refine Or.inr ⟨k.rest, ⟨name ++ (gap ++ ':' :: gap'), ?_⟩, hread⟩
      rw [List.append_assoc, List.append_assoc, List.cons_append]
      exact hcs.symm
  | case3 => cases h
  | case4 found cs fits k hkey first hread rest hnext ih =>
      rcases hitem.member hkey hread hnext with ⟨front, hcs, _⟩
      refine (ih h).imp_right fun ⟨left, hleft, hfault⟩ => ⟨left, ?_, hfault⟩
      have hrest : rest <:+ cs := ⟨front ++ [','], by rw [hcs, List.append_assoc]; rfl⟩
      exact (hleft.trans (skipGap_suffix rest)).trans hrest
  | case5 =>
      cases h
      exact Or.inl ⟨_, _, rfl⟩

/-- A member in front of the closing brace is the last one. -/
theorem membersFrom_last {k : Taken Text cs.length} {t : Taken Json k.rest.length}
    (hkey : key cs = .ok k) (hread : item k.rest = .ok t)
    (hnext : skipGap t.rest = '}' :: rest) :
    Gives (membersFrom item bound found cs fits) (putMember found k.value t.value) rest := by
  unfold membersFrom
  simp only [hkey, hread]
  split
  · rename_i hend
    cases hend.symm.trans hnext
    exact ⟨_, rfl, rfl, rfl⟩
  · rename_i hcomma
    cases hcomma.symm.trans hnext
  · rename_i hno _
    exact absurd hnext (hno rest)

/-- After a member in front of a comma the others are read. -/
theorem membersFrom_more {k : Taken Text cs.length} {t : Taken Json k.rest.length}
    (hkey : key cs = .ok k) (hread : item k.rest = .ok t)
    (hnext : skipGap t.rest = ',' :: rest) :
    ∃ fits', membersFrom item bound found cs fits =
      membersFrom item bound (putMember found k.value t.value) (skipGap rest) fits' := by
  rw [membersFrom]
  simp only [hkey, hread]
  split
  · rename_i hend
    cases hend.symm.trans hnext
  · rename_i hcomma
    cases hcomma.symm.trans hnext
    have hshorter := Nat.lt_trans t.shorter k.shorter
    exact ⟨Nat.le_trans (length_after_comma hnext hshorter) fits, rfl⟩
  · rename_i _ hno
    exact absurd hnext (hno rest)

theorem StringText.exists_cons {text : Text} (h : StringText cs text) :
    ∃ more, cs = '"' :: more := by
  cases h
  exact ⟨_, rfl⟩

theorem StringText.marked {text : Text} (h : StringText cs text) : Marked cs := by
  cases h with
  | quoted _ => exact marked_between (by decide) (by decide) (by decide) _

/-- What is read after the gap in front of a member. -/
theorem Member.exists_key {member : Text × Json} (h : Member Value body member)
    (rest : List Char) :
    ∃ name gap after, skipGap (body ++ rest) = name ++ (gap ++ ':' :: (after ++ rest)) ∧
      StringText name member.1 ∧ Gap gap ∧ Spaced Value after member.2 := by
  cases h with
  | pair hkey hvalue =>
      rename_i after _ _
      rcases hkey with ⟨before, name, gap, hbefore, hname, hgap, rfl⟩
      refine ⟨name, gap, after, ?_, hname, hgap, hvalue⟩
      simp only [List.append_assoc, List.cons_append]
      exact hname.marked.skipGap_append hbefore _

/-- A member is read from behind the gap in front of it, up to the gap after it. -/
theorem Complete.readsMember (hitem : Complete item Value) {member : Text × Json}
    (h : Member Value body member) (hstop : Stops (c :: rest)) (hc : isGap c = false)
    (hcs : cs = skipGap (body ++ c :: rest)) :
    ∃ k, key cs = .ok k ∧ ∃ t, item k.rest = .ok t ∧ (k.value, t.value) = member ∧
      skipGap t.rest = c :: rest := by
  rcases h.exists_key (c :: rest) with ⟨name, gap, after, hskip, hname, hgap, hvalue⟩
  rcases key_complete hname hgap with ⟨k, hkey, hname, hrest⟩
  rcases hitem.reads hvalue hstop hc with ⟨t, hread, hvalue, hnext⟩
  rw [hcs, hskip]
  refine ⟨k, hkey, ?_⟩
  rw [hrest]
  exact ⟨t, hread, Prod.ext hname hvalue, hnext⟩

-- By induction on the members.
theorem membersFrom_complete (hitem : Complete item Value) {written : List (Text × Json)}
    (h : ListText (Member Value) body written) (hcs : cs = skipGap (body ++ '}' :: rest)) :
    Gives (membersFrom item bound found cs fits) (putAll found written) rest := by
  induction h generalizing cs found with
  | one h =>
      rcases hitem.readsMember h (stops_cons (by decide) rest) (by decide) hcs
        with ⟨k, hkey, t, hread, rfl, hnext⟩
      exact membersFrom_last hkey hread hnext
  | more h _ ih =>
      rename_i _ more _ _ _
      rw [List.append_assoc, List.cons_append] at hcs
      rcases hitem.readsMember h (stops_cons (by decide) (more ++ '}' :: rest)) (by decide) hcs
        with ⟨k, hkey, t, hread, rfl, hnext⟩
      rcases membersFrom_more hkey hread hnext with ⟨fits', heq⟩
      rw [heq]
      exact ih rfl

/-! ## Objects -/

/-- What is read as an object is written as one, and of members with one key the last counts. -/
theorem object_sound (hitem : Sound item Value) {t : Taken Json (cs.length + 1)}
    (h : object item cs = .ok t) :
    ∃ front written, '{' :: cs = front ++ t.rest ∧
      Bracketed '{' '}' (Member Value) front written ∧ t.value = .obj (putAll [] written) := by
  unfold object at h
  split at h
  · rename_i hnext
    cases h
    rcases bracketed_nil hnext with ⟨front, hcs, hfront⟩
    exact ⟨front, [], hcs, hfront, rfl⟩
  · split at h
    · cases h
    · rename_i hmembers
      cases h
      rcases membersFrom_sound hitem hmembers with ⟨body, written, hfirst, hbody, hvalue⟩
      rcases bracketed_list (fun hgap h => h.gap_append hgap) hfirst hbody
        with ⟨front, hcs, hfront⟩
      exact ⟨front, written, hcs, hfront, congrArg Json.obj hvalue⟩

/-- An object is refused for its members, or for the value of one. -/
theorem object_error (hitem : Sound item Value) (h : object item cs = .error fault) :
    fault.IsMalformed ∨ ∃ left, left <:+ cs ∧ item left = .error fault := by
  unfold object at h
  split at h
  · cases h
  · split at h
    · rename_i herror
      cases h
      refine (membersFrom_error hitem herror).imp_right fun ⟨left, hleft, hfault⟩ => ?_
      exact ⟨left, hleft.trans (skipGap_suffix cs), hfault⟩
    · cases h

/-- A member begins with a quote, so the object is not empty. -/
theorem Member.skipGap_ne {member : Text × Json} (h : Member Value body member)
    (left rest : List Char) : skipGap (body ++ left) ≠ '}' :: rest := by
  rcases h.exists_key left with ⟨name, _, _, hskip, hname, _⟩
  rcases hname.exists_cons with ⟨more, rfl⟩
  rw [hskip]
  nofun

/-- What is written as an object is read as one. -/
theorem object_complete (hitem : Complete item Value) {front : List Char}
    {written : List (Text × Json)} (h : Bracketed '{' '}' (Member Value) front written) :
    ∃ after, front ++ rest = '{' :: after ∧
      Gives (object item after) (.obj (putAll [] written)) rest := by
  rcases h.after_first (by decide) rest with ⟨after, hcs, ⟨hskip, rfl⟩ | ⟨body, rfl, hbody⟩⟩
  · refine ⟨after, hcs, ?_⟩
    unfold object
    split
    · rename_i hnext
      cases hnext.symm.trans hskip
      exact ⟨_, rfl, rfl, rfl⟩
    · rename_i hno
      exact absurd hskip (hno rest)
  · refine ⟨_, hcs, ?_⟩
    unfold object
    split
    · rename_i left hnext
      exact absurd hnext (hbody.skipGap_ne (fun more h => h.skipGap_ne more left) _)
    · rcases membersFrom_complete hitem hbody rfl with ⟨t, hread, hvalue, hrest⟩
      rw [hread]
      exact ⟨_, rfl, congrArg Json.obj hvalue, hrest⟩

end Json

end StageTree
