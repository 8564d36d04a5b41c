import Mathlib.Algebra.Group.Nat.Defs
import Mathlib.Tactic.SplitIfs
import StageTree.Json.Printer
import StageTree.Proofs.Json.Nesting
import StageTree.Proofs.Json.Pairs
import StageTree.Proofs.Json.Reading

/-!
# Documents as They Are Written

The text that is written for a document writes a document in the sense of the grammar, and so it
is read as that document. This holds in every layout: what a layout adds to the text of an array
or an object are gaps, and gaps may stand around every item.

It is shown of documents without numbers. Their texts may hold any code point. Most are escaped,
and a character past the first plane takes two escapes, which the grammar joins again because they
are the halves of a pair. No other character has a half as its code unit. But a surrogate has, and
where two of them are the halves of a pair the grammar joins these, too.

So the document that is read differs from the one that was written in two ways: its texts are
joined, and of the members of an object whose keys are the same then, only the last one is left.
`reread` is that document.

## Main definitions

* `Textual`: A document of texts, arrays and objects.
* `reread`: The document that is read where another one was written.

## Theorems

* `hexDigitsValue?_hexDigits`: The digits of a number have its value.
* `exists_pieces`: A character is read back from the pieces that are written for it.
* `stringText_writtenString`: What is written for a text is the joined text in quotes.
* `listText_row`: Items in a layout are items with commas between them.
* `writes_arr`, `writes_obj`: An array or an object is written if its parts are.
* `Textual.writes`: What is written for a document writes it as it is read again.
-/

namespace StageTree

/-! ## Hexadecimal digits -/

theorem hexValue?_hexDigit {n : Nat} (h : n < 16) : hexValue? (hexDigit n) = some n := by
  have hall : ∀ k : Fin 16, hexValue? (hexDigit k) = some k.val := by decide
  exact hall ⟨n, h⟩

/-- The digits of a number have its value, if there are enough of them. -/
theorem hexDigitsValue?_hexDigits (width : Nat) {n : Nat} (h : n < 16 ^ width) :
    hexDigitsValue? (hexDigits width n) = some n := by
  induction width generalizing n with
  | zero =>
      have hn : n = 0 := by omega
      rw [hn]
      rfl
  | succ width ih =>
      -- The last digit is the remainder, and those before it write the quotient.
      have hquotient : n / 16 < 16 ^ width := by
        rw [Nat.pow_succ] at h
        omega
      have hlead := ih hquotient
      rw [hexDigitsValue?] at hlead
      rw [hexDigits, hexDigitsValue?, List.foldl_append, hlead]
      simp only [List.foldl_cons, List.foldl_nil, hexValue?_hexDigit (Nat.mod_lt n (by omega)),
        Option.bind_eq_bind, Option.bind_some, Option.pure_def, Option.some.injEq]
      omega

namespace Json

variable {cs ds gap after : List Char} {ps qs : List Piece} {c : Char} {j : Json}

/-! ## Characters -/

theorem PieceText.pieces {p : Piece} (h : PieceText cs p) : PiecesText cs [p] := by
  rw [← List.append_nil cs]
  exact .cons h .nil

/-- Pieces are written one after the other. -/
theorem PiecesText.append (h : PiecesText cs ps) (hrest : PiecesText ds qs) :
    PiecesText (cs ++ ds) (ps ++ qs) := by
  induction h with
  | nil => exact hrest
  | cons hpiece _ ih =>
      rw [List.append_assoc, List.cons_append]
      exact .cons hpiece ih

theorem pieceText_unitEscape {unit : Nat} (h : unit < 0x10000) :
    PieceText (unitEscape unit) (.unit unit) :=
  .unit (hexDigitsValue?_hexDigits 4 h)

/-- A code unit that is no half of a pair with the next one is read as it is. -/
theorem pointsOf_unit {p : CodePoint} {ps : List Piece}
    (h : isHighHalf p.toNat = false ∨
      ∀ low more, ps = .unit low :: more → isLowHalf low = false) :
    pointsOf (.unit p.toNat :: ps) = p :: pointsOf ps := by
  rw [pointsOf_lone h, CodePoint.ofNat_toNat]

/-- A character past the first plane is read back from the escapes of its halves. -/
theorem pointsOf_halves {c : Char} (h : 0x10000 ≤ c.toNat) (ps : List Piece) :
    pointsOf (.unit (0xd800 + (c.toNat - 0x10000) / 0x400) ::
      .unit (0xdc00 + (c.toNat - 0x10000) % 0x400) :: ps) = .char c :: pointsOf ps := by
  have hvalid : c.toNat < 0xd800 ∨ 0xdfff < c.toNat ∧ c.toNat < 0x110000 := c.valid
  have hhigh : isHighHalf (0xd800 + (c.toNat - 0x10000) / 0x400) = true := by
    simp only [isHighHalf, Bool.and_eq_true, decide_eq_true_eq]
    omega
  have hlow : isLowHalf (0xdc00 + (c.toNat - 0x10000) % 0x400) = true := by
    simp only [isLowHalf, Bool.and_eq_true, decide_eq_true_eq]
    omega
  -- Cutting a number in two and putting it together again gives the number.
  have hcode : 0x10000 + (0xd800 + (c.toNat - 0x10000) / 0x400 - 0xd800) * 0x400
      + (0xdc00 + (c.toNat - 0x10000) % 0x400 - 0xdc00) = c.toNat := by omega
  rw [pointsOf, hhigh, hlow, joinHalves, hcode, Char.ofNat_toNat]
  rfl

/-- Pieces mean a character, whatever comes before them and after them. -/
structure Means (ps : List Piece) (c : Char) : Prop where
  points : ∀ qs, pointsOf (ps ++ qs) = .char c :: pointsOf qs
  /-- What comes before them is not joined with them. -/
  apart : ∀ qs low more, ps ++ qs = .unit low :: more → isLowHalf low = false

/-- A character is read back from the pieces that are written for it. -/
theorem exists_pieces (c : Char) : ∃ ps, PiecesText (writtenChar c) ps ∧ Means ps c := by
  have hone {cs : List Char} (h : PieceText cs (.char c)) :
      ∃ ps, PiecesText cs ps ∧ Means ps c :=
    ⟨[.char c], h.pieces, fun _ => rfl, nofun⟩
  have hletter {letter : Char} (h : simpleEscape? letter = some c) :=
    hone (PieceText.escape h)
  unfold writtenChar
  by_cases hmark : c = '"' ∨ c = '\\'
  · rw [if_pos (by simpa using hmark)]
    exact hletter (by rcases hmark with rfl | rfl <;> rfl)
  rw [if_neg (by simpa using hmark)]
  by_cases hplain : ' ' ≤ c ∧ c ≤ '~'
  · rw [if_pos (by simpa using hplain)]
    exact hone (.plain (fun h => hmark (Or.inl h)) (fun h => hmark (Or.inr h)) hplain.1)
  rw [if_neg (by simpa using hplain)]
  -- What is left are the letters for control characters, and code units.
  split_ifs with hline hreturn htab hback hpage hplane
  · exact hletter (hline ▸ rfl)
  · exact hletter (hreturn ▸ rfl)
  · exact hletter (htab ▸ rfl)
  · exact hletter (hback ▸ rfl)
  · exact hletter (hpage ▸ rfl)
  · rcases halves_of_char c with ⟨hhigh, hlow⟩
    refine ⟨[.unit c.toNat], (pieceText_unitEscape hplane).pieces,
      fun _ => pointsOf_unit (p := .char c) (.inl hhigh), ?_⟩
    rintro _ _ _ ⟨⟩
    exact hlow
  · have hvalid : c.toNat < 0xd800 ∨ 0xdfff < c.toNat ∧ c.toNat < 0x110000 := c.valid
    have hhigh := @pieceText_unitEscape (0xd800 + (c.toNat - 0x10000) / 0x400) (by omega)
    have hlow := @pieceText_unitEscape (0xdc00 + (c.toNat - 0x10000) % 0x400) (by omega)
    refine ⟨_, hhigh.pieces.append hlow.pieces, pointsOf_halves (Nat.not_lt.1 hplane), ?_⟩
    rintro _ _ _ ⟨⟩
    -- The first of its halves is not the second one of a pair.
    simp only [isLowHalf, Bool.and_eq_false_iff, decide_eq_false_iff_not]
    omega

/-! ## Texts -/

theorem pieceText_surrogate (u : Surrogate) : PieceText (unitEscape u.code) (.unit u.code) := by
  refine pieceText_unitEscape ?_
  unfold Surrogate.code
  omega

-- By induction on the joining. What is kept of a text for the next step is that a second half at
-- its front is a surrogate there, and not a part of a character.
theorem exists_pieces_of_points (ps : List CodePoint) :
    ∃ qs, PiecesText (ps.flatMap writtenPoint) qs ∧ pointsOf qs = joinPairs ps ∧
      ∀ low more, qs = .unit low :: more → isLowHalf low = true →
        ∃ u rest, ps = .surrogate u :: rest ∧ u.code = low := by
  fun_induction joinPairs ps with
  | case1 => exact ⟨[], .nil, rfl, fun _ _ h => absurd h.symm (List.cons_ne_nil _ _)⟩
  | case2 high low rest hhalves ih =>
      rcases ih with ⟨qs, hqs, hpoints, -⟩
      refine ⟨.unit high.code :: .unit low.code :: qs, ?_, ?_, ?_⟩
      · exact .cons (pieceText_surrogate high) (.cons (pieceText_surrogate low) hqs)
      · rw [pointsOf, if_pos hhalves, hpoints]
      · rintro _ _ ⟨⟩ -
        exact ⟨high, _, rfl, rfl⟩
  | case3 high low rest hhalves ih =>
      rcases ih with ⟨qs, hqs, hpoints, hfront⟩
      -- The first half stays alone, as what comes next is no second half.
      refine ⟨.unit high.code :: qs, .cons (pieceText_surrogate high) hqs, ?_, ?_⟩
      · refine (pointsOf_unit (p := .surrogate high) ?_).trans (congrArg _ hpoints)
        by_cases hhigh : isHighHalf high.code = true
        · refine .inr fun next more hmore => Bool.eq_false_iff.2 fun hnext => ?_
          rcases hfront next more hmore hnext with ⟨u, others, heq, rfl⟩
          cases heq
          exact hhalves (Bool.and_eq_true_iff.2 ⟨hhigh, hnext⟩)
        · exact .inl (Bool.eq_false_iff.2 hhigh)
      · rintro _ _ ⟨⟩ -
        exact ⟨high, _, rfl, rfl⟩
  | case4 p rest hno ih =>
      rcases ih with ⟨qs, hqs, hpoints, hfront⟩
      cases p with
      | char c =>
          rcases exists_pieces c with ⟨ps, hps, hmeans⟩
          refine ⟨ps ++ qs, hps.append hqs, by rw [hmeans.points, hpoints], ?_⟩
          intro low more hmore hlow
          exact absurd hlow (Bool.eq_false_iff.1 (hmeans.apart qs low more hmore))
      | surrogate u =>
          refine ⟨.unit u.code :: qs, .cons (pieceText_surrogate u) hqs, ?_, ?_⟩
          · refine (pointsOf_unit (p := .surrogate u) ?_).trans (congrArg _ hpoints)
            refine .inr fun next more hmore => Bool.eq_false_iff.2 fun hnext => ?_
            rcases hfront next more hmore hnext with ⟨low, others, rfl, -⟩
            exact hno u low others rfl rfl
          · rintro _ _ ⟨⟩ -
            exact ⟨u, _, rfl, rfl⟩

/-- What is written for a text is the joined text in quotes. -/
theorem stringText_writtenString (text : Text) : StringText (writtenString text) text.joined := by
  rcases exists_pieces_of_points text.points with ⟨ps, hps, hpoints, -⟩
  have hquoted := StringText.quoted hps
  rw [hpoints] at hquoted
  exact hquoted

/-! ## Layouts -/

theorem gap_lineBreak (layout : Layout) (level : Nat) : Gap (layout.lineBreak level) := by
  cases layout with
  | oneLine => exact gap_nil
  | indented step =>
      intro c hc
      rcases List.mem_cons.1 hc with rfl | hc
      · rfl
      · rw [List.eq_of_mem_replicate hc]
        rfl

theorem gap_blank : Gap [' '] := by
  intro c hc
  rw [List.mem_singleton.1 hc]
  rfl

/-- Items are separated by a comma with a gap after it. -/
theorem exists_separator (layout : Layout) (level : Nat) :
    ∃ gap, Gap gap ∧ layout.separator level = ',' :: gap := by
  cases layout with
  | oneLine => exact ⟨[' '], gap_blank, rfl⟩
  | indented step => exact ⟨_, gap_lineBreak (.indented step) level, rfl⟩

/-- Items are written with a separator in front of each. -/
theorem writeItems_eq (layout : Layout) (level : Nat) (items : List Json) :
    writeItems layout level items =
      items.flatMap fun item => layout.separator level ++ writeAt layout level item := by
  induction items with
  | nil => rfl
  | cons item rest ih => rw [writeItems, ih, List.flatMap_cons]

/-- A member as it is written. -/
def writeMember (layout : Layout) (level : Nat) (member : Text × Json) : List Char :=
  writtenString member.1 ++ ':' :: ' ' :: writeAt layout level member.2

/-- Members are written with a separator in front of each. -/
theorem writeMembers_eq (layout : Layout) (level : Nat) (members : List (Text × Json)) :
    writeMembers layout level members =
      members.flatMap fun member => layout.separator level ++ writeMember layout level member := by
  induction members with
  | nil => rfl
  | cons member rest ih =>
      rw [writeMembers, ih, List.flatMap_cons, writeMember]
      simp only [List.append_assoc, List.cons_append]

/-- Items in a layout are items with commas between them, if gaps may stand around an item. What
    an item is read as is a matter of the item alone. -/
theorem listText_row {α β : Type} {Item : List Char → β → Prop} {text : α → List Char}
    {value : α → β} {separator : List Char} {first : α} {rest : List α}
    (hseparator : ∃ gap, Gap gap ∧ separator = ',' :: gap)
    (hitem : ∀ a ∈ first :: rest, ∀ {before after}, Gap before → Gap after →
      Item (before ++ (text a ++ after)) (value a))
    (hgap : Gap gap) (hafter : Gap after) :
    ListText Item (gap ++ (text first ++ (rest.flatMap (fun a => separator ++ text a) ++ after)))
      ((first :: rest).map value) := by
  -- The gap in front of an item belongs to it, so it differs from item to item.
  induction rest generalizing first gap with
  | nil => exact .one (hitem first List.mem_cons_self hgap hafter)
  | cons next rest ih =>
      rcases hseparator with ⟨space, hspace, rfl⟩
      rcases List.forall_mem_cons.1 hitem with ⟨hfirst, hrest⟩
      have hmore := ih hrest hspace
      have hone := hfirst hgap gap_nil
      rw [List.append_nil] at hone
      have hlist := ListText.more hone hmore
      simp only [List.append_assoc, List.cons_append, List.flatMap_cons] at hlist ⊢
      exact hlist

/-! ## Members -/

/-- A member with a new key is put at the end. -/
theorem putMember_of_notMem {members : List (Text × Json)} {key : Text} {value : Json}
    (h : key ∉ members.map Prod.fst) :
    putMember members key value = members ++ [(key, value)] := by
  induction members with
  | nil => rfl
  | cons member rest ih =>
      rw [List.map_cons, List.mem_cons, not_or] at h
      rw [putMember, if_neg (Ne.symm h.1), ih h.2, List.cons_append]

/-- Members without a repeated key stay as they are written. -/
theorem putAll_of_nodup {found written : List (Text × Json)}
    (h : ((found ++ written).map Prod.fst).Nodup) : putAll found written = found ++ written := by
  induction written generalizing found with
  | nil => exact (List.append_nil found).symm
  | cons member rest ih =>
      have hnew : member.1 ∉ found.map Prod.fst := by
        intro hmem
        rw [List.map_append, List.map_cons] at h
        exact (List.nodup_append.1 h).2.2 _ hmem _ List.mem_cons_self rfl
      rw [List.append_cons] at h ⊢
      rw [← ih h]
      exact congrArg (putAll · rest) (putMember_of_notMem hnew)

/-! ## Documents -/

/-- A document of texts, arrays and objects. -/
inductive Textual : Json → Prop where
  | str (text : Text) : Textual (.str text)
  | arr {items : List Json} (h : ∀ item ∈ items, Textual item) : Textual (.arr items)
  | obj {members : List (Text × Json)} (h : ∀ member ∈ members, Textual member.2) :
    Textual (.obj members)

mutual

/-- The document that is read where another one was written. Texts are joined, and of members
    whose keys are the same then the last one is left. -/
def reread : Json → Json
  | .str text => .str text.joined
  | .arr items => .arr (rereadItems items)
  | .obj members => .obj (putAll [] (rereadMembers members))
  | j => j

/-- The items that are read where some items were written. -/
def rereadItems : List Json → List Json
  | [] => []
  | item :: rest => reread item :: rereadItems rest

/-- The members that are read where some members were written, also those that will not be left. -/
def rereadMembers : List (Text × Json) → List (Text × Json)
  | [] => []
  | (key, value) :: rest => (key.joined, reread value) :: rereadMembers rest

end

theorem rereadItems_eq (items : List Json) : rereadItems items = items.map reread := by
  induction items with
  | nil => rfl
  | cons item rest ih => rw [rereadItems, ih, List.map_cons]

theorem rereadMembers_eq (members : List (Text × Json)) :
    rereadMembers members = members.map (Prod.map Text.joined reread) := by
  induction members with
  | nil => rfl
  | cons member rest ih =>
      rw [rereadMembers, ih, List.map_cons]
      rfl

/-- An array is written if its items are. -/
theorem writes_arr {digits room level : Nat} {layout : Layout} {items : List Json}
    (h : ∀ item ∈ items, Writes digits room (writeAt layout (level + 1) item) item.reread) :
    Writes digits (room + 1) (writeAt layout level (.arr items)) (reread (.arr items)) := by
  refine Or.inr (Or.inl ⟨items.map reread, ?_, by rw [reread, rereadItems_eq]⟩)
  cases items with
  | nil => exact Bracketed.none gap_nil
  | cons first rest =>
      -- Line breaks and blanks stand before and after each item, as gaps.
      have hitem : ∀ item ∈ first :: rest, ∀ {before after}, Gap before → Gap after →
          Spaced (Writes digits room)
            (before ++ (writeAt layout (level + 1) item ++ after)) item.reread :=
        fun item hmem before after hbefore hafter =>
          ⟨before, _, after, hbefore, h item hmem, hafter, rfl⟩
      have hlist := listText_row (exists_separator layout (level + 1)) hitem
        (gap_lineBreak layout (level + 1)) (gap_lineBreak layout level)
      rw [← writeItems_eq] at hlist
      simp only [writeAt]
      simpa only [List.append_assoc] using Bracketed.some hlist

/-- A member is written if its value is, with gaps around both of them. -/
theorem member_writeMember {digits room level : Nat} {layout : Layout} {member : Text × Json}
    (h : Writes digits room (writeAt layout level member.2) member.2.reread)
    {before after : List Char} (hbefore : Gap before) (hafter : Gap after) :
    Member (Writes digits room) (before ++ (writeMember layout level member ++ after))
      (Prod.map Text.joined reread member) := by
  have hkey : Spaced StringText (before ++ (writtenString member.1 ++ [])) member.1.joined :=
    ⟨before, _, [], hbefore, stringText_writtenString member.1, gap_nil, rfl⟩
  have hvalue : Spaced (Writes digits room)
      ([' '] ++ (writeAt layout level member.2 ++ after)) member.2.reread :=
    ⟨[' '], _, after, gap_blank, h, hafter, rfl⟩
  have hmember := Member.pair hkey hvalue
  simp only [writeMember, List.append_assoc, List.append_nil, List.cons_append,
    List.nil_append] at hmember ⊢
  exact hmember

/-- An object is written if its members are. -/
theorem writes_obj {digits room level : Nat} {layout : Layout} {members : List (Text × Json)}
    (h : ∀ member ∈ members,
      Writes digits room (writeAt layout (level + 1) member.2) member.2.reread) :
    Writes digits (room + 1) (writeAt layout level (.obj members)) (reread (.obj members)) := by
  refine Or.inr (Or.inr ⟨members.map (Prod.map Text.joined reread), ?_,
    by rw [reread, rereadMembers_eq]⟩)
  cases members with
  | nil => exact Bracketed.none gap_nil
  | cons first rest =>
      have hlist := listText_row (exists_separator layout (level + 1))
        (fun member hmem => member_writeMember (h member hmem))
        (gap_lineBreak layout (level + 1)) (gap_lineBreak layout level)
      rw [← writeMembers_eq] at hlist
      rcases first with ⟨key, value⟩
      simp only [writeMember] at hlist
      simp only [writeAt]
      simpa only [List.append_assoc, List.cons_append] using Bracketed.some hlist

/-- What is written for a document writes it as it is read again, whatever the layout and the
    level. -/
theorem Textual.writes (h : Textual j) (digits : Nat) {room : Nat} (hroom : j.nesting ≤ room)
    (layout : Layout) (level : Nat) : Writes digits room (writeAt layout level j) j.reread := by
  -- The room shrinks with every array and every object, and so does what it is compared with.
  induction h generalizing room level with
  | str text =>
      have hscalar : Scalar digits (writtenString text) (.str text.joined) :=
        .string (stringText_writtenString text)
      exact hscalar.writes
  | @arr items _ ih =>
      rw [nesting] at hroom
      obtain ⟨less, rfl⟩ := Nat.exists_eq_add_of_le' (Nat.le_trans (Nat.le_add_left 1 _) hroom)
      refine writes_arr fun item hmem => ih item hmem ?_ (level + 1)
      exact Nat.le_trans (nesting_le_of_mem_items hmem) (Nat.le_of_succ_le_succ hroom)
  | @obj members _ ih =>
      rw [nesting] at hroom
      obtain ⟨less, rfl⟩ := Nat.exists_eq_add_of_le' (Nat.le_trans (Nat.le_add_left 1 _) hroom)
      refine writes_obj fun member hmem => ih member hmem ?_ (level + 1)
      exact Nat.le_trans (nesting_le_of_mem_members hmem) (Nat.le_of_succ_le_succ hroom)

end Json

end StageTree
