import StageTree.Proofs.Number.Text
import StageTree.Proofs.Tree.Text

/-!
# Legible Trees

What makes indented text unambiguous. The text has neither escapes nor closing marks: a label
stands on its line as it is, and the children of a branch end where a line is indented less.
A reader of the text has to tell from a line's first word alone whether it is a leaf or a
branch, and from its blanks how deep it is. That works for the trees of the stages, because a
label that may stand in place of a branch never opens with a blank and never starts with the
name of one.

The name of a variable is the exception, being free text: it may open with blanks and may end
like any mark. It only ever stands as the first child of a branch of its own, which always has
two children, so a reader knows that the next line is a name and takes it as it comes.
`Legible` says all of this of a tree.

`Legible.append_inj` is the argument. It is stated for trees followed by other lines, which is
what the induction needs: the lines of legible trees form a prefix code, as long as what
follows is not indented further than the root. `Follows` is that condition, and every child of
a branch meets it through its next sibling or through what follows the branch.

## Main definitions

* `headings`, `variableHeading`: The names of branches.
* `Opens`: A text begins with a character that is neither blank nor a parenthesis.
* `IsPlain`: A label that is not mistaken for a branch or for indentation.
* `Legible`: A tree that can be read back from its lines.
* `Follows`: Lines that go on at a level or further out.

## Theorems

* `append_cons_inj`: Rows are split where a property first fails in only one way.
* `indentation_append_inj`: An indented line determines its level.
* `Legible.append_inj`: The lines of legible trees are a prefix code.
* `Legible.eq_of_text_eq`: The text of legible, one-lined trees determines them.
-/

namespace StageTree

/-- Rows are split where a property first fails in only one way. -/
theorem append_cons_inj {α : Type} {p : α → Bool} {xs ys zs ws : List α}
    {c d : α}
    (hxs : ∀ a ∈ xs, p a = true) (hys : ∀ a ∈ ys, p a = true)
    (hc : p c = false) (hd : p d = false) (h : xs ++ c :: zs = ys ++ d :: ws) :
    xs = ys ∧ c :: zs = d :: ws := by
  have htake := congrArg (List.takeWhile p) h
  rw [List.takeWhile_append_of_pos hxs, List.takeWhile_append_of_pos hys,
    List.takeWhile_cons_of_neg (by rw [hc]; exact Bool.false_ne_true),
    List.takeWhile_cons_of_neg (by rw [hd]; exact Bool.false_ne_true),
    List.append_nil, List.append_nil] at htake
  rw [htake] at h
  exact ⟨htake, List.append_cancel_left h⟩

namespace Tree

/-- The names of the branches that stages show, but for that of variables. -/
def headings : List Text :=
  ["Vector", "Pair", "Const", "VarGet", "If", "Seq", "Or", "VarSet", "VarDef", "Lambda",
    "Params", "Applic", "Args", "Const'", "VarGet'", "If'", "Seq'", "Or'", "VarSet'",
    "VarDef'", "Box'", "BoxGet'", "BoxSet'", "Lambda'", "Applic'"]

/-- The name of the branches of variables. -/
def variableHeading : Text := "var'"

/-- The first word of a text: what stands before its first blank. -/
def firstWord (text : Text) : List CodePoint := text.points.takeWhile (· != ' ')

/-- A text begins with a character that is not a blank, which would be taken for indentation,
    and not a parenthesis, with which the notice begins that there is no tree. -/
def Opens (text : Text) : Prop :=
  ∃ c rest, text.points = c :: rest ∧ c ≠ .char ' ' ∧ c ≠ .char '('

/-- A label that is not mistaken for a branch or for indentation. -/
structure IsPlain (label : Text) : Prop where
  /-- The label does not begin like indentation. -/
  opens : Opens label
  /-- The label does not begin like a branch. -/
  notHeading : ∀ heading ∈ variableHeading :: headings, firstWord label ≠ heading.points

/-- A tree that can be read back from its lines. -/
inductive Legible : Tree → Prop where
  /-- A leaf with a plain label. -/
  | leaf {label : Text} (hlabel : IsPlain label) : Legible (.leaf label)
  /-- A branch under one of the known names. -/
  | branch {heading : Text} {children : List Tree} (hheading : heading ∈ headings)
      (hchildren : ∀ t ∈ children, Legible t) : Legible (.branch heading children)
  /-- A variable: whatever its name is, it stands between its heading and its address. -/
  | ofVar (var : Analyzed.Var) : Legible var.tree

/-! ## The line of a root -/

theorem line_leaf (label : Text) : (Tree.leaf label).line = label := by
  change label ++ "" ++ "" = label
  rw [Text.append_empty, Text.append_empty]

/-- A heading is followed by the mark of an empty row, if there is nothing below it. -/
theorem line_branch (heading : Text) (children : List Tree) :
    (Tree.branch heading children).line = heading ++ emptyMark (some children) := by
  change heading ++ "" ++ emptyMark (some children) = heading ++ emptyMark (some children)
  rw [Text.append_empty]

theorem line_variable (var : Analyzed.Var) : var.tree.line = variableHeading := by
  rw [Analyzed.Var.tree, line_branch]
  exact Text.append_empty _

/-- Neither the name of a branch nor its mark has a blank before the first word is over. -/
theorem firstWord_line_branch {heading : Text} (h : heading ∈ headings)
    (children : List Tree) :
    firstWord (Tree.branch heading children).line = heading.points := by
  rw [line_branch]
  rcases children with _ | ⟨first, others⟩
  · have hmarked : ∀ name ∈ headings, firstWord (name ++ " (empty)") = name.points := by decide
    exact hmarked heading h
  · have hbare : ∀ name ∈ headings, firstWord (name ++ "") = name.points := by decide
    exact hbare heading h

theorem firstWord_line_variable (var : Analyzed.Var) :
    firstWord var.tree.line = variableHeading.points := by
  rw [line_variable]
  decide

theorem variableHeading_notMem : variableHeading ∉ headings := by decide

/-- The names of branches open with a letter. -/
theorem opens_heading {heading : Text} (h : heading ∈ headings) : Opens heading := by
  have hlead : ∀ name ∈ headings,
      name.points.head?.any (fun c => c != .char ' ' && c != .char '(') = true := by decide
  rcases (Option.any_eq_true _ _).1 (hlead heading h) with ⟨c, hc, hne⟩
  rcases List.head?_eq_some_iff.1 hc with ⟨rest, hrest⟩
  rw [Bool.and_eq_true, bne_iff_ne, bne_iff_ne] at hne
  exact ⟨c, rest, hrest, hne⟩

/-- A line that opens with a mark does so whatever comes after it. -/
theorem Opens.append {text : Text} (h : Opens text) (more : Text) : Opens (text ++ more) := by
  rcases h with ⟨c, rest, htext, hne⟩
  refine ⟨c, rest ++ more.points, ?_, hne⟩
  rw [Text.points_append, htext, List.cons_append]

/-- The line of a legible tree's root opens with its label. -/
theorem Legible.opens {t : Tree} (h : Legible t) : Opens t.line := by
  cases h with
  | leaf hlabel =>
      rw [line_leaf]
      exact hlabel.opens
  | branch hheading _ =>
      rw [line_branch]
      exact (opens_heading hheading).append _
  | ofVar var =>
      rw [line_variable]
      exact ⟨.char 'v', Text.points "ar'", by rfl, by decide, by decide⟩

/-! ## Levels -/

/-- An indented line determines its level, and the line without its indentation. -/
theorem indentation_append_inj {step : Int} (hstep : 1 ≤ step) {m n : Nat} {a b : Text}
    (ha : Opens a) (hb : Opens b)
    (h : indentation m step ++ a = indentation n step ++ b) : m = n ∧ a = b := by
  rcases ha with ⟨c, as, hac, hc, _⟩
  rcases hb with ⟨d, bs, hbd, hd, _⟩
  have hlist := congrArg Text.points h
  simp only [Text.points_append, indentation, Text.points_plain, String.toList_ofList,
    List.map_replicate, hac, hbd] at hlist
  -- The blanks end at the first character of the line itself.
  have hblank : ∀ k, ∀ x ∈ List.replicate k (.char ' '), (x == CodePoint.char ' ') = true := by
    intro k x hx
    rw [List.eq_of_mem_replicate hx]
    rfl
  rcases append_cons_inj (hblank _) (hblank _) (beq_eq_false_iff_ne.2 hc)
    (beq_eq_false_iff_ne.2 hd) hlist with ⟨hlead, hrest⟩
  -- Equally many blanks come from equal levels, for a step is at least one blank.
  have hwidth : ((m : Int) * step).toNat = ((n : Int) * step).toNat := by
    have hlength := congrArg List.length hlead
    rwa [List.length_replicate, List.length_replicate] at hlength
  rcases Int.eq_ofNat_of_zero_le (by omega : 0 ≤ step) with ⟨k, rfl⟩
  rw [← Int.natCast_mul, ← Int.natCast_mul, Int.toNat_natCast, Int.toNat_natCast] at hwidth
  refine ⟨Nat.eq_of_mul_eq_mul_right (by omega) hwidth, ?_⟩
  rw [← hac, ← hbd] at hrest
  exact Text.points_injective hrest

/-- Lines that go on at a level or further out, or are at their end. -/
def Follows (level : Nat) (step : Int) (rest : List Text) : Prop :=
  ∀ first ∈ rest.head?, ∃ outer ≤ level, ∃ text, Opens text ∧
    first = indentation outer step ++ text

/-- What may follow further out may follow further in. -/
theorem Follows.mono {level inner : Nat} {step : Int} {rest : List Text}
    (h : Follows level step rest) (hle : level ≤ inner) : Follows inner step rest := by
  intro first hfirst
  rcases h first hfirst with ⟨outer, houter, hline⟩
  exact ⟨outer, Nat.le_trans houter hle, hline⟩

/-- What follows a child is its next sibling, or what follows its parent. -/
theorem Follows.siblings {level : Nat} {step : Int} {rest : List Text}
    (h : Follows level step rest) {ts : List Tree} (hts : ∀ t ∈ ts, Legible t) :
    Follows (level + 1) step (ts.flatMap (lines ((level + 1 : Nat) : Int) step) ++ rest) := by
  rcases ts with _ | ⟨t, others⟩
  · exact h.mono (Nat.le_succ level)
  · intro first hfirst
    rw [List.flatMap_cons, lines_eq, List.cons_append, List.cons_append, List.head?_cons,
      Option.mem_def, Option.some.injEq] at hfirst
    exact ⟨level + 1, Nat.le_refl _, t.line, (hts t List.mem_cons_self).opens, hfirst.symm⟩

/-! ## Addresses -/

/-- The line of a node begins with its name. -/
theorem line_points (t : Tree) : ∃ tail, t.line.points = t.name.points ++ tail := by
  refine ⟨(attributeText t.attributes ++ emptyMark t.children).points, ?_⟩
  rw [line, Text.append_assoc, Text.points_append]

/-- The line of a parameter address begins with its index in brackets. -/
theorem line_param (n : Nat) : ∃ tail, (Analyzed.Address.param n).tree.line.points
    = Text.points "Param(" ++ (Text.points (integerText n) ++ .char ')' :: tail) := by
  rcases line_points (Analyzed.Address.param n).tree with ⟨tail, htail⟩
  refine ⟨tail, ?_⟩
  rw [htail]
  simp only [Analyzed.Address.tree, taggedLeaf, Tree.name, Text.points_append,
    List.append_assoc]
  rfl

/-- The line of a bound address begins with its two indexes in brackets. -/
theorem line_bound (m n : Nat) : ∃ tail, (Analyzed.Address.bound m n).tree.line.points
    = Text.points "Bound(" ++ (Text.points (integerText m)
      ++ .char ',' :: (Text.points (integerText n) ++ .char ')' :: tail)) := by
  rcases line_points (Analyzed.Address.bound m n).tree with ⟨tail, htail⟩
  refine ⟨tail, ?_⟩
  rw [htail]
  simp only [Analyzed.Address.tree, taggedLeaf, Tree.name, Text.points_append,
    List.append_assoc]
  rfl

/-- Indices are told apart by their digits, which end at the sign that follows them. -/
theorem integerText_append_inj {m n : Nat} {c : Char} {xs ys : List CodePoint}
    (hc : c.isDigit = false)
    (h : Text.points (integerText m) ++ .char c :: xs
      = Text.points (integerText n) ++ .char c :: ys) :
    integerText m = integerText n ∧ xs = ys := by
  -- The sign is no digit, so it ends both rows of digits.
  have hdigits : ∀ k : Nat, ∀ p ∈ Text.points (integerText k), (p != CodePoint.char c) = true := by
    intro k p hp
    rcases List.mem_map.1 hp with ⟨d, hd, rfl⟩
    rw [bne_iff_ne]
    intro heq
    rw [← CodePoint.char.inj heq, isDigit_of_mem_integerText hd] at hc
    exact Bool.noConfusion hc
  rcases append_cons_inj (hdigits m) (hdigits n) (by simp) (by simp) h with ⟨htext, hrest⟩
  exact ⟨Text.plain.inj (Text.points_injective htext), (List.cons.inj hrest).2⟩

/-- The first letter of an address. -/
def addressLead : Analyzed.Address → Char
  | .free => 'F'
  | .param _ => 'P'
  | .bound _ _ => 'B'

/-- Addresses are told apart by the first letter of their line. -/
theorem head?_line_address (a : Analyzed.Address) :
    a.tree.line.points.head? = some (.char (addressLead a)) := by
  cases a with
  | free => decide
  | param n =>
      rcases line_param n with ⟨tail, hn⟩
      rw [hn]
      rfl
  | bound m n =>
      rcases line_bound m n with ⟨tail, hn⟩
      rw [hn]
      rfl

/-- The line of an address determines its tree: the word for its kind comes first, and then
    its indices. -/
theorem addressTree_eq_of_line_eq {a b : Analyzed.Address} (h : a.tree.line = b.tree.line) :
    a.tree = b.tree := by
  have hlist := congrArg Text.points h
  -- The words for the kinds differ in the first character.
  have hlead : addressLead a = addressLead b := by
    rw [← CodePoint.char.injEq, ← Option.some.injEq, ← head?_line_address,
      ← head?_line_address, h]
  cases a with
  | free =>
      cases b with
      | free => rfl
      | param k => exact absurd (show 'F' = 'P' from hlead) (by decide)
      | bound j k => exact absurd (show 'F' = 'B' from hlead) (by decide)
  | param n =>
      cases b with
      | free => exact absurd (show 'P' = 'F' from hlead) (by decide)
      | param k =>
          rcases line_param n with ⟨tail, hn⟩
          rcases line_param k with ⟨tail', hk⟩
          rw [hn, hk] at hlist
          rcases integerText_append_inj (by decide) (List.append_cancel_left hlist)
            with ⟨hindex, _⟩
          simp only [Analyzed.Address.tree, hindex]
      | bound j k => exact absurd (show 'P' = 'B' from hlead) (by decide)
  | bound m n =>
      cases b with
      | free => exact absurd (show 'B' = 'F' from hlead) (by decide)
      | param k => exact absurd (show 'B' = 'P' from hlead) (by decide)
      | bound j k =>
          rcases line_bound m n with ⟨tail, hn⟩
          rcases line_bound j k with ⟨tail', hk⟩
          rw [hn, hk] at hlist
          rcases integerText_append_inj (by decide) (List.append_cancel_left hlist)
            with ⟨hmajor, hrest⟩
          rcases integerText_append_inj (by decide) hrest with ⟨hminor, _⟩
          simp only [Analyzed.Address.tree, hmajor, hminor]

/-! ## The prefix code -/

/-- Rows of trees with the prefix property are themselves determined by their lines: a row goes
    on as long as lines stand at its level, and what follows it is further out. -/
theorem forest_append_inj {level : Nat} {step : Int} (hstep : 1 ≤ step) {ts us : List Tree}
    {r s : List Text} (hts : ∀ t ∈ ts, Legible t) (hus : ∀ u ∈ us, Legible u)
    (hinj : ∀ t ∈ ts, ∀ u, Legible u → ∀ r s : List Text,
      Follows (level + 1) step r → Follows (level + 1) step s →
      t.lines ((level + 1 : Nat) : Int) step ++ r = u.lines ((level + 1 : Nat) : Int) step ++ s →
      t = u ∧ r = s)
    (hr : Follows level step r) (hs : Follows level step s)
    (h : ts.flatMap (lines ((level + 1 : Nat) : Int) step) ++ r
      = us.flatMap (lines ((level + 1 : Nat) : Int) step) ++ s) : ts = us ∧ r = s := by
  -- A row that is over meets no line at its level.
  have hover : ∀ {v : Tree} {vs : List Tree} {rest others : List Text}, Legible v →
      Follows level step rest →
      rest ≠ (v :: vs).flatMap (lines ((level + 1 : Nat) : Int) step) ++ others := by
    intro v vs rest others hv hrest heq
    rw [List.flatMap_cons, lines_eq, List.cons_append, List.cons_append] at heq
    rcases hrest _ (by rw [heq]; rfl) with ⟨outer, houter, text, htext, hline⟩
    have hlevel := (indentation_append_inj hstep hv.opens htext hline).1
    omega
  induction ts generalizing us with
  | nil =>
      rcases us with _ | ⟨u, others⟩
      · exact ⟨rfl, h⟩
      · exact absurd h (hover (hus u List.mem_cons_self) hr)
  | cons t ts ih =>
      rcases us with _ | ⟨u, us⟩
      · exact absurd h.symm (hover (hts t List.mem_cons_self) hs)
      · -- Both rows go on, so the first trees are compared with all that follows them.
        have hts' : ∀ v ∈ ts, Legible v := fun v hv => hts v (List.mem_cons_of_mem _ hv)
        have hus' : ∀ v ∈ us, Legible v := fun v hv => hus v (List.mem_cons_of_mem _ hv)
        rw [List.flatMap_cons, List.flatMap_cons, List.append_assoc, List.append_assoc] at h
        rcases hinj t List.mem_cons_self u (hus u List.mem_cons_self) _ _
          (hr.siblings hts') (hs.siblings hus') h with ⟨htu, hrest⟩
        rcases ih hts' hus' (fun v hv => hinj v (List.mem_cons_of_mem _ hv)) hrest
          with ⟨hrows, hrs⟩
        exact ⟨by rw [htu, hrows], hrs⟩

/-- Equal lines of two trees and what follows them have equal roots and equal rests. -/
theorem lines_append_split {step : Int} (hstep : 1 ≤ step) {t u : Tree} (ht : Opens t.line)
    (hu : Opens u.line) {level : Nat} {r s : List Text}
    (h : t.lines level step ++ r = u.lines level step ++ s) :
    t.line = u.line ∧
      (t.children.getD []).flatMap (lines ((level + 1 : Nat) : Int) step) ++ r
        = (u.children.getD []).flatMap (lines ((level + 1 : Nat) : Int) step) ++ s := by
  rw [lines_eq, lines_eq, List.cons_append, List.cons_append] at h
  rcases List.cons.inj h with ⟨hline, hrest⟩
  exact ⟨(indentation_append_inj hstep ht hu hline).2, hrest⟩

/-- The children of variables are their names and addresses, whatever the names are. -/
theorem variable_append_inj {level : Nat} {step : Int} {v w : Analyzed.Var}
    {r s : List Text}
    (h : (v.tree.children.getD []).flatMap (lines ((level + 1 : Nat) : Int) step) ++ r
      = (w.tree.children.getD []).flatMap (lines ((level + 1 : Nat) : Int) step) ++ s) :
    v.tree = w.tree ∧ r = s := by
  have hlines : ∀ (x : Analyzed.Var) (rest : List Text),
      (x.tree.children.getD []).flatMap (lines ((level + 1 : Nat) : Int) step) ++ rest
        = (indentation ((level + 1 : Nat) : Int) step ++ x.name.text)
          :: (indentation ((level + 1 : Nat) : Int) step ++ x.address.tree.line) :: rest := by
    intro x rest
    have hleaf : x.address.tree.children = none := by
      cases x.address with
      | free | param _ | bound _ _ => rfl
    change (([Tree.leaf x.name.text, x.address.tree] : List Tree).flatMap _) ++ rest = _
    rw [List.flatMap_cons, List.flatMap_cons, List.flatMap_nil, lines_eq, lines_eq, line_leaf,
      hleaf]
    rfl
  rw [hlines, hlines] at h
  rcases List.cons.inj h with ⟨hname, hrest⟩
  rcases List.cons.inj hrest with ⟨haddress, hrs⟩
  -- Both names stand at the same level, so the blanks before them are the same.
  have hname' : v.name.text = w.name.text := by
    have hlist := congrArg Text.points hname
    rw [Text.points_append, Text.points_append] at hlist
    exact Text.points_injective (List.append_cancel_left hlist)
  have haddress' : v.address.tree = w.address.tree := by
    have hlist := congrArg Text.points haddress
    rw [Text.points_append, Text.points_append] at hlist
    exact addressTree_eq_of_line_eq (Text.points_injective (List.append_cancel_left hlist))
  exact ⟨by rw [Analyzed.Var.tree, Analyzed.Var.tree, hname', haddress'], hrs⟩

/-- The lines of legible trees are a prefix code: with what follows them they determine the
    trees, and what follows. -/
theorem Legible.append_inj {step : Int} (hstep : 1 ≤ step) {t : Tree} (ht : Legible t) :
    ∀ (level : Nat) (u : Tree), Legible u → ∀ r s : List Text,
      Follows level step r → Follows level step s →
      t.lines level step ++ r = u.lines level step ++ s → t = u ∧ r = s := by
  induction ht with
  | @leaf label hlabel =>
      intro level u hu r s _ _ h
      -- The first word of the line says what kind of tree it belongs to.
      rcases lines_append_split hstep (Legible.leaf hlabel).opens hu.opens h with ⟨hline, hrest⟩
      have hword := congrArg firstWord hline
      cases hu with
      | leaf hlabel' =>
          rw [line_leaf, line_leaf] at hline
          exact ⟨by rw [hline], hrest⟩
      | branch hheading' _ =>
          rw [line_leaf, firstWord_line_branch hheading'] at hword
          exact absurd hword (hlabel.notHeading _ (List.mem_cons_of_mem _ hheading'))
      | ofVar var' =>
          rw [line_leaf, firstWord_line_variable] at hword
          exact absurd hword (hlabel.notHeading _ List.mem_cons_self)
  | @branch heading children hheading hchildren ih =>
      intro level u hu r s hr hs h
      rcases lines_append_split hstep (Legible.branch hheading hchildren).opens hu.opens h
        with ⟨hline, hrest⟩
      have hword := congrArg firstWord hline
      rw [firstWord_line_branch hheading] at hword
      cases hu with
      | leaf hlabel' =>
          rw [line_leaf] at hword
          exact absurd hword.symm (hlabel'.notHeading _ (List.mem_cons_of_mem _ hheading))
      | branch hheading' hchildren' =>
          rw [firstWord_line_branch hheading'] at hword
          rcases forest_append_inj hstep hchildren hchildren'
            (fun v hv => ih v hv (level + 1)) hr hs hrest with ⟨hrows, hrs⟩
          exact ⟨by rw [Text.points_injective hword, hrows], hrs⟩
      | ofVar var' =>
          rw [firstWord_line_variable] at hword
          rw [Text.points_injective hword] at hheading
          exact absurd hheading variableHeading_notMem
  | ofVar var =>
      intro level u hu r s _ _ h
      rcases lines_append_split hstep (Legible.ofVar var).opens hu.opens h with ⟨hline, hrest⟩
      have hword := congrArg firstWord hline
      rw [firstWord_line_variable] at hword
      cases hu with
      | leaf hlabel' =>
          rw [line_leaf] at hword
          exact absurd hword.symm (hlabel'.notHeading _ List.mem_cons_self)
      | branch hheading' _ =>
          rw [firstWord_line_branch hheading'] at hword
          rw [← Text.points_injective hword] at hheading'
          exact absurd hheading' variableHeading_notMem
      | ofVar var' => exact variable_append_inj hrest

/-- The text of legible, one-lined trees determines them. -/
theorem Legible.eq_of_text_eq {step : Int} (hstep : 1 ≤ step) {t u : Tree} (ht : Legible t)
    (hu : Legible u) (hlt : OneLined t) (hlu : OneLined u)
    (h : t.text rootLevel step = u.text rootLevel step) : t = u := by
  have hend : Follows 0 step [] := by
    intro first hfirst
    exact absurd hfirst (by simp only [List.head?_nil, Option.mem_def, reduceCtorEq,
      not_false_eq_true])
  have hlines := lines_eq_of_text_eq hlt hlu rootLevel step h
  refine (ht.append_inj hstep 0 u hu [] [] hend hend ?_).1
  rw [List.append_nil, List.append_nil]
  exact hlines

end Tree

end StageTree
