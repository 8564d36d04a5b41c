import StageTree.Proofs.Induction

/-!
# The Lines of a Printed Tree

A printed tree is one text, and its lines come back out of it when no label brings a line
break of its own. The labels of a tree are all that it holds of free text: the names of its
nodes, and the keys and values of their attributes. Everything that the printer adds to them
stays within a line, so `OneLined` is what has to be asked of a tree, and `lines_eq_of_text_eq`
is what it is asked for.

## Main definitions

* `Tree.labels`: The names, attribute keys and attribute values of a tree.
* `Tree.OneLined`: No label has a line break.
* `Tree.lines`: The lines of a tree.

## Theorems

* `mem_intercalate`: A code point of joined texts is one of the separator or of a text.
* `newline_notMem_line`: The line of a one-lined node has no line break.
* `text_eq_lines`: Joining the texts of children comes to joining the lines of a tree.
* `newline_notMem_lines`: No line of a one-lined tree has one.
* `splitOn_text`: A one-lined tree's text comes apart into its lines.
* `lines_eq_of_text_eq`: The text of one-lined trees determines their lines.
-/

namespace StageTree

/-- A code point of joined texts is one of the separator or of a text. -/
theorem mem_intercalate {c : CodePoint} {separator : Text} {texts : List Text}
    (h : c ∈ (separator.intercalate texts).points) :
    c ∈ separator.points ∨ ∃ text ∈ texts, c ∈ text.points := by
  rw [Text.points_intercalate] at h
  -- The induction is on the texts, and the separator before a text is one of its own parts.
  induction texts with
  | nil =>
      rw [List.map_nil, List.intercalate_nil] at h
      exact absurd h List.not_mem_nil
  | cons text rest ih =>
      rcases rest with _ | ⟨next, others⟩
      · rw [List.map_cons, List.map_nil, List.intercalate_singleton] at h
        exact Or.inr ⟨text, List.mem_cons_self, h⟩
      · rw [List.map_cons, List.map_cons, List.intercalate_cons_cons, List.mem_append,
          List.mem_append] at h
        rcases h with (h | h) | h
        · exact Or.inr ⟨text, List.mem_cons_self, h⟩
        · exact Or.inl h
        · rcases ih h with hs | ⟨t, ht, hc⟩
          · exact Or.inl hs
          · exact Or.inr ⟨t, List.mem_cons_of_mem _ ht, hc⟩

/-- Joining texts that are joined already comes to joining all of their parts. -/
theorem intercalate_intercalate (between : Text) {row : List Text} (hrow : row ≠ [])
    (rest : List Text) : Text.intercalate between (Text.intercalate between row :: rest) =
      Text.intercalate between (row ++ rest) := by
  induction row with
  | nil => exact absurd rfl hrow
  | cons t others ih =>
      rcases others with _ | ⟨u, others⟩
      · rfl
      · rw [Text.intercalate_cons_cons, Text.intercalate_append, ih (List.cons_ne_nil _ _)]
        exact (Text.intercalate_cons_cons ..).symm

/-- The same for joined texts behind a first one. -/
theorem intercalate_flatten (between t : Text) {rows : List (List Text)}
    (hrows : ∀ row ∈ rows, row ≠ []) :
    Text.intercalate between (t :: rows.map (Text.intercalate between)) =
      Text.intercalate between (t :: rows.flatten) := by
  induction rows generalizing t with
  | nil => rfl
  | cons row rest ih =>
      rcases List.forall_mem_cons.1 hrows with ⟨hrow, hrest⟩
      rw [List.map_cons, Text.intercalate_cons_cons, ih _ hrest, List.flatten_cons]
      rcases List.exists_cons_of_ne_nil hrow with ⟨u, others, rfl⟩
      rw [intercalate_intercalate between hrow]
      exact (Text.intercalate_cons_cons ..).symm

namespace Tree

/-- The keys and the values of attributes. -/
def attributeLabels : Option (List (Text × Text)) → List Text
  | none => []
  | some attributes => attributes.flatMap fun (key, value) => [key, value]

mutual

/-- The labels of a tree: the names of its nodes, and the keys and values of their
    attributes. -/
def labels : Tree → List Text
  | .node name attributes none => name :: attributeLabels attributes
  | .node name attributes (some children) =>
    name :: (attributeLabels attributes ++ labelsOfAll children)

/-- The labels of some trees. -/
def labelsOfAll : List Tree → List Text
  | [] => []
  | t :: rest => labels t ++ labelsOfAll rest

end

theorem labelsOfAll_eq (ts : List Tree) : labelsOfAll ts = ts.flatMap labels := by
  induction ts with
  | nil => rfl
  | cons t rest ih => rw [labelsOfAll, ih, List.flatMap_cons]

/-- No label of the tree has a line break. -/
def OneLined (t : Tree) : Prop := ∀ label ∈ t.labels, .char '\n' ∉ label.points

/-- The children of a one-lined tree are one-lined. -/
theorem OneLined.child {name : Text} {attributes : Option (List (Text × Text))}
    {children : List Tree} (h : OneLined (.node name attributes (some children)))
    {t : Tree} (ht : t ∈ children) : OneLined t := by
  intro label hlabel
  refine h label ?_
  rw [labels, labelsOfAll_eq]
  exact List.mem_cons_of_mem _ (List.mem_append_right _ (List.mem_flatMap.2 ⟨t, ht, hlabel⟩))

/-- Attributes without line breaks are written without one. -/
theorem newline_notMem_attributeText {attributes : Option (List (Text × Text))}
    (h : ∀ label ∈ attributeLabels attributes, .char '\n' ∉ label.points) :
    .char '\n' ∉ (attributeText attributes).points := by
  -- Without attributes nothing is written, and no attributes count as none.
  rcases attributes with _ | _ | ⟨first, others⟩
  · exact List.not_mem_nil
  · exact List.not_mem_nil
  · intro hmem
    simp only [attributeText, Text.points_append, List.mem_append] at hmem
    rcases hmem with (hopen | hmid) | hclose
    · exact absurd hopen (by decide)
    · -- Between the brackets are the pairs, and commas between these.
      rcases mem_intercalate hmid with hsep | ⟨text, htext, hc⟩
      · exact absurd hsep (by decide)
      · rcases List.mem_map.1 htext with ⟨⟨key, value⟩, hkv, rfl⟩
        -- Key and value are labels of the node, and the sign between them is no line break.
        have hkey : .char '\n' ∉ key.points :=
          h key (List.mem_flatMap.2 ⟨(key, value), hkv, List.mem_cons_self⟩)
        have hvalue : .char '\n' ∉ value.points :=
          h value (List.mem_flatMap.2 ⟨(key, value), hkv, List.mem_cons_of_mem _
            List.mem_cons_self⟩)
        simp only [Text.points_append, List.mem_append] at hc
        rcases hc with (hc | hc) | hc
        · exact hkey hc
        · exact absurd hc (by decide)
        · exact hvalue hc
    · exact absurd hclose (by decide)

theorem newline_notMem_emptyMark (children : Option (List Tree)) :
    .char '\n' ∉ (emptyMark children).points := by
  rcases children with _ | _ | ⟨first, others⟩
  · exact List.not_mem_nil
  · change .char '\n' ∉ (Text.plain " (empty)").points
    decide
  · exact List.not_mem_nil

/-- The line of a one-lined node has no line break. -/
theorem newline_notMem_line {t : Tree} (h : OneLined t) : .char '\n' ∉ t.line.points := by
  rcases t with ⟨name, attributes, children⟩
  have hname : .char '\n' ∉ name.points := by
    refine h name ?_
    rcases children with _ | children
    · exact List.mem_cons_self
    · exact List.mem_cons_self
  have hattributes : ∀ label ∈ attributeLabels attributes, .char '\n' ∉ label.points := by
    intro label hlabel
    refine h label ?_
    rcases children with _ | children
    · exact List.mem_cons_of_mem _ hlabel
    · exact List.mem_cons_of_mem _ (List.mem_append_left _ hlabel)
  intro hmem
  -- A line is made of the name, the attributes and the mark, in this order.
  simp only [line, Tree.name, Tree.attributes, Tree.children, Text.points_append,
    List.mem_append] at hmem
  rcases hmem with (hc | hc) | hc
  · exact hname hc
  · exact newline_notMem_attributeText hattributes hc
  · exact newline_notMem_emptyMark children hc

/-- An indented line has a line break only if the line has. -/
theorem newline_notMem_indented {text : Text} (h : .char '\n' ∉ text.points) (level step : Int) :
    .char '\n' ∉ (indentation level step ++ text).points := by
  intro hmem
  rw [Text.points_append, indentation, Text.points_plain, String.toList_ofList,
    List.map_replicate, List.mem_append] at hmem
  rcases hmem with hblank | htext
  · exact absurd (List.eq_of_mem_replicate hblank) (by decide)
  · exact h htext

/-! ## Lines -/

mutual

/-- The lines of a tree whose root is at a level: its root, then its children, each with all
    of its own. -/
def lines (level step : Int) : Tree → List Text
  | .node name attributes none =>
    [indentation level step ++ line (.node name attributes none)]
  | .node name attributes (some children) =>
    (indentation level step ++ line (.node name attributes (some children)))
      :: linesOfAll (level + 1) step children

/-- The lines of some trees, one tree after the other. -/
def linesOfAll (level step : Int) : List Tree → List Text
  | [] => []
  | t :: rest => lines level step t ++ linesOfAll level step rest

end

/-- The lines of a row of trees are those of each tree in turn. -/
theorem linesOfAll_eq (level step : Int) (ts : List Tree) :
    linesOfAll level step ts = ts.flatMap (lines level step) := by
  induction ts with
  | nil => rfl
  | cons t rest ih => rw [linesOfAll, ih, List.flatMap_cons]

/-- The lines of a tree start with that of its root, and go on with those of its children. -/
theorem lines_eq (level step : Int) (t : Tree) :
    t.lines level step = (indentation level step ++ t.line)
      :: (t.children.getD []).flatMap (lines (level + 1) step) := by
  rcases t with ⟨name, attributes, _ | children⟩
  · rw [lines]
    rfl
  · rw [lines, linesOfAll_eq]
    rfl

/-- Joining the texts of the children, which are joined already, comes to joining all lines. -/
theorem text_eq_lines (level step : Int) (t : Tree) :
    t.text level step = Text.intercalate "\n" (t.lines level step) := by
  induction t generalizing level with
  | leaf name attributes => rfl
  | branch name attributes children ih =>
      have hchildren : children.map (text (level + 1) step) =
          (children.map (lines (level + 1) step)).map (Text.intercalate "\n") := by
        rw [List.map_map]
        exact List.map_congr_left fun t ht => ih t ht (level + 1)
      rw [text, textsOfAll_eq, hchildren, lines, linesOfAll_eq, List.flatMap_def]
      -- Every child has a line, so no text that is joined comes from an empty row.
      refine intercalate_flatten _ _ fun row hrow => ?_
      rcases List.mem_map.1 hrow with ⟨t, -, rfl⟩
      rw [lines_eq]
      exact List.cons_ne_nil _ _

/-- No line of a one-lined tree has a line break. -/
theorem newline_notMem_lines (step : Int) {t : Tree} (h : OneLined t) (level : Int) :
    ∀ text ∈ t.lines level step, .char '\n' ∉ text.points := by
  induction t generalizing level with
  | leaf name attributes =>
      intro text htext
      rw [lines, List.mem_singleton] at htext
      rw [htext]
      exact newline_notMem_indented (newline_notMem_line h) level step
  | branch name attributes children ih =>
      intro text htext
      rw [lines, linesOfAll_eq, List.mem_cons, List.mem_flatMap] at htext
      rcases htext with rfl | ⟨child, hchild, htext⟩
      · exact newline_notMem_indented (newline_notMem_line h) level step
      · exact ih child hchild (h.child hchild) (level + 1) text htext

/-- A one-lined tree's text comes apart into its lines. -/
theorem splitOn_text {t : Tree} (h : OneLined t) (level step : Int) :
    (t.text level step).points.splitOn (.char '\n') = (t.lines level step).map Text.points := by
  rw [text_eq_lines, Text.points_intercalate]
  refine List.splitOn_intercalate (CodePoint.char '\n') ?_ ?_
  · intro characters hc
    rcases List.mem_map.1 hc with ⟨l, hl, rfl⟩
    exact newline_notMem_lines step h level l hl
  · rw [lines_eq]
    exact List.cons_ne_nil _ _

/-- The text of one-lined trees determines their lines. -/
theorem lines_eq_of_text_eq {t u : Tree} (ht : OneLined t) (hu : OneLined u)
    (level step : Int) (h : t.text level step = u.text level step) :
    t.lines level step = u.lines level step := by
  have hmap : (t.lines level step).map Text.points = (u.lines level step).map Text.points := by
    rw [← splitOn_text ht, ← splitOn_text hu, h]
  exact (List.map_inj_right fun _ _ => Text.points_injective).1 hmap

end Tree

end StageTree
