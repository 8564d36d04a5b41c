import Mathlib.Algebra.Ring.Nat
import Mathlib.Data.List.Basic
import StageTree.Proofs.Tree.Text

/-!
# One Line for Each Node

A tree is printed node by node in preorder: a node, and then its children from the first to the
last, each with all of its own. The printer does not go through such a list. It joins the line of a
node and the texts of its children, which are joined texts themselves, and hands the level down.
`text_eq_lines` says that this comes to joining all lines at once, and `lines_eq_preorder` that the
lines are those of the list: the line of a node depends on the node and its depth alone.

The level and the step may be any integers. A line is indented by their product if it is positive,
and not at all otherwise, so nothing below asks for their signs.

Labels are printed as they are, so a line break in a label breaks a line in two. Without any, the
lines of the text are those of the nodes. In general `length_splitOn_text` counts them: the nodes,
and one more for every line break in a label.

## Main definitions

* `Tree.preorder`: The nodes of a tree in preorder, each with its depth.
* `Tree.caption`: What the line of a node says.
* `lineBreaks`: How many line breaks a text has.

## Theorems

* `Tree.lines_eq_preorder`: The lines of a tree are those of its nodes in preorder.
* `Tree.lineBreaks_line`: The line of a node has the line breaks of its labels.
* `Tree.length_splitOn_text`: How many lines the text of a tree has.
* `Tree.one_line_per_node`: The text of a tree, line by line.
-/

namespace StageTree

/-! ## Counting in joined rows -/

section Counting

variable {α : Type} [BEq α]

theorem count_intercalate (x : α) (separator : List α) (rows : List (List α)) :
    (separator.intercalate rows).count x =
      (rows.map (List.count x)).sum + (rows.length - 1) * separator.count x := by
  -- A separator stands between two rows, so there is one less than there are rows.
  induction rows with
  | nil => simp only [List.intercalate_nil, List.count_nil, List.map_nil, List.sum_nil,
      List.length_nil, Nat.zero_sub, Nat.zero_mul]
  | cons row rest ih =>
      rcases rest with _ | ⟨next, others⟩
      · simp only [List.intercalate_singleton, List.map_cons, List.map_nil, List.sum_cons,
          List.sum_nil, List.length_cons, List.length_nil, Nat.add_zero, Nat.zero_add,
          Nat.sub_self, Nat.zero_mul]
      · rw [List.intercalate_cons_cons, List.count_append, List.count_append, ih]
        simp only [List.map_cons, List.sum_cons, List.length_cons, Nat.add_sub_cancel,
          Nat.succ_mul]
        omega

/-- Splitting gives one part more than there are separators. -/
theorem length_splitOn (x : α) (xs : List α) : (xs.splitOn x).length = xs.count x + 1 := by
  induction xs with
  | nil => rfl
  | cons first rest ih =>
      rw [List.splitOn_cons_eq_if_modifyHead, List.count_cons]
      split
      · rw [List.length_cons, ih]
      · rw [List.length_modifyHead, ih, Nat.add_zero]

end Counting

/-- How many line breaks a text has. -/
def lineBreaks (text : Text) : Nat := text.points.count (.char '\n')

theorem lineBreaks_append (s t : Text) : lineBreaks (s ++ t) = lineBreaks s + lineBreaks t := by
  rw [lineBreaks, Text.points_append, List.count_append, lineBreaks, lineBreaks]

/-- The line breaks of joined texts are those in them and those between them. -/
theorem lineBreaks_intercalate (separator : Text) (texts : List Text) :
    lineBreaks (Text.intercalate separator texts) =
      (texts.map lineBreaks).sum + (texts.length - 1) * lineBreaks separator := by
  rw [lineBreaks, Text.points_intercalate, count_intercalate, List.map_map, List.length_map]
  rfl

namespace Tree

/-! ## Nodes in preorder -/

mutual

/-- The nodes of a tree whose root is at a depth, each with its own depth: the root, then its
    children, each with all of its own. -/
def preorder (depth : Nat) : Tree → List (Nat × Tree)
  | .node name attributes none => [(depth, .node name attributes none)]
  | .node name attributes (some children) =>
    (depth, .node name attributes (some children)) :: preorderOfAll (depth + 1) children

/-- The nodes of some trees, one tree after the other. -/
def preorderOfAll (depth : Nat) : List Tree → List (Nat × Tree)
  | [] => []
  | t :: rest => preorder depth t ++ preorderOfAll depth rest

end

/-- The nodes of a row of trees are those of each tree in turn. -/
theorem preorderOfAll_eq (depth : Nat) (ts : List Tree) :
    preorderOfAll depth ts = ts.flatMap (preorder depth) := by
  induction ts with
  | nil => rfl
  | cons t rest ih => rw [preorderOfAll, ih, List.flatMap_cons]

theorem sizeOfAll_eq (ts : List Tree) : sizeOfAll ts = (ts.map size).sum := by
  induction ts with
  | nil => rfl
  | cons t rest ih => rw [sizeOfAll, ih, List.map_cons, List.sum_cons]

/-- Every node of a tree comes once. -/
theorem length_preorder (t : Tree) (depth : Nat) : (t.preorder depth).length = t.size := by
  induction t generalizing depth with
  | leaf name attributes => rfl
  | branch name attributes children ih =>
      have hchildren : children.map (fun t => (t.preorder (depth + 1)).length) =
          children.map size := List.map_congr_left fun t ht => ih t ht (depth + 1)
      rw [preorder, List.length_cons, preorderOfAll_eq, List.length_flatMap, hchildren, size,
        sizeOfAll_eq]

/-- The lines of a tree are those of its nodes in preorder. -/
theorem lines_eq_preorder (level step : Int) (t : Tree) (depth : Nat) :
    t.lines (level + depth) step =
      (t.preorder depth).map fun node => indentation (level + node.1) step ++ node.2.line := by
  induction t generalizing depth with
  | leaf name attributes => rfl
  | branch name attributes children ih =>
      -- Levels are integers and depths are not, so the next level is written in two ways.
      have hlevel : level + depth + 1 = level + (depth + 1 : Nat) := by omega
      rw [lines, linesOfAll_eq, preorder, preorderOfAll_eq, List.map_cons, List.map_flatMap, hlevel]
      refine congrArg (List.cons _) (List.flatMap_congr fun t ht => ?_)
      exact ih t ht (depth + 1)

/-! ## The line of a node -/

/-- What the line of a node says: its name, its attributes in brackets if it has any, and a mark
    if it is a branch without children. -/
def caption (t : Tree) : Text :=
  let attributes := t.attributes.getD []
  t.name
    ++ (if attributes.isEmpty then .plain ""
      else " [" ++ Text.intercalate ", " (attributes.map fun (key, value) => key ++ "=" ++ value)
        ++ "]")
    ++ (if t.children.any List.isEmpty then .plain " (empty)" else .plain "")

/-- A line shows the name of a node, its attributes, and whether its row of children is empty. -/
theorem line_eq_caption (t : Tree) : t.line = t.caption := by
  rcases t with ⟨name, _ | _ | ⟨first, others⟩, _ | _ | ⟨child, rest⟩⟩ <;> rfl

/-! ## Line breaks -/

/-- The labels of a node are its name and what its attributes are made of. -/
def ownLabels (t : Tree) : List Text := t.name :: attributeLabels t.attributes

/-- The labels of a tree are those of its nodes, one node after the other. -/
theorem labels_eq_preorder (t : Tree) (depth : Nat) :
    t.labels = (t.preorder depth).flatMap fun node => node.2.ownLabels := by
  induction t generalizing depth with
  | leaf name attributes => exact (List.append_nil _).symm
  | branch name attributes children ih =>
      rw [labels, labelsOfAll_eq, preorder, preorderOfAll_eq, List.flatMap_cons,
        List.flatMap_assoc]
      refine congrArg (name :: attributeLabels attributes ++ ·) (List.flatMap_congr fun t ht => ?_)
      exact ih t ht (depth + 1)

/-- The line breaks of attributes are those of their keys and values. -/
theorem lineBreaks_attributeText (attributes : Option (List (Text × Text))) :
    lineBreaks (attributeText attributes) =
      ((attributeLabels attributes).map lineBreaks).sum := by
  -- A sign or a comma adds no break, so only the labels count.
  have hrow (row : List (Text × Text)) :
      (row.map fun (key, value) => lineBreaks (key ++ "=" ++ value)).sum =
        ((attributeLabels (some row)).map lineBreaks).sum := by
    induction row with
    | nil => rfl
    | cons pair others ih =>
        have hsign : lineBreaks "=" = 0 := rfl
        simp only [attributeLabels, List.flatMap_cons, List.map_cons, List.map_append,
          List.sum_cons, List.sum_append, List.map_nil, List.sum_nil] at ih ⊢
        rw [ih, lineBreaks_append, lineBreaks_append, hsign]
        omega
  rcases attributes with _ | _ | ⟨first, others⟩
  · rfl
  · rfl
  · have hopen : lineBreaks " [" = 0 := rfl
    have hclose : lineBreaks "]" = 0 := rfl
    have hcomma : lineBreaks ", " = 0 := rfl
    rw [attributeText, lineBreaks_append, lineBreaks_append, lineBreaks_intercalate, hopen, hclose,
      hcomma, Nat.mul_zero, Nat.zero_add, Nat.add_zero, List.map_map]
    · exact hrow (first :: others)
    · intro hempty
      cases hempty

theorem lineBreaks_emptyMark (children : Option (List Tree)) :
    lineBreaks (emptyMark children) = 0 := by
  rcases children with _ | _ | ⟨child, rest⟩ <;> rfl

theorem lineBreaks_indentation (level step : Int) : lineBreaks (indentation level step) = 0 := by
  rw [lineBreaks, indentation, Text.points_plain, String.toList_ofList, List.map_replicate,
    List.count_replicate, if_neg (by decide)]

/-- The line of a node has the line breaks of its labels. -/
theorem lineBreaks_line (level step : Int) (t : Tree) :
    lineBreaks (indentation level step ++ t.line) = (t.ownLabels.map lineBreaks).sum := by
  rw [line, lineBreaks_append, lineBreaks_append, lineBreaks_append, lineBreaks_indentation,
    lineBreaks_attributeText, lineBreaks_emptyMark, ownLabels, List.map_cons, List.sum_cons]
  omega

/-- The lines of a tree that is printed at a level. -/
theorem lines_eq_map (level step : Int) (t : Tree) : t.lines level step =
    (t.preorder 0).map fun node => indentation (level + node.1) step ++ node.2.line := by
  have hlines := lines_eq_preorder level step t 0
  rwa [Int.natCast_zero, Int.add_zero] at hlines

/-- How many lines the text of a tree has: one for each node, and one more for every line break in
    a label. -/
theorem length_splitOn_text (level step : Int) (t : Tree) :
    ((t.text level step).points.splitOn (.char '\n')).length =
      t.size + (t.labels.map lineBreaks).sum := by
  have hbreaks : ((t.lines level step).map lineBreaks).sum = (t.labels.map lineBreaks).sum := by
    rw [lines_eq_map, labels_eq_preorder t 0, List.map_flatMap, List.map_map, List.flatMap_def,
      List.sum_flatten, List.map_map]
    exact congrArg List.sum (List.map_congr_left fun node _ => lineBreaks_line _ step node.2)
  have hlength : (t.lines level step).length = t.size := by
    rw [lines_eq_map, List.length_map, length_preorder]
  -- There is one break less than lines, so that there is a line at all is needed to count back.
  have hpos : 0 < t.size := by
    rw [← hlength, lines_eq]
    exact Nat.succ_pos _
  have hseparator : lineBreaks "\n" = 1 := rfl
  -- There are the breaks between the lines and those that labels bring along.
  have htext : (t.text level step).points.count (.char '\n') =
      (t.labels.map lineBreaks).sum + (t.size - 1) := by
    change lineBreaks (t.text level step) = _
    rw [text_eq_lines, lineBreaks_intercalate, hbreaks, hlength, hseparator, Nat.mul_one]
  rw [length_splitOn, htext]
  omega

/-- The text of a tree has one line for each node, in preorder, if no label has a line break: blanks
    for the depth, and then what the node says. In general every line break in a label makes one
    line more. A tree has a text as long as there is room for its levels. -/
theorem one_line_per_node (t : Tree) (level step : Int) :
    (OneLined t → (t.text level step).points.splitOn (.char '\n') =
      (t.preorder 0).map fun node =>
        List.replicate ((level + node.1) * step).toNat (.char ' ') ++ node.2.caption.points) ∧
    (t.preorder 0).length = t.size ∧
    ((t.text level step).points.splitOn (.char '\n')).length =
      t.size + (t.labels.map lineBreaks).sum ∧
    (t.text? level step).toOption =
      if t.height ≤ printingLimit then some (t.text level step) else none := by
  refine ⟨fun h => ?_, length_preorder t 0, length_splitOn_text level step t, ?_⟩
  · -- The text is cut where its lines were joined, as no label has a line break.
    rw [splitOn_text h, lines_eq_map, List.map_map]
    refine List.map_congr_left fun node _ => ?_
    rw [Function.comp_apply, Text.points_append, indentation, Text.points_plain,
      String.toList_ofList, List.map_replicate, line_eq_caption]
  · rw [text?]
    split <;> rfl

/-- A branch over a leaf with attributes and a branch without children. -/
def sample : Tree :=
  .branch "Seq'" [.taggedLeaf "Bound(0,1)" [("major", "0"), ("minor", "1")], .branch "Args" []]

/-- With two negative factors the root is indented and its children are not. -/
theorem sample_lined : OneLined sample ∧ (sample.text (-1) (-2)).points.splitOn (.char '\n') =
    [Text.points "  Seq'", Text.points "Bound(0,1) [major=0, minor=1]",
      Text.points "Args (empty)"] := by
  have hlined : OneLined sample := by
    unfold OneLined
    decide
  exact ⟨hlined, ((one_line_per_node sample (-1) (-2)).1 hlined).trans (by decide)⟩

end Tree

end StageTree
