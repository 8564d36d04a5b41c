import StageTree.Analyzed.Display
import StageTree.Parsed.Display
import StageTree.Tree.Printer

/-!
# Induction on Nested Values

Trees and the nodes of the stages hold lists of values of their own kind. The recursors that
come with such types run through the lists element by element, with a second motive for lists.
What is wanted almost always is to know the claim of every element at once, and the principles
here say that: a claim holds of a value if it holds of it whenever it holds of every element of
its lists.

The operations on these values come in pairs for the same reason, one of each pair for lists.
The equations at the end restate the second ones by `List.map` and `List.flatMap`, so that a
proof about them is one about the first.

## Theorems

* `Tree.induct`, `Sexpr.induct`, `Parsed.Expr.induct`, `Analyzed.Expr.induct`: Induction with
  a hypothesis for every element.
* `Tree.textsOfAll_eq`, `Sexpr.trees_eq`, `Parsed.Expr.trees_eq`, `Analyzed.Expr.trees_eq`:
  The operations on lists, elementwise.
-/

namespace StageTree

/-- Induction on trees. -/
@[elab_as_elim, induction_eliminator]
theorem Tree.induct {motive : Tree → Prop}
    (leaf : ∀ name attributes, motive (.node name attributes none))
    (branch : ∀ name attributes children, (∀ t ∈ children, motive t) →
      motive (.node name attributes (some children)))
    (t : Tree) : motive t := by
  -- What is known of the children of a leaf is nothing, and of a branch that all satisfy it.
  refine @Tree.rec motive (fun children => ∀ ts, children = some ts → ∀ t ∈ ts, motive t)
    (fun ts => ∀ t ∈ ts, motive t) ?_ ?_ ?_ ?_ ?_ t
  · intro name attributes children hchildren
    cases children with
    | none => exact leaf name attributes
    | some ts => exact branch name attributes ts (hchildren ts rfl)
  · intro ts hts
    exact absurd hts (by simp only [reduceCtorEq, not_false_eq_true])
  · intro ts hts us hus
    rw [Option.some.injEq] at hus
    rw [← hus]
    exact hts
  · exact List.forall_mem_nil _
  · intro t ts ht hts
    exact List.forall_mem_cons.2 ⟨ht, hts⟩

/-- Induction on reader values. -/
@[elab_as_elim, induction_eliminator]
theorem Sexpr.induct {motive : Sexpr → Prop} (atom : ∀ a, motive (.atom a))
    (vector : ∀ elements, (∀ s ∈ elements, motive s) → motive (.vector elements))
    (pair : ∀ car cdr, motive car → motive cdr → motive (.pair car cdr))
    (s : Sexpr) : motive s :=
  @Sexpr.rec motive (fun elements => ∀ s ∈ elements, motive s) atom vector pair
    (List.forall_mem_nil _) (fun _ _ hs hss => List.forall_mem_cons.2 ⟨hs, hss⟩) s

/-- Induction on parsed expressions. -/
@[elab_as_elim, induction_eliminator]
theorem Parsed.Expr.induct {motive : Parsed.Expr → Prop}
    (const : ∀ value, motive (.const value)) (get : ∀ var, motive (.get var))
    (cond : ∀ test thenBranch elseBranch, motive test → motive thenBranch →
      motive elseBranch → motive (.cond test thenBranch elseBranch))
    (seq : ∀ exprs, (∀ e ∈ exprs, motive e) → motive (.seq exprs))
    (disj : ∀ exprs, (∀ e ∈ exprs, motive e) → motive (.disj exprs))
    (set : ∀ var value, motive value → motive (.set var value))
    (define : ∀ var value, motive value → motive (.define var value))
    (lambda : ∀ params kind body, motive body → motive (.lambda params kind body))
    (apply : ∀ operator args, motive operator → (∀ e ∈ args, motive e) →
      motive (.apply operator args))
    (e : Parsed.Expr) : motive e :=
  @Parsed.Expr.rec motive (fun exprs => ∀ e ∈ exprs, motive e)
    const get cond seq disj set define lambda apply
    (List.forall_mem_nil _) (fun _ _ he hes => List.forall_mem_cons.2 ⟨he, hes⟩) e

/-- Induction on analyzed expressions. -/
@[elab_as_elim, induction_eliminator]
theorem Analyzed.Expr.induct {motive : Analyzed.Expr → Prop}
    (const : ∀ value, motive (.const value)) (get : ∀ var, motive (.get var))
    (cond : ∀ test thenBranch elseBranch, motive test → motive thenBranch →
      motive elseBranch → motive (.cond test thenBranch elseBranch))
    (seq : ∀ exprs, (∀ e ∈ exprs, motive e) → motive (.seq exprs))
    (disj : ∀ exprs, (∀ e ∈ exprs, motive e) → motive (.disj exprs))
    (set : ∀ var value, motive value → motive (.set var value))
    (define : ∀ var value, motive value → motive (.define var value))
    (box : ∀ var, motive (.box var)) (boxGet : ∀ var, motive (.boxGet var))
    (boxSet : ∀ var value, motive value → motive (.boxSet var value))
    (lambda : ∀ params body, motive body → motive (.lambda params body))
    (apply : ∀ operator args kind, motive operator → (∀ e ∈ args, motive e) →
      motive (.apply operator args kind))
    (e : Analyzed.Expr) : motive e :=
  @Analyzed.Expr.rec motive (fun exprs => ∀ e ∈ exprs, motive e)
    const get cond seq disj set define box boxGet boxSet lambda apply
    (List.forall_mem_nil _) (fun _ _ he hes => List.forall_mem_cons.2 ⟨he, hes⟩) e

/-! ## Operations on lists -/

theorem Tree.textsOfAll_eq (level step : Int) (ts : List Tree) :
    textsOfAll level step ts = ts.map (text level step) := by
  induction ts with
  | nil => rfl
  | cons t rest ih => rw [textsOfAll, ih, List.map_cons]

theorem Sexpr.trees_eq (elements : List Sexpr) : trees elements = elements.map tree := by
  induction elements with
  | nil => rfl
  | cons element rest ih => rw [trees, ih, List.map_cons]

theorem Parsed.Expr.trees_eq (exprs : List Parsed.Expr) : trees exprs = exprs.map tree := by
  induction exprs with
  | nil => rfl
  | cons e rest ih => rw [trees, ih, List.map_cons]

theorem Analyzed.Expr.trees_eq (exprs : List Analyzed.Expr) :
    trees exprs = exprs.map tree := by
  induction exprs with
  | nil => rfl
  | cons e rest ih => rw [trees, ih, List.map_cons]

end StageTree
