import StageTree.Proofs.Wire.Room
import StageTree.Term.Recognise

/-!
# Recognising Nodes

A term is recognised as a node exactly if it is that node and there is room for it. So nothing
is lost and nothing is made up on the way from a node to a term and back, and what is read
from a document can be shown without another failure than the lack of room.

Recognising is defined by the room, with less of it for the elements of lists than for other
parts. One level of a term is looked at with its parts left open (`sexprFrom`, `parsedFrom`,
`analyzedFrom`), so what is proved of a level knows nothing of room but what is assumed of
the parts, and `recognises_of_step` goes from levels to terms.

## Main definitions

* `recogniseItem`: How the elements of a list are recognised.
* `Recognises`: A term is recognised exactly if it is a value that there is room for.

## Theorems

* `recognises_of_step`: From the parts of terms to whole terms.
* `sexpr?_recognises`, `parsed?_recognises`, `analyzed?_recognises`: The stages' nodes.
* `node?_eq_ok_iff`: The same for all stages.
-/

namespace StageTree

open Wire (bind_eq_ok pure_eq_ok deepest)

variable {α : Type} {room : Nat}

/-! ## Lists -/

theorem Sexpr.toTerms_eq (elements : List Sexpr) : toTerms elements = elements.map toTerm := by
  induction elements with
  | nil => rfl
  | cons element rest ih => rw [toTerms, ih, List.map_cons]

theorem Parsed.Expr.toTerms_eq (exprs : List Parsed.Expr) :
    toTerms exprs = exprs.map toTerm := by
  induction exprs with
  | nil => rfl
  | cons e rest ih => rw [toTerms, ih, List.map_cons]

theorem Analyzed.Expr.toTerms_eq (exprs : List Analyzed.Expr) :
    toTerms exprs = exprs.map toTerm := by
  induction exprs with
  | nil => rfl
  | cons e rest ih => rw [toTerms, ih, List.map_cons]

theorem misfit_ne_ok (place : Place) (t : Term) (a : α) : Term.misfit place t ≠ .ok a := nofun

/-- A term is recognised exactly if it is a value that there is room for. -/
def Recognises (recognise : Term → Recognised α) (toTerm : α → Term) (need : α → Nat)
    (room : Nat) : Prop :=
  ∀ t a, recognise t = .ok a ↔ t = toTerm a ∧ need a ≤ room

/-- A list of terms is recognised exactly if its terms are, and the deepest decides the room. -/
theorem recogniseAll_eq_ok {recognise : Term → Recognised α} {toTerm : α → Term}
    {need : α → Nat} (h : Recognises recognise toTerm need room) {ts : List Term}
    {as : List α} :
    recogniseAll recognise ts = .ok as ↔ ts = as.map toTerm ∧ deepest need as ≤ room := by
  induction ts generalizing as with
  | nil =>
      rw [recogniseAll, Except.ok.injEq]
      cases as with
      | nil => exact ⟨fun _ => ⟨rfl, Nat.zero_le room⟩, fun _ => rfl⟩
      | cons a rest => exact ⟨nofun, nofun⟩
  | cons t ts ih =>
      rw [recogniseAll]
      simp only [bind_eq_ok, pure_eq_ok]
      constructor
      · rintro ⟨a, ha, others, hothers, rfl⟩
        rcases (h t a).1 ha with ⟨rfl, hneed⟩
        rcases ih.1 hothers with ⟨rfl, hrest⟩
        exact ⟨rfl, Nat.max_le.2 ⟨hneed, hrest⟩⟩
      · rintro ⟨hts, hneed⟩
        cases as with
        | nil => cases hts
        | cons a others =>
            rw [List.map_cons, List.cons.injEq] at hts
            -- The room that the deepest takes is enough for each.
            have hboth := Nat.max_le.1 hneed
            exact ⟨a, (h t a).2 ⟨hts.1, hboth.1⟩, others, ih.2 ⟨hts.2, hboth.2⟩, rfl⟩

/-! ## Levels -/

/-- How the elements of a list are recognised: two units of room further down than other
    parts. -/
def recogniseItem (recognise : Nat → Term → Recognised α) : Nat → Term → Recognised α
  | room + 2 => recognise room
  | _ => fun _ => .error .tooDeep

/-- An item of a list is recognised with the room of a step into a list less. -/
theorem recogniseItem_recognises {recognise : Nat → Term → Recognised α} {toTerm : α → Term}
    {need : α → Nat} (h : ∀ below ≤ room, Recognises (recognise below) toTerm need below)
    (hpos : ∀ a, 0 < need a) :
    Recognises (recogniseItem recognise room) toTerm (fun a => need a + listStep) (room + 1) := by
  intro t a
  have hneed := hpos a
  -- With less than two units there is no room for an item at all.
  rcases room with _ | _ | below
  · refine ⟨nofun, fun ha => ?_⟩
    have hroom : need a + 3 ≤ 1 := ha.2
    omega
  · refine ⟨nofun, fun ha => ?_⟩
    have hroom : need a + 3 ≤ 2 := ha.2
    omega
  · refine (h below (by omega) t a).trans (and_congr_right fun _ => ?_)
    exact (Nat.add_le_add_iff_right (n := 3)).symm

/-- Terms are recognised if they are given that their parts are. -/
theorem recognises_of_step {recognise : Nat → Term → Recognised α} {toTerm : α → Term}
    {need : α → Nat} (hzero : ∀ t, recognise 0 t = .error .tooDeep) (hpos : ∀ a, 0 < need a)
    (hstep : ∀ room, Recognises (recognise room) toTerm need room →
      Recognises (recogniseItem recognise room) toTerm (fun a => need a + listStep) (room + 1) →
      Recognises (recognise (room + 1)) toTerm need (room + 1))
    (room : Nat) : Recognises (recognise room) toTerm need room := by
  -- Items of a list take more room than one level, so the induction has to reach further back.
  induction room using Nat.strongRecOn with
  | _ room ih =>
    cases room with
    | zero =>
        intro t a
        have hneed := hpos a
        rw [hzero]
        exact ⟨nofun, fun ha => by omega⟩
    | succ room =>
        have hpart := ih room (Nat.lt_succ_self room)
        refine hstep room hpart (recogniseItem_recognises (fun below hbelow => ?_) hpos)
        exact ih below (Nat.lt_succ_of_le hbelow)

namespace Term

/-! ## Reader values -/

/-- With one more unit of room a value is recognised by its form. -/
theorem sexpr?_succ (room : Nat) (t : Term) :
    sexpr? (room + 1) t = sexprFrom (sexpr? room) (recogniseItem sexpr? room) t := by
  rcases room with _ | _ | room <;> rfl

/-- Reader values are recognised, if their parts are. -/
theorem sexprFrom_recognises {part element : Term → Recognised Sexpr}
    (hpart : Recognises part Sexpr.toTerm Sexpr.nesting room)
    (hitem : Recognises element Sexpr.toTerm (fun s => s.nesting + listStep) (room + 1)) :
    Recognises (sexprFrom part element) Sexpr.toTerm Sexpr.nesting (room + 1) := by
  intro t s
  constructor
  · intro h
    unfold sexprFrom at h
    split at h
    · cases h
      exact ⟨rfl, by rw [Sexpr.nesting]; omega⟩
    · simp only [bind_eq_ok, pure_eq_ok] at h
      rcases h with ⟨elements, helements, rfl⟩
      rcases (recogniseAll_eq_ok hitem).1 helements with ⟨rfl, hneed⟩
      rw [Sexpr.toTerm, Sexpr.toTerms_eq, Sexpr.nesting, Wire.nestingOfElements_eq]
      exact ⟨rfl, by omega⟩
    · simp only [bind_eq_ok, pure_eq_ok] at h
      rcases h with ⟨car, hcar, cdr, hcdr, rfl⟩
      rcases (hpart _ _).1 hcar with ⟨rfl, hcarNeed⟩
      rcases (hpart _ _).1 hcdr with ⟨rfl, hcdrNeed⟩
      exact ⟨rfl, by rw [Sexpr.nesting]; omega⟩
    · exact absurd h (misfit_ne_ok _ _ _)
  · rintro ⟨rfl, hneed⟩
    -- What is given is a value now, and its parts have less need than the whole.
    cases s with
    | atom a => rfl
    | vector elements =>
        rw [Sexpr.nesting, Wire.nestingOfElements_eq] at hneed
        rw [Sexpr.toTerm, Sexpr.toTerms_eq, sexprFrom, bind_eq_ok]
        exact ⟨elements, (recogniseAll_eq_ok hitem).2 ⟨rfl, by omega⟩, rfl⟩
    | pair car cdr =>
        rw [Sexpr.nesting] at hneed
        have hcar := (hpart car.toTerm car).2 ⟨rfl, by omega⟩
        have hcdr := (hpart cdr.toTerm cdr).2 ⟨rfl, by omega⟩
        rw [Sexpr.toTerm, sexprFrom, hcar, hcdr]
        rfl

/-- A term is recognised as a reader value exactly if it is one that there is room for. -/
theorem sexpr?_recognises (room : Nat) :
    Recognises (sexpr? room) Sexpr.toTerm Sexpr.nesting room :=
  recognises_of_step (fun _ => rfl) Wire.sexpr_nesting_pos
    (fun room hpart hitem t s => by
      rw [sexpr?_succ]
      exact sexprFrom_recognises hpart hitem t s) room

/-! ## Parsed expressions -/

/-- Variables of the second stage are recognised, and nothing else as one. -/
theorem parsedVar?_eq_ok {t : Term} {var : VarName} :
    parsedVar? t = .ok var ↔ t = .parsedVar var := by
  unfold parsedVar?
  split
  · rw [Except.ok.injEq, Term.parsedVar.injEq]
  · rename_i hother
    exact ⟨fun h => absurd h (misfit_ne_ok _ _ _), fun h => absurd h (hother var)⟩

/-- Kinds of parameter lists are recognised, and nothing else as one. -/
theorem lambdaKind?_eq_ok {t : Term} {kind : Parsed.LambdaKind} :
    lambdaKind? t = .ok kind ↔ t = .lambdaKind kind := by
  unfold lambdaKind?
  split
  · rw [Except.ok.injEq, Term.lambdaKind.injEq]
  · rename_i hother
    exact ⟨fun h => absurd h (misfit_ne_ok _ _ _), fun h => absurd h (hother kind)⟩

theorem parsed?_succ (room : Nat) (t : Term) :
    parsed? (room + 1) t =
      parsedFrom (sexpr? room) (parsed? room) (recogniseItem parsed? room) t := by
  rcases room with _ | _ | room <;> rfl

/-- Expressions of the second stage are recognised, if their parts are. -/
theorem parsedFrom_recognises {value : Term → Recognised Sexpr}
    {part element : Term → Recognised Parsed.Expr}
    (hvalue : Recognises value Sexpr.toTerm Sexpr.nesting room)
    (hpart : Recognises part Parsed.Expr.toTerm Parsed.Expr.nesting room)
    (hitem : Recognises element Parsed.Expr.toTerm (fun e => e.nesting + listStep) (room + 1)) :
    Recognises (parsedFrom value part element) Parsed.Expr.toTerm Parsed.Expr.nesting
      (room + 1) := by
  intro t e
  constructor
  · intro h
    cases t with
    | parsedConst s =>
        -- A constant is a value of the first stage, and its room is counted there.
        simp only [parsedFrom, bind_eq_ok, pure_eq_ok, hvalue _ _] at h
        rcases h with ⟨s, ⟨rfl, hs⟩, rfl⟩
        exact ⟨rfl, Nat.succ_le_succ hs⟩
    | parsedGet var =>
        simp only [parsedFrom, bind_eq_ok, pure_eq_ok, parsedVar?_eq_ok] at h
        rcases h with ⟨var, rfl, rfl⟩
        exact ⟨rfl, Nat.succ_le_succ (Nat.zero_le room)⟩
    | parsedCond test thenBranch elseBranch =>
        simp only [parsedFrom, bind_eq_ok, pure_eq_ok, hpart _ _] at h
        rcases h with ⟨test, ⟨rfl, ht⟩, a, ⟨rfl, ha⟩, b, ⟨rfl, hb⟩, rfl⟩
        exact ⟨rfl, by rw [Parsed.Expr.nesting]; omega⟩
    | parsedSeq exprs | parsedDisj exprs =>
        simp only [parsedFrom, bind_eq_ok, pure_eq_ok, recogniseAll_eq_ok hitem] at h
        rcases h with ⟨exprs, ⟨rfl, hexprs⟩, rfl⟩
        rw [Parsed.Expr.toTerm, Parsed.Expr.toTerms_eq, Parsed.Expr.nesting,
          Wire.parsed_nestingOfAll_eq]
        exact ⟨rfl, by omega⟩
    | parsedSet var e | parsedDefine var e =>
        simp only [parsedFrom, bind_eq_ok, pure_eq_ok, parsedVar?_eq_ok, hpart _ _] at h
        rcases h with ⟨var, rfl, e, ⟨rfl, he⟩, rfl⟩
        exact ⟨rfl, Nat.succ_le_succ he⟩
    | parsedLambda params kind body =>
        simp only [parsedFrom, bind_eq_ok, pure_eq_ok, lambdaKind?_eq_ok, hpart _ _] at h
        rcases h with ⟨kind, rfl, body, ⟨rfl, hbody⟩, rfl⟩
        exact ⟨rfl, Nat.succ_le_succ hbody⟩
    | parsedApply operator args =>
        simp only [parsedFrom, bind_eq_ok, pure_eq_ok, recogniseAll_eq_ok hitem, hpart _ _] at h
        rcases h with ⟨operator, ⟨rfl, hoperator⟩, args, ⟨rfl, hargs⟩, rfl⟩
        rw [Parsed.Expr.toTerm, Parsed.Expr.toTerms_eq, Parsed.Expr.nesting,
          Wire.parsed_nestingOfAll_eq]
        exact ⟨rfl, by omega⟩
    | _ => exact absurd h (misfit_ne_ok _ _ _)
  · -- As in the second stage, the parts have enough room because the whole has.
    rintro ⟨rfl, hneed⟩
    -- In the other direction the parts have enough room, since the whole has.
    have hpartOk {e : Parsed.Expr} (he : e.nesting ≤ room) : part e.toTerm = .ok e :=
      (hpart _ _).2 ⟨rfl, he⟩
    have hitemsOk {es : List Parsed.Expr}
        (hes : deepest (fun e => e.nesting + listStep) es ≤ room + 1) :
        recogniseAll element (es.map Parsed.Expr.toTerm) = .ok es :=
      (recogniseAll_eq_ok hitem).2 ⟨rfl, hes⟩
    cases e with
    | const s =>
        rw [Parsed.Expr.toTerm, parsedFrom, (hvalue _ _).2 ⟨rfl, Nat.le_of_succ_le_succ hneed⟩]
        rfl
    | get var => rfl
    | cond test thenBranch elseBranch =>
        rw [Parsed.Expr.nesting] at hneed
        rw [Parsed.Expr.toTerm, parsedFrom, hpartOk (by omega), hpartOk (by omega),
          hpartOk (by omega)]
        rfl
    | seq exprs | disj exprs =>
        rw [Parsed.Expr.nesting, Wire.parsed_nestingOfAll_eq] at hneed
        rw [Parsed.Expr.toTerm, Parsed.Expr.toTerms_eq, parsedFrom, hitemsOk (by omega)]
        rfl
    | set var e | define var e =>
        rw [Parsed.Expr.toTerm, parsedFrom, hpartOk (Nat.le_of_succ_le_succ hneed)]
        rfl
    | lambda params kind body =>
        rw [Parsed.Expr.toTerm, parsedFrom, hpartOk (Nat.le_of_succ_le_succ hneed)]
        rfl
    | apply operator args =>
        rw [Parsed.Expr.nesting, Wire.parsed_nestingOfAll_eq] at hneed
        rw [Parsed.Expr.toTerm, Parsed.Expr.toTerms_eq, parsedFrom, hpartOk (by omega),
          hitemsOk (by omega)]
        rfl

/-- A term is recognised as a parsed expression exactly if it is one that there is room for. -/
theorem parsed?_recognises (room : Nat) :
    Recognises (parsed? room) Parsed.Expr.toTerm Parsed.Expr.nesting room :=
  recognises_of_step (fun _ => rfl) Wire.parsed_nesting_pos
    (fun room hpart hitem t e => by
      rw [parsed?_succ]
      exact parsedFrom_recognises (sexpr?_recognises room) hpart hitem t e) room

/-! ## Analyzed expressions -/

/-- Addresses are recognised, and nothing else as one. -/
theorem address?_eq_ok {t : Term} {home : Analyzed.Address} :
    address? t = .ok home ↔ t = .address home := by
  unfold address?
  split
  · rw [Except.ok.injEq, Term.address.injEq]
  · rename_i hother
    exact ⟨fun h => absurd h (misfit_ne_ok _ _ _), fun h => absurd h (hother home)⟩

/-- Kinds of calls are recognised, and nothing else as one. -/
theorem callKind?_eq_ok {t : Term} {kind : Analyzed.CallKind} :
    callKind? t = .ok kind ↔ t = .callKind kind := by
  unfold callKind?
  split
  · rw [Except.ok.injEq, Term.callKind.injEq]
  · rename_i hother
    exact ⟨fun h => absurd h (misfit_ne_ok _ _ _), fun h => absurd h (hother kind)⟩

/-- Variables of the third stage are recognised, and nothing else as one. -/
theorem analyzedVar?_eq_ok {t : Term} {var : Analyzed.Var} :
    analyzedVar? t = .ok var ↔ t = var.toTerm := by
  unfold analyzedVar?
  split
  · rename_i name home
    simp only [bind_eq_ok, pure_eq_ok, address?_eq_ok, Analyzed.Var.toTerm,
      Term.analyzedVar.injEq]
    constructor
    · rintro ⟨home, rfl, rfl⟩
      exact ⟨rfl, rfl⟩
    · rintro ⟨rfl, rfl⟩
      exact ⟨var.address, rfl, rfl⟩
  · rename_i hother
    exact ⟨fun h => absurd h (misfit_ne_ok _ _ _), fun h => absurd h (hother _ _)⟩

theorem analyzed?_succ (room : Nat) (t : Term) :
    analyzed? (room + 1) t =
      analyzedFrom (sexpr? room) (analyzed? room) (recogniseItem analyzed? room) t := by
  rcases room with _ | _ | room <;> rfl

/-- Expressions of the third stage are recognised, if their parts are. -/
theorem analyzedFrom_recognises {value : Term → Recognised Sexpr}
    {part element : Term → Recognised Analyzed.Expr}
    (hvalue : Recognises value Sexpr.toTerm Sexpr.nesting room)
    (hpart : Recognises part Analyzed.Expr.toTerm Analyzed.Expr.nesting room)
    (hitem : Recognises element Analyzed.Expr.toTerm (fun e => e.nesting + listStep)
      (room + 1)) :
    Recognises (analyzedFrom value part element) Analyzed.Expr.toTerm Analyzed.Expr.nesting
      (room + 1) := by
  intro t e
  constructor
  · intro h
    cases t with
    -- The cases are those of the second stage, with boxes and the kinds of calls added.
    | analyzedConst s =>
        simp only [analyzedFrom, bind_eq_ok, pure_eq_ok, hvalue _ _] at h
        rcases h with ⟨s, ⟨rfl, hs⟩, rfl⟩
        exact ⟨rfl, Nat.succ_le_succ hs⟩
    -- The three ways to look a variable up are recognised alike.
    | analyzedGet var | analyzedBox var | analyzedBoxGet var =>
        simp only [analyzedFrom, bind_eq_ok, pure_eq_ok, analyzedVar?_eq_ok] at h
        rcases h with ⟨var, rfl, rfl⟩
        exact ⟨rfl, Nat.succ_le_succ (Nat.zero_le room)⟩
    | analyzedCond test thenBranch elseBranch =>
        simp only [analyzedFrom, bind_eq_ok, pure_eq_ok, hpart _ _] at h
        rcases h with ⟨test, ⟨rfl, ht⟩, a, ⟨rfl, ha⟩, b, ⟨rfl, hb⟩, rfl⟩
        exact ⟨rfl, by rw [Analyzed.Expr.nesting]; omega⟩
    | analyzedSeq exprs | analyzedDisj exprs =>
        simp only [analyzedFrom, bind_eq_ok, pure_eq_ok, recogniseAll_eq_ok hitem] at h
        rcases h with ⟨exprs, ⟨rfl, hexprs⟩, rfl⟩
        rw [Analyzed.Expr.toTerm, Analyzed.Expr.toTerms_eq, Analyzed.Expr.nesting,
          Wire.analyzed_nestingOfAll_eq]
        exact ⟨rfl, by omega⟩
    | analyzedSet var e | analyzedDefine var e | analyzedBoxSet var e =>
        simp only [analyzedFrom, bind_eq_ok, pure_eq_ok, analyzedVar?_eq_ok, hpart _ _] at h
        rcases h with ⟨var, rfl, e, ⟨rfl, he⟩, rfl⟩
        exact ⟨rfl, Nat.succ_le_succ he⟩
    | analyzedLambda params body =>
        simp only [analyzedFrom, bind_eq_ok, pure_eq_ok, hpart _ _] at h
        rcases h with ⟨body, ⟨rfl, hbody⟩, rfl⟩
        exact ⟨rfl, Nat.succ_le_succ hbody⟩
    | analyzedApply operator args kind =>
        simp only [analyzedFrom, bind_eq_ok, pure_eq_ok, recogniseAll_eq_ok hitem, hpart _ _,
          callKind?_eq_ok] at h
        rcases h with ⟨operator, ⟨rfl, hoperator⟩, args, ⟨rfl, hargs⟩, kind, rfl, rfl⟩
        rw [Analyzed.Expr.toTerm, Analyzed.Expr.toTerms_eq, Analyzed.Expr.nesting,
          Wire.analyzed_nestingOfAll_eq]
        exact ⟨rfl, by omega⟩
    | _ => exact absurd h (misfit_ne_ok _ _ _)
  · rintro ⟨rfl, hneed⟩
    have hpartOk {e : Analyzed.Expr} (he : e.nesting ≤ room) : part e.toTerm = .ok e :=
      (hpart _ _).2 ⟨rfl, he⟩
    have hitemsOk {es : List Analyzed.Expr}
        (hes : deepest (fun e => e.nesting + listStep) es ≤ room + 1) :
        recogniseAll element (es.map Analyzed.Expr.toTerm) = .ok es :=
      (recogniseAll_eq_ok hitem).2 ⟨rfl, hes⟩
    cases e with
    | const s =>
        rw [Analyzed.Expr.toTerm, analyzedFrom,
          (hvalue _ _).2 ⟨rfl, Nat.le_of_succ_le_succ hneed⟩]
        rfl
    | get var | box var | boxGet var => rfl
    | cond test thenBranch elseBranch =>
        rw [Analyzed.Expr.nesting] at hneed
        rw [Analyzed.Expr.toTerm, analyzedFrom, hpartOk (by omega), hpartOk (by omega),
          hpartOk (by omega)]
        rfl
    | seq exprs | disj exprs =>
        rw [Analyzed.Expr.nesting, Wire.analyzed_nestingOfAll_eq] at hneed
        rw [Analyzed.Expr.toTerm, Analyzed.Expr.toTerms_eq, analyzedFrom, hitemsOk (by omega)]
        rfl
    | set var e | define var e | boxSet var e =>
        rw [Analyzed.Expr.toTerm, analyzedFrom, hpartOk (Nat.le_of_succ_le_succ hneed)]
        rfl
    | lambda params body =>
        rw [Analyzed.Expr.toTerm, analyzedFrom, hpartOk (Nat.le_of_succ_le_succ hneed)]
        rfl
    | apply operator args kind =>
        rw [Analyzed.Expr.nesting, Wire.analyzed_nestingOfAll_eq] at hneed
        rw [Analyzed.Expr.toTerm, Analyzed.Expr.toTerms_eq, analyzedFrom, hpartOk (by omega),
          hitemsOk (by omega)]
        rfl

/-- A term is recognised as an analyzed expression exactly if it is one that there is room
    for. -/
theorem analyzed?_recognises (room : Nat) :
    Recognises (analyzed? room) Analyzed.Expr.toTerm Analyzed.Expr.nesting room :=
  recognises_of_step (fun _ => rfl) Wire.analyzed_nesting_pos
    (fun room hpart hitem t e => by
      rw [analyzed?_succ]
      exact analyzedFrom_recognises (sexpr?_recognises room) hpart hitem t e) room

/-! ## Nodes -/

/-- A term is recognised as a node exactly if it is one that there is room for. -/
theorem node?_eq_ok_iff {stage : Stage} {t : Term} {node : stage.Node} :
    t.node? stage room = .ok node ↔ t = stage.toTerm node ∧ stage.nesting node ≤ room := by
  cases stage with
  | reader => exact sexpr?_recognises room t node
  | tagParser => exact parsed?_recognises room t node
  | semanticAnalyzer => exact analyzed?_recognises room t node

end Term

end StageTree
