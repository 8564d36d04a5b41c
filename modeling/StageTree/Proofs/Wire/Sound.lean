import StageTree.Proofs.Wire.Room

/-!
# Soundness of Reading

What is read has the form that it was read by. Together with what is known of the room that a
form takes this says which documents are read, and as what.

A reader that goes down into a value is given the readers for the parts of a node. That these
are sound is an assumption about the node's reader, and the induction on the room that
discharges it is the same for every stage.

## Main definitions

* `Sound`: What a reader gives has its form.

## Theorems

* `sexprNode_sound`, `parsedNode_sound`, `analyzedNode_sound`: One node, given its parts.
* `sexpr_sound`, `parsed_sound`, `analyzed_sound`: Whole documents.
-/

namespace StageTree

namespace Wire

variable {α : Type} {room : Nat} {j : Json}

/-- What a reader gives has its form. -/
def Sound (read : Json → Reading α) (Form : Json → α → Prop) : Prop :=
  ∀ j a, read j = .ok a → Form j a

section Parts

variable {read : Json → Reading α} {Form : Json → α → Prop}

/-- A field that is read is there, and it has the form that its reader stands for. -/
theorem Sound.onField (hread : Sound read Form) {node : Node} (hnode : IsNode j node)
    {key : Text} {a : α} (h : onField room node key read = .ok a) :
    ∃ part, HasField j key part ∧ Form part a := by
  rcases (onField_eq_ok hnode).1 h with ⟨part, hpart, ha⟩
  exact ⟨part, hpart, hread part a ha⟩

/-- A list that is read is a list, and its items have their forms. -/
theorem Sound.onList (hread : Sound read Form) {as : List α}
    (h : onList room read j = .ok as) :
    ∃ items, IsList j items ∧ List.Forall₂ Form items as := by
  rcases onList_eq_ok.1 h with ⟨items, hitems, has⟩
  exact ⟨items, hitems, has.imp hread⟩

/-- A field that is read as a list is one, and its items have their forms. -/
theorem Sound.listField (hread : Sound read Form) {node : Node} (hnode : IsNode j node)
    {key : Text} {rest : Nat} {as : List α}
    (h : Wire.onField room node key (Wire.onList rest read) = .ok as) :
    ∃ part items, HasField j key part ∧ IsList part items ∧ List.Forall₂ Form items as := by
  rcases (onField_eq_ok hnode).1 h with ⟨part, hpart, ha⟩
  rcases hread.onList ha with ⟨items, hitems, has⟩
  exact ⟨part, items, hpart, hitems, has⟩

end Parts

/-- A reader that is sound where there is less room is sound, if its nodes are read soundly
    from sound parts. -/
theorem sound_of_step {read : Nat → Json → Reading α} {Form : Json → α → Prop}
    (hzero : ∀ j a, read 0 j ≠ .ok a)
    (hstep : ∀ room, Sound (read room) Form → Sound (readItem read room) Form →
      Sound (read (room + 1)) Form)
    (room : Nat) : Sound (read room) Form := by
  induction room using Nat.strongRecOn with
  | _ room ih =>
    intro j a h
    cases room with
    | zero => exact absurd h (hzero j a)
    | succ room =>
        -- Parts are read with one unit less, and items of lists with three units less.
        refine hstep room (ih room (Nat.lt_succ_self room)) ?_ j a h
        intro item value hitem
        rcases readItem_cases read room with ⟨below, rfl, hread⟩ | ⟨_, hread⟩
        · rw [hread] at hitem
          exact ih below (by omega) item value hitem
        · cases (hread item).symm.trans hitem

/-! ## Reader values -/

-- One case for each tag. In each the fields that were read are found in the document, and their
-- readers say which form they have.
theorem sexprNode_sound {part element : Json → Reading Sexpr} (hpart : Sound part Denotes)
    (helement : Sound element Denotes) {node : Node} (hnode : IsNode j node) {s : Sexpr}
    (h : sexprNode room part element node = .ok s) : Denotes j s := by
  unfold sexprNode at h
  split at h
  · rename_i htag
    cases pure_eq_ok.1 h
    exact .void (htag ▸ hnode.tag)
  · rename_i htag
    cases pure_eq_ok.1 h
    exact .nil (htag ▸ hnode.tag)
  · rename_i htag
    rcases bind_eq_ok.1 h with ⟨numerator, hnum, h⟩
    rcases bind_eq_ok.1 h with ⟨denominator, hden, h⟩
    cases pure_eq_ok.1 h
    exact .rational (htag ▸ hnode.tag) ((onField_iff_hasField hnode integer_eq_ok).1 hnum)
      ((onField_iff_hasField hnode integer_eq_ok).1 hden)
  · rename_i htag
    rcases bind_eq_ok.1 h with ⟨value, hvalue, h⟩
    cases pure_eq_ok.1 h
    exact .char (htag ▸ hnode.tag) ((onValue_iff_hasValue hnode text_eq_ok).1 hvalue)
  · rename_i htag
    rcases bind_eq_ok.1 h with ⟨value, hvalue, h⟩
    cases pure_eq_ok.1 h
    exact .string (htag ▸ hnode.tag) ((onValue_iff_hasValue hnode text_eq_ok).1 hvalue)
  · rename_i htag
    rcases bind_eq_ok.1 h with ⟨value, hvalue, h⟩
    cases pure_eq_ok.1 h
    exact .symbol (htag ▸ hnode.tag) ((onValue_iff_hasValue hnode text_eq_ok).1 hvalue)
  · rcases bind_eq_ok.1 h with ⟨elements, helements, h⟩
    cases pure_eq_ok.1 h
    rw [hnode.whole] at helements
    rcases helement.onList helements with ⟨items, hitems, helements⟩
    exact .vector hitems helements
  · rename_i htag
    rcases bind_eq_ok.1 h with ⟨car, hcar, h⟩
    rcases bind_eq_ok.1 h with ⟨cdr, hcdr, h⟩
    cases pure_eq_ok.1 h
    rcases hpart.onField hnode hcar with ⟨a, ha, hcar⟩
    rcases hpart.onField hnode hcdr with ⟨d, hd, hcdr⟩
    exact .pair (htag ▸ hnode.tag) ha hd hcar hcdr
  · exact absurd h (reject_ne_ok _ _ _)

-- A whole number is only read if the nearest double is finite.
theorem wholeNumber_sound {n : Int} {s : Sexpr} (h : wholeNumber room n = .ok s) :
    Denotes (.int n) s := by
  unfold wholeNumber at h
  by_cases hinfinite : (Binary64.ofInt n).isInfinite = true
  · rw [if_pos hinfinite] at h
    exact absurd h (reject_ne_ok _ _ _)
  · rw [if_neg hinfinite] at h
    cases h
    exact .integer (Bool.eq_false_iff.2 hinfinite)

/-- What is read as a value denotes it. -/
theorem sexpr_sound (room : Nat) : Sound (sexpr room) Denotes := by
  refine sound_of_step (fun j a h => by cases h) ?_ room
  intro room hpart helement j s h
  rcases sexpr_succ_cases room j with ⟨value, rfl, hs⟩ | ⟨value, rfl, hs⟩ | ⟨value, rfl, hs⟩ | hs
  · cases hs.symm.trans h
    exact .boolean value
  · exact wholeNumber_sound (hs.symm.trans h)
  · cases hs.symm.trans h
    exact .float value
  · rcases bind_eq_ok.1 (hs.symm.trans h) with ⟨node, hnode, h⟩
    exact sexprNode_sound hpart helement (nodeOf_eq_ok.1 hnode) h

/-! ## Parsed expressions -/

-- The cases are those of the tags again. A constant is sound by what is known of reader values,
-- however much room it was read with.
theorem parsedNode_sound {part element : Json → Reading Parsed.Expr}
    (hpart : Sound part ParsedForm) (helement : Sound element ParsedForm) {node : Node}
    (hnode : IsNode j node) {e : Parsed.Expr}
    (h : parsedNode room part element node = .ok e) : ParsedForm j e := by
  unfold parsedNode at h
  split at h
  · rename_i htag
    rcases bind_eq_ok.1 h with ⟨value, hvalue, h⟩
    cases pure_eq_ok.1 h
    rcases (sexpr_sound room).onField hnode hvalue with ⟨_, hs, hvalue⟩
    exact .const (htag ▸ hnode.tag) hs hvalue
  · rename_i htag
    rcases bind_eq_ok.1 h with ⟨var, hvar, h⟩
    cases pure_eq_ok.1 h
    rcases (onField_eq_ok hnode).1 hvar with ⟨_, hv, hvar⟩
    exact .get (htag ▸ hnode.tag) hv (parsedVar_eq_ok.1 hvar)
  · rename_i htag
    rcases bind_eq_ok.1 h with ⟨test, htest, h⟩
    rcases bind_eq_ok.1 h with ⟨thenBranch, hthen, h⟩
    rcases bind_eq_ok.1 h with ⟨elseBranch, helse, h⟩
    cases pure_eq_ok.1 h
    rcases hpart.onField hnode htest with ⟨_, ht, htest⟩
    rcases hpart.onField hnode hthen with ⟨_, ha, hthen⟩
    rcases hpart.onField hnode helse with ⟨_, hb, helse⟩
    exact .cond (htag ▸ hnode.tag) ht ha hb htest hthen helse
  · rename_i htag
    rcases bind_eq_ok.1 h with ⟨exprs, hexprs, h⟩
    cases pure_eq_ok.1 h
    rcases helement.listField hnode hexprs with ⟨_, _, hl, hlist, hexprs⟩
    exact .seq (htag ▸ hnode.tag) hl hlist hexprs
  · rename_i htag
    rcases bind_eq_ok.1 h with ⟨exprs, hexprs, h⟩
    cases pure_eq_ok.1 h
    rcases helement.listField hnode hexprs with ⟨_, _, hl, hlist, hexprs⟩
    exact .disj (htag ▸ hnode.tag) hl hlist hexprs
  · rename_i htag
    rcases bind_eq_ok.1 h with ⟨var, hvar, h⟩
    rcases bind_eq_ok.1 h with ⟨value, hvalue, h⟩
    cases pure_eq_ok.1 h
    rcases (onField_eq_ok hnode).1 hvar with ⟨_, hv, hvar⟩
    rcases hpart.onField hnode hvalue with ⟨_, he, hvalue⟩
    exact .set (htag ▸ hnode.tag) hv he (parsedVar_eq_ok.1 hvar) hvalue
  · rename_i htag
    rcases bind_eq_ok.1 h with ⟨var, hvar, h⟩
    rcases bind_eq_ok.1 h with ⟨value, hvalue, h⟩
    cases pure_eq_ok.1 h
    rcases (onField_eq_ok hnode).1 hvar with ⟨_, hv, hvar⟩
    rcases hpart.onField hnode hvalue with ⟨_, he, hvalue⟩
    exact .define (htag ▸ hnode.tag) hv he (parsedVar_eq_ok.1 hvar) hvalue
  · rename_i htag
    rcases bind_eq_ok.1 h with ⟨params, hparams, h⟩
    rcases bind_eq_ok.1 h with ⟨kind, hkind, h⟩
    rcases bind_eq_ok.1 h with ⟨body, hbody, h⟩
    cases pure_eq_ok.1 h
    rcases (onField_eq_ok hnode).1 hparams with ⟨_, hp, hparams⟩
    rcases (onField_eq_ok hnode).1 hkind with ⟨_, hk, hkind⟩
    rcases hpart.onField hnode hbody with ⟨_, hb, hbody⟩
    exact .lambda (htag ▸ hnode.tag) hp hk hb (names_eq_ok.1 hparams) (lambdaKind_eq_ok.1 hkind)
      hbody
  · rename_i htag
    rcases bind_eq_ok.1 h with ⟨operator, hoperator, h⟩
    rcases bind_eq_ok.1 h with ⟨args, hargs, h⟩
    cases pure_eq_ok.1 h
    rcases hpart.onField hnode hoperator with ⟨_, ho, hoperator⟩
    rcases helement.listField hnode hargs with ⟨_, _, hl, hlist, hargs⟩
    exact .apply (htag ▸ hnode.tag) ho hl hoperator hlist hargs
  · exact absurd h (reject_ne_ok _ _ _)

/-- What is read as an expression of the second stage has a form of it. -/
theorem parsed_sound (room : Nat) : Sound (parsed room) ParsedForm := by
  refine sound_of_step (fun j a h => by cases h) ?_ room
  intro room hpart helement j e h
  rw [parsed_succ] at h
  rcases bind_eq_ok.1 h with ⟨node, hnode, h⟩
  exact parsedNode_sound hpart helement (nodeOf_eq_ok.1 hnode) h

/-! ## Analyzed expressions -/

-- Three tags have a variable and nothing else, and three have a variable and a value. They differ
-- only in the expression that is made of them.
theorem analyzedNode_sound {part element : Json → Reading Analyzed.Expr}
    (hpart : Sound part AnalyzedForm) (helement : Sound element AnalyzedForm) {node : Node}
    (hnode : IsNode j node) {e : Analyzed.Expr}
    (h : analyzedNode room part element node = .ok e) : AnalyzedForm j e := by
  unfold analyzedNode at h
  split at h
  · rename_i htag
    rcases bind_eq_ok.1 h with ⟨value, hvalue, h⟩
    cases pure_eq_ok.1 h
    rcases (sexpr_sound room).onField hnode hvalue with ⟨_, hs, hvalue⟩
    exact .const (htag ▸ hnode.tag) hs hvalue
  · rename_i htag
    rcases bind_eq_ok.1 h with ⟨var, hvar, h⟩
    cases pure_eq_ok.1 h
    rcases (onField_eq_ok hnode).1 hvar with ⟨_, hv, hvar⟩
    exact .get (htag ▸ hnode.tag) hv (analyzedVar_eq_ok.1 hvar)
  · rename_i htag
    rcases bind_eq_ok.1 h with ⟨var, hvar, h⟩
    cases pure_eq_ok.1 h
    rcases (onField_eq_ok hnode).1 hvar with ⟨_, hv, hvar⟩
    exact .box (htag ▸ hnode.tag) hv (analyzedVar_eq_ok.1 hvar)
  · rename_i htag
    rcases bind_eq_ok.1 h with ⟨var, hvar, h⟩
    cases pure_eq_ok.1 h
    rcases (onField_eq_ok hnode).1 hvar with ⟨_, hv, hvar⟩
    exact .boxGet (htag ▸ hnode.tag) hv (analyzedVar_eq_ok.1 hvar)
  · rename_i htag
    rcases bind_eq_ok.1 h with ⟨test, htest, h⟩
    rcases bind_eq_ok.1 h with ⟨thenBranch, hthen, h⟩
    rcases bind_eq_ok.1 h with ⟨elseBranch, helse, h⟩
    cases pure_eq_ok.1 h
    rcases hpart.onField hnode htest with ⟨_, ht, htest⟩
    rcases hpart.onField hnode hthen with ⟨_, ha, hthen⟩
    rcases hpart.onField hnode helse with ⟨_, hb, helse⟩
    exact .cond (htag ▸ hnode.tag) ht ha hb htest hthen helse
  · rename_i htag
    rcases bind_eq_ok.1 h with ⟨exprs, hexprs, h⟩
    cases pure_eq_ok.1 h
    rcases helement.listField hnode hexprs with ⟨_, _, hl, hlist, hexprs⟩
    exact .seq (htag ▸ hnode.tag) hl hlist hexprs
  · rename_i htag
    rcases bind_eq_ok.1 h with ⟨exprs, hexprs, h⟩
    cases pure_eq_ok.1 h
    rcases helement.listField hnode hexprs with ⟨_, _, hl, hlist, hexprs⟩
    exact .disj (htag ▸ hnode.tag) hl hlist hexprs
  · rename_i htag
    rcases bind_eq_ok.1 h with ⟨var, hvar, h⟩
    rcases bind_eq_ok.1 h with ⟨value, hvalue, h⟩
    cases pure_eq_ok.1 h
    rcases (onField_eq_ok hnode).1 hvar with ⟨_, hv, hvar⟩
    rcases hpart.onField hnode hvalue with ⟨_, he, hvalue⟩
    exact .set (htag ▸ hnode.tag) hv he (analyzedVar_eq_ok.1 hvar) hvalue
  · rename_i htag
    rcases bind_eq_ok.1 h with ⟨var, hvar, h⟩
    rcases bind_eq_ok.1 h with ⟨value, hvalue, h⟩
    cases pure_eq_ok.1 h
    rcases (onField_eq_ok hnode).1 hvar with ⟨_, hv, hvar⟩
    rcases hpart.onField hnode hvalue with ⟨_, he, hvalue⟩
    exact .define (htag ▸ hnode.tag) hv he (analyzedVar_eq_ok.1 hvar) hvalue
  · rename_i htag
    rcases bind_eq_ok.1 h with ⟨var, hvar, h⟩
    rcases bind_eq_ok.1 h with ⟨value, hvalue, h⟩
    cases pure_eq_ok.1 h
    rcases (onField_eq_ok hnode).1 hvar with ⟨_, hv, hvar⟩
    rcases hpart.onField hnode hvalue with ⟨_, he, hvalue⟩
    exact .boxSet (htag ▸ hnode.tag) hv he (analyzedVar_eq_ok.1 hvar) hvalue
  · rename_i htag
    rcases bind_eq_ok.1 h with ⟨params, hparams, h⟩
    rcases bind_eq_ok.1 h with ⟨body, hbody, h⟩
    cases pure_eq_ok.1 h
    rcases (onField_eq_ok hnode).1 hparams with ⟨_, hp, hparams⟩
    rcases hpart.onField hnode hbody with ⟨_, hb, hbody⟩
    exact .lambda (htag ▸ hnode.tag) hp hb (names_eq_ok.1 hparams) hbody
  · rename_i htag
    rcases bind_eq_ok.1 h with ⟨operator, hoperator, h⟩
    rcases bind_eq_ok.1 h with ⟨args, hargs, h⟩
    rcases bind_eq_ok.1 h with ⟨kind, hkind, h⟩
    cases pure_eq_ok.1 h
    rcases hpart.onField hnode hoperator with ⟨_, ho, hoperator⟩
    rcases helement.listField hnode hargs with ⟨_, _, hl, hlist, hargs⟩
    rcases (onField_eq_ok hnode).1 hkind with ⟨_, hk, hkind⟩
    exact .apply (htag ▸ hnode.tag) ho hl hk hoperator hlist hargs (callKind_eq_ok.1 hkind)
  · exact absurd h (reject_ne_ok _ _ _)

/-- What is read as an expression of the third stage has a form of it. -/
theorem analyzed_sound (room : Nat) : Sound (analyzed room) AnalyzedForm := by
  refine sound_of_step (fun j a h => by cases h) ?_ room
  intro room hpart helement j e h
  rw [analyzed_succ] at h
  rcases bind_eq_ok.1 h with ⟨node, hnode, h⟩
  exact analyzedNode_sound hpart helement (nodeOf_eq_ok.1 hnode) h

end Wire

end StageTree
