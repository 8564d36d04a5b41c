import StageTree.Proofs.Term.Nodes
import StageTree.Session

/-!
# The First Misfit

What a term is refused for. A kind of term declares what stands inside it: a row of fields,
each with the place that it is. Going through a term depth first, a term before what stands
inside it and the fields in their order, gives a row of visits, and this row knows nothing of
recognising: it goes on below terms that do not belong where they stand, and beyond all room.

Recognising stops at the first visit that finds a term where it does not belong, or that takes
more room than there is, and says which. If there is no such visit, it succeeds. Hence every
place counts, no place is looked at too early, and a term is never shown in part.

The proof follows the recursion of recognising. What it carries along is an account
(`Accounts`): the result is that of the first visit that stops it, and a misfit is at a place of
the stage or of the reader.

## Main definitions

* `Term.home`: Where terms of a kind belong.
* `Term.fields`: What stands inside a term, in the order of its declaration.
* `Term.visits`: A term and everything inside it, depth first.
* `Visit.Fits`: The term belongs where it stands.
* `Accounts`: A result is accounted for by a row of visits.

## Theorems

* `Accounts.bind`, `Accounts.recogniseAll`: Accounts of one thing after another.
* `Accounts.eq_tooDeep`: What fits everywhere is refused for the lack of room only.
* `accounts_of_step`: From the parts of terms to whole terms.
* `Session.showTerm_failsFast`: A term is shown exactly if everything in it fits, and otherwise
  the first thing that does not is reported.
-/

namespace StageTree

variable {α β : Type}

/-! ## Fields and visits -/

/-- What stands inside a term, at a place. -/
structure Field where
  place : Place
  /-- The room that entering it takes. -/
  step : Nat
  term : Term

namespace Field

/-- An expression or a reader value inside another. -/
def part (place : Place) (t : Term) : Field := ⟨place, 1, t⟩

/-- One of the expressions or reader values of a list. -/
def item (place : Place) (t : Term) : Field := ⟨place, listStep, t⟩

/-- What makes no level of its own: a variable, an address or a kind. -/
def mark (place : Place) (t : Term) : Field := ⟨place, 0, t⟩

end Field

namespace Term

/-- The place at which terms of a kind belong, if there is one. -/
def home : Term → Option Place
  | .atom _ | .vector _ | .pair _ _ => some .readerValue
  | .parsedVar _ => some .parsedVariable
  | .lambdaKind _ => some .lambdaKind
  | .parsedConst _ | .parsedGet _ | .parsedCond _ _ _ | .parsedSeq _ | .parsedDisj _
  | .parsedSet _ _ | .parsedDefine _ _ | .parsedLambda _ _ _ | .parsedApply _ _ =>
    some .parsedExpression
  | .address _ => some .lexicalAddress
  | .analyzedVar _ _ => some .analyzedVariable
  | .callKind _ => some .callKind
  | .analyzedConst _ | .analyzedGet _ | .analyzedCond _ _ _ | .analyzedSeq _ | .analyzedDisj _
  | .analyzedSet _ _ | .analyzedDefine _ _ | .analyzedBox _ | .analyzedBoxGet _
  | .analyzedBoxSet _ _ | .analyzedLambda _ _ | .analyzedApply _ _ _ => some .analyzedExpression
  | .none | .bool _ | .int _ | .float _ | .str _ | .tuple _ | .list _ | .dict _ | .object
  | .tree _ => Option.none

/-- What stands inside a term, in the order in which its kind declares it. -/
def fields : Term → List Field
  | .vector elements => elements.map (.item .readerValue)
  | .pair car cdr => [.part .readerValue car, .part .readerValue cdr]
  | .parsedConst value => [.part .readerValue value]
  | .parsedGet var => [.mark .parsedVariable var]
  | .parsedCond test thenBranch elseBranch =>
    [.part .parsedExpression test, .part .parsedExpression thenBranch,
      .part .parsedExpression elseBranch]
  | .parsedSeq exprs | .parsedDisj exprs => exprs.map (.item .parsedExpression)
  | .parsedSet var value | .parsedDefine var value =>
    [.mark .parsedVariable var, .part .parsedExpression value]
  | .parsedLambda _ kind body => [.mark .lambdaKind kind, .part .parsedExpression body]
  | .parsedApply operator args =>
    .part .parsedExpression operator :: args.map (.item .parsedExpression)
  | .analyzedVar _ home => [.mark .lexicalAddress home]
  | .analyzedConst value => [.part .readerValue value]
  | .analyzedGet var | .analyzedBox var | .analyzedBoxGet var => [.mark .analyzedVariable var]
  | .analyzedCond test thenBranch elseBranch =>
    [.part .analyzedExpression test, .part .analyzedExpression thenBranch,
      .part .analyzedExpression elseBranch]
  | .analyzedSeq exprs | .analyzedDisj exprs => exprs.map (.item .analyzedExpression)
  | .analyzedSet var value | .analyzedDefine var value | .analyzedBoxSet var value =>
    [.mark .analyzedVariable var, .part .analyzedExpression value]
  | .analyzedLambda _ body => [.part .analyzedExpression body]
  | .analyzedApply operator args kind =>
    .part .analyzedExpression operator ::
      (args.map (.item .analyzedExpression) ++ [.mark .callKind kind])
  | _ => []

/-- An item is smaller than the list it stands in. -/
theorem sizeOf_lt_of_mem_items {place : Place} {ts : List Term} {f : Field}
    (h : f ∈ ts.map (Field.item place)) : sizeOf f.term < sizeOf ts := by
  rcases List.mem_map.1 h with ⟨t, ht, rfl⟩
  exact List.sizeOf_lt_of_mem ht

/-- A field is smaller than the term it stands in, so the visits come to an end. -/
theorem sizeOf_lt_of_mem_fields {t : Term} {f : Field} (h : f ∈ t.fields) :
    sizeOf f.term < sizeOf t := by
  cases t with
  -- The forms are grouped by how many fields they have.
  | vector ts | parsedSeq ts | parsedDisj ts | analyzedSeq ts | analyzedDisj ts =>
      have hitem := sizeOf_lt_of_mem_items h
      simp only [vector.sizeOf_spec, parsedSeq.sizeOf_spec, parsedDisj.sizeOf_spec,
        analyzedSeq.sizeOf_spec, analyzedDisj.sizeOf_spec]
      omega
  | parsedConst u | parsedGet u | analyzedVar name u | analyzedConst u | analyzedGet u
  | analyzedBox u | analyzedBoxGet u | analyzedLambda params u =>
      rw [List.mem_singleton.1 h]
      simp only [Field.part, Field.mark, parsedConst.sizeOf_spec, parsedGet.sizeOf_spec,
        analyzedVar.sizeOf_spec, analyzedConst.sizeOf_spec, analyzedGet.sizeOf_spec,
        analyzedBox.sizeOf_spec, analyzedBoxGet.sizeOf_spec, analyzedLambda.sizeOf_spec]
      omega
  | pair u w | parsedSet u w | parsedDefine u w | parsedLambda params u w | analyzedSet u w
  | analyzedDefine u w | analyzedBoxSet u w =>
      simp only [pair.sizeOf_spec, parsedSet.sizeOf_spec, parsedDefine.sizeOf_spec,
        parsedLambda.sizeOf_spec, analyzedSet.sizeOf_spec, analyzedDefine.sizeOf_spec,
        analyzedBoxSet.sizeOf_spec]
      rcases List.mem_pair.1 h with rfl | rfl <;> simp only [Field.part, Field.mark] <;> omega
  | parsedCond u w x | analyzedCond u w x =>
      simp only [fields, List.mem_cons, List.not_mem_nil, or_false] at h
      simp only [parsedCond.sizeOf_spec, analyzedCond.sizeOf_spec]
      rcases h with rfl | rfl | rfl <;> simp only [Field.part] <;> omega
  | parsedApply u ts =>
      rw [parsedApply.sizeOf_spec]
      rcases List.mem_cons.1 h with rfl | hitem
      · simp only [Field.part]
        omega
      · have hitem := sizeOf_lt_of_mem_items hitem
        omega
  | analyzedApply u ts w =>
      simp only [fields, List.mem_cons, List.mem_append, List.not_mem_nil, or_false] at h
      rw [analyzedApply.sizeOf_spec]
      rcases h with rfl | hitem | rfl
      · simp only [Field.part]
        omega
      · have hitem := sizeOf_lt_of_mem_items hitem
        omega
      · simp only [Field.mark]
        omega
  | _ => cases h

end Term

/-- A term at a place, as it is met when a term around it is gone through. -/
structure Visit where
  /-- The room that has been taken when the term is entered. -/
  need : Nat
  place : Place
  term : Term

/-- The term belongs where it stands. -/
def Visit.Fits (v : Visit) : Prop := v.term.home = some v.place

instance (v : Visit) : Decidable v.Fits := inferInstanceAs (Decidable (_ = _))

/-- A term and everything that stands inside it, depth first. -/
def Term.visits (need : Nat) (place : Place) (t : Term) : List Visit :=
  ⟨need, place, t⟩ ::
    t.fields.attach.flatMap fun ⟨f, _⟩ => f.term.visits (need + f.step) f.place
termination_by t
decreasing_by
  exact Term.sizeOf_lt_of_mem_fields ‹_›

theorem Term.visits_eq (need : Nat) (place : Place) (t : Term) :
    t.visits need place = ⟨need, place, t⟩ ::
      t.fields.flatMap fun f => f.term.visits (need + f.step) f.place := by
  -- The definition keeps the membership of each field, which termination needs and nothing else.
  have hattach := List.flatMap_map (Subtype.val (p := (· ∈ t.fields)))
    (fun f : Field => f.term.visits (need + f.step) f.place) (l := t.fields.attach)
  rw [List.attach_map_subtype_val] at hattach
  rw [visits, hattach]

/-! ## Accounts -/

/-- Why a visit ends the recognition of a term, within a limit of room, if it does. -/
def Visit.stop (limit : Nat) (v : Visit) : Option Misfit :=
  if limit < v.need then some .tooDeep
  else if v.Fits then none
  else some (.unknown v.place v.term.kindName)

/-- There is room for the visit, and the term belongs where it stands. -/
def Visit.Passes (limit : Nat) (v : Visit) : Prop := v.need ≤ limit ∧ v.Fits

instance (limit : Nat) (v : Visit) : Decidable (v.Passes limit) :=
  inferInstanceAs (Decidable (_ ∧ _))

theorem Visit.stop_of_deep {limit : Nat} {v : Visit} (h : limit < v.need) :
    v.stop limit = some .tooDeep := if_pos h

theorem Visit.stop_of_fits {limit : Nat} {v : Visit} (hneed : v.need ≤ limit) (h : v.Fits) :
    v.stop limit = none := by
  rw [stop, if_neg (Nat.not_lt.2 hneed), if_pos h]

theorem Visit.stop_of_not_fits {limit : Nat} {v : Visit} (hneed : v.need ≤ limit)
    (h : ¬v.Fits) : v.stop limit = some (.unknown v.place v.term.kindName) := by
  rw [stop, if_neg (Nat.not_lt.2 hneed), if_neg h]

/-- A visit goes on exactly if it passes. -/
theorem Visit.stop_eq_none_iff {limit : Nat} {v : Visit} :
    v.stop limit = none ↔ v.Passes limit := by
  unfold stop Passes
  split
  · rename_i hdeep
    exact ⟨nofun, fun h => absurd h.1 (Nat.not_le.2 hdeep)⟩
  · rename_i hroom
    split
    · rename_i hfits
      exact ⟨fun _ => ⟨Nat.not_lt.1 hroom, hfits⟩, fun _ => rfl⟩
    · rename_i hfits
      exact ⟨nofun, fun h => absurd h.2 hfits⟩

/-- The reason that ends a recognition is that of the first visit that does not pass. -/
theorem findSome?_stop {limit : Nat} {vs : List Visit} {v : Visit}
    (h : vs.find? (fun u => !u.Passes limit) = some v) :
    vs.findSome? (Visit.stop limit) = v.stop limit := by
  -- All visits before it pass, so none of them gives a reason.
  rcases List.find?_eq_some_iff_append.1 h with ⟨hv, before, after, rfl, hbefore⟩
  have hnone : before.findSome? (Visit.stop limit) = none := by
    refine List.findSome?_eq_none_iff.2 fun u hu => Visit.stop_eq_none_iff.2 ?_
    have hpasses := hbefore u hu
    simp only [Bool.not_not, decide_eq_true_eq] at hpasses
    exact hpasses
  rw [List.findSome?_append, hnone, Option.none_or, List.findSome?_cons]
  cases hstop : v.stop limit with
  | some misfit => rfl
  | none =>
      rw [Visit.stop_eq_none_iff] at hstop
      simp only [hstop, decide_true, Bool.not_true, Bool.false_eq_true] at hv

/-- What a term was refused for. -/
def misfitOf : Recognised α → Option Misfit
  | .ok _ => none
  | .error misfit => some misfit

/-- A place is one of the reader or of a stage. -/
def Place.IsOf (place : Place) (stage : Stage) : Prop :=
  place = .readerValue ∨ place.stage = stage

/-- A result is accounted for by some visits: it is a refusal exactly if one of them is a reason
    for it, and then for the first such reason. -/
structure Accounts (stage : Stage) (limit : Nat) (vs : List Visit) (r : Recognised α) :
    Prop where
  misfit : misfitOf r = vs.findSome? (Visit.stop limit)
  /-- Only places of the reader and of the stage are asked for. -/
  isOf : ∀ place kindName, misfitOf r = some (.unknown place kindName) → place.IsOf stage

variable {stage : Stage} {limit need room : Nat} {place : Place} {vs ws : List Visit} {t : Term}

/-- What needs no visit is no refusal. -/
theorem Accounts.ok (a : α) : Accounts stage limit [] (.ok a) := ⟨rfl, nofun⟩

/-- One thing after another: the second is come to only if the first is no refusal. -/
theorem Accounts.bind {x : Recognised α} {f : α → Recognised β} (hx : Accounts stage limit vs x)
    (hf : ∀ a, Accounts stage limit ws (f a)) : Accounts stage limit (vs ++ ws) (x >>= f) := by
  -- If the first thing is refused, the visits of the second one are never looked at.
  have hmisfit := hx.misfit
  cases x with
  | ok a =>
      refine ⟨?_, (hf a).isOf⟩
      rw [List.findSome?_append, ← hmisfit]
      exact (hf a).misfit
  | error misfit =>
      refine ⟨?_, hx.isOf⟩
      rw [List.findSome?_append, ← hmisfit]
      rfl

/-- Making a value of what was recognised needs no further visit. -/
theorem Accounts.map {x : Recognised α} {f : α → β} (hx : Accounts stage limit vs x) :
    Accounts stage limit vs (x >>= fun a => pure (f a)) := by
  have hbind := hx.bind fun a => Accounts.ok (f a)
  rw [List.append_nil] at hbind
  exact hbind

/-- A term that belongs where it stands is accounted for by what stands inside it. -/
theorem Accounts.visit {v : Visit} {r : Recognised α} (hneed : v.need ≤ limit) (hfits : v.Fits)
    (hr : Accounts stage limit vs r) : Accounts stage limit (v :: vs) r := by
  refine ⟨?_, hr.isOf⟩
  rw [List.findSome?_cons, Visit.stop_of_fits hneed hfits]
  exact hr.misfit

/-- A term that does not belong where it stands is refused before what stands inside it. -/
theorem accounts_misfit {v : Visit} (hneed : v.need ≤ limit) (hisOf : v.place.IsOf stage)
    (hfits : ¬v.Fits) :
    Accounts stage limit (v :: vs) (Term.misfit v.place v.term : Recognised α) := by
  constructor
  · rw [List.findSome?_cons, Visit.stop_of_not_fits hneed hfits]
    rfl
  · intro other kindName h
    cases h
    exact hisOf

/-- A term that there is no room for is refused, whatever it is. -/
theorem accounts_tooDeep (hneed : limit < need) :
    Accounts stage limit (t.visits need place) (.error .tooDeep : Recognised α) := by
  constructor
  · rw [Term.visits_eq, List.findSome?_cons, Visit.stop_of_deep hneed]
    rfl
  · intro other kindName h
    cases h

/-- Where everything belongs where it stands, there is no other refusal than for the lack of
    room. -/
theorem Accounts.eq_tooDeep {misfit : Misfit}
    (h : Accounts stage limit vs (.error misfit : Recognised α)) (hfits : ∀ v ∈ vs, v.Fits) :
    misfit = .tooDeep := by
  rcases List.exists_of_findSome?_eq_some h.misfit.symm with ⟨v, hv, hstop⟩
  by_cases hneed : v.need ≤ limit
  · rw [Visit.stop_of_fits hneed (hfits v hv)] at hstop
    cases hstop
  · rw [Visit.stop_of_deep (Nat.not_le.1 hneed)] at hstop
    exact (Option.some.inj hstop).symm

/-- Items are recognised one after the other, as they are visited. -/
theorem Accounts.recogniseAll {recognise : Term → Recognised α}
    (h : ∀ t, Accounts stage limit (t.visits need place) (recognise t)) (ts : List Term) :
    Accounts stage limit (ts.flatMap (Term.visits need place)) (recogniseAll recognise ts) := by
  induction ts with
  | nil => exact .ok []
  | cons t ts ih =>
      rw [List.flatMap_cons, StageTree.recogniseAll]
      exact (h t).bind fun first => ih.map

/-- Terms are accounted for by their visits if they are given that their parts are. The room
    that is left and the room that has been taken make up the limit. -/
theorem accounts_of_step {recognise : Nat → Term → Recognised α}
    (hzero : ∀ t, recognise 0 t = .error .tooDeep)
    (hstep : ∀ room need, need + room = limit →
      (∀ t, Accounts stage limit (t.visits (need + 1) place) (recognise room t)) →
      (∀ t, Accounts stage limit (t.visits (need + listStep) place)
        (recogniseItem recognise room t)) →
      ∀ t, Accounts stage limit (t.visits need place) (recognise (room + 1) t))
    (room need : Nat) (hroom : need + room = limit + 1) (t : Term) :
    Accounts stage limit (t.visits need place) (recognise room t) := by
  induction room using Nat.strongRecOn generalizing need t with
  | _ room ih =>
    cases room with
    | zero =>
        rw [hzero]
        exact accounts_tooDeep (by omega)
    | succ room =>
        -- What is visited needs as much more as there is less room for it.
        refine hstep room need (by omega) (ih room (Nat.lt_succ_self room) _ (by omega)) ?_ t
        intro u
        rcases room with _ | _ | below
        · exact accounts_tooDeep (by rw [listStep]; omega)
        · exact accounts_tooDeep (by rw [listStep]; omega)
        · exact ih below (by omega) _ (by rw [listStep]; omega) u

namespace Term

/-! ## Levels -/

/-- The visits of a list of fields are those of the items, a step into a list further down. -/
theorem flatMap_items (need : Nat) (place : Place) (ts : List Term) :
    (ts.map (Field.item place)).flatMap (fun f => f.term.visits (need + f.step) f.place) =
      ts.flatMap (visits (need + listStep) place) := by
  rw [List.flatMap_map]
  rfl

/-- A reader value is recognised as it is visited, if its parts are. -/
theorem sexprFrom_accounts {part element : Term → Recognised Sexpr} (hneed : need ≤ limit)
    (hpart : ∀ t, Accounts stage limit (t.visits (need + 1) .readerValue) (part t))
    (hitem : ∀ t, Accounts stage limit (t.visits (need + listStep) .readerValue) (element t))
    (t : Term) :
    Accounts stage limit (t.visits need .readerValue) (sexprFrom part element t) := by
  rw [visits_eq]
  cases t with
  | atom a => exact .visit hneed rfl (.ok _)
  | vector elements =>
      rw [fields, flatMap_items]
      exact .visit hneed rfl (.map (.recogniseAll hitem elements))
  | pair car cdr =>
      simp only [fields, List.flatMap_cons, List.flatMap_nil, List.append_nil]
      exact .visit hneed rfl (.bind (hpart car) fun _ => .map (hpart cdr))
  | _ => exact accounts_misfit hneed (Or.inl rfl) nofun

/-- Recognising a reader value stops where the first visit does. -/
theorem sexpr?_accounts (room need : Nat) (hroom : need + room = limit + 1) (t : Term) :
    Accounts stage limit (t.visits need .readerValue) (sexpr? room t) :=
  accounts_of_step (fun _ => rfl)
    (fun room need hneed hpart hitem t => by
      rw [sexpr?_succ]
      exact sexprFrom_accounts (by omega) hpart hitem t) room need hroom t

/-- What makes no level of its own and holds nothing is recognised where it belongs. -/
theorem parsedVar?_accounts (hneed : need ≤ limit) (t : Term) :
    Accounts .tagParser limit (t.visits need .parsedVariable) (parsedVar? t) := by
  rw [visits_eq]
  cases t with
  | parsedVar name => exact .visit hneed rfl (.ok name)
  | _ => exact accounts_misfit hneed (Or.inr rfl) nofun

/-- A kind of parameter list has nothing to be visited below it. -/
theorem lambdaKind?_accounts (hneed : need ≤ limit) (t : Term) :
    Accounts .tagParser limit (t.visits need .lambdaKind) (lambdaKind? t) := by
  rw [visits_eq]
  cases t with
  | lambdaKind kind => exact .visit hneed rfl (.ok kind)
  | _ => exact accounts_misfit hneed (Or.inr rfl) nofun

/-- An expression of the second stage is recognised as it is visited, if its parts are. -/
theorem parsedFrom_accounts {value : Term → Recognised Sexpr}
    {part element : Term → Recognised Parsed.Expr} (hneed : need ≤ limit)
    (hvalue : ∀ t, Accounts .tagParser limit (t.visits (need + 1) .readerValue) (value t))
    (hpart : ∀ t, Accounts .tagParser limit (t.visits (need + 1) .parsedExpression) (part t))
    (hitem : ∀ t, Accounts .tagParser limit (t.visits (need + listStep) .parsedExpression)
      (element t)) (t : Term) :
    Accounts .tagParser limit (t.visits need .parsedExpression)
      (parsedFrom value part element t) := by
  rw [visits_eq]
  cases t with
  -- A field has one level more to need, and an item of a list three.
  | parsedConst s =>
      simp only [fields, List.flatMap_cons, List.flatMap_nil, List.append_nil]
      exact .visit hneed rfl (.map (hvalue s))
  | parsedGet var =>
      simp only [fields, List.flatMap_cons, List.flatMap_nil, List.append_nil]
      exact .visit hneed rfl (.map (parsedVar?_accounts hneed var))
  | parsedCond test thenBranch elseBranch =>
      simp only [fields, List.flatMap_cons, List.flatMap_nil, List.append_nil]
      exact .visit hneed rfl (.bind (hpart test) fun _ => .bind (hpart thenBranch) fun _ =>
        .map (hpart elseBranch))
  | parsedSeq exprs | parsedDisj exprs =>
      rw [fields, flatMap_items]
      exact .visit hneed rfl (.map (.recogniseAll hitem exprs))
  | parsedSet var e | parsedDefine var e =>
      simp only [fields, List.flatMap_cons, List.flatMap_nil, List.append_nil]
      exact .visit hneed rfl (.bind (parsedVar?_accounts hneed var) fun _ => .map (hpart e))
  | parsedLambda params kind body =>
      simp only [fields, List.flatMap_cons, List.flatMap_nil, List.append_nil]
      exact .visit hneed rfl (.bind (lambdaKind?_accounts hneed kind) fun _ =>
        .map (hpart body))
  | parsedApply operator args =>
      rw [fields, List.flatMap_cons, flatMap_items]
      exact .visit hneed rfl (.bind (hpart operator) fun _ =>
        .map (.recogniseAll hitem args))
  | _ => exact accounts_misfit hneed (Or.inr rfl) nofun

/-- Recognising an expression of the second stage stops where the first visit does. -/
theorem parsed?_accounts (room need : Nat) (hroom : need + room = limit + 1) (t : Term) :
    Accounts .tagParser limit (t.visits need .parsedExpression) (parsed? room t) :=
  accounts_of_step (fun _ => rfl)
    (fun room need hneed hpart hitem t => by
      rw [parsed?_succ]
      have hvalue : ∀ t, Accounts .tagParser limit (t.visits (need + 1) .readerValue)
          (sexpr? room t) := sexpr?_accounts room (need + 1) (by omega)
      exact parsedFrom_accounts (by omega) hvalue hpart hitem t) room need hroom t

theorem address?_accounts (hneed : need ≤ limit) (t : Term) :
    Accounts .semanticAnalyzer limit (t.visits need .lexicalAddress) (address? t) := by
  rw [visits_eq]
  cases t with
  | address home => exact .visit hneed rfl (.ok home)
  | _ => exact accounts_misfit hneed (Or.inr rfl) nofun

/-- A variable of the third stage is visited before its address. -/
theorem analyzedVar?_accounts (hneed : need ≤ limit) (t : Term) :
    Accounts .semanticAnalyzer limit (t.visits need .analyzedVariable) (analyzedVar? t) := by
  rw [visits_eq]
  cases t with
  | analyzedVar name home =>
      simp only [fields, List.flatMap_cons, List.flatMap_nil, List.append_nil]
      exact .visit hneed rfl (.map (address?_accounts hneed home))
  | _ => exact accounts_misfit hneed (Or.inr rfl) nofun

theorem callKind?_accounts (hneed : need ≤ limit) (t : Term) :
    Accounts .semanticAnalyzer limit (t.visits need .callKind) (callKind? t) := by
  rw [visits_eq]
  cases t with
  | callKind kind => exact .visit hneed rfl (.ok kind)
  | _ => exact accounts_misfit hneed (Or.inr rfl) nofun

/-- An expression of the third stage is recognised as it is visited, if its parts are. -/
theorem analyzedFrom_accounts {value : Term → Recognised Sexpr}
    {part element : Term → Recognised Analyzed.Expr} (hneed : need ≤ limit)
    (hvalue : ∀ t, Accounts .semanticAnalyzer limit (t.visits (need + 1) .readerValue) (value t))
    (hpart : ∀ t, Accounts .semanticAnalyzer limit (t.visits (need + 1) .analyzedExpression)
      (part t))
    (hitem : ∀ t, Accounts .semanticAnalyzer limit
      (t.visits (need + listStep) .analyzedExpression) (element t)) (t : Term) :
    Accounts .semanticAnalyzer limit (t.visits need .analyzedExpression)
      (analyzedFrom value part element t) := by
  rw [visits_eq]
  cases t with
  | analyzedConst s =>
      simp only [fields, List.flatMap_cons, List.flatMap_nil, List.append_nil]
      exact .visit hneed rfl (.map (hvalue s))
  | analyzedGet var | analyzedBox var | analyzedBoxGet var =>
      simp only [fields, List.flatMap_cons, List.flatMap_nil, List.append_nil]
      exact .visit hneed rfl (.map (analyzedVar?_accounts hneed var))
  | analyzedCond test thenBranch elseBranch =>
      simp only [fields, List.flatMap_cons, List.flatMap_nil, List.append_nil]
      exact .visit hneed rfl (.bind (hpart test) fun _ => .bind (hpart thenBranch) fun _ =>
        .map (hpart elseBranch))
  | analyzedSeq exprs | analyzedDisj exprs =>
      rw [fields, flatMap_items]
      exact .visit hneed rfl (.map (.recogniseAll hitem exprs))
  | analyzedSet var e | analyzedDefine var e | analyzedBoxSet var e =>
      simp only [fields, List.flatMap_cons, List.flatMap_nil, List.append_nil]
      exact .visit hneed rfl (.bind (analyzedVar?_accounts hneed var) fun _ => .map (hpart e))
  | analyzedLambda params body =>
      simp only [fields, List.flatMap_cons, List.flatMap_nil, List.append_nil]
      exact .visit hneed rfl (.map (hpart body))
  | analyzedApply operator args kind =>
      -- The kind of a call is looked at last, after the arguments.
      simp only [fields, List.flatMap_cons, List.flatMap_append, flatMap_items, List.flatMap_nil,
        List.append_nil]
      exact .visit hneed rfl (.bind (hpart operator) fun _ =>
        .bind (.recogniseAll hitem args) fun _ => .map (callKind?_accounts hneed kind))
  | _ => exact accounts_misfit hneed (Or.inr rfl) nofun

/-- Recognising an expression of the third stage stops where the first visit does. -/
theorem analyzed?_accounts (room need : Nat) (hroom : need + room = limit + 1) (t : Term) :
    Accounts .semanticAnalyzer limit (t.visits need .analyzedExpression) (analyzed? room t) :=
  accounts_of_step (fun _ => rfl)
    (fun room need hneed hpart hitem t => by
      rw [analyzed?_succ]
      have hvalue : ∀ t, Accounts .semanticAnalyzer limit (t.visits (need + 1) .readerValue)
          (sexpr? room t) := sexpr?_accounts room (need + 1) (by omega)
      exact analyzedFrom_accounts (by omega) hvalue hpart hitem t) room need hroom t

end Term

/-! ## Nodes -/

/-- What must stand where a node of a stage is wanted. -/
def Stage.root : Stage → Place
  | .reader => .readerValue
  | .tagParser => .parsedExpression
  | .semanticAnalyzer => .analyzedExpression

/-- Everything that is met when a term is gone through as a node of a stage. -/
def Stage.visits (stage : Stage) (t : Term) : List Visit := t.visits 1 stage.root

/-- Recognising a node of any stage stops where the first visit does. -/
theorem Stage.visits_account (stage : Stage) (t : Term) :
    Accounts stage limit (stage.visits t) (t.node? stage limit) := by
  cases stage with
  | reader => exact t.sexpr?_accounts limit 1 (Nat.add_comm _ _)
  | tagParser => exact t.parsed?_accounts limit 1 (Nat.add_comm _ _)
  | semanticAnalyzer => exact t.analyzed?_accounts limit 1 (Nat.add_comm _ _)

namespace Session

theorem showTerm_of_ok {t : Term} {node : stage.Node}
    (h : t.node? stage nestingLimit = .ok node) : showTerm stage t = pure (stage.tree node) := by
  unfold showTerm
  rw [h]

theorem showTerm_of_unknown {t : Term} {place : Place} {kindName : String}
    (h : t.node? stage nestingLimit = .error (.unknown place kindName)) :
    showTerm stage t = Traced.fail (.failure (place.failure kindName)) := by
  unfold showTerm
  rw [h]

theorem showTerm_of_tooDeep {t : Term} (h : t.node? stage nestingLimit = .error .tooDeep) :
    showTerm stage t = tooDeepToShow stage := by
  unfold showTerm
  rw [h]

theorem showTerm_eq_ok {t : Term} {tree : Tree} (h : (showTerm stage t).result = .ok tree) :
    ∃ node, t.node? stage nestingLimit = .ok node := by
  cases hnode : t.node? stage nestingLimit with
  | ok node => exact ⟨node, rfl⟩
  | error misfit =>
      cases misfit with
      | unknown place kindName =>
          rw [showTerm_of_unknown hnode] at h
          cases h
      | tooDeep =>
          rw [showTerm_of_tooDeep hnode] at h
          cases h

/-- The failure at a place of a stage names the reader for a reader value, and otherwise the
    stage. -/
theorem failure_eq {place : Place} (h : place.IsOf stage) (kindName : String) :
    place.failure kindName = .unknownNode
      (if place = .readerValue then Stage.reader else stage).name kindName
      (some place.expected) := by
  rw [Place.failure]
  split
  · rename_i hplace
    rw [hplace]
    rfl
  · rename_i hplace
    rw [h.resolve_left hplace]

/-- A term is shown exactly if everything inside it belongs where it stands and there is room
    for it, and then as the node that it is. Otherwise the first thing met, depth first and in
    the order of the fields, for which this is not so is the one that counts: if there is no
    room for it, the term is too deep, and otherwise it is reported by the name of its kind,
    with the stage whose part it should have been. -/
theorem showTerm_failsFast (stage : Stage) (t : Term) :
    ((∃ tree, (showTerm stage t).result = .ok tree) ↔
      ∀ v ∈ stage.visits t, v.Passes nestingLimit) ∧
    (∀ tree, (showTerm stage t).result = .ok tree →
      ∃ node, t = stage.toTerm node ∧ showTerm stage t = pure (stage.tree node)) ∧
    ∀ v, (stage.visits t).find? (fun v => !v.Passes nestingLimit) = some v →
      showTerm stage t =
        if nestingLimit < v.need then tooDeepToShow stage
        else Traced.fail (.failure (.unknownNode
          (if v.place = .readerValue then Stage.reader else stage).name v.term.kindName
          (some v.place.expected))) := by
  have haccounts : Accounts stage nestingLimit (stage.visits t) (t.node? stage nestingLimit) :=
    stage.visits_account t
  refine ⟨?_, ?_, ?_⟩
  · -- A term is recognised exactly if no visit is a reason to refuse it.
    have hpasses : (∀ v ∈ stage.visits t, v.Passes nestingLimit) ↔
        misfitOf (t.node? stage nestingLimit) = none := by
      rw [haccounts.misfit, List.findSome?_eq_none_iff]
      exact forall₂_congr fun v _ => Visit.stop_eq_none_iff.symm
    rw [hpasses]
    constructor
    · rintro ⟨tree, htree⟩
      rcases showTerm_eq_ok htree with ⟨node, hnode⟩
      rw [hnode]
      rfl
    · intro hnone
      cases hnode : t.node? stage nestingLimit with
      | ok node => exact ⟨stage.tree node, by rw [showTerm_of_ok hnode]; rfl⟩
      | error misfit =>
          rw [hnode] at hnone
          cases hnone
  · intro tree h
    rcases showTerm_eq_ok h with ⟨node, hnode⟩
    exact ⟨node, (Term.node?_eq_ok_iff.1 hnode).1, showTerm_of_ok hnode⟩
  · intro v hv
    have hmisfit := haccounts.misfit
    have hpasses : ¬v.Passes nestingLimit := by
      have hfound := List.find?_some hv
      simp only [Bool.not_eq_true', decide_eq_false_iff_not] at hfound
      exact hfound
    -- The visit that is found gives the reason that the term was refused for.
    rw [findSome?_stop hv] at hmisfit
    cases hnode : t.node? stage nestingLimit with
    | ok node =>
        rw [hnode] at hmisfit
        exact absurd (Visit.stop_eq_none_iff.1 hmisfit.symm) hpasses
    | error misfit =>
        rw [hnode] at hmisfit
        split
        · rename_i hdeep
          rw [Visit.stop_of_deep hdeep] at hmisfit
          cases hmisfit
          exact showTerm_of_tooDeep hnode
        · rename_i hroom
          have hneed := Nat.not_lt.1 hroom
          rw [Visit.stop_of_not_fits hneed (fun hfits => hpasses ⟨hneed, hfits⟩)] at hmisfit
          cases hmisfit
          -- Which stage is named depends only on the place.
          have hisOf := haccounts.isOf _ _ (by rw [hnode]; rfl)
          rw [showTerm_of_unknown hnode, failure_eq hisOf]

/-- A reader value inside a constant is the reader's, and comes before what follows the
    constant. -/
example : (showTerm .tagParser (.parsedSeq [.parsedConst (.pair (.atom .nil) (.str "x")),
      .analyzedSeq []])).result =
    .error (.failure (.unknownNode "READER" "str" (some Place.readerValue.expected))) := by
  rfl

end Session

end StageTree
