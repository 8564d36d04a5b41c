import StageTree.Term.Basic

/-!
# Equality of Terms

When two terms are equal. Terms of different kinds are not, except for numbers, which are
compared by value across the kinds of numbers; a truth value counts as one or zero. The
attributes of display trees are compared without regard to their order.

Equal terms have equal hashes. For display trees this rests on the form that the hash is
taken of, which `sameHash` compares.

## Main definitions

* `Term.numEq`: Whether two terms are equal numbers.
* `Term.eqv`: Whether two terms are equal.
* `Term.sameHash`: Whether two equal terms hash alike.
-/

namespace StageTree

/-- Whether two atoms are equal: floating-point numbers by value, and all else by form. -/
def Atom.eqv : Atom → Atom → Bool
  | .float x, .float y => x.numEq y
  | a, b => a == b

namespace Term

/-- The integer that a term is, a truth value included. -/
def integer? : Term → Option Int
  | .bool value => some (if value then 1 else 0)
  | .int value => some value
  | _ => Option.none

/-- Whether two terms are equal numbers. -/
def numEq (a b : Term) : Bool :=
  match a, b with
  | .float x, .float y => x.numEq y
  | .float x, b => (integer? b).any fun n => x.integer? == some n
  | a, .float y => (integer? a).any fun n => y.integer? == some n
  | a, b => (integer? a).any fun n => integer? b == some n

mutual

/-- Whether two terms are equal. -/
def eqv : Term → Term → Bool
  | .none, .none => true
  | .str a, .str b => a == b
  | .tuple a, .tuple b => eqvAll a b
  | .list a, .list b => eqvAll a b
  | .dict a, .dict b => a.length == b.length && entriesIn a b
  | .tree a, .tree b => a.same b
  | .callKind a, .callKind b => a == b
  | .atom a, .atom b => a.eqv b
  | .vector a, .vector b => eqvAll a b
  | .pair a b, .pair c d => eqv a c && eqv b d
  | .parsedVar a, .parsedVar b => a == b
  | .lambdaKind a, .lambdaKind b => a == b
  | .parsedConst a, .parsedConst b => eqv a b
  | .parsedGet a, .parsedGet b => eqv a b
  | .parsedCond a b c, .parsedCond d e f => eqv a d && eqv b e && eqv c f
  | .parsedSeq a, .parsedSeq b => eqvAll a b
  | .parsedDisj a, .parsedDisj b => eqvAll a b
  | .parsedSet a b, .parsedSet c d => eqv a c && eqv b d
  | .parsedDefine a b, .parsedDefine c d => eqv a c && eqv b d
  | .parsedLambda p a b, .parsedLambda q c d => p == q && eqv a c && eqv b d
  | .parsedApply a b, .parsedApply c d => eqv a c && eqvAll b d
  | .address a, .address b => a == b
  | .analyzedVar p a, .analyzedVar q b => p == q && eqv a b
  | .analyzedConst a, .analyzedConst b => eqv a b
  | .analyzedGet a, .analyzedGet b => eqv a b
  | .analyzedCond a b c, .analyzedCond d e f => eqv a d && eqv b e && eqv c f
  | .analyzedSeq a, .analyzedSeq b => eqvAll a b
  | .analyzedDisj a, .analyzedDisj b => eqvAll a b
  | .analyzedSet a b, .analyzedSet c d => eqv a c && eqv b d
  | .analyzedDefine a b, .analyzedDefine c d => eqv a c && eqv b d
  | .analyzedBox a, .analyzedBox b => eqv a b
  | .analyzedBoxGet a, .analyzedBoxGet b => eqv a b
  | .analyzedBoxSet a b, .analyzedBoxSet c d => eqv a c && eqv b d
  | .analyzedLambda p a, .analyzedLambda q b => p == q && eqv a b
  | .analyzedApply a b c, .analyzedApply d e f => eqv a d && eqvAll b e && eqv c f
  | a, b => numEq a b

/-- Whether two rows of terms are equal, term by term. -/
def eqvAll : List Term → List Term → Bool
  | [], [] => true
  | x :: xs, y :: ys => eqv x y && eqvAll xs ys
  | _, _ => false

/-- Whether every entry of the first dictionary is in the second one. -/
def entriesIn : List (Text × Term) → List (Text × Term) → Bool
  | [], _ => true
  | (key, value) :: rest, entries =>
    (match entries.lookup key with
      | some other => eqv value other
      | Option.none => false) && entriesIn rest entries

end

/-- Whether two equal terms hash alike. The hash of a display tree is taken of its form with
    the attributes in order; the hash of any other term is taken of what equality compares. -/
def sameHash : Term → Term → Bool
  | .tree a, .tree b => a.hashForm.identical b.hashForm
  | a, b => eqv a b

end Term

end StageTree
