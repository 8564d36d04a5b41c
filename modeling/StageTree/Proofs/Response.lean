import StageTree.Response
import StageTree.Proofs.Wire.Refusals

/-!
# Failures to Read

Where a failure to read a node or a response says that it is, and what it says is there. The
path of a failure is the path where the document stands, followed by steps, and these steps
lead from the document to the element that the failure shows.

Nothing but the path depends on where the document stands. A reader could be told where it stands
and hand the path on to the readers of the parts, with a step more. All that it would do with the
path is to put it into its failures, so it comes to the same that the steps are added on the way
out.

## Main definitions

* `Wire.placed`: What a reader comes to that is told where it stands.
* `Wire.Shows`: What a failure says of an element is what is to be said of it.
* `Stage.ResponseReading.result`: What reading a response comes to, apart from the log.

## Theorems

* `Wire.placed_onField`, `Wire.placed_itemsFrom`: A reader that is told where it stands hands the
  path on with the steps that it takes.
* `Stage.failures_located`: Failures to read nodes and responses are located.
-/

namespace StageTree

namespace Wire

/-! ## What failures show -/

/-- The message about a whole number past all doubles. -/
def sizeMessage : Text := "Number is too large to represent"

/-- What a failure says was received is the element. A whole number past all doubles is the
    exception, where it stands for a number: then it is the number's size. -/
def Shows (message : Text) (received : Option Text) (found : Json) : Prop :=
  (message = sizeMessage ∧
    ∃ n, found = .int n ∧ (Binary64.ofInt n).isInfinite = true ∧
      received = some (.plain ("integer of " ++ integerText (bitLength n) ++ " bits"))) ∨
  (message ≠ sizeMessage ∧ received = some (.plain found.describe))

-- What is put after a text that has a second character does not change it.
theorem second_append {start rest : Text} {c : CodePoint} (h : start.points[1]? = some c) :
    (start ++ rest).points[1]? = some c := by
  rw [Text.points_append, List.getElem?_append_left (List.getElem?_eq_some_iff.1 h).1]
  exact h

/-- Messages that begin otherwise are told from the one about a size by their second
    character. -/
theorem ne_sizeMessage_of_second {message : Text} {c : CodePoint}
    (hsecond : message.points[1]? = some c) (hc : c ≠ .char 'u') : message ≠ sizeMessage := by
  rintro rfl
  exact hc (Option.some.inj hsecond).symm

-- Only the messages with a tag or a key in them are not fixed, and their beginnings are.
/-- No other message is the one about a size. -/
theorem Problem.message_ne_sizeMessage {problem : Problem}
    (h : ∀ bits, problem ≠ .hugeInteger bits) : problem.message ≠ sizeMessage := by
  cases problem with
  | hugeInteger bits => exact absurd rfl (h bits)
  -- A tag or a key may be anything, so the message is told by what stands in front of it.
  | noValue tag =>
      have hsecond : (Problem.noValue tag).message.points[1]? = some (.char 'o') :=
        second_append (second_append rfl)
      exact ne_sizeMessage_of_second hsecond (by decide)
  | noField key =>
      have hsecond : (Problem.noField key).message.points[1]? = some (.char 'i') :=
        second_append (second_append rfl)
      exact ne_sizeMessage_of_second hsecond (by decide)
  | wrongTag wanted tag =>
      have hsecond : (Problem.wrongTag wanted tag).message.points[1]? = some (.char 'x') :=
        second_append (second_append (second_append (second_append rfl)))
      exact ne_sizeMessage_of_second hsecond (by decide)
  | unknownTag vocabulary tag =>
      have hsecond : (Problem.unknownTag vocabulary tag).message.points[1]? = some (.char 'n') :=
        second_append (second_append (second_append (second_append rfl)))
      exact ne_sizeMessage_of_second hsecond (by decide)
  | _ => decide

/-- A defect that is where its steps lead shows the element there. -/
theorem Located.shows {j : Json} {d : Defect} (h : Located j d) :
    Shows d.problem.message (some (d.problem.received d.found)) d.found := by
  rcases d with ⟨steps, problem, found⟩
  have hsuits := h.suits
  cases problem with
  | hugeInteger bits =>
      rcases hsuits with ⟨n, hfound, hinfinite, rfl⟩
      exact Or.inl ⟨rfl, n, hfound, hinfinite, rfl⟩
  -- All other problems show the element itself.
  | _ => exact Or.inr ⟨Problem.message_ne_sizeMessage (fun _ => nofun), rfl⟩

/-! ## Where a reader stands -/

variable {α β : Type} {start key : Text} {read : Json → Reading α}

/-- What a reader comes to that is told where it stands: its defects are failures from there. -/
def placed (start : Text) (reading : Reading α) : Except (Option Failure) α :=
  reading.mapError fun refusal =>
    match refusal with
    | .defective d => some (d.failure start)
    | .tooDeep => none

/-- A path with one step more is the path from further in. -/
theorem pathText_cons (start : Text) (step : Step) (steps : List Step) :
    pathText start (step :: steps) = pathText (start ++ step.text) steps := by
  rw [pathText, pathText, List.map_cons, Text.concat_cons, Text.append_assoc]

/-- A step that is added on the way out is the step with which the path is handed on. -/
theorem placed_within (step : Step) (reading : Reading α) :
    placed start (within step reading) = placed (start ++ step.text) reading := by
  cases reading with
  | ok a => rfl
  | error refusal =>
      cases refusal with
      | defective d =>
          simp only [within, placed, Except.mapError, Defect.failure, pathText_cons]
      | tooDeep => rfl

/-- What is read later stands under the same path. -/
theorem placed_bind (x : Reading α) (f : α → Reading β) :
    placed start (x >>= f) = placed start x >>= fun a => placed start (f a) := by
  cases x <;> rfl

/-- A field is read under the path of the node with two steps more. -/
theorem placed_onField {room : Nat} {node : Node} {members : List (Text × Json)} {part : Json}
    (hvalue : node.members.lookup (.plain "value") = some (.obj members))
    (hpart : members.lookup key = some part) :
    placed start (onField room node key read) =
      placed (start ++ ".value" ++ ("." ++ key)) (read part) := by
  -- The value is an object, so looking for its members does not fail.
  have hmember : onMember room key read (.obj members) = within (.key key) (read part) :=
    onMember_of_stepInto? (stepInto?_key.2 ⟨members, rfl, hpart⟩)
  rw [onField, onValue, hvalue]
  dsimp only
  rw [hmember, placed_within, placed_within]
  rfl

/-- Items are read one after the other, each under the path of the array with its index. -/
theorem placed_itemsFrom (i : Nat) (item : Json) (rest : List Json) :
    placed start (itemsFrom read i (item :: rest)) =
      placed (start ++ (Step.index i).text) (read item) >>= fun first =>
        placed start (itemsFrom read (i + 1) rest) >>= fun others => .ok (first :: others) := by
  rw [← placed_within, itemsFrom, placed_bind]
  refine congrArg (placed start (within (.index i) (read item)) >>= ·) (funext fun first => ?_)
  rw [placed_bind]
  rfl

end Wire

namespace Stage

open Wire

/-! ## Nodes -/

/-- A node is refused at an element of it, or because of its depth. -/
theorem stageNode_refuses (stage : Stage) (room : Nat) (j : Json) :
    Refuses (2 * room < 3 * j.nesting + 2) j (stageNode stage room j) := by
  cases stage with
  | reader => exact sexpr_refuses room j
  | tagParser => exact parsed_refuses room j
  | semanticAnalyzer => exact analyzed_refuses room j

/-- A node is read wherever it stands. -/
theorem readNode_eq_ok {stage : Stage} {start : Text} {j : Json} {node : stage.Node} :
    stage.readNode start j = .ok node ↔ stageNode stage nestingLimit j = .ok node := by
  unfold readNode
  cases stageNode stage nestingLimit j with
  | ok other => rw [Except.ok.injEq, Except.ok.injEq]
  | error refusal => cases refusal <;> constructor <;> intro h <;> cases h

/-- A failure to read a node reports a defect of the document. -/
theorem readNode_eq_decode {stage : Stage} {start : Text} {j : Json} {f : Failure}
    (h : stage.readNode start j = .error (.failure f)) :
    ∃ d, stageNode stage nestingLimit j = .error (.defective d) ∧ f = d.failure start := by
  unfold readNode at h
  cases hread : stageNode stage nestingLimit j with
  | ok node =>
      rw [hread] at h
      cases h
  | error refusal =>
      rw [hread] at h
      cases refusal with
      | defective d =>
          cases h
          exact ⟨d, rfl, rfl⟩
      | tooDeep => cases h

/-! ## Responses -/

/-- A defect of a response is where its steps lead. -/
theorem readNodes_located {stage : Stage} {j : Json} {d : Defect}
    (h : stage.readNodes j = .defective d) : Located j d := by
  unfold readNodes at h
  split at h
  · rename_i items
    -- How deep a node must be to be too deep does not matter here.
    have hitems : Refuses True (.arr items)
        (itemsFrom (stageNode stage nestingLimit) 0 items) :=
      itemsFrom_refuses
        (fun item _ => (stageNode_refuses stage nestingLimit item).mono fun _ => trivial)
        [] items rfl
    split at h
    · cases h
    · rename_i hread
      rw [hread] at hitems
      cases h
      exact hitems
    · cases h
  · split at h
    · cases h
      exact ⟨rfl, trivial⟩
    · cases h

/-- What reading a response comes to, apart from what is logged. -/
def ResponseReading.result {stage : Stage} :
    ResponseReading stage → Except Trouble (List stage.Node)
  | .nodes ns => .ok ns
  | .defective d => .error (.failure (d.failure responseRoot))
  | .tooDeep => .error (.failure (.nesting stage.name "decoding"))
  | .outOfRoom => .error .outOfRoom

/-- What is logged does not change what reading a response comes to. -/
theorem result_readResponse (stage : Stage) (j : Json) :
    (stage.readResponse j).result = (stage.readNodes j).result := by
  unfold readResponse
  cases stage.readNodes j with
  | defective d =>
      -- The log line of a node's defect comes before the failure and does not change it.
      cases hnode : isNodeDefect d with
      | true => simp only [hnode]; rfl
      | false => simp only [hnode]; rfl
  | _ => rfl

/-- A decoding failure of a response reports a defect of it. -/
theorem readResponse_eq_decode {stage : Stage} {j : Json} {message path : Text}
    {received expected : Option Text}
    (h : (stage.readResponse j).result =
      .error (.failure (.decode message path received expected))) :
    ∃ d, stage.readNodes j = .defective d ∧
      Failure.decode message path received expected = d.failure responseRoot := by
  rw [result_readResponse] at h
  cases hread : stage.readNodes j with
  | defective d =>
      rw [hread] at h
      cases h
      exact ⟨d, rfl, rfl⟩
  | _ =>
      rw [hread] at h
      cases h

/-- A decoding failure is located: its path is where the document stands, and then steps that
    lead from the document to the element that it shows. The steps, the message and the node
    that is read are the same wherever the document stands. -/
theorem failures_located (stage : Stage) (j : Json) :
    (∀ start node, stage.readNode start j = .ok node →
      ∀ other, stage.readNode other j = .ok node) ∧
    (∀ start message path received expected,
      stage.readNode start j = .error (.failure (.decode message path received expected)) →
      ∃ steps found, path = pathText start steps ∧ partAt? j steps = some found ∧
        Shows message received found ∧ ∀ other, stage.readNode other j =
          .error (.failure (.decode message (pathText other steps) received expected))) ∧
    (∀ message path received expected,
      (stage.readResponse j).result =
        .error (.failure (.decode message path received expected)) →
      ∃ steps found, path = pathText responseRoot steps ∧ partAt? j steps = some found ∧
        Shows message received found) := by
  refine ⟨?_, ?_, ?_⟩
  · intro start node h other
    exact readNode_eq_ok.2 (readNode_eq_ok.1 h)
  · intro start message path received expected h
    rcases readNode_eq_decode h with ⟨d, hread, hd⟩
    -- The reader knows no start, so the defect is the same from every one.
    have hlocated := stageNode_refuses stage nestingLimit j
    rw [hread] at hlocated
    cases hd
    refine ⟨d.steps, d.found, rfl, hlocated.found, hlocated.shows, fun other => ?_⟩
    unfold readNode
    rw [hread]
    rfl
  · intro message path received expected h
    rcases readResponse_eq_decode h with ⟨d, hread, hd⟩
    have hlocated := readNodes_located hread
    cases hd
    exact ⟨d.steps, d.found, rfl, hlocated.found, hlocated.shows⟩

/-- The items of a bare parameter list are reached without a step to a value of its own. -/
example : Stage.semanticAnalyzer.readNode "$" (.obj [("type", .str "ScmLambdaTag"),
      ("value", .obj [("params", .arr [.str "x", .null]), ("body", .null)])]) =
    .error (.failure (.decode "Expected a string" "$.value.params[1]" (some "None") none)) := by
  rfl

end Stage

end StageTree
