import StageTree.Proofs.Command.Effects

/-!
# The Destination of Output

Naming a file for the output changes where the output goes, and nothing else, as long as there are
bytes for the output. A run that names one ends as the same run ends without it, with the same lines
on the standard error and the same requests, and what it leaves in the file is what the other run
prints.

This rests on two things. A tree is made from the arguments other than the destination, and
everything that is read has been read before anything is given out. So the file may well be one
that is read.

A text with surrogates has no bytes. A run with a file for it ends in trouble and leaves the file
empty. A run without one prints the text, if the standard output takes the surrogates.

## Main definitions

* `Command.AlikeButOutput`: Arguments that differ at most in the destination.
* `Command.Redirected`: Outcomes that differ only in where the output goes.
* `Command.Withheld`: Outcomes of runs that come to a text without bytes.

## Theorems

* `Command.redirected_outcomeOf`: A destination redirects an output for which there are bytes.
* `Command.withheld_of_text`: A text without bytes goes nowhere or to the standard output.
* `Command.only_destination_changes`: A run with a destination and one without it.
-/

namespace StageTree

namespace Command

variable {a b : Arguments} {s : Surroundings} {files : Files} {path : String} {text : Text}
  {obstacle : Utf8.Obstacle}

/-- Two runs are asked for the same, but for where the output goes. -/
structure AlikeButOutput (a b : Arguments) : Prop where
  input : a.input = b.input
  mode : a.mode = b.mode
  config : a.config = b.config
  response : a.response = b.response
  format : a.format = b.format
  verbose : a.verbose = b.verbose

/-- Outcomes differ only in where the output goes. What the second run prints is given out to a
    file by the first one, and where the second run fails neither gives out anything. -/
structure Redirected (files : Files) (path : String) (o p : Outcome) : Prop where
  ending : o.ending = p.ending
  errors : o.errors = p.errors
  requests : o.requests = p.requests
  given : p.ending = .status 0 → GivesOut files p.output o (some path)
  nothing : p.ending ≠ .status 0 → o.output = "" ∧ p.output = "" ∧ o.filesAfter files = files
  untouched : p.filesAfter files = files

/-- Outcomes of runs that come to a text without bytes. The first run has a file for it and leaves
    the file empty. The second run prints the text if the standard output takes it, and else it is
    in trouble, too. -/
structure Withheld (s : Surroundings) (path : String) (text : Text) (obstacle : Utf8.Obstacle)
    (o p : Outcome) : Prop where
  ending : o.ending = .trouble (.notBytes obstacle)
  output : o.output = ""
  emptied : Refilled s.files path "" (o.filesAfter s.files)
  printed : (∀ u, .surrogate u ∈ text.points → s.takes u = true) →
    p.ending = .status 0 ∧ p.output = text
  unprinted : ∀ found, Utf8.obstacle? s.takes 0 text = some found →
    p.ending = .trouble (.notBytes found) ∧ p.output = ""
  errors : o.errors = p.errors
  requests : o.requests = p.requests
  untouched : p.filesAfter s.files = s.files

/-- The tree is made from the other arguments. -/
theorem AlikeButOutput.treeOf_eq (h : AlikeButOutput a b) (s : Surroundings) :
    treeOf a s = treeOf b s := by
  -- No step on the way to the tree looks at the destination.
  rw [treeOf, treeOf, stageOf, stageOf, sourceOf, sourceOf, settingsOf, settingsOf, h.mode,
    h.response, h.input, h.config]

/-- Both runs come to the same text. -/
theorem AlikeButOutput.comesTo_iff (h : AlikeButOutput a b) :
    ComesTo a s text ↔ ComesTo b s text := by
  rw [ComesTo, ComesTo, h.treeOf_eq s, h.format]

/-- A run that fails before it gives out anything fails in the same way with a destination. -/
theorem redirected_self {o : Outcome} (hending : o.ending ≠ .status 0) (houtput : o.output = "")
    (hwritten : o.written = none) : Redirected files path o o :=
  have hafter := Outcome.filesAfter_of_none hwritten
  ⟨rfl, rfl, rfl, fun h => absurd h hending, fun _ => ⟨houtput, houtput, hafter⟩, hafter⟩

/-- Whatever comes of making a tree, a destination redirects what is given out, if there are bytes
    for it. -/
theorem redirected_outcomeOf (hpath : a.destination? = some path)
    (hwritable : CanBeWritten s.files path) (hnone : b.destination? = none)
    {result : Except Trouble (Option Tree)} {format : Format}
    (hbytes : ∀ tree text, result = .ok tree → render format tree = .ok text →
      ∃ content : String, text = content)
    (log : Text) (requests : List Request) : Redirected s.files path
      (outcomeOf result format (deliver s a.output) log requests)
      (outcomeOf result format (deliver s b.output) log requests) := by
  cases result with
  -- Without a tree there is nothing to be redirected.
  | error trouble => cases trouble <;> exact redirected_self nofun rfl rfl
  | ok tree =>
      unfold outcomeOf
      dsimp only
      cases hrender : render format tree with
      | error trouble => exact redirected_self nofun rfl rfl
      | ok text =>
          -- Both runs succeed: one prints the text, and the other can write it.
          rcases hbytes tree text rfl hrender with ⟨content, rfl⟩
          rcases hwritable with ⟨file, hopened⟩
          have hfirst : deliver s a.output content =
              { output := onLine ("Tree written to " ++ path)
                written := filled file content } := by
            rw [deliver_some hpath, deliverTo, hopened]
            rfl
          dsimp only
          rw [hfirst, deliver_none hnone]
          refine ⟨rfl, rfl, rfl, fun _ => ⟨rfl, content, rfl, ?_⟩, fun h => absurd rfl h, rfl⟩
          exact .of_filled hopened rfl

/-- A text without bytes goes nowhere, or to a standard output that takes it. -/
theorem withheld_of_text (h : AlikeButOutput a b) (hpath : a.destination? = some path)
    (hwritable : CanBeWritten s.files path) (hnone : b.destination? = none)
    (htext : ComesTo a s text) (hobstacle : Utf8.encodable text = .error obstacle) :
    Withheld s path text obstacle (runArguments a s) (runArguments b s) := by
  have hempties : Empties a s path obstacle := ⟨hpath, ⟨text, htext, hobstacle⟩, hwritable⟩
  -- The first run is one that empties its file; the second one does what printing the text comes
  -- to.
  rcases hempties.leaves with ⟨hending, houtput, herrors, hemptied⟩
  have hrequests : (runArguments a s).requests = (treeOf a s).requests := by
    rw [htext.runArguments]
  have hprint : runArguments b s =
      { ending := (print s.takes text).ending
        output := (print s.takes text).output
        errors := shownLog a s
        written := (print s.takes text).written
        requests := (treeOf a s).requests } := by
    rw [(h.comesTo_iff.1 htext).runArguments, deliver_none hnone, shownLog, shownLog,
      h.treeOf_eq s, h.verbose]
  rw [hprint]
  refine ⟨hending, houtput, hemptied, fun htaken => ?_, fun found hfound => ?_, herrors,
    hrequests, ?_⟩
  · -- The standard output takes every surrogate in the text, or there is a first one that it does
    -- not take.
    rw [print, Utf8.obstacle?_eq_none.2 htaken]
    exact ⟨rfl, rfl⟩
  · rw [print, hfound]
    exact ⟨rfl, rfl⟩
  · refine Outcome.filesAfter_of_none ?_
    rw [print]
    cases Utf8.obstacle? s.takes 0 text <;> rfl

/-- A run that names a file for its output, one that can be written, does what the run without it
    does, except that the output goes to the file. The file may be one that the run reads. But if
    there are no bytes for the output, the first run leaves the file empty, and the second one
    prints what the standard output takes. -/
theorem only_destination_changes {words words' : List String}
    (ha : Invocation.ofWords words = .run a) (hb : Invocation.ofWords words' = .run b)
    (h : AlikeButOutput a b) (hpath : a.destination? = some path)
    (hwritable : CanBeWritten s.files path) (hnone : b.destination? = none) :
    ((∀ text, ComesTo a s text → ∃ content : String, text = content) →
      Redirected s.files path (run words s) (run words' s)) ∧
    ∀ text obstacle, ComesTo a s text → Utf8.encodable text = .error obstacle →
      Withheld s path text obstacle (run words s) (run words' s) := by
  rw [run, run, ha, hb]
  refine ⟨fun hbytes => ?_, fun text obstacle htext hobstacle => ?_⟩
  · dsimp only
    rw [runArguments_eq, runArguments_eq, shownLog, shownLog, ← h.treeOf_eq, ← h.format,
      ← h.verbose]
    exact redirected_outcomeOf hpath hwritable hnone
      (fun tree text htree htext => hbytes text ⟨tree, htree, htext⟩) _ _
  · exact withheld_of_text h hpath hwritable hnone htext hobstacle

/-! ## The file with the response -/

/-- Runs that ask for the same and differ in the destination. -/
theorem alike_asked (output output' : Option String) :
    AlikeButOutput (asked output) (asked output') :=
  ⟨rfl, rfl, rfl, rfl, rfl, rfl⟩

/-- A saved response is shown, and then it is replaced by what is shown of it. -/
theorem response_is_replaced :
    (run ["-r", "r"] (savedOnly (oneText "a") fun _ => false)).output = "\"a\"\n" ∧
      Redirected (savedFile (oneText "a")) "r"
        (run ["-r", "r", "-o", "r"] (savedOnly (oneText "a") fun _ => false))
        (run ["-r", "r"] (savedOnly (oneText "a") fun _ => false)) ∧
      ((run ["-r", "r", "-o", "r"] (savedOnly (oneText "a") fun _ => false)).filesAfter
        (savedFile (oneText "a"))).read (plainPath "r") = .ok (Utf8.encode "\"a\"\n") := by
  have hwords : Invocation.ofWords ["-r", "r", "-o", "r"] = .run (asked (some "r")) := rfl
  have hwords' : Invocation.ofWords ["-r", "r"] = .run (asked none) := rfl
  have htext : ComesTo (asked (some "r")) (savedOnly (oneText "a") fun _ => false) "\"a\"\n" :=
    comesTo_asked (by decide) _ _
  -- What the run without a destination prints is what the file holds afterwards.
  have hrun : run ["-r", "r"] (savedOnly (oneText "a") fun _ => false) =
      { ending := .status 0, output := "\"a\"\n" } := by
    refine (comesTo_asked (by decide) none _).runArguments.trans ?_
    rw [shownLog, treeOf_asked (by decide)]
    rfl
  have hredirected := (only_destination_changes hwords hwords' (alike_asked (some "r") none) rfl
    ⟨_, opened_savedFile _⟩ rfl).1 fun text hother => ⟨_, (htext.unique hother).symm⟩
  rcases hredirected.given (by rw [hrun]) with ⟨-, content, hcontent, hrefilled⟩
  rw [hrun] at hcontent
  cases hcontent
  exact ⟨by rw [hrun], hredirected, hrefilled.content⟩

/-- A surrogate alone is shown by a standard output that takes it. It is not written to a file: the
    run that should do so ends in trouble, and the response in the file is gone. -/
theorem lone_surrogate_is_not_redirected :
    (run ["-r", "r"] (savedOnly (loneSurrogate 0x480) fun _ => true)).ending = .status 0 ∧
      (run ["-r", "r"] (savedOnly (loneSurrogate 0x480) fun _ => true)).output =
        .broken "\"" 0x480 "\"\n" ∧
      (run ["-r", "r", "-o", "r"] (savedOnly (loneSurrogate 0x480) fun _ => true)).ending =
        .trouble (.notBytes ⟨0x480, 1, 1⟩) ∧
      Refilled (savedFile (loneSurrogate 0x480)) "r" ""
        ((run ["-r", "r", "-o", "r"] (savedOnly (loneSurrogate 0x480) fun _ => true)).filesAfter
          (savedFile (loneSurrogate 0x480))) := by
  have hwithheld : Withheld (savedOnly (loneSurrogate 0x480) fun _ => true) "r"
      (.broken "\"" 0x480 "\"\n") ⟨0x480, 1, 1⟩
      (run ["-r", "r", "-o", "r"] (savedOnly (loneSurrogate 0x480) fun _ => true))
      (run ["-r", "r"] (savedOnly (loneSurrogate 0x480) fun _ => true)) :=
    withheld_of_text (alike_asked (some "r") none) rfl ⟨_, opened_savedFile _⟩ rfl
      (comesTo_asked (by decide) _ _) rfl
  rcases hwithheld.printed fun _ _ => rfl with ⟨hending, houtput⟩
  exact ⟨hending, houtput, hwithheld.ending, hwithheld.emptied⟩

end Command

end StageTree
