import Mathlib.Data.List.Flatten
import StageTree.Proofs.Command.Asking

/-!
# Asking for More Lines

A run can be asked to show all of its log and not only the warnings. This makes no difference to
what it does. The log is written when the tree is made, and only afterwards it is settled which of
its lines are shown. The shown lines come first on the standard error stream, and what comes after
them is the same.

A line of the log may hold line ends of its own, since it may quote what the service answers. So
one line of the log can be several lines of the stream.

## Main definitions

* `textLines`: The lines of a text.

## Theorems

* `Command.exists_errors`: What follows the log on the standard error stream does not depend on it.
* `Command.textLines_logText`: The lines of a log are those of its shown lines, one after the other.
* `Command.verbosity_adds_lines`: A run that shows its whole log shows some lines more, and nothing
  else differs.
-/

namespace StageTree

/-- The lines of a text. After the last line end there is one more, which may be empty. -/
def textLines (text : Text) : List (List CodePoint) := text.points.splitOn (.char '\n')

/-- A text on a line of its own adds its lines in front of the others. -/
theorem textLines_onLine (text rest : Text) :
    textLines (Command.onLine text ++ rest) = textLines text ++ textLines rest := by
  have hpoints : (Command.onLine text ++ rest).points =
      text.points ++ .char '\n' :: rest.points := by
    rw [Command.onLine, Text.points_append, Text.points_append, List.append_assoc]
    rfl
  rw [textLines, hpoints, List.splitOn_append_cons_self]
  rfl

namespace Command

variable {a : Arguments} {s : Surroundings}

/-- The lines of the log are those of its shown lines, one after the other. -/
theorem textLines_logText (verbose : Bool) (lines : List LogLine) (rest : Text) :
    textLines (logText verbose lines ++ rest) =
      ((lines.filter (isShown verbose)).flatMap fun line => textLines line.text) ++
        textLines rest := by
  rw [logText]
  induction lines.filter (isShown verbose) with
  | nil => simp
  | cons line shown ih =>
      rw [List.map_cons, Text.concat_cons, Text.append_assoc, textLines_onLine, ih,
        List.flatMap_cons, List.append_assoc]

/-- Every line of the log is shown if all of them are asked for. -/
theorem filter_isShown_true (lines : List LogLine) : lines.filter (isShown true) = lines :=
  List.filter_eq_self.2 fun _ _ => rfl

/-- The warnings are among all lines of the log. -/
theorem logText_sublist (lines : List LogLine) (rest : Text) :
    (textLines (logText false lines ++ rest)).Sublist (textLines (logText true lines ++ rest)) := by
  rw [textLines_logText, textLines_logText, filter_isShown_true]
  exact (List.filter_sublist.flatMap _).append_right _

/-- What follows the log on the standard error stream does not depend on it. -/
theorem exists_errors (result : Except Trouble (Option Tree)) (format : Format)
    (give : Text → Delivery) (requests : List Request) :
    ∃ rest, ∀ log, (outcomeOf result format give log requests).errors = log ++ rest := by
  cases result with
  | error trouble =>
      -- Only the report of a failure comes after the log.
      cases trouble with
      | failure f => exact ⟨onLine f.text, fun log => rfl⟩
      | _ => exact ⟨"", fun log => (Text.append_empty log).symm⟩
  | ok tree =>
      refine ⟨"", fun log => ?_⟩
      rw [Text.append_empty, outcomeOf]
      cases render format tree <;> rfl

/-- Of two runs that are asked for the same, one shows its whole log and one only the warnings.
    They end in the same way, print the same on the standard output, write the same and post the
    same requests. On the standard error stream they differ in the log alone, and the lines of the
    quiet one are among those of the other one, in their order. -/
theorem verbosity_adds_lines {quiet verbose : List String}
    (hquiet : Invocation.ofWords quiet = .run { a with verbose := false })
    (hverbose : Invocation.ofWords verbose = .run { a with verbose := true }) :
    (run quiet s).ending = (run verbose s).ending ∧
      (run quiet s).output = (run verbose s).output ∧
      (run quiet s).written = (run verbose s).written ∧
      (run quiet s).requests = (run verbose s).requests ∧
      (∃ rest, (run quiet s).errors = logText false (treeOf a s).lines ++ rest ∧
        (run verbose s).errors = logText true (treeOf a s).lines ++ rest) ∧
      (textLines (run quiet s).errors).Sublist (textLines (run verbose s).errors) := by
  -- The tree is made without regard to how much of the log is shown.
  have hrun (words : List String) (shown : Bool)
      (hwords : Invocation.ofWords words = .run { a with verbose := shown }) :
      run words s = outcomeOf (treeOf a s).result a.format (deliver s a.output)
        (logText shown (treeOf a s).lines) (treeOf a s).requests := by
    rw [run, hwords]
    exact runArguments_eq _ s
  have hq := hrun quiet false hquiet
  have hv := hrun verbose true hverbose
  rcases alike_outcomeOf _ _ _ _ _ _ _ hq hv with ⟨hending, houtput, hwritten, -⟩
  rcases exists_errors (treeOf a s).result a.format (deliver s a.output)
    (treeOf a s).requests with ⟨rest, hrest⟩
  have herrors : (run quiet s).errors = logText false (treeOf a s).lines ++ rest := hq ▸ hrest _
  have herrors' : (run verbose s).errors = logText true (treeOf a s).lines ++ rest := hv ▸ hrest _
  refine ⟨hending, houtput, hwritten, ?_, ⟨rest, herrors, herrors'⟩, ?_⟩
  · rw [run, run, hquiet, hverbose]
    dsimp only
    rw [requests_runArguments, requests_runArguments]
    rfl
  · rw [herrors, herrors']
    exact logText_sublist _ rest

/-- Source code on the standard input, and a service that takes too long. -/
def slowService : Surroundings := ⟨⟨[]⟩, [0x31], fun _ => false, .failed .timeout⟩

theorem slow_service_adds_lines :
    (run ["-"] slowService).ending = (run ["-v", "-"] slowService).ending ∧
      (run ["-"] slowService).output = (run ["-v", "-"] slowService).output ∧
      (run ["-"] slowService).written = (run ["-v", "-"] slowService).written ∧
      (run ["-"] slowService).requests = (run ["-v", "-"] slowService).requests ∧
      (textLines (run ["-"] slowService).errors).Sublist
        (textLines (run ["-v", "-"] slowService).errors) := by
  rcases @verbosity_adds_lines { input := some "-" } slowService ["-"] ["-v", "-"] rfl rfl with
    ⟨hending, houtput, hwritten, hrequests, -, hlines⟩
  exact ⟨hending, houtput, hwritten, hrequests, hlines⟩

end Command

end StageTree
