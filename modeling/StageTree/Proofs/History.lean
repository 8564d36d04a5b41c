import StageTree.Proofs.Requests

/-!
# Sessions Have No History

What a session answers depends on its settings and on what it is asked, and on nothing that
happened before. The settings are those it started with, but for what was assigned to them. So an
operation could as well be asked of a fresh session that has these settings, and an operation
that assigns nothing could be left out without another answer changing, however it went.

Only the last assignment to a setting counts. This is what is proved of a row of assignments, once
for all settings; the row of a session's assignments is that of its operations with everything
else dropped.

## Main definitions

* `Settings.Assignment`: A value for one of the settings.
* `Session.Step.assignment?`: What an operation assigns.
* `Session.settingsAfter`: The settings after some operations.
* `Session.Step.posts`: The requests that an operation has to post.

## Theorems

* `Settings.assignAll_eq`: The last assignment counts.
* `Session.Step.settings_eq`: An operation changes the settings by what it assigns.
* `Session.run_append`: A session goes on like a fresh one.
* `Session.requests_answer`: What is posted for an answer.
* `Session.answers_without_history`: An answer is that of a fresh session.
-/

namespace StageTree

namespace Settings

/-- A value for one of the settings. -/
inductive Assignment where
  | host (value : Text)
  | endpoint (value : Text)
  | timeout (value : Binary64)

/-- The settings with a value assigned to one of them. -/
def assign (s : Settings) : Assignment → Settings
  | .host value => { s with host := value }
  | .endpoint value => { s with endpoint := value }
  | .timeout value => { s with timeout := value }

/-- The value for the host, if it is one. -/
def Assignment.host? : Assignment → Option Text
  | .host value => some value
  | _ => none

/-- The value for the path on the host, if it is one. -/
def Assignment.endpoint? : Assignment → Option Text
  | .endpoint value => some value
  | _ => none

/-- The value for the time, if it is one. -/
def Assignment.timeout? : Assignment → Option Binary64
  | .timeout value => some value
  | _ => none

/-- The settings with some values assigned to them, one after the other. -/
def assignAll (s : Settings) (assignments : List Assignment) : Settings :=
  assignments.foldl assign s

/-- A setting that is assigned to has the value that was assigned last. -/
theorem assignAll_eq {α : Type} {field : Settings → α} {value? : Assignment → Option α}
    (h : ∀ s a, field (assign s a) = (value? a).getD (field s)) (s : Settings)
    (assignments : List Assignment) :
    field (s.assignAll assignments) =
      (assignments.filterMap value?).getLast?.getD (field s) := by
  induction assignments generalizing s with
  | nil => rfl
  | cons a rest ih =>
      have hrest : field (s.assignAll (a :: rest)) =
          (rest.filterMap value?).getLast?.getD ((value? a).getD (field s)) := by
        rw [← h]
        exact ih (s.assign a)
      -- The first value counts only if none of the others is for this setting.
      rw [hrest]
      cases hvalue : value? a with
      | none => rw [List.filterMap_cons_none hvalue, Option.getD_none]
      | some value => rw [List.filterMap_cons_some hvalue, List.getLast?_cons]; rfl

/-- The host is the one that was assigned last. -/
theorem host_assignAll (s : Settings) (assignments : List Assignment) :
    (s.assignAll assignments).host =
      (assignments.filterMap Assignment.host?).getLast?.getD s.host :=
  assignAll_eq (fun _ a => by cases a <;> rfl) s assignments

theorem endpoint_assignAll (s : Settings) (assignments : List Assignment) :
    (s.assignAll assignments).endpoint =
      (assignments.filterMap Assignment.endpoint?).getLast?.getD s.endpoint :=
  assignAll_eq (fun _ a => by cases a <;> rfl) s assignments

theorem timeout_assignAll (s : Settings) (assignments : List Assignment) :
    (s.assignAll assignments).timeout =
      (assignments.filterMap Assignment.timeout?).getLast?.getD s.timeout :=
  assignAll_eq (fun _ a => by cases a <;> rfl) s assignments

end Settings

namespace Session

open Settings (Assignment)

variable {s : Settings} {step : Step} {before after : List Step}

/-- What an operation assigns, if it is an assignment. -/
def Step.assignment? : Step → Option Assignment
  | .setHost value => some (.host value)
  | .setEndpoint value => some (.endpoint value)
  | .setTimeout value => some (.timeout value)
  | _ => none

/-- What some operations assign. -/
def assignments (steps : List Step) : List Assignment := steps.filterMap Step.assignment?

/-- The settings after some operations: those from before, with what the operations assign. -/
def settingsAfter (s : Settings) (steps : List Step) : Settings := s.assignAll (assignments steps)

/-- An operation changes the settings by what it assigns. -/
theorem Step.settings_eq (s : Settings) (step : Step) :
    step.settings s = settingsAfter s [step] := by
  cases step <;> rfl

/-- Operations change the settings one after the other. -/
theorem settingsAfter_cons (s : Settings) (step : Step) (rest : List Step) :
    settingsAfter s (step :: rest) = settingsAfter (step.settings s) rest := by
  rw [step.settings_eq]
  simp only [settingsAfter, Settings.assignAll, assignments]
  rw [← List.foldl_append, ← List.filterMap_append]
  rfl

/-- An operation that assigns nothing leaves the settings as they are. -/
theorem settings_of_none (h : step.assignment? = none) (s : Settings) :
    step.settings s = s := by
  rw [step.settings_eq, settingsAfter, assignments, List.filterMap_cons_none h]
  rfl

/-- A session goes on after some operations like a fresh one with the settings after them. -/
theorem run_append (s : Settings) (before after : List Step) :
    run s (before ++ after) = run s before ++ run (settingsAfter s before) after := by
  induction before generalizing s with
  | nil => rfl
  | cons step rest ih =>
      rw [List.cons_append, run, ih, run, settingsAfter_cons, List.cons_append]

/-! ## Answers -/

/-- The requests that are posted while an answer is made. -/
def Answer.requests : Answer → List Request
  | .settings _ => []
  | .tree result => result.requests

/-- The requests that an operation has to post: one for source code, to where the settings say and
    with the time that they give. -/
def Step.posts (s : Settings) : Step → List Request
  | .code stage source _ => [⟨s.url, stage, source, s.timeout⟩]
  | _ => []

/-- An operation posts what it has to post, and nothing else. -/
theorem requests_answer (s : Settings) (step : Step) :
    (step.answer s).requests = step.posts s := by
  cases step with
  -- Only source code is sent anywhere; what is handed in is shown without a request.
  | term stage t => exact Traced.requests_bind_eq_nil (requests_showTerm stage t) fun _ => rfl
  | last stage ts => exact requests_showLast stage ts
  | response stage j => exact requests_showResponse stage j
  | code stage source exchange => exact requests_buildTree s stage source exchange
  | _ => rfl

theorem length_run (s : Settings) (steps : List Step) : (run s steps).length = steps.length := by
  induction steps generalizing s with
  | nil => rfl
  | cons step rest ih => rw [run, List.length_cons, ih, List.length_cons]

/-- The answer to an operation is what a fresh session answers to it whose settings are those of
    the beginning, each with the value that was assigned to it last. Nothing but assignments to
    settings can be told from later answers, and only an operation on source code posts a request:
    a single one, which goes where the settings of that moment say. -/
theorem answers_without_history (s : Settings) (before : List Step) (step : Step)
    (after : List Step) :
    (∃ earlier answer later,
      run s (before ++ step :: after) = earlier ++ answer :: later ∧
        earlier.length = before.length ∧
        run (settingsAfter s before) [step] = [answer] ∧
        (step.assignment? = none → run s (before ++ after) = earlier ++ later) ∧
        answer.requests = step.posts (settingsAfter s before)) ∧
    (settingsAfter s before).host =
      ((assignments before).filterMap Assignment.host?).getLast?.getD s.host ∧
    (settingsAfter s before).endpoint =
      ((assignments before).filterMap Assignment.endpoint?).getLast?.getD s.endpoint ∧
    (settingsAfter s before).timeout =
      ((assignments before).filterMap Assignment.timeout?).getLast?.getD s.timeout := by
  refine ⟨⟨run s before, step.answer (settingsAfter s before),
    run (step.settings (settingsAfter s before)) after, ?_, length_run s before, rfl, ?_, ?_⟩,
    s.host_assignAll _, s.endpoint_assignAll _, s.timeout_assignAll _⟩
  · -- The operation is the first one after those from before.
    rw [run_append, run]
  · intro h
    rw [run_append, settings_of_none h]
  · exact requests_answer _ step

end Session

end StageTree
