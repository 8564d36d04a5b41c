import StageTree.Command.Run
import StageTree.Proofs.Text.Utf8

/-!
# Courses of a Run

Everything that a run can come to. A run that is asked to show something makes its tree, then the
whole text, and then it gives the text out. Each of these may fail, and each failure has its own
ending; what the log shows and which requests are posted is settled when the tree is made.

What is proved of runs is proved case by case of their courses.

## Main definitions

* `Command.Delivered`: How a text is given out, or what keeps it from being given out.
* `Command.ComesTo`: A run comes to a text that is to be given out.
* `Command.Course`: How a run goes that is asked to show something.

## Theorems

* `Command.opened_eq_ok`, `Command.opened_eq_error`: A path opens the place for a file that it
  leads to, and why it may open none.
* `Command.Delivery.ending_eq_done`, `Command.Delivery.ending_eq_trouble`: How a run ends that
  gives out a text.
* `Command.deliver_none`, `Command.deliver_some`: A text is printed, or it goes to a file.
* `Command.delivered`: A text is given out in one of these ways.
* `Command.course`: A run goes in one of these ways.
-/

namespace StageTree

namespace Command

variable {a : Arguments} {s : Surroundings} {files : Files} {path : String}

/-- The file that the output of a run goes to. An empty path is like none. -/
def Arguments.destination? (a : Arguments) : Option String := a.output.filter (· != "")

/-- A path opens the place for a file that it leads to. -/
theorem opened_eq_ok {file : Location × Option (List UInt8)} : opened files path = .ok file ↔
    path.toList.contains '\x00' = false ∧ files.place (plainPath path) = .ok file := by
  rw [opened]
  split
  · rename_i hnull
    exact iff_of_false nofun fun h => Bool.false_ne_true (h.1.symm.trans hnull)
  · rename_i hplain
    rw [and_iff_right (Bool.eq_false_iff.2 hplain)]
    cases files.place (plainPath path) with
    | error e => exact iff_of_false nofun nofun
    | ok found => rw [Except.mapError, Except.ok.injEq, Except.ok.injEq]

/-- A path that cannot be opened has a null character, or it leads to no place for a file. -/
theorem opened_eq_error {t : Trouble} (h : opened files path = .error t) :
    path.toList.contains '\x00' = true ∧ t = .nullInPath ∨
      ∃ e, files.place (plainPath path) = .error e ∧ t = .path e := by
  rw [opened] at h
  split at h
  · rename_i hnull
    cases h
    exact Or.inl ⟨hnull, rfl⟩
  · cases hplace : files.place (plainPath path) with
    | error e =>
        rw [hplace] at h
        cases h
        exact Or.inr ⟨e, rfl, rfl⟩
    | ok file =>
        rw [hplace] at h
        cases h

namespace Delivery

variable {d : Delivery}

/-- A run ends well if giving its text out is no trouble. -/
theorem ending_eq_done : d.ending = .status 0 ↔ d.trouble = none := by
  unfold ending
  cases d.trouble with
  | none => exact iff_of_true rfl rfl
  | some t => exact iff_of_false nofun nofun

/-- If it is, the run ends in that trouble. -/
theorem ending_eq_trouble {t : Trouble} : d.ending = .trouble t ↔ d.trouble = some t := by
  unfold ending
  cases d.trouble with
  | none => exact iff_of_false nofun nofun
  | some other => rw [Ending.trouble.injEq, Option.some.injEq]

end Delivery

/-- Without a destination a text is printed. -/
theorem deliver_none (h : a.destination? = none) (text : Text) :
    deliver s a.output text = print s.takes text := by
  -- An empty path is like no path, so the two ways to print are one case here.
  unfold deliver
  split
  · rfl
  · rename_i houtput
    split
    · rfl
    · rename_i hne
      rw [Arguments.destination?, houtput, Option.filter_some, if_pos (bne_iff_ne.2 hne)] at h
      cases h

/-- With a destination a text goes to the file there. -/
theorem deliver_some (h : a.destination? = some path) (text : Text) :
    deliver s a.output text = deliverTo s.files path text := by
  rcases Option.filter_eq_some_iff.1 h with ⟨houtput, hne⟩
  rw [houtput, deliver, if_neg (bne_iff_ne.1 hne)]

/-- How a text is given out, or what keeps it from being given out. It is printed, or it is
    written to a place for a file and what is printed says so. -/
inductive Delivered (s : Surroundings) (a : Arguments) (text : Text) : Delivery → Prop where
  | printed (h : a.destination? = none)
    (htaken : ∀ u, .surrogate u ∈ text.points → s.takes u = true) :
    Delivered s a text { output := text }
  /-- The standard output does not take the text. -/
  | unprinted {obstacle : Utf8.Obstacle} (h : a.destination? = none)
    (hobstacle : Utf8.obstacle? s.takes 0 text = some obstacle) :
    Delivered s a text { trouble := some (.notBytes obstacle) }
  /-- The file cannot be opened. -/
  | unopened {path : String} {t : Trouble} (h : a.destination? = some path)
    (hopened : opened s.files path = .error t) :
    Delivered s a text { trouble := some t }
  /-- The file is emptied, and there are no bytes for the text. -/
  | emptied {path : String} {file : Location × Option (List UInt8)} {obstacle : Utf8.Obstacle}
    (h : a.destination? = some path) (hopened : opened s.files path = .ok file)
    (hobstacle : Utf8.encodable text = .error obstacle) :
    Delivered s a text { trouble := some (.notBytes obstacle), written := filled file "" }
  | written {path content : String} {file : Location × Option (List UInt8)}
    (h : a.destination? = some path) (hopened : opened s.files path = .ok file)
    (hcontent : text = content) :
    Delivered s a text
      { output := onLine ("Tree written to " ++ path), written := filled file content }

/-- A text is given out in one of these ways. -/
theorem delivered (s : Surroundings) (a : Arguments) (text : Text) :
    Delivered s a text (deliver s a.output text) := by
  cases hdestination : a.destination? with
  | none =>
      -- What is printed is taken whole or not at all.
      rw [deliver_none hdestination, print]
      cases hobstacle : Utf8.obstacle? s.takes 0 text with
      | none => exact .printed hdestination (Utf8.obstacle?_eq_none.1 hobstacle)
      | some obstacle => exact .unprinted hdestination hobstacle
  | some path =>
      -- The file is opened first, and only then its content is looked at.
      rw [deliver_some hdestination, deliverTo]
      cases hopened : opened s.files path with
      | error t => exact .unopened hdestination hopened
      | ok file =>
          dsimp only
          cases hcontent : Utf8.encodable text with
          | error obstacle => exact .emptied hdestination hopened hcontent
          | ok content =>
              exact .written hdestination hopened (Utf8.encodable_eq_ok.1 hcontent)

/-- A run has a tree, or finds that there is none, and comes to the text of it. -/
def ComesTo (a : Arguments) (s : Surroundings) (text : Text) : Prop :=
  ∃ tree, (treeOf a s).result = .ok tree ∧ render a.format tree = .ok text

/-- A run comes to one text. -/
theorem ComesTo.unique {text text' : Text} (h : ComesTo a s text) (h' : ComesTo a s text') :
    text = text' := by
  rcases h with ⟨tree, htree, htext⟩
  rcases h' with ⟨tree', htree', htext'⟩
  cases htree.symm.trans htree'
  exact Except.ok.inj (htext.symm.trans htext')

/-- A text of data has no surrogates, since they are escaped in it. -/
theorem ComesTo.exists_of_json {text : Text} (h : ComesTo a s text) (hformat : a.format = .json) :
    ∃ content : String, text = content := by
  -- Data are written without surrogates, and where there is no tree the text is fixed.
  rcases h with ⟨tree, -, htext⟩
  rw [hformat] at htext
  cases tree with
  | none =>
      cases htext
      exact ⟨_, rfl⟩
  | some t =>
      rw [render] at htext
      cases hdata : roomy t.toJson? with
      | error e =>
          rw [hdata] at htext
          cases htext
      | ok j =>
          rw [hdata] at htext
          cases htext
          exact ⟨_, rfl⟩

/-- What the log of a run shows. -/
def shownLog (a : Arguments) (s : Surroundings) : Text := logText a.verbose (treeOf a s).lines

/-- How a run goes that is asked to show something. -/
inductive Course (a : Arguments) (s : Surroundings) : Outcome → Prop where
  /-- There is no tree, and a failure is reported. -/
  | failed {f : Failure} (h : (treeOf a s).result = .error (.failure f)) :
    Course a s
      { ending := .status 1
        errors := shownLog a s ++ onLine f.text
        requests := (treeOf a s).requests }
  /-- There is no tree, and the trouble is passed on. -/
  | troubled {t : Trouble} (h : (treeOf a s).result = .error t) (hnone : ∀ f, t ≠ .failure f) :
    Course a s
      { ending := .trouble t, errors := shownLog a s, requests := (treeOf a s).requests }
  /-- There is a tree, but its text cannot be made. -/
  | unrendered {tree : Option Tree} {t : Trouble} (htree : (treeOf a s).result = .ok tree)
    (h : render a.format tree = .error t) :
    Course a s
      { ending := .trouble t, errors := shownLog a s, requests := (treeOf a s).requests }
  /-- There is a text, and what comes of giving it out comes of the run. -/
  | rendered {text : Text} {delivery : Delivery} (htext : ComesTo a s text)
    (h : Delivered s a text delivery) :
    Course a s
      { ending := delivery.ending
        output := delivery.output
        errors := shownLog a s
        written := delivery.written
        requests := (treeOf a s).requests }

/-- A trouble that is no failure is passed on. -/
theorem troubled_of_ne {t : Trouble} (h : ∀ f, t ≠ .failure f) (log : Text)
    (requests : List Request) :
    troubled log requests t = { ending := .trouble t, errors := log, requests := requests } := by
  unfold troubled
  split
  · exact absurd rfl (h _)
  · rfl

/-- A run that is asked to show something goes in one of these ways. -/
theorem course (a : Arguments) (s : Surroundings) : Course a s (runArguments a s) := by
  unfold runArguments
  dsimp only
  split
  · rename_i t htree
    -- Failures are reported, and no other trouble is.
    by_cases hfailure : ∃ f, t = .failure f
    · rcases hfailure with ⟨f, rfl⟩
      exact .failed htree
    · rw [troubled_of_ne (not_exists.1 hfailure)]
      exact .troubled htree (not_exists.1 hfailure)
  · rename_i tree htree
    split
    · rename_i t h
      exact .unrendered htree h
    · -- Nothing is left but to give out the text.
      rename_i text htext
      exact .rendered ⟨tree, htree, htext⟩ (delivered s a text)

end Command

end StageTree
