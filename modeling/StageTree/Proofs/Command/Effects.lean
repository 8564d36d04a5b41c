import StageTree.Proofs.Command.Routes

/-!
# Effects of a Run

A run does all of what it is asked to do, or it prints nothing and changes no file. It prints on
the standard output and opens a file only when the whole text of the tree is there, and by then
giving it out is the one thing left that may fail.

There is one exception. A file is emptied when it is opened, and only then it turns out whether
there are bytes for the text. If the text has surrogates there are none, and the file stays empty.

## Main definitions

* `Command.Outcome.filesAfter`: The files after a run.
* `Command.Refilled`: A file has a content now, and nothing else has changed.
* `Command.GivesOut`: A run gives out a text and changes nothing else.
* `Command.CanBeWritten`: A path leads to a place where a file can be written.
* `Command.Empties`: A run comes to a text without bytes, and to a file for it.

## Theorems

* `Command.Refilled.of_filled`: A content that is given to a file is found there.
* `Command.Delivered.givesOut`: A text that is delivered is given out.
* `Command.Empties.leaves`: What comes of a run that empties a file.
* `Command.run_all_or_nothing`: A run gives out the whole text of its tree, or nothing; and when
  it leaves an empty file.
-/

namespace StageTree

namespace Command

variable {a : Arguments} {s : Surroundings} {files : Files} {text : Text} {o : Outcome}
  {path content : String} {obstacle : Utf8.Obstacle}

/-- The files after a run. -/
def Outcome.filesAfter (o : Outcome) (files : Files) : Files :=
  match o.written with
  | none => files
  | some (location, content) => files.put location (Utf8.encode content)

theorem Outcome.filesAfter_of_none (h : o.written = none) : o.filesAfter files = files := by
  rw [filesAfter, h]

/-- The file that a path leads to has a content now, and everything that is found elsewhere was
    found there before. -/
structure Refilled (files : Files) (path content : String) (after : Files) : Prop where
  content : after.read (plainPath path) = .ok (Utf8.encode content)
  elsewhere : ∃ location before, files.place (plainPath path) = .ok (location, before) ∧
    ∀ l ≠ location, after.entryAt? l = files.entryAt? l

/-- A content that is given to an opened file is found there. -/
theorem Refilled.of_filled {file : Location × Option (List UInt8)}
    (hopened : opened files path = .ok file) (h : o.written = filled file content) :
    Refilled files path content (o.filesAfter files) := by
  rcases file with ⟨location, before⟩
  have hplace := (opened_eq_ok.1 hopened).2
  unfold filled at h
  split at h
  · -- What is there already is not written again.
    rename_i hsame
    rw [Outcome.filesAfter_of_none h]
    refine ⟨Files.read_eq_ok.2 ⟨location, ?_⟩, location, before, hplace, fun _ _ => rfl⟩
    exact hsame ▸ Files.place_eq_ok.1 hplace
  · -- Otherwise the file is put there, which is seen at its location and at no other.
    have hafter : o.filesAfter files = files.put location (Utf8.encode content) := by
      rw [Outcome.filesAfter, h]
    rw [hafter]
    refine ⟨Files.read_put hplace _, location, before, hplace, fun l hl => ?_⟩
    exact (Files.place_writable hplace).1.entryAt?_put _ hl

/-- A run gives out a text and changes nothing else. Without a destination it prints the text. With
    one, the text has bytes and they are found there afterwards. -/
def GivesOut (files : Files) (text : Text) (o : Outcome) : Option String → Prop
  | none => o.output = text ∧ o.filesAfter files = files
  | some path =>
    o.output = .plain ("Tree written to " ++ path ++ "\n") ∧
      ∃ content : String, text = content ∧ Refilled files path content (o.filesAfter files)

/-- A text that is delivered without trouble is given out. -/
theorem Delivered.givesOut {delivery : Delivery} (h : Delivered s a text delivery)
    (htrouble : delivery.trouble = none) (houtput : o.output = delivery.output)
    (hwritten : o.written = delivery.written) : GivesOut s.files text o a.destination? := by
  cases h with
  | printed hnone _ =>
      rw [hnone]
      exact ⟨houtput, Outcome.filesAfter_of_none hwritten⟩
  -- The other ways to go on leave a trouble behind.
  | unprinted _ _ => cases htrouble
  | unopened _ _ => cases htrouble
  | emptied _ _ _ => cases htrouble
  | written hpath hopened hcontent =>
      rw [hpath]
      exact ⟨houtput, _, hcontent, .of_filled hopened hwritten⟩

/-- A path leads to a place where a file can be written. -/
def CanBeWritten (files : Files) (path : String) : Prop := ∃ file, opened files path = .ok file

/-- A run comes to a text for which there are no bytes, and it can open a file for it. -/
structure Empties (a : Arguments) (s : Surroundings) (path : String)
    (obstacle : Utf8.Obstacle) : Prop where
  destination : a.destination? = some path
  text : ∃ text, ComesTo a s text ∧ Utf8.encodable text = .error obstacle
  writable : CanBeWritten s.files path

/-- A run that empties a file ends in trouble, and leaves the file empty. -/
theorem Empties.leaves (h : Empties a s path obstacle) :
    (runArguments a s).ending = .trouble (.notBytes obstacle) ∧ (runArguments a s).output = "" ∧
      (runArguments a s).errors = shownLog a s ∧
      Refilled s.files path "" ((runArguments a s).filesAfter s.files) := by
  rcases h.text with ⟨text, htext, hobstacle⟩
  rcases h.writable with ⟨file, hopened⟩
  have hdeliver : deliver s a.output text =
      { trouble := some (.notBytes obstacle), written := filled file "" } := by
    rw [deliver_some h.destination, deliverTo, hopened]
    dsimp only
    rw [hobstacle]
  -- What comes of the run is what came of giving out its text.
  rw [htext.runArguments, hdeliver]
  exact ⟨rfl, rfl, rfl, .of_filled hopened rfl⟩

/-- A run that is in trouble prints nothing. It changes no file, unless it empties one. -/
theorem Course.nothing (h : Course a s o) (hne : o.ending ≠ .status 0) : o.output = "" ∧
    (o.filesAfter s.files = s.files ∨ ∃ path obstacle, Empties a s path obstacle) := by
  cases h with
  | failed _ => exact ⟨rfl, Or.inl rfl⟩
  | troubled _ _ => exact ⟨rfl, Or.inl rfl⟩
  | unrendered _ _ => exact ⟨rfl, Or.inl rfl⟩
  -- Only what is given out is printed or written, so the other courses leave everything as it was.
  | rendered htext h =>
      cases h with
      | printed _ _ => exact absurd rfl hne
      | unprinted _ _ => exact ⟨rfl, Or.inl rfl⟩
      | unopened _ _ => exact ⟨rfl, Or.inl rfl⟩
      | emptied hpath hopened hobstacle =>
          exact ⟨rfl, Or.inr ⟨_, _, hpath, ⟨_, htext, hobstacle⟩, _, hopened⟩⟩
      | written _ _ _ => exact absurd rfl hne

/-- A run that ends well gives out the whole text of its tree. -/
theorem Course.everything (h : Course a s o) (hdone : o.ending = .status 0) :
    ∃ text, ComesTo a s text ∧ GivesOut s.files text o a.destination? := by
  cases h with
  | failed _ => cases hdone
  | troubled _ _ => cases hdone
  | unrendered _ _ => cases hdone
  | rendered htext h =>
      exact ⟨_, htext, h.givesOut (Delivery.ending_eq_done.1 hdone) rfl rfl⟩

/-- A run gives out the whole text of its tree, or it prints nothing and changes no file, unless it
    comes to a text for which there are no bytes and to a file for it. Then it ends in trouble and
    leaves the file empty. -/
theorem run_all_or_nothing (words : List String) (s : Surroundings) :
    ((run words s).ending ≠ .status 0 → (run words s).output = "" ∧
      ((run words s).filesAfter s.files = s.files ∨
        ∃ a path obstacle, Invocation.ofWords words = .run a ∧ Empties a s path obstacle)) ∧
    (∀ a path obstacle, Invocation.ofWords words = .run a → Empties a s path obstacle →
      (run words s).ending = .trouble (.notBytes obstacle) ∧
        Refilled s.files path "" ((run words s).filesAfter s.files)) ∧
    ((run words s).ending = .status 0 → Invocation.ofWords words ≠ .help →
      ∃ a text, Invocation.ofWords words = .run a ∧ ComesTo a s text ∧
        GivesOut s.files text (run words s) a.destination?) := by
  unfold run
  cases Invocation.ofWords words with
  -- The help is no text of a tree, and a misuse is written to the standard error stream.
  | help =>
      refine ⟨fun h => absurd rfl h, fun _ _ _ h => ?_, fun _ h => absurd rfl h⟩
      cases h
  | misuse m =>
      refine ⟨fun _ => ⟨rfl, Or.inl rfl⟩, fun _ _ _ h => ?_, fun h => ?_⟩
      · cases h
      · cases h
  | run a =>
      refine ⟨fun hne => ?_, fun a' path obstacle ha hempties => ?_, fun hdone _ => ?_⟩
      · rcases (course a s).nothing hne with ⟨houtput, hsame | ⟨path, obstacle, hempties⟩⟩
        · exact ⟨houtput, Or.inl hsame⟩
        · exact ⟨houtput, Or.inr ⟨a, path, obstacle, rfl, hempties⟩⟩
      · cases ha
        rcases hempties.leaves with ⟨hending, -, -, hfile⟩
        exact ⟨hending, hfile⟩
      · rcases (course a s).everything hdone with ⟨text, hgiven⟩
        exact ⟨a, text, rfl, hgiven⟩

/-- A response with a form that is one surrogate. -/
def loneSurrogate (u : Surrogate) : Json := oneText (.broken "" u "")

/-- The output goes to the file with the response. The run ends in trouble, and the response is
    gone. -/
theorem lone_surrogate_empties_file :
    (run ["-r", "r", "-o", "r"] (savedOnly (loneSurrogate 0) fun _ => false)).ending =
        .trouble (.notBytes ⟨0, 1, 1⟩) ∧
      (savedFile (loneSurrogate 0)).read (plainPath "r") ≠ .ok [] ∧
      ((run ["-r", "r", "-o", "r"] (savedOnly (loneSurrogate 0) fun _ => false)).filesAfter
        (savedFile (loneSurrogate 0))).read (plainPath "r") = .ok [] := by
  have hsaved := saved_savedOnly (a := asked (some "r")) rfl (loneSurrogate 0) fun _ => false
  have hempties : Empties (asked (some "r")) (savedOnly (loneSurrogate 0) fun _ => false) "r"
      ⟨0, 1, 1⟩ :=
    ⟨rfl, ⟨_, comesTo_asked (by decide) _ _, rfl⟩, _, opened_savedFile _⟩
  rcases hempties.leaves with ⟨hending, -, -, hfile⟩
  refine ⟨hending, fun hempty => ?_, ?_⟩
  · -- The response was there before: its first byte is that of a carriage return.
    have hbytes := Except.ok.inj (hsaved.file.symm.trans hempty)
    rw [savedText, Utf8.encode_ofList, List.cons_append, List.flatMap_cons] at hbytes
    cases hbytes
  · rw [← show Utf8.encode "" = [] from Utf8.encode_ofList []]
    exact hfile.content

end Command

end StageTree
