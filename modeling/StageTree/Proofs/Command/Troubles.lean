import StageTree.Proofs.Command.Courses
import StageTree.Proofs.Depth
import StageTree.Proofs.Files
import StageTree.Proofs.Settings

/-!
# Troubles That Are Not Reported

A run that does not do what it is asked to do should say so on the standard error stream and end
with a status. Most runs do: the command line is refused with the usage and a message, and a
failure is reported. But some troubles are not failures, and a run passes them on. They are all
listed here, each with what brings it about.

They come from files, from bytes that are no text and from texts that have no bytes, from the
limits of reading and of making data, from options that are given nothing, and from the way to the
service.

## Main definitions

* `Command.Reported`: A run reports what is wrong.
* `Command.FileTrouble`, `Command.ConfigurationTrouble`: What can be wrong with a file.
* `Command.Unreported`: What a run does not report, and why.

## Theorems

* `Command.treeOf_error`: How making the tree of a run can fail.
* `Command.run_reported_or_unreported`: A run does what it is asked to do, or it reports what is
  wrong, or there is one of the listed troubles. A directory where a response should be is one.
-/

namespace StageTree

variable {α β : Type} {t : Trouble} {cs : List Char} {files : Files} {path : String}

/-! ## What failures are -/

/-- A trouble that is reported. -/
def IsReported (t : Trouble) : Prop := ∃ f, t = .failure f

theorem isReported_complaint (message : Text) : IsReported (Command.complaint message) :=
  ⟨_, rfl⟩

/-- Of two steps in a row the first one fails, or the second one does. -/
theorem Traced.result_bind_eq_error {x : Traced α} {f : α → Traced β}
    (h : (x >>= f).result = .error t) :
    x.result = .error t ∨ ∃ a, x.result = .ok a ∧ (f a).result = .error t := by
  -- A trace is bound by its result, and the events do not matter here.
  rcases x with ⟨events, result⟩
  cases result with
  | error other =>
      cases h
      exact Or.inl rfl
  | ok a => exact Or.inr ⟨a, rfl, h⟩

theorem Traced.result_bind_eq_ok {x : Traced α} {f : α → Traced β} {b : β}
    (h : (x >>= f).result = .ok b) : ∃ a, (f a).result = .ok b := by
  rcases x with ⟨events, result⟩
  cases result with
  | error other => cases h
  | ok a => exact ⟨a, h⟩

/-- The report of a failure starts with the word for one. -/
theorem Failure.exists_text (f : Failure) : ∃ rest : Text, f.text = "Error: " ++ rest :=
  ⟨_, Text.intercalate_append _ _ _ _⟩

/-! ## Limits of reading -/

/-- A text is past a limit of the reader of documents. -/
inductive PastLimit (cs : List Char) : Trouble → Prop where
  | longInteger (digits : Nat) (h : Json.LongRun Json.integerDigitLimit cs) :
    PastLimit cs (.longInteger digits)
  | outOfRoom (h : nestingLimit < cs.countP Json.opensNesting) : PastLimit cs .outOfRoom

/-- A text that is not read is malformed or past a limit. -/
theorem readDocument_eq_error (h : readDocument cs = .error t) :
    (∃ complaint line column position, t = .malformed complaint line column position) ∨
      PastLimit cs t := by
  unfold readDocument at h
  cases hread : Json.read nestingLimit cs with
  | ok j =>
      rw [hread] at h
      cases h
  | error error =>
      rw [hread] at h
      cases h
      -- Each error of the reader comes with what warrants it.
      have hwarranted := Json.read_error hread
      cases error with
      | malformed complaint line column position =>
          exact Or.inl ⟨complaint, line, column, position, rfl⟩
      | longInteger digits => exact Or.inr (.longInteger digits hwarranted)
      | tooDeep => exact Or.inr (.outOfRoom hwarranted)

namespace Command

/-! ## Files -/

/-- What can be wrong with a file that should be there, and is not reported. -/
inductive FileTrouble (files : Files) (path : String) : Trouble → Prop where
  /-- The path leads to a directory, or has a name that is too long. -/
  | path {e : PathError} (hread : files.read (plainPath path) = .error e)
    (h : e.problem = .isDirectory ∨ e.problem = .nameTooLong) : FileTrouble files path (.path e)
  /-- The bytes of the file are no text. -/
  | notText {bytes : List UInt8} {refusal : Utf8.Refusal}
    (hread : files.read (plainPath path) = .ok bytes) (h : ∀ text, bytes ≠ Utf8.encode text) :
    FileTrouble files path (.notText refusal)

/-- What keeps a file from being read is reported, or there is something wrong with the file. -/
theorem fileText_eq_error (h : fileText files path = .error t) :
    IsReported t ∨ FileTrouble files path t := by
  unfold fileText at h
  dsimp only at h
  split at h
  · cases h
    exact Or.inl (isReported_complaint _)
  · -- Whether the path leads anywhere is asked first, and only absence is complained about.
    cases hread : files.read (plainPath path) with
    | error e =>
        rcases Files.problem_of_read_error hread with ⟨hkind, hthere⟩ | ⟨hkind, hthere⟩ | hthere
        · rw [hthere, hread] at h
          cases h
          exact Or.inr (.path hread (Or.inl hkind))
        · rw [hthere] at h
          cases h
          exact Or.inr (.path hread (Or.inr hkind))
        · rw [hthere] at h
          cases h
          exact Or.inl (isReported_complaint _)
    | ok bytes =>
        rw [Files.exists?_of_read hread, hread] at h
        dsimp only at h
        cases htext : readText bytes with
        | ok cs =>
            rw [htext] at h
            cases h
        | error trouble =>
            rw [htext] at h
            cases h
            rcases Service.readText_eq_error htext with ⟨⟨refusal, rfl⟩, hbytes⟩
            exact Or.inr (.notText hread hbytes)

/-- What keeps a document from being read is reported, or there is something wrong with the file, or
    its text is past a limit. -/
theorem savedDocument_eq_error (h : savedDocument files path = .error t) :
    IsReported t ∨ FileTrouble files path t ∨
      ∃ cs, fileText files path = .ok cs ∧ PastLimit cs t := by
  rw [savedDocument] at h
  rcases bind_eq_error h with h | ⟨cs, htext, h⟩
  · exact (fileText_eq_error h).imp_right Or.inl
  · cases hread : readDocument cs with
    | ok j =>
        rw [hread] at h
        cases h
    | error trouble =>
        rw [hread] at h
        rcases readDocument_eq_error hread with ⟨_, _, _, _, rfl⟩ | hlimit
        · cases h
          exact Or.inl (isReported_complaint _)
        · -- Only what is malformed is made a complaint of, and a limit is passed on.
          have htrouble : trouble = t := by cases hlimit <;> cases h <;> rfl
          exact Or.inr (Or.inr ⟨cs, htext, htrouble ▸ hlimit⟩)

/-! ## Settings -/

/-- What can be wrong with a configuration, and is not reported. -/
inductive ConfigurationTrouble (files : Files) (path : String) : Trouble → Prop where
  /-- The path has a null character. -/
  | nullInPath (h : path.toList.contains '\x00' = true) :
    ConfigurationTrouble files path .nullInPath
  /-- The bytes of the file are no text. -/
  | notText {bytes : List UInt8} {refusal : Utf8.Refusal} (hread : files.read path = .ok bytes)
    (h : ∀ text, bytes ≠ Utf8.encode text) : ConfigurationTrouble files path (.notText refusal)
  /-- The text of the file is past a limit of the reader. -/
  | pastLimit {bytes : List UInt8} {cs : List Char} {t : Trouble}
    (hread : files.read path = .ok bytes) (htext : readText bytes = .ok cs)
    (h : PastLimit (unifyNewlines cs) t) : ConfigurationTrouble files path t
  /-- The time for an answer is a whole number that has no nearest double. -/
  | hugeTimeout {bytes : List UInt8} {j : Json} {members : List (Text × Json)} {n : Int}
    (hread : files.read path = .ok bytes) (hj : Settings.readConfiguration path bytes = .ok j)
    (hsection : Settings.section? j = some members)
    (htimeout : members.lookup (.plain "timeout") = some (.int n))
    (h : (Binary64.ofInt n).isInfinite = true) : ConfigurationTrouble files path .hugeInteger

/-- What keeps settings from being loaded is reported, or there is something wrong with the
    configuration. -/
theorem load_eq_error (h : Settings.load files path = .error t) :
    IsReported t ∨ ConfigurationTrouble files path t := by
  rcases Settings.load_eq_error h with ⟨report, rfl⟩ | hpassed
  · exact Or.inl ⟨_, rfl⟩
  refine Or.inr ?_
  -- Each trouble that settings pass on is brought about by the file as it is.
  cases hpassed with
  | nullInPath hnull => exact .nullInPath hnull
  | @notText bytes refusal _ hread hdecode =>
      have hnotText : readText bytes = .error (.notText refusal) := by
        rw [readText, hdecode]
        rfl
      exact .notText hread (Service.readText_eq_error hnotText).2
  | longInteger htext hlong =>
      rcases htext with ⟨_, ds, hread, rfl⟩
      exact .pastLimit hread (Service.readText_eq_ok.2 rfl)
        (.longInteger _ (Json.read_error hlong))
  | outOfRoom htext hdeep =>
      rcases htext with ⟨_, ds, hread, rfl⟩
      exact .pastLimit hread (Service.readText_eq_ok.2 rfl) (.outOfRoom (Json.read_error hdeep))
  | hugeTimeout hj hsection _ _ hhuge =>
      rcases Settings.holds_iff.1 hj with ⟨_, bytes, hread, hdocument⟩
      rcases hhuge with ⟨n, hn, _, hinfinite⟩
      exact .hugeTimeout hread hdocument hsection hn hinfinite

/-! ## Showing -/

/-- What was read as a document nests no deeper than the limit, so whatever keeps it from being
    shown is reported. -/
theorem showResponse_eq_error {stage : Stage} {j : Json} (hroom : j.nesting ≤ nestingLimit)
    (h : (Session.showResponse stage j).result = .error t) : IsReported t := by
  rw [Session.result_showResponse, Stage.result_readResponse] at h
  cases hread : stage.readNodes j with
  | nodes nodes =>
      rw [hread] at h
      cases h
  | defective d =>
      rw [hread] at h
      cases h
      exact ⟨_, rfl⟩
  | tooDeep =>
      rw [hread] at h
      cases h
      exact ⟨_, rfl⟩
  | outOfRoom =>
      have hdeep := (Stage.readNodes_eq_outOfRoom.1 hread).2
      exact absurd hroom (Nat.not_le.2 hdeep)

/-- A document that is read nests no deeper than the limit. -/
theorem nesting_le_of_readDocument {j : Json} (h : readDocument cs = .ok j) :
    j.nesting ≤ nestingLimit := by
  rcases Service.readDocument_eq_ok.1 h with ⟨_, _, _, _, hwrites, _, _⟩
  exact hwrites.nesting_le

theorem nesting_le_of_savedDocument {j : Json} (h : savedDocument files path = .ok j) :
    j.nesting ≤ nestingLimit := by
  rw [savedDocument] at h
  rcases Wire.bind_eq_ok.1 h with ⟨cs, -, h⟩
  split at h
  · cases h
  · exact nesting_le_of_readDocument h

theorem nesting_le_of_document {bytes : List UInt8} {j : Json}
    (h : Service.document bytes = .ok j) : j.nesting ≤ nestingLimit := by
  rcases Service.document_eq_ok.1 h with ⟨-, rfl⟩ | ⟨cs, -, hwrites⟩
  · exact Nat.zero_le _
  · exact hwrites.nesting_le

/-! ## Runs -/

variable {a : Arguments} {s : Surroundings}

/-- What a run does not report, and what brings it about. -/
inductive Unreported (a : Arguments) (s : Surroundings) : Trouble → Prop where
  /-- The option for the stage is given nothing. -/
  | stageNotGiven (h : a.mode = .nothing) : Unreported a s .stageNotGiven
  | configuration {path : String} {t : Trouble} (h : a.config = some path)
    (ht : ConfigurationTrouble s.files path t) : Unreported a s t
  /-- The option for the response is given nothing. -/
  | pathNotGiven (h : a.response = some .nothing) : Unreported a s .pathNotGiven
  | responseFile {path : String} {t : Trouble} (h : a.response = some (.text path))
    (ht : FileTrouble s.files path t) : Unreported a s t
  | responseLimit {path : String} {cs : List Char} {t : Trouble}
    (h : a.response = some (.text path)) (htext : fileText s.files path = .ok cs)
    (ht : PastLimit cs t) : Unreported a s t
  | sourceFile {path : String} {t : Trouble} (h : a.input = some path)
    (ht : FileTrouble s.files path t) : Unreported a s t
  /-- The bytes of the standard input are no text. -/
  | input {refusal : Utf8.Refusal} (h : a.input = some standardInput)
    (hbytes : ∀ text, s.input ≠ Utf8.encode text) : Unreported a s (.notText refusal)
  | service {t : Trouble} (h : a.response = none) (ht : Service.Escapes s.exchange t) :
    Unreported a s t
  /-- The tree has no data, since it is too high. -/
  | tooHigh {tree : Tree} (hformat : a.format = .json)
    (htree : (treeOf a s).result = .ok (some tree))
    (h : nestingLimit < Tree.dataStep * tree.height) : Unreported a s .outOfRoom
  /-- The text has surrogates, and the standard output does not take them all. -/
  | unprintable {text : Text} {obstacle : Utf8.Obstacle} (h : a.destination? = none)
    (hformat : a.format = .text) (htext : ComesTo a s text)
    (hmem : .surrogate obstacle.first ∈ text.points) (htakes : s.takes obstacle.first = false) :
    Unreported a s (.notBytes obstacle)
  /-- The text has surrogates, and there are no bytes for it. -/
  | unwritable {path : String} {text : Text} {obstacle : Utf8.Obstacle}
    (h : a.destination? = some path) (hformat : a.format = .text) (htext : ComesTo a s text)
    (hmem : .surrogate obstacle.first ∈ text.points) : Unreported a s (.notBytes obstacle)
  /-- The path of the output has a null character. -/
  | nullInPath {path : String} (h : a.destination? = some path)
    (hnull : path.toList.contains '\x00' = true) : Unreported a s .nullInPath
  /-- The path of the output does not lead to a place for a file. -/
  | output {path : String} {e : PathError} (h : a.destination? = some path)
    (hplace : s.files.place (plainPath path) = .error e) : Unreported a s (.path e)

/-- A stage that is no stage is reported, but not that none is given. -/
theorem stageOf_eq_error (h : stageOf a = .error t) : IsReported t ∨ Unreported a s t := by
  -- An option that is given nothing is not looked up among the stages.
  unfold stageOf at h
  split at h
  · rename_i hnothing
    cases h
    exact Or.inr (.stageNotGiven hnothing)
  · split at h
    · cases h
    · cases h
      exact Or.inl (isReported_complaint _)

/-- That nothing is given to be shown is reported. -/
theorem sourceOf_eq_error (h : sourceOf a = .error t) : IsReported t := by
  unfold sourceOf at h
  split at h
  · cases h
  · cases h
  · cases h
    exact isReported_complaint _

theorem settingsOf_eq_error (h : settingsOf s.files a = .error t) :
    IsReported t ∨ Unreported a s t := by
  unfold settingsOf at h
  split at h
  · cases h
  · rename_i path hpath
    split at h
    · cases h
    · exact (load_eq_error h).imp_right (.configuration hpath)

theorem savedResponse_eq_error {given : Given} (hgiven : a.response = some given)
    (h : savedResponse s.files given = .error t) : IsReported t ∨ Unreported a s t := by
  -- Nothing is no path, so it is not even asked whether there is a file.
  cases given with
  | nothing =>
      cases h
      exact Or.inr (.pathNotGiven hgiven)
  | text path =>
      rcases savedDocument_eq_error h with hreported | hfile | ⟨cs, htext, hlimit⟩
      · exact Or.inl hreported
      · exact Or.inr (.responseFile hgiven hfile)
      · exact Or.inr (.responseLimit hgiven htext hlimit)

theorem nesting_le_of_savedResponse {given : Given} {j : Json}
    (h : savedResponse s.files given = .ok j) : j.nesting ≤ nestingLimit := by
  cases given with
  | nothing => cases h
  | text path => exact nesting_le_of_savedDocument h

/-- What keeps source code from being read is reported, or it is listed. -/
theorem sourceCode_eq_error {input : String} (hinput : a.input = some input)
    (h : sourceCode s input = .error t) : IsReported t ∨ Unreported a s t := by
  -- Standard input and file differ only in where the bytes come from.
  unfold sourceCode at h
  dsimp only at h
  split at h
  · rename_i hstandard
    rcases bind_eq_error h with h | ⟨cs, -, h⟩
    · cases htext : readText s.input with
      | ok cs =>
          rw [htext] at h
          cases h
      | error trouble =>
          rw [htext] at h
          cases h
          rcases Service.readText_eq_error htext with ⟨⟨refusal, rfl⟩, hbytes⟩
          exact Or.inr (.input (hstandard ▸ hinput) hbytes)
    · cases h
  · rcases bind_eq_error h with h | ⟨cs, -, h⟩
    · exact (fileText_eq_error h).imp_right (.sourceFile hinput)
    · cases h

/-- What keeps the service from giving a tree is reported, or it is listed. -/
theorem buildTree_eq_error {settings : Settings} {stage : Stage} {code : String}
    (hresponse : a.response = none)
    (h : (Session.buildTree settings stage code s.exchange).result = .error t) :
    IsReported t ∨ Unreported a s t := by
  rw [Session.buildTree] at h
  -- A service that gives a document has done its part; what is wrong with the document is reported.
  rcases Traced.result_bind_eq_error h with h | ⟨j, hj, h⟩
  · rcases Service.fetch_eq_error h with ⟨message, status, details, rfl⟩ | hescapes
    · exact Or.inl ⟨_, rfl⟩
    · exact Or.inr (.service hresponse hescapes)
  · rcases Service.fetch_eq_ok.1 hj with ⟨bytes, -, hdocument⟩
    exact Or.inl (showResponse_eq_error (nesting_le_of_document hdocument) h)

/-- What keeps a run from making its tree is reported, or it is listed. -/
theorem treeOf_error (h : (treeOf a s).result = .error t) : IsReported t ∨ Unreported a s t := by
  -- The steps are taken in the order of the run, and the first of them that fails is the trouble.
  rw [treeOf] at h
  rcases Traced.result_bind_eq_error h with h | ⟨stage, -, h⟩
  · exact stageOf_eq_error h
  rcases Traced.result_bind_eq_error h with h | ⟨source, hsource, h⟩
  · exact Or.inl (sourceOf_eq_error h)
  rcases Traced.result_bind_eq_error h with h | ⟨settings, -, h⟩
  · exact settingsOf_eq_error h
  unfold sourceOf at hsource
  cases hresponse : a.response with
  | some given =>
      rw [hresponse] at hsource
      cases hsource
      rcases Traced.result_bind_eq_error h with h | ⟨j, hj, h⟩
      · exact savedResponse_eq_error hresponse h
      · exact Or.inl (showResponse_eq_error (nesting_le_of_savedResponse hj) h)
  | none =>
      rw [hresponse] at hsource
      cases hinput : a.input with
      | none =>
          rw [hinput] at hsource
          cases hsource
      | some input =>
          rw [hinput] at hsource
          cases hsource
          rcases Traced.result_bind_eq_error h with h | ⟨code, -, h⟩
          · exact sourceCode_eq_error hinput h
          · exact buildTree_eq_error hresponse h

/-! ## Giving out -/

/-- A tree that a run makes is the tree of a response. -/
theorem exists_of_treeOf {tree : Option Tree} (h : (treeOf a s).result = .ok tree) :
    ∃ stage j, (Session.showResponse stage j).result = .ok tree := by
  -- Both ways of coming by a response end with showing it.
  rw [treeOf] at h
  rcases Traced.result_bind_eq_ok h with ⟨stage, h⟩
  rcases Traced.result_bind_eq_ok h with ⟨source, h⟩
  rcases Traced.result_bind_eq_ok h with ⟨settings, h⟩
  cases source with
  | response given =>
      rcases Traced.result_bind_eq_ok h with ⟨j, h⟩
      exact ⟨stage, j, h⟩
  | code input =>
      rcases Traced.result_bind_eq_ok h with ⟨code, h⟩
      rcases Traced.result_bind_eq_ok h with ⟨j, h⟩
      exact ⟨stage, j, h⟩

/-- A tree that a run makes has a text. -/
theorem text?_of_treeOf {tree : Tree} (h : (treeOf a s).result = .ok (some tree))
    (level step : Int) : tree.text? level step = .ok (tree.text level step) := by
  rcases exists_of_treeOf h with ⟨stage, j, hshown⟩
  rcases Session.exists_of_showResponse hshown with ⟨_, _, node, _, _, hread, rfl⟩
  have hheight := stage.height_tree_le node
  have hroom := Stage.nesting_le_of_stageNode hread
  -- The tree is no higher than the response nests, and there was room to read that.
  refine if_pos ?_
  rw [printingLimit]
  omega

/-- Only a tree that is too high has no text in the format that is asked for. -/
theorem render_eq_error {tree : Option Tree} (htree : (treeOf a s).result = .ok tree)
    (h : render a.format tree = .error t) : Unreported a s t := by
  cases tree with
  | none => cases hformat : a.format <;> rw [hformat] at h <;> cases h
  | some tree =>
      cases hformat : a.format with
      | text =>
          rw [hformat, render, text?_of_treeOf htree] at h
          cases h
      | json =>
          rw [hformat, render, Tree.toJson?] at h
          split at h
          · cases h
          · rename_i hdeep
            cases h
            exact .tooHigh hformat htree (Nat.not_le.1 hdeep)

/-- Only texts have surrogates, since they are escaped in data. -/
theorem ComesTo.format_eq_text {text : Text} {u : Surrogate} (h : ComesTo a s text)
    (hmem : .surrogate u ∈ text.points) : a.format = .text := by
  cases hformat : a.format with
  | text => rfl
  | json =>
      -- Every point of a plain text is a character.
      rcases h.exists_of_json hformat with ⟨content, rfl⟩
      rcases List.mem_map.1 hmem with ⟨c, -, hc⟩
      cases hc

/-- What keeps a text from being given out is listed. -/
theorem Delivered.unreported {text : Text} {delivery : Delivery} (h : Delivered s a text delivery)
    (htext : ComesTo a s text) (ht : delivery.trouble = some t) : Unreported a s t := by
  cases h with
  | printed _ _ => cases ht
  | unprinted hnone hobstacle =>
      cases ht
      rcases Utf8.mem_of_obstacle? hobstacle with ⟨hmem, htakes⟩
      exact .unprintable hnone (htext.format_eq_text hmem) htext hmem htakes
  | unopened hpath hopened =>
      cases ht
      rcases opened_eq_error hopened with ⟨hnull, rfl⟩ | ⟨e, hplace, rfl⟩
      · exact .nullInPath hpath hnull
      · exact .output hpath hplace
  | emptied hpath hopened hobstacle =>
      cases ht
      have hmem := Utf8.mem_of_encodable hobstacle
      exact .unwritable hpath (htext.format_eq_text hmem) htext hmem
  | written _ _ _ => cases ht

/-- What ends a run in trouble is listed. -/
theorem Course.unreported {o : Outcome} (h : Course a s o) (ht : o.ending = .trouble t) :
    Unreported a s t := by
  cases h with
  | failed _ => cases ht
  | troubled htree hnone =>
      cases ht
      -- A trouble is passed on only because it is no failure.
      rcases treeOf_error htree with ⟨f, hf⟩ | hunreported
      · exact absurd hf (hnone f)
      · exact hunreported
  | unrendered htree htext =>
      cases ht
      exact render_eq_error htree htext
  | rendered htext h => exact h.unreported htext (Delivery.ending_eq_trouble.1 ht)

/-! ## What is reported -/

/-- A run reports what is wrong: how the command is called, if it is called in another way, or
    what failed. -/
inductive Reported (o : Outcome) : Prop where
  | misuse (m : Misuse) (hending : o.ending = .status 2)
    (herrors : o.errors = .plain (usage ++ ("scmviz_visualize.py: error: " ++ m.message ++ "\n")))
  | failure (log message : Text) (hending : o.ending = .status 1)
    (herrors : o.errors = log ++ ("Error: " ++ message ++ "\n"))

/-- A run that is asked to show something does so, reports a failure, or is in trouble. -/
theorem Course.ending {o : Outcome} (h : Course a s o) :
    o.ending = .status 0 ∨ Reported o ∨ ∃ t, o.ending = .trouble t := by
  cases h with
  | failed htree =>
      rename_i f
      -- The failure follows what the log shows.
      rcases f.exists_text with ⟨message, htext⟩
      exact Or.inr (Or.inl (.failure (shownLog a s) message rfl (by rw [htext]; rfl)))
  | troubled _ _ => exact Or.inr (Or.inr ⟨_, rfl⟩)
  | unrendered _ _ => exact Or.inr (Or.inr ⟨_, rfl⟩)
  | @rendered _ delivery _ _ =>
      cases htrouble : delivery.trouble with
      | none => exact Or.inl (Delivery.ending_eq_done.2 htrouble)
      | some t => exact Or.inr (Or.inr ⟨t, Delivery.ending_eq_trouble.2 htrouble⟩)

/-- A directory where a saved response should be. -/
theorem ending_of_directory {path : String} {location : Location}
    (hresponse : a.response = some (.text path)) (hstage : ∃ stage, stageOf a = .ok stage)
    (hsettings : ∃ settings, settingsOf s.files a = .ok settings)
    (hplain : path.toList.contains '\x00' = false)
    (hdirectory : s.files.locate (plainPath path) = .present location .directory) :
    (runArguments a s).ending = .trouble (.path ⟨.isDirectory, plainPath path⟩) := by
  rcases hstage with ⟨stage, hstage⟩
  rcases hsettings with ⟨settings, hsettings⟩
  have hsource : sourceOf a = .ok (.response (.text path)) := by rw [sourceOf, hresponse]
  -- A directory is something, so the path is not complained about, and it has no bytes.
  have hdocument : savedDocument s.files path =
      .error (.path ⟨.isDirectory, plainPath path⟩) := by
    simp only [savedDocument, fileText, hplain, Files.exists?, Files.read, hdirectory]
    rfl
  have htree : (treeOf a s).result = .error (.path ⟨.isDirectory, plainPath path⟩) := by
    rw [treeOf, hstage, hsource, hsettings]
    change (Traced.ofExcept (savedDocument s.files path) >>=
      Session.showResponse stage).result = _
    rw [hdocument]
    rfl
  simp only [runArguments, htree, troubled]

/-- A run does what it is asked to do, or it reports what is wrong, or there is one of the listed
    troubles. A directory where a saved response should be is one of these, if nothing that is
    looked at before keeps the run from reading it. -/
theorem run_reported_or_unreported (words : List String) (s : Surroundings) :
    ((run words s).ending = .status 0 ∨ Reported (run words s) ∨
      ∃ a t, Invocation.ofWords words = .run a ∧ (run words s).ending = .trouble t ∧
        Unreported a s t) ∧
    ∀ a path location, Invocation.ofWords words = .run a → a.response = some (.text path) →
      (∃ stage, stageOf a = .ok stage) → (∃ settings, settingsOf s.files a = .ok settings) →
      path.toList.contains '\x00' = false →
      s.files.locate (plainPath path) = .present location .directory →
      (run words s).ending = .trouble (.path ⟨.isDirectory, plainPath path⟩) := by
  constructor
  · unfold run
    cases Invocation.ofWords words with
    | help => exact Or.inl rfl
    | misuse m =>
        have htext : misuseText m.message =
            usage ++ ("scmviz_visualize.py: error: " ++ m.message ++ "\n") := by
          rw [misuseText, textOfLines, List.map_singleton, String.join_cons, String.join_nil,
            String.append_empty]
        exact Or.inr (Or.inl (.misuse m rfl (congrArg Text.plain htext)))
    | run a =>
        have hcourse := course a s
        rcases hcourse.ending with hdone | hreported | ⟨t, ht⟩
        · exact Or.inl hdone
        · exact Or.inr (Or.inl hreported)
        · exact Or.inr (Or.inr ⟨a, t, rfl, ht, hcourse.unreported ht⟩)
  · intro a path location hwords hresponse hstage hsettings hplain hdirectory
    rw [run, hwords]
    exact ending_of_directory hresponse hstage hsettings hplain hdirectory

/-- A directory that is given as a saved response ends a run without a status. -/
theorem directory_escapes :
    (run ["-r", "d"] ⟨⟨[(["d"], .directory)]⟩, [], fun _ => false, .failed .timeout⟩).ending =
      .trouble (.path ⟨.isDirectory, "d"⟩) := by
  have hwords : Invocation.ofWords ["-r", "d"] = .run { response := some (.text "d") } := rfl
  have hpath : plainPath "d" = "d" := by decide +kernel
  have hdirectory : (⟨[(["d"], .directory)]⟩ : Files).locate (plainPath "d") =
      .present ["d"] .directory := by
    rw [hpath]
    exact Files.locate_name (by decide) rfl (by decide +kernel)
      (Files.entryAt?_of_lookup_eq_some List.lookup_cons_self)
  rw [run, hwords]
  refine (ending_of_directory rfl ⟨.reader, rfl⟩ ⟨.default, rfl⟩ rfl hdirectory).trans ?_
  rw [hpath]

end Command

end StageTree
