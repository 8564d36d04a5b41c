import StageTree.Proofs.Command.Courses
import StageTree.Proofs.Files
import StageTree.Proofs.Json.LineEnds

/-!
# Saved and Live Responses

A response can be shown from a file, or it can come from the service when source code is shown.
If the file and the answer hold the same bytes, this makes no difference to what is shown. The two
routes read the bytes in different ways. From a file they are read as text whose line ends are
unified, and a document is read from it. From an answer white space is cut off first. Where there
is a document, both ways lead to it.

What differs is the log: the request is posted on one of the routes only, and a line says so. It
is shown only if more is to be written to the log.

## Main definitions

* `Command.Saved`, `Command.Live`: A run shows a response that is in a file, or that the service
  answers with.
* `Command.AlikeAsked`: What two runs have in common besides the response.

## Theorems

* `Command.treeOf_saved`, `Command.treeOf_live`: Both routes lead to showing the response.
* `Command.saved_and_live_agree`: The two runs end, print and write alike.
-/

namespace StageTree

namespace Command

variable {a b : Arguments} {s t : Surroundings} {bytes : List UInt8} {text : String} {j : Json}
  {stage : Stage} {settings : Settings}

/-! ## Both routes -/

/-- A run shows a saved response, from a file with some bytes. -/
structure Saved (a : Arguments) (s : Surroundings) (bytes : List UInt8) (path : String) :
    Prop where
  response : a.response = some (.text path)
  plain : path.toList.contains '\x00' = false
  file : s.files.read (plainPath path) = .ok bytes

/-- A run shows source code that can be read, and the service answers with some bytes. -/
structure Live (b : Arguments) (t : Surroundings) (bytes : List UInt8) (input code : String) :
    Prop where
  noResponse : b.response = none
  named : b.input = some input
  source : sourceCode t input = .ok code
  answer : t.exchange = .answered Service.okStatus (.ok bytes)

theorem fileText_of_read {path : String} (hplain : path.toList.contains '\x00' = false)
    (h : s.files.read (plainPath path) = .ok (Utf8.encode text)) :
    fileText s.files path = .ok (unifyNewlines text.toList) := by
  have htext : readText (Utf8.encode text) = .ok text.toList :=
    Service.readText_eq_ok.2 (by rw [String.ofList_toList])
  simp only [fileText, hplain, Files.exists?_of_read h, h, htext]
  rfl

/-- The document of a file does not depend on how lines end in it. -/
theorem savedDocument_of_read {path : String} (hplain : path.toList.contains '\x00' = false)
    (h : s.files.read (plainPath path) = .ok (Utf8.encode text))
    (hj : readDocument text.toList = .ok j) : savedDocument s.files path = .ok j := by
  -- Line ends are white space between the parts of a document, and no text in it has a bare one.
  have hunified : readDocument (unifyNewlines text.toList) = .ok j :=
    readDocument_unifyNewlines hj
  rw [savedDocument, fileText_of_read hplain h]
  simp only [bind, Except.bind, hunified]

/-- The document of an answer does not depend on the white space around it. -/
theorem document_of_readDocument (hj : readDocument text.toList = .ok j) :
    Service.document (Utf8.encode text) = .ok j := by
  -- The gaps around the document are white space, so they are cut off with what else is white.
  rcases Service.readDocument_eq_ok.1 hj with ⟨before, core, after, hbefore, hcore, hafter, htext⟩
  have hbytes : Service.HoldsText (Utf8.encode text) (before ++ (core ++ after)) := by
    refine ⟨[], [], nofun, nofun, ?_⟩
    rw [List.nil_append, List.append_nil, ← htext, String.ofList_toList]
  exact Service.document_eq_ok.2 (Or.inr ⟨core, hbytes.of_gaps hbefore hafter, hcore⟩)

/-! ## What is shown -/

/-- A saved response is shown if the stage and the settings are settled. -/
theorem treeOf_saved {path : String} (hsaved : Saved a s (Utf8.encode text) path)
    (hj : readDocument text.toList = .ok j) : treeOf a s =
      (Traced.ofExcept (stageOf a) >>= fun stage =>
        Traced.ofExcept (settingsOf s.files a) >>= fun _ => Session.showResponse stage j) := by
  have hsource : sourceOf a = .ok (.response (.text path)) := by
    rw [sourceOf, hsaved.response]
  have hdocument : savedResponse s.files (.text path) = .ok j :=
    savedDocument_of_read hsaved.plain hsaved.file hj
  -- With a saved response, source code and the service are left alone.
  rw [treeOf, hsource]
  change (Traced.ofExcept (stageOf a) >>= fun stage =>
    Traced.ofExcept (settingsOf s.files a) >>= fun _ =>
      Traced.ofExcept (savedResponse s.files (.text path)) >>= fun j =>
        Session.showResponse stage j) = _
  rw [hdocument]
  rfl

/-- What is shown of a live response is the same, after the request for it. -/
def afterRequest (request : Request) (x : Traced (Option Tree)) : Traced (Option Tree) :=
  ⟨.log ⟨.debug, .client, Service.requestLine request⟩ :: .post request :: x.events, x.result⟩

/-- Building a tree from an answer is showing the response in it, after the request. -/
theorem buildTree_answered (hj : Service.document bytes = .ok j) (settings : Settings)
    (stage : Stage) (code : String) :
    Session.buildTree settings stage code (.answered Service.okStatus (.ok bytes)) =
      afterRequest (settings.request stage code) (Session.showResponse stage j) := by
  have hfetch : Service.accepted bytes = pure j := by rw [Service.accepted, hj]
  rw [Session.buildTree, Service.fetch]
  simp only [if_true, hfetch]
  rfl

/-- A live response is shown if the stage and the settings are settled. -/
theorem treeOf_live {input code : String} (hlive : Live b t (Utf8.encode text) input code)
    (hj : readDocument text.toList = .ok j) : treeOf b t =
      (Traced.ofExcept (stageOf b) >>= fun stage =>
        Traced.ofExcept (settingsOf t.files b) >>= fun settings =>
          afterRequest (settings.request stage code) (Session.showResponse stage j)) := by
  have hsource : sourceOf b = .ok (.code input) := by
    rw [sourceOf, hlive.noResponse, hlive.named]
  -- Source code is read, and the service has the response.
  rw [treeOf, hsource]
  change (Traced.ofExcept (stageOf b) >>= fun stage =>
    Traced.ofExcept (settingsOf t.files b) >>= fun settings =>
      Traced.ofExcept (sourceCode t input) >>= fun code =>
        Session.buildTree settings stage code t.exchange) = _
  rw [hlive.source, hlive.answer]
  simp only [← buildTree_answered (document_of_readDocument hj)]
  rfl

/-! ## What is alike -/

/-- What two runs have in common besides the response: the stage, the format, and where the
    output goes, which is a file or a stream that takes the same surrogates. The settings need
    not be the same, since they make no difference if they are usable; if they are not, the
    trouble is the same. -/
structure AlikeAsked (a b : Arguments) (s t : Surroundings) : Prop where
  mode : a.mode = b.mode
  format : a.format = b.format
  output : a.output = b.output
  takes : s.takes = t.takes
  place : ∀ path ∈ a.output, s.files.place (plainPath path) = t.files.place (plainPath path)
  settings : (settingsOf s.files a).map (fun _ => ()) = (settingsOf t.files b).map fun _ => ()

/-- Two traces give the same and show the same, unless more is to be shown. -/
structure Agree (x y : Traced (Option Tree)) : Prop where
  result : x.result = y.result
  shown : logText false x.lines = logText false y.lines

theorem agree_self (x : Traced (Option Tree)) : Agree x x := ⟨rfl, rfl⟩

/-- The line about a request is of interest only when a problem is looked for. -/
theorem agree_afterRequest (x : Traced (Option Tree)) (request : Request) :
    Agree x (afterRequest request x) := ⟨rfl, rfl⟩

/-- Both runs make the same tree. -/
theorem agree_treeOf {path input code : String} (hasked : AlikeAsked a b s t)
    (hsaved : Saved a s (Utf8.encode text) path) (hlive : Live b t (Utf8.encode text) input code)
    (hj : readDocument text.toList = .ok j) : Agree (treeOf a s) (treeOf b t) := by
  -- The steps are the same up to the response, so the first that fails is the same.
  have hstage : stageOf b = stageOf a := by rw [stageOf, stageOf, hasked.mode]
  rw [treeOf_saved hsaved hj, treeOf_live hlive hj, hstage]
  cases stageOf a with
  | error trouble => exact agree_self _
  | ok stage =>
      -- Usable settings make no difference from here on, and others end both runs alike.
      have hsettings := hasked.settings
      cases hfirst : settingsOf s.files a with
      | error trouble =>
          cases hsecond : settingsOf t.files b with
          | error trouble' =>
              rw [hfirst, hsecond] at hsettings
              cases hsettings
              exact agree_self _
          | ok settings =>
              rw [hfirst, hsecond] at hsettings
              cases hsettings
      | ok settings =>
          cases hsecond : settingsOf t.files b with
          | error trouble =>
              rw [hfirst, hsecond] at hsettings
              cases hsettings
          | ok settings' => exact agree_afterRequest (Session.showResponse stage j) _

/-- Only the place that the output goes to matters for giving it out. -/
theorem deliver_congr {destination : Option String} (htakes : s.takes = t.takes)
    (hplace : ∀ path ∈ destination,
      s.files.place (plainPath path) = t.files.place (plainPath path)) :
    deliver s destination = deliver t destination := by
  funext text
  cases destination with
  | none => rw [deliver, deliver, htakes]
  | some path =>
      rw [deliver, deliver, deliverTo, deliverTo, opened, opened, hplace path rfl, htakes]

/-- What comes of a run: the log and the requests do not touch the rest. -/
def outcomeOf (result : Except Trouble (Option Tree)) (format : Format) (give : Text → Delivery)
    (log : Text) (requests : List Request) : Outcome :=
  match result with
  | .error t => troubled log requests t
  | .ok tree =>
    match render format tree with
    | .error t => { ending := .trouble t, errors := log, requests := requests }
    | .ok text =>
      { ending := (give text).ending
        output := (give text).output
        errors := log
        written := (give text).written
        requests := requests }

/-- What comes of a run is put together from its tree and from how a text is given out. -/
theorem runArguments_eq (a : Arguments) (s : Surroundings) : runArguments a s =
    outcomeOf (treeOf a s).result a.format (deliver s a.output) (shownLog a s)
      (treeOf a s).requests := rfl

/-- What comes of giving out the text of a run comes of the run. -/
theorem ComesTo.runArguments {text : Text} (h : ComesTo a s text) : runArguments a s =
    { ending := (deliver s a.output text).ending
      output := (deliver s a.output text).output
      errors := shownLog a s
      written := (deliver s a.output text).written
      requests := (treeOf a s).requests } := by
  rcases h with ⟨tree, htree, htext⟩
  rw [runArguments_eq, htree, outcomeOf, htext]

/-- Outcomes that differ in the log and the requests end, print and write alike. -/
theorem alike_outcomeOf (result : Except Trouble (Option Tree)) (format : Format)
    (give : Text → Delivery) (log log' : Text) (requests requests' : List Request)
    {o p : Outcome} (ho : o = outcomeOf result format give log requests)
    (hp : p = outcomeOf result format give log' requests') :
    o.ending = p.ending ∧ o.output = p.output ∧ o.written = p.written ∧
      (log = log' → o.errors = p.errors) := by
  subst ho hp
  cases result with
  | error trouble =>
      -- Only a failure adds to the log, and it adds the same line.
      cases trouble with
      | failure f => exact ⟨rfl, rfl, rfl, congrArg (· ++ onLine f.text)⟩
      | _ => exact ⟨rfl, rfl, rfl, id⟩
  | ok tree =>
      simp only [outcomeOf]
      cases render format tree with
      | error trouble => exact ⟨rfl, rfl, rfl, id⟩
      | ok text => exact ⟨rfl, rfl, rfl, id⟩

/-- A run that shows a saved response, and a run that shows source code for which the service
    answers with the same bytes, end in the same way, print the same on the standard output and
    write the same. If they are not asked to write more to the log, they print the same on the
    standard error stream, too. -/
theorem saved_and_live_agree {savedWords liveWords : List String} {path input code : String}
    (ha : Invocation.ofWords savedWords = .run a) (hb : Invocation.ofWords liveWords = .run b)
    (hasked : AlikeAsked a b s t) (hsaved : Saved a s (Utf8.encode text) path)
    (hlive : Live b t (Utf8.encode text) input code) (hj : readDocument text.toList = .ok j) :
    (run savedWords s).ending = (run liveWords t).ending ∧
      (run savedWords s).output = (run liveWords t).output ∧
      (run savedWords s).written = (run liveWords t).written ∧
      (a.verbose = false → b.verbose = false →
        (run savedWords s).errors = (run liveWords t).errors) := by
  have hagree := agree_treeOf hasked hsaved hlive hj
  have hdeliver : deliver s a.output = deliver t b.output := by
    rw [← hasked.output]
    exact deliver_congr hasked.takes hasked.place
  -- Both runs are the same outcome of the same tree but for the log and the requests.
  have hsavedRun : run savedWords s = outcomeOf (treeOf b t).result b.format
      (deliver t b.output) (shownLog a s) (treeOf a s).requests := by
    rw [run, ha, ← hagree.result, ← hasked.format, ← hdeliver]
    exact runArguments_eq a s
  have hliveRun : run liveWords t = outcomeOf (treeOf b t).result b.format
      (deliver t b.output) (shownLog b t) (treeOf b t).requests := by
    rw [run, hb]
    exact runArguments_eq b t
  rcases alike_outcomeOf _ _ _ _ _ _ _ hsavedRun hliveRun with
    ⟨hending, houtput, hwritten, herrors⟩
  refine ⟨hending, houtput, hwritten, fun hquiet hquiet' => herrors ?_⟩
  rw [shownLog, shownLog, hquiet, hquiet']
  exact hagree.shown

/-! ## A saved response -/

/-- A response with one form, a text. -/
def oneText (text : Text) : Json :=
  .arr [.obj [(.plain "type", .str "ScmString"), (.plain "value", .str text)]]

/-- The text of a response, with line ends around it. -/
def savedText (j : Json) : String :=
  String.ofList (['\r', '\n'] ++ (j.write .oneLine ++ ['\r', '\n']))

/-- The only file, with this text. -/
def savedFile (j : Json) : Files := ⟨[(["r"], .file (Utf8.encode (savedText j)))]⟩

/-- Nothing can be read but this file. The standard output takes surrogates or not. -/
def savedOnly (j : Json) (takes : Surrogate → Bool) : Surroundings :=
  ⟨savedFile j, [], takes, .failed .timeout⟩

/-- A form with a text in which no pair is split is read as it was written. -/
theorem readDocument_oneText {text : Text} (h : text.Unsplit) :
    readDocument (savedText (oneText text)).toList = .ok (oneText text) := by
  have hgap : Json.Gap ['\r', '\n'] := List.all_eq_true.1 rfl
  -- Reading back what was written joins pairs that were split, and none is split here.
  have htextual : (oneText text).Textual := by
    refine .arr (List.forall_mem_singleton.2 (.obj ?_))
    simp [Json.Textual.str]
  have hreread : (oneText text).reread = oneText text := by
    have hplain (run : String) : (Text.plain run).joined = run :=
      Text.joined_eq_iff.2 (Text.unsplit_plain run)
    simp only [oneText, Json.reread, Json.rereadItems, Json.rereadMembers, hplain,
      Text.joined_eq_iff.2 h]
    rfl
  have hroom : (oneText text).nesting ≤ nestingLimit := show 2 ≤ nestingLimit by decide
  rw [savedText, String.toList_ofList,
    Service.readDocument_written htextual hroom .oneLine hgap hgap, hreread]

theorem plainPath_r : plainPath "r" = "r" := by decide +kernel

theorem locate_savedFile (j : Json) :
    (savedFile j).locate "r" = .present ["r"] (.file (Utf8.encode (savedText j))) :=
  Files.locate_name (by decide) rfl (by decide +kernel)
    (Files.entryAt?_of_lookup_eq_some List.lookup_cons_self)

theorem saved_savedOnly (h : a.response = some (.text "r")) (j : Json)
    (takes : Surrogate → Bool) :
    Saved a (savedOnly j takes) (Utf8.encode (savedText j)) "r" := by
  refine ⟨h, rfl, ?_⟩
  rw [plainPath_r, savedOnly, Files.read, locate_savedFile]

/-- The file is opened to be written, too. -/
theorem opened_savedFile (j : Json) :
    opened (savedFile j) "r" = .ok (["r"], some (Utf8.encode (savedText j))) := by
  refine opened_eq_ok.2 ⟨rfl, ?_⟩
  rw [plainPath_r, Files.place, locate_savedFile]

/-- Asked to show this response. -/
def asked (output : Option String) : Arguments := { response := some (.text "r"), output := output }

/-- Showing this response is all that a run does that is asked for it. -/
theorem treeOf_asked {text : Text} (h : text.Unsplit) (output : Option String)
    (takes : Surrogate → Bool) :
    treeOf (asked output) (savedOnly (oneText text) takes) =
      Session.showResponse .reader (oneText text) :=
  treeOf_saved (saved_savedOnly rfl _ _) (readDocument_oneText h)

/-- The text that comes of it is the text in quotes, on a line. -/
theorem comesTo_asked {text : Text} (h : text.Unsplit) (output : Option String)
    (takes : Surrogate → Bool) :
    ComesTo (asked output) (savedOnly (oneText text) takes) ("\"" ++ text ++ "\"" ++ "\n") := by
  refine ⟨some (.node ("\"" ++ text ++ "\"") none none), ?_, ?_⟩
  · rw [treeOf_asked h]
    rfl
  · change Except.ok (Text.plain "" ++ ("\"" ++ text ++ "\"" ++ Text.plain "" ++ Text.plain "")
      ++ Text.plain "\n") = _
    simp only [Text.empty_append, Text.append_empty]

/-- The service answers with a response for source code on the standard input. -/
def liveService (j : Json) : Surroundings :=
  ⟨⟨[]⟩, [0x31], fun _ => false, .answered Service.okStatus (.ok (Utf8.encode (savedText j)))⟩

theorem one_text_agrees :
    (run ["-r", "r"] (savedOnly (oneText "a") fun _ => false)).ending =
        (run ["-"] (liveService (oneText "a"))).ending ∧
      (run ["-r", "r"] (savedOnly (oneText "a") fun _ => false)).output =
        (run ["-"] (liveService (oneText "a"))).output ∧
      (run ["-r", "r"] (savedOnly (oneText "a") fun _ => false)).written =
        (run ["-"] (liveService (oneText "a"))).written ∧
      (run ["-r", "r"] (savedOnly (oneText "a") fun _ => false)).errors =
        (run ["-"] (liveService (oneText "a"))).errors := by
  have hsavedWords : Invocation.ofWords ["-r", "r"] = .run { response := some (.text "r") } := rfl
  have hliveWords : Invocation.ofWords ["-"] = .run { input := some "-" } := rfl
  have hasked : AlikeAsked { response := some (.text "r") } { input := some "-" }
      (savedOnly (oneText "a") fun _ => false) (liveService (oneText "a")) :=
    ⟨rfl, rfl, rfl, rfl, nofun, rfl⟩
  have hsaved := saved_savedOnly (a := { response := some (.text "r") }) rfl (oneText "a")
    fun _ => false
  -- The source code on the standard input is the digit one.
  have hcode : readText (liveService (oneText "a")).input = .ok ['1'] :=
    Service.readText_eq_ok.2 (by rw [Utf8.encode_ofList]; rfl)
  have hlive : Live { input := some "-" } (liveService (oneText "a"))
      (Utf8.encode (savedText (oneText "a"))) "-" "1" :=
    ⟨rfl, rfl, by simp only [sourceCode, hcode]; rfl, rfl⟩
  rcases saved_and_live_agree hsavedWords hliveWords hasked hsaved hlive
    (readDocument_oneText (by decide)) with ⟨hending, houtput, hwritten, herrors⟩
  exact ⟨hending, houtput, hwritten, herrors rfl rfl⟩

end Command

end StageTree
