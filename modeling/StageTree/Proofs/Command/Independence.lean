import StageTree.Proofs.Command.Asking
import StageTree.Proofs.Files.Alike

/-!
# What a Saved Response Makes Irrelevant

A run on a saved response does not ask the service, so nothing that only asking needs can be seen
in it: the service, the standard input, the source code that is named besides, and the settings, as
long as they can be loaded.

The file with the source code may be there in one run and not in the other. This can be seen only
if the output is to be written beyond it, to a path that goes on where the file is. Then nothing is
written in either run, but the system words the trouble in another way.

## Main definitions

* `Command.asides`: The places of the files that only asking the service needs.
* `Command.AlikeSaved`: Two runs on a saved response that may differ in all that asking needs.
* `Command.SameToSee`: Two outcomes have the same status, print the same and write the same.

## Theorems

* `Command.treeOf_alike`: Both runs make the same tree.
* `Command.deliver_alike`: Both runs give a text out alike, or they do not give it out.
* `Command.request_discipline`: When requests are posted, which ones, and what cannot be told.
-/

namespace StageTree

namespace Command

variable {a b : Arguments} {s t : Surroundings} {files files' : Files} {apart : List Location}
  {path : String}

/-! ## Files that make no difference -/

/-- The text of a file that is elsewhere is the same. -/
theorem fileText_alike (h : files.AlikeApart apart files')
    (hend : pathEnd (plainPath path) ∉ apart) : fileText files path = fileText files' path := by
  unfold fileText
  dsimp only
  rw [Files.exists?_alike h hend]
  by_cases hplain : path.toList.contains '\x00' = true
  · rw [if_pos hplain, if_pos hplain]
  · rw [if_neg hplain, if_neg hplain]
    cases hexists : files'.exists? (plainPath path) with
    | error e => rfl
    | ok there =>
        cases there with
        | false => rfl
        -- The file is read only now, when it is known to be there.
        | true => rw [Files.read_alike h hend hexists]

/-- A saved response that is elsewhere is the same. -/
theorem savedResponse_alike (h : files.AlikeApart apart files') {given : Given}
    (hend : ∀ path, given = .text path → pathEnd (plainPath path) ∉ apart) :
    savedResponse files given = savedResponse files' given := by
  cases given with
  | nothing => rfl
  | text path => rw [savedResponse, savedResponse, savedDocument, savedDocument,
      fileText_alike h (hend path rfl)]

/-- A text is given out in the same way, unless the output goes to a path that passes a file which
    is there only once. Then nothing is given out, and the system words the trouble in two ways. -/
theorem deliver_alike (htakes : s.takes = t.takes) (h : s.files.AlikeApart apart t.files)
    (hend : ∀ path, a.destination? = some path → pathEnd (plainPath path) ∉ apart) :
    deliver s a.output = deliver t a.output ∨
      (∃ e e', (∀ text, deliver s a.output text = { trouble := some (.path e) }) ∧
        ∀ text, deliver t a.output text = { trouble := some (.path e') }) ∧
      ∃ path, a.destination? = some path ∧
        ∃ l ∈ pathPassed (plainPath path), s.files.OnlyInOne t.files l := by
  cases hdestination : a.destination? with
  | none =>
      refine Or.inl (funext fun text => ?_)
      rw [deliver_none hdestination, deliver_none hdestination, htakes]
  | some path =>
      have hdeliver (hopened : opened s.files path = opened t.files path) :
          deliver s a.output = deliver t a.output :=
        funext fun text => by
          rw [deliver_some hdestination, deliver_some hdestination, deliverTo, deliverTo, hopened]
      by_cases hplain : path.toList.contains '\x00' = true
      · -- Such a path is refused before the files are looked at.
        refine Or.inl (hdeliver ?_)
        rw [opened, opened, if_pos hplain, if_pos hplain]
      rcases Files.place_alike h (hend path hdestination) with
        hsame | ⟨⟨e, e', herror, herror'⟩, hpassed⟩
      · refine Or.inl (hdeliver ?_)
        rw [opened, opened, hsame]
      · refine Or.inr ⟨⟨e, e', fun text => ?_, fun text => ?_⟩, path, rfl, hpassed⟩
        · rw [deliver_some hdestination, deliverTo, opened, if_neg hplain, herror]
          rfl
        · rw [deliver_some hdestination, deliverTo, opened, if_neg hplain, herror']
          rfl

/-! ## Two runs on a saved response -/

/-- The places that only asking the service needs: that of the file that is named for the source
    code, and that of the configuration. -/
def asides (a : Arguments) : List Location :=
  ((a.input.filter (· != standardInput)).map fun path => pathEnd (plainPath path)).toList ++
    ((a.config.filter (· != "")).map pathEnd).toList

/-- Two runs on the same saved response that are asked to show it alike. They may differ in the
    service, in the standard input, in the source code that is named, in the configuration as long
    as it can be loaded, and in the files for both of these. These files are neither that of the
    response nor that of the output. -/
structure AlikeSaved (a b : Arguments) (s t : Surroundings) : Prop where
  saved : a.response ≠ none
  response : a.response = b.response
  mode : a.mode = b.mode
  format : a.format = b.format
  output : a.output = b.output
  verbose : a.verbose = b.verbose
  takes : s.takes = t.takes
  settings : (∃ settings, settingsOf s.files a = .ok settings) ∧
    ∃ settings, settingsOf t.files b = .ok settings
  files : s.files.AlikeApart (asides a ++ asides b) t.files
  responseElsewhere : ∀ path, a.response = some (.text path) →
    pathEnd (plainPath path) ∉ asides a ++ asides b
  outputElsewhere : ∀ path, a.destination? = some path →
    pathEnd (plainPath path) ∉ asides a ++ asides b

/-- Settings that can be loaded make no difference to a saved response. -/
theorem treeOf_settled {given : Given} {settings : Settings} (h : a.response = some given)
    (hsettings : settingsOf s.files a = .ok settings) : treeOf a s =
      (Traced.ofExcept (stageOf a) >>= fun stage =>
        Traced.ofExcept (savedResponse s.files given) >>= Session.showResponse stage) := by
  rw [treeOf_response h, hsettings]
  rfl

/-- Both runs make the same tree. -/
theorem treeOf_alike (h : AlikeSaved a b s t) : treeOf a s = treeOf b t := by
  rcases Option.ne_none_iff_exists'.1 h.saved with ⟨given, hgiven⟩
  rcases h.settings with ⟨⟨settings, hsettings⟩, ⟨settings', hsettings'⟩⟩
  have hresponse : savedResponse s.files given = savedResponse t.files given :=
    savedResponse_alike h.files fun path hpath => h.responseElsewhere path (hpath ▸ hgiven)
  rw [treeOf_settled hgiven hsettings, treeOf_settled (h.response ▸ hgiven) hsettings', stageOf,
    stageOf, h.mode, hresponse]

/-! ## What can be seen -/

/-- The status that a run ends with, if it does not end in trouble. -/
def Ending.status? : Ending → Option Nat
  | .status code => some code
  | .trouble _ => none

/-- Two outcomes with the same status that print the same and write the same. They may have
    different troubles. -/
structure SameToSee (o p : Outcome) : Prop where
  status : o.ending.status? = p.ending.status?
  output : o.output = p.output
  errors : o.errors = p.errors
  written : o.written = p.written

theorem SameToSee.refl (o : Outcome) : SameToSee o o := ⟨rfl, rfl, rfl, rfl⟩

/-- A text that is not given out for one trouble or another is not given out. -/
theorem outcomeOf_alike {give give' : Text → Delivery} {e e' : PathError}
    (h : ∀ text, give text = { trouble := some (.path e) })
    (h' : ∀ text, give' text = { trouble := some (.path e') })
    (result : Except Trouble (Option Tree)) (format : Format) (log : Text)
    (requests : List Request) : SameToSee (outcomeOf result format give log requests)
      (outcomeOf result format give' log requests) := by
  cases result with
  | error trouble => exact .refl _
  | ok tree =>
      unfold outcomeOf
      dsimp only
      -- If the text cannot be made, giving it out is not tried.
      cases render format tree with
      | error trouble => exact .refl _
      | ok text =>
          dsimp only
          rw [h, h']
          exact ⟨rfl, rfl, rfl, rfl⟩

/-- Nothing that only asking the service needs can be seen in runs on a saved response. Where the
    output does not go beyond a file that is there only once, the runs are the same altogether. -/
theorem run_alike {words words' : List String} (ha : Invocation.ofWords words = .run a)
    (hb : Invocation.ofWords words' = .run b) (h : AlikeSaved a b s t) :
    SameToSee (run words s) (run words' t) ∧
      ((∀ path, a.destination? = some path →
        ∀ l ∈ pathPassed (plainPath path), ¬ s.files.OnlyInOne t.files l) →
          run words s = run words' t) := by
  -- The two outcomes differ at most in how the text is given out.
  have hrun : run words s = outcomeOf (treeOf b t).result b.format
      (deliver s a.output) (shownLog b t) (treeOf b t).requests := by
    rw [run, ha]
    dsimp only
    rw [runArguments_eq, shownLog, treeOf_alike h, h.format, h.verbose, shownLog]
  have hrun' : run words' t = outcomeOf (treeOf b t).result b.format
      (deliver t a.output) (shownLog b t) (treeOf b t).requests := by
    rw [run, hb, h.output]
    exact runArguments_eq b t
  rw [hrun, hrun']
  rcases deliver_alike h.takes h.files h.outputElsewhere with
    hsame | ⟨⟨e, e', herror, herror'⟩, path, hpath, l, hl, honly⟩
  · rw [hsame]
    exact ⟨.refl _, fun _ => rfl⟩
  · exact ⟨outcomeOf_alike herror herror' _ _ _ _, fun h => absurd honly (h path hpath l hl)⟩

/-- Runs post requests with discipline. A run posts at most one request, and it posts one exactly
    if it asks the service with it. It posts none if it is on a saved response. Two runs on source
    code with the same bytes are the same, wherever the bytes come from. And two runs on a saved
    response are the same to see, whatever else only asking the service needs. -/
theorem request_discipline :
    (∀ words s, (run words s).requests.length ≤ 1 ∧
      ∀ r, r ∈ (run words s).requests ↔ Asks words s r) ∧
    (∀ words s a, Invocation.ofWords words = .run a → a.response ≠ none →
      (run words s).requests = []) ∧
    (∀ words words' a b s t input input' bytes, Invocation.ofWords words = .run a →
      Invocation.ofWords words' = .run b → AlikeButSource a b s t → a.input = some input →
      b.input = some input' → SourceBytes s input bytes → SourceBytes t input' bytes →
      run words s = run words' t) ∧
    (∀ words words' a b s t, Invocation.ofWords words = .run a →
      Invocation.ofWords words' = .run b → AlikeSaved a b s t →
      SameToSee (run words s) (run words' t) ∧
        ((∀ path, a.destination? = some path →
          ∀ l ∈ pathPassed (plainPath path), ¬ s.files.OnlyInOne t.files l) →
            run words s = run words' t)) := by
  refine ⟨fun words s => ⟨length_requests_run words s, fun r => mem_requests_run⟩, ?_, ?_, ?_⟩
  · intro words s a hwords hresponse
    refine List.eq_nil_iff_forall_not_mem.2 fun r hr => ?_
    rcases mem_requests_run.1 hr with ⟨hwords', hnone, -⟩
    cases hwords.symm.trans hwords'
    exact hresponse hnone
  · intro words words' a b s t input input' bytes ha hb h hinput hinput' hbytes hbytes'
    exact run_eq_of_bytes ha hb h hinput hinput' hbytes hbytes'
  · intro words words' a b s t ha hb h
    exact run_alike ha hb h

/-- A file with source code beside a saved response, the same source code on the standard input,
    and a service that gives no answer. -/
def besides : Surroundings :=
  { savedOnly (oneText "a") fun _ => false with
    files := (savedFile (oneText "a")).put ["x"] [0x31]
    input := [0x31] }

/-- Source code can be put beside the saved response. -/
theorem savedFile_writable (j : Json) : (savedFile j).Writable ["x"] := by
  constructor
  · rw [show (savedFile j).entryAt? ["x"] = none from rfl]
    nofun
  · intro l hl hne
    rcases List.prefix_concat_iff.1 (show l <+: [] ++ ["x"] from hl) with rfl | hroot
    · exact absurd rfl hne
    · rw [List.prefix_nil.1 hroot, show (savedFile j).entryAt? [] = some .directory from rfl]
      nofun

theorem besides_unseen :
    { url := "http://localhost:8000/parse", stage := .reader, code := "1", timeout := usualTimeout }
        ∈ (run ["-"] besides).requests ∧
      run ["-"] besides = run ["x"] besides ∧
      run ["-r", "r"] { liveService (oneText "a") with files := savedFile (oneText "a") } =
        run ["-r", "r", "x"] besides := by
  rcases request_discipline with ⟨hposts, -, hsource, hunseen⟩
  have hpath : plainPath "x" = "x" := by decide +kernel
  have hlocate : besides.files.locate "x" = .present ["x"] (.file [0x31]) :=
    Files.locate_name (by decide) rfl (by decide +kernel)
      (Files.entryAt?_put_self (savedFile (oneText "a")) ["x"] [0x31])
  have hread : besides.files.read (plainPath "x") = .ok [0x31] := by rw [hpath, Files.read, hlocate]
  refine ⟨?_, ?_, ?_⟩
  · have hunified : Unified "1".toList "1".toList := .other (by decide) .nil
    have hbytes : SourceBytes besides "-" (Utf8.encode "1") := by
      rw [show Utf8.encode "1" = [0x31] from Utf8.encode_ofList ['1']]
      exact .input
    have hasks : Asks ["-"] besides _ := .asks rfl rfl rfl rfl rfl rfl hbytes hunified
    exact ((hposts ["-"] besides).2 _).2 hasks
  · have halike : AlikeButSource { input := some "-" } { input := some "x" } besides besides :=
      ⟨⟨rfl, rfl⟩, rfl, rfl, rfl, rfl, rfl, rfl, fun _ _ => rfl, rfl⟩
    exact hsource _ _ _ _ _ _ _ _ _ rfl rfl halike rfl rfl .input
      (.file (by decide) (by decide) hread)
  · have hasides : asides { response := some (.text "r") } ++
        asides { response := some (.text "r"), input := some "x" } = [["x"]] := by decide +kernel
    have halike : AlikeSaved { response := some (.text "r") }
        { response := some (.text "r"), input := some "x" }
        { liveService (oneText "a") with files := savedFile (oneText "a") } besides := by
      refine ⟨Option.some_ne_none _, rfl, rfl, rfl, rfl, rfl, rfl, ⟨⟨_, rfl⟩, ⟨_, rfl⟩⟩, ?_, ?_, ?_⟩
      · rw [hasides]
        exact (savedFile_writable _).alikeApart_put [0x31]
      · intro path hresponse
        cases hresponse
        rw [hasides]
        decide +kernel
      · intro path hdestination
        cases hdestination
    refine (hunseen _ _ _ _ _ _ rfl rfl halike).2 fun path hdestination => ?_
    cases hdestination

end Command

end StageTree
