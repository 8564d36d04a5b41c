import StageTree.Proofs.Command.Routes
import StageTree.Proofs.Requests

/-!
# Asking the Service

A run posts a request only at the end of a row of steps, each of which must succeed: the command
line is understood, the stage is known, no saved response is named, the settings can be loaded and
the source code can be read. Then it posts one request, and what becomes of it makes no difference
to that.

Source code is text with a line feed for each line end. Where its bytes come from, a file or the
standard input, is forgotten once they are read, so it makes no difference to anything after that.

## Main definitions

* `Unified`: A text with a line feed for each line end.
* `Command.SourceBytes`: The bytes that source code is read from.
* `Command.Asks`: A run asks the service, with a request.
* `Command.AlikeButSource`: Two runs on source code that may come from different places.

## Theorems

* `unified_iff`: Every text is unified in one way, the way in which text is read.
* `Command.sourceCode_eq_ok`: Source code is the unified text that its bytes write.
* `Command.mem_requests_run`, `Command.length_requests_run`: A run posts the request with which
  it asks the service, and no other.
* `Command.run_eq_of_bytes`: Where the bytes of source code come from makes no difference.
-/

namespace StageTree

/-! ## Line ends -/

/-- A text, and the text with a line feed for each of its line ends. A line ends with a carriage
    return, with a line feed, or with both in this order. -/
inductive Unified : List Char → List Char → Prop where
  | nil : Unified [] []
  | both {cs ds : List Char} (h : Unified cs ds) : Unified ('\r' :: '\n' :: cs) ('\n' :: ds)
  | lone {cs ds : List Char} (hnext : cs.head? ≠ some '\n') (h : Unified cs ds) :
    Unified ('\r' :: cs) ('\n' :: ds)
  | other {c : Char} {cs ds : List Char} (hc : c ≠ '\r') (h : Unified cs ds) :
    Unified (c :: cs) (c :: ds)

/-- Every text is unified in some way. -/
theorem exists_unified (cs : List Char) : ∃ ds, Unified cs ds := by
  -- By induction on the length, since a line end may take two characters.
  induction hn : cs.length using Nat.strongRecOn generalizing cs with
  | _ n ih =>
    rcases cs with _ | ⟨c, rest⟩
    · exact ⟨[], .nil⟩
    rcases ih rest.length (by rw [← hn]; exact Nat.lt_succ_self _) rest rfl with ⟨ds, hds⟩
    -- A carriage return ends a line alone, or together with a line feed after it.
    by_cases hc : c = '\r'
    · by_cases hnext : rest.head? = some '\n'
      · rcases List.head?_eq_some_iff.1 hnext with ⟨more, rfl⟩
        have hshorter : more.length < n := by
          rw [← hn, List.length_cons, List.length_cons]
          omega
        rcases ih more.length hshorter more rfl with ⟨es, hes⟩
        exact ⟨'\n' :: es, hc ▸ .both hes⟩
      · exact ⟨'\n' :: ds, hc ▸ .lone hnext hds⟩
    · exact ⟨c :: ds, .other hc hds⟩

/-- The character before a text matters only if the text begins with a line feed. -/
theorem unifyAfter_eq {cs : List Char} (h : cs.head? ≠ some '\n') (before before' : Char) :
    unifyAfter before cs = unifyAfter before' cs := by
  rcases cs with _ | ⟨c, rest⟩
  · rfl
  · have hc : c ≠ '\n' := fun hc => h (by rw [hc]; rfl)
    rw [unifyAfter, unifyAfter, unifiedChar, unifiedChar]
    simp [hc]

/-- The relation goes along with the function that unifies a text from left to right. -/
theorem Unified.eq_unifyAfter {cs ds : List Char} (h : Unified cs ds) {before : Char}
    (hbefore : before ≠ '\r') : ds = unifyAfter before cs := by
  induction h generalizing before with
  | nil => rfl
  | both h ih =>
      rw [ih (show '\n' ≠ '\r' by decide)]
      rfl
  -- The next character is no line feed, so it does not matter what stands before it.
  | lone hnext h ih =>
      rw [unifyAfter, unifyAfter_eq hnext '\r' before, ← ih hbefore]
      rfl
  | other hc h ih =>
      rw [unifyAfter, unifiedChar, if_neg hc, if_neg (by simp [hbefore]), ← ih hc]
      rfl

/-- Every text is unified in one way, the way in which text is read. -/
theorem unified_iff {cs ds : List Char} : Unified cs ds ↔ ds = unifyNewlines cs := by
  -- A text begins as if something else than a carriage return stood before it.
  have hread {es : List Char} (h : Unified cs es) : es = unifyNewlines cs := by
    rw [unifyNewlines_eq]
    exact h.eq_unifyAfter (by decide)
  refine ⟨hread, fun h => ?_⟩
  rcases exists_unified cs with ⟨es, hes⟩
  rwa [h, ← hread hes]

/-! ## Requests in a row of steps -/

namespace Traced

variable {α β : Type} {x : Except Trouble α} {f : α → Traced β}

/-- A step that fails posts nothing, and keeps what comes after it from being posted. -/
theorem mem_requests_ofExcept_bind {r : Request} :
    r ∈ (ofExcept x >>= f).requests ↔ ∃ a, x = .ok a ∧ r ∈ (f a).requests := by
  cases x with
  | ok a => exact ⟨fun h => ⟨a, rfl, h⟩, fun ⟨_, rfl, h⟩ => h⟩
  | error t => exact ⟨nofun, nofun⟩

theorem length_requests_ofExcept_bind {n : Nat} (h : ∀ a, (f a).requests.length ≤ n) :
    (ofExcept x >>= f).requests.length ≤ n := by
  cases x with
  | ok a => exact h a
  | error t => exact Nat.zero_le n

end Traced

namespace Command

variable {a b : Arguments} {s t : Surroundings} {files : Files} {path input : String}

/-! ## Source code -/

theorem fileText_of_bytes {bytes : List UInt8} (hplain : path.toList.contains '\x00' = false)
    (h : files.read (plainPath path) = .ok bytes) :
    fileText files path = (readText bytes).map unifyNewlines := by
  simp only [fileText, hplain, Files.exists?_of_read h, h]
  rfl

/-- A text that is there is the text of a file. -/
theorem exists_of_fileText {cs : List Char} (h : fileText files path = .ok cs) :
    path.toList.contains '\x00' = false ∧ ∃ bytes, files.read (plainPath path) = .ok bytes := by
  unfold fileText at h
  dsimp only at h
  split at h
  · cases h
  · rename_i hplain
    refine ⟨Bool.eq_false_iff.2 hplain, ?_⟩
    split at h
    · cases h
    · cases h
    · split at h
      · cases h
      · rename_i bytes hread
        exact ⟨bytes, hread⟩

/-- The bytes that source code is read from: those of the standard input, or those of a file. -/
inductive SourceBytes (s : Surroundings) : String → List UInt8 → Prop where
  | input : SourceBytes s standardInput s.input
  | file {path : String} {bytes : List UInt8} (hname : path ≠ standardInput)
    (hplain : path.toList.contains '\x00' = false)
    (hread : s.files.read (plainPath path) = .ok bytes) : SourceBytes s path bytes

/-- Where the bytes come from is forgotten when they are read. -/
theorem sourceCode_of_bytes {bytes : List UInt8} (h : SourceBytes s input bytes) :
    sourceCode s input =
      (readText bytes).map fun cs => String.ofList (unifyNewlines cs) := by
  cases h with
  | input =>
      rw [sourceCode]
      cases readText s.input <;> rfl
  | file hname hplain hread =>
      rw [sourceCode, if_neg hname, fileText_of_bytes hplain hread]
      cases readText bytes <;> rfl

/-- Source code that can be read has bytes. -/
theorem exists_of_sourceCode {code : String} (h : sourceCode s input = .ok code) :
    ∃ bytes, SourceBytes s input bytes := by
  -- The name of the standard input is no path.
  by_cases hname : input = standardInput
  · exact ⟨s.input, hname ▸ .input⟩
  · rw [sourceCode, if_neg hname] at h
    rcases Wire.bind_eq_ok.1 h with ⟨cs, htext, -⟩
    rcases exists_of_fileText htext with ⟨hplain, bytes, hread⟩
    exact ⟨bytes, .file hname hplain hread⟩

/-- Source code is the unified text that its bytes write. -/
theorem sourceCode_eq_ok {code : String} : sourceCode s input = .ok code ↔
    ∃ text, SourceBytes s input (Utf8.encode text) ∧ Unified text.toList code.toList := by
  constructor
  · intro h
    rcases exists_of_sourceCode h with ⟨bytes, hbytes⟩
    rw [sourceCode_of_bytes hbytes] at h
    cases htext : readText bytes with
    | error t =>
        rw [htext] at h
        cases h
    | ok cs =>
        rw [htext] at h
        cases h
        refine ⟨String.ofList cs, Service.readText_eq_ok.1 htext ▸ hbytes, ?_⟩
        rw [String.toList_ofList, String.toList_ofList, unified_iff]
  · rintro ⟨text, hbytes, hunified⟩
    have htext : readText (Utf8.encode text) = .ok text.toList :=
      Service.readText_eq_ok.2 (by rw [String.ofList_toList])
    rw [sourceCode_of_bytes hbytes, htext, Except.map, ← unified_iff.1 hunified,
      String.ofList_toList]

/-! ## Requests -/

/-- Making the tree of a run on a saved response. -/
theorem treeOf_response {given : Given} (h : a.response = some given) : treeOf a s =
    (Traced.ofExcept (stageOf a) >>= fun stage =>
      Traced.ofExcept (settingsOf s.files a) >>= fun _ =>
      Traced.ofExcept (savedResponse s.files given) >>= Session.showResponse stage) := by
  have hsource : sourceOf a = .ok (.response given) := by rw [sourceOf, h]
  rw [treeOf, hsource]
  rfl

/-- Making the tree of a run on source code. -/
theorem treeOf_code (hresponse : a.response = none) (hinput : a.input = some input) : treeOf a s =
    (Traced.ofExcept (stageOf a) >>= fun stage =>
      Traced.ofExcept (settingsOf s.files a) >>= fun settings =>
        Traced.ofExcept (sourceCode s input) >>= fun code =>
          Session.buildTree settings stage code s.exchange) := by
  have hsource : sourceOf a = .ok (.code input) := by rw [sourceOf, hresponse, hinput]
  rw [treeOf, hsource]
  rfl

/-- The words of a command line ask the service, with a request for the stage that is named and
    for the source code that is given, to where the settings say. -/
inductive Asks (words : List String) (s : Surroundings) : Request → Prop where
  | asks {a : Arguments} {word input text code : String} {stage : Stage} {settings : Settings}
    (hwords : Invocation.ofWords words = .run a) (hresponse : a.response = none)
    (hmode : a.mode = .text word) (hstage : Stage.ofText? word = some stage)
    (hinput : a.input = some input) (hsettings : settingsOf s.files a = .ok settings)
    (hbytes : SourceBytes s input (Utf8.encode text)) (hcode : Unified text.toList code.toList) :
    Asks words s
      { url := "http://" ++ settings.host ++ "/"
          ++ .ofPoints (settings.endpoint.points.dropWhile (· == '/'))
        stage := stage
        code := code
        timeout := settings.timeout }

theorem stageOf_eq_ok {stage : Stage} : stageOf a = .ok stage ↔
    ∃ word, a.mode = .text word ∧ Stage.ofText? word = some stage := by
  rw [stageOf]
  constructor
  · intro h
    split at h
    · cases h
    · rename_i word hmode
      split at h
      · rename_i hword
        cases h
        exact ⟨word, hmode, hword⟩
      · cases h
  · rintro ⟨word, hmode, hword⟩
    rw [hmode]
    dsimp only
    rw [hword]

theorem requests_runArguments (a : Arguments) (s : Surroundings) :
    (runArguments a s).requests = (treeOf a s).requests := by
  have hcourse := course a s
  generalize runArguments a s = o at hcourse ⊢
  cases hcourse <;> rfl

/-- A run posts at most one request. -/
theorem length_requests_run (words : List String) (s : Surroundings) :
    (run words s).requests.length ≤ 1 := by
  unfold run
  cases Invocation.ofWords words with
  | help => exact Nat.zero_le 1
  | misuse m => exact Nat.zero_le 1
  | run a =>
      rw [requests_runArguments]
      -- Whatever step the tree fails at, only the last one posts anything.
      refine Traced.length_requests_ofExcept_bind fun stage => ?_
      refine Traced.length_requests_ofExcept_bind fun source => ?_
      refine Traced.length_requests_ofExcept_bind fun settings => ?_
      cases source with
      | response given =>
          refine Traced.length_requests_ofExcept_bind fun j => ?_
          rw [Session.requests_showResponse]
          exact Nat.zero_le 1
      | code input =>
          refine Traced.length_requests_ofExcept_bind fun code => ?_
          rw [Session.requests_buildTree]
          exact Nat.le_refl 1

/-- Making a tree posts a request exactly if every step before the last one succeeds. -/
theorem mem_requests_treeOf {r : Request} : r ∈ (treeOf a s).requests ↔
    ∃ stage settings input code, a.response = none ∧ a.input = some input ∧
      stageOf a = .ok stage ∧ settingsOf s.files a = .ok settings ∧
      sourceCode s input = .ok code ∧ r = settings.request stage code := by
  constructor
  · intro h
    cases hresponse : a.response with
    -- A saved response is shown without a request.
    | some given =>
        rw [treeOf_response hresponse] at h
        simp only [Traced.mem_requests_ofExcept_bind] at h
        rcases h with ⟨stage, -, settings, -, j, -, h⟩
        rw [Session.requests_showResponse] at h
        cases h
    | none =>
        cases hinput : a.input with
        | none =>
            simp only [treeOf, Traced.mem_requests_ofExcept_bind] at h
            -- Without source code the run fails before anything is posted.
            rcases h with ⟨stage, -, source, hsource, -⟩
            rw [sourceOf, hresponse, hinput] at hsource
            cases hsource
        | some input =>
            rw [treeOf_code hresponse hinput] at h
            simp only [Traced.mem_requests_ofExcept_bind] at h
            rcases h with ⟨stage, hstage, settings, hsettings, code, hcode, h⟩
            rw [Session.requests_buildTree, List.mem_singleton] at h
            exact ⟨stage, settings, input, code, rfl, rfl, hstage, hsettings, hcode, h⟩
  · rintro ⟨stage, settings, input, code, hresponse, hinput, hstage, hsettings, hcode, rfl⟩
    rw [treeOf_code hresponse hinput]
    simp only [Traced.mem_requests_ofExcept_bind]
    refine ⟨stage, hstage, settings, hsettings, code, hcode, ?_⟩
    rw [Session.requests_buildTree]
    exact List.mem_singleton_self _

/-- A run posts the request with which it asks the service, and no other. -/
theorem mem_requests_run {words : List String} {r : Request} :
    r ∈ (run words s).requests ↔ Asks words s r := by
  constructor
  · intro h
    unfold run at h
    cases hwords : Invocation.ofWords words with
    | help =>
        rw [hwords] at h
        cases h
    | misuse m =>
        rw [hwords] at h
        cases h
    | run a =>
        rw [hwords] at h
        dsimp only at h
        rw [requests_runArguments] at h
        rcases mem_requests_treeOf.1 h with
          ⟨stage, settings, input, code, hresponse, hinput, hstage, hsettings, hcode, rfl⟩
        rcases stageOf_eq_ok.1 hstage with ⟨word, hmode, hword⟩
        rcases sourceCode_eq_ok.1 hcode with ⟨text, hbytes, hunified⟩
        exact .asks hwords hresponse hmode hword hinput hsettings hbytes hunified
  · rintro ⟨hwords, hresponse, hmode, hstage, hinput, hsettings, hbytes, hcode⟩
    rw [run, hwords]
    dsimp only
    rw [requests_runArguments]
    exact mem_requests_treeOf.2 ⟨_, _, _, _, hresponse, hinput,
      stageOf_eq_ok.2 ⟨_, hmode, hstage⟩, hsettings, sourceCode_eq_ok.2 ⟨_, hbytes, hcode⟩, rfl⟩

/-! ## Where source code comes from -/

/-- Two runs on source code that are alike but for where it comes from. They have the same
    settings, the output has the same place and is taken alike, and the service does the same. -/
structure AlikeButSource (a b : Arguments) (s t : Surroundings) : Prop where
  response : a.response = none ∧ b.response = none
  mode : a.mode = b.mode
  format : a.format = b.format
  output : a.output = b.output
  verbose : a.verbose = b.verbose
  settings : settingsOf s.files a = settingsOf t.files b
  takes : s.takes = t.takes
  place : ∀ path ∈ a.output, s.files.place (plainPath path) = t.files.place (plainPath path)
  exchange : s.exchange = t.exchange

/-- Two runs on source code with the same bytes are the same, wherever the bytes come from. -/
theorem run_eq_of_bytes {words words' : List String} {input' : String} {bytes : List UInt8}
    (ha : Invocation.ofWords words = .run a) (hb : Invocation.ofWords words' = .run b)
    (halike : AlikeButSource a b s t) (hinput : a.input = some input)
    (hinput' : b.input = some input') (hbytes : SourceBytes s input bytes)
    (hbytes' : SourceBytes t input' bytes) : run words s = run words' t := by
  -- Of the source code only the bytes enter the tree, and of the rest nothing differs.
  have htree : treeOf a s = treeOf b t := by
    rw [treeOf_code halike.response.1 hinput, treeOf_code halike.response.2 hinput', stageOf,
      stageOf, halike.mode, halike.settings, halike.exchange, sourceCode_of_bytes hbytes,
      sourceCode_of_bytes hbytes']
  have hdeliver : deliver s a.output = deliver t b.output := by
    rw [← halike.output]
    exact deliver_congr halike.takes halike.place
  rw [run, run, ha, hb]
  dsimp only
  rw [runArguments_eq, runArguments_eq, shownLog, shownLog, htree, hdeliver, halike.format,
    halike.verbose]

end Command

end StageTree
