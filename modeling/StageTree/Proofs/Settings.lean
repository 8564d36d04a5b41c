import StageTree.Proofs.Files
import StageTree.Proofs.Json.LineEnds
import StageTree.Proofs.Number.Rounding
import StageTree.Proofs.Service
import StageTree.Settings.Load

/-!
# Safe Settings

Settings that are loaded can be used: there is a host, and the time for an answer is above zero.
Whatever else a file holds should be complained about as a configuration that is not usable.

Two things get past this. A time that is not a number is neither zero nor less, so the check lets
it through. And only two kinds of trouble are made complaints of, a file that the system does not
give and a text that is malformed. A path that the system does not take, bytes that are no text,
a text past a limit of the reader and a time without a nearest double are passed on as they are.

What loading gives is stated on the file alone. `Holds` is the document at a path and `Gives` what
the members of its section say, with a default for each that is missing, so neither mentions a
check or the order of the checks. `PassedOn` lists the troubles that are no complaints, and each
of them does come about.

## Main definitions

* `Binary64.Positive`: A number above zero.
* `Settings.Holds`: A file with a document.
* `Settings.Gives`: Settings that the members of a section give.
* `Settings.IsComplaint`, `Settings.PassedOn`: What is complained about, and what is passed on.

## Theorems

* `Settings.load_eq_ok`: The settings that a file gives.
* `Settings.load_eq_error`: What keeps settings from being loaded.
* `Settings.usable_unless_passed_on`: Loaded settings are usable but for a time that is not a
  number, and there is a complaint unless the trouble is a listed one.
-/

namespace StageTree

theorem bind_eq_error {α β : Type} {t : Trouble} {x : Except Trouble α} {f : α → Except Trouble β}
    (h : (x >>= f) = .error t) : x = .error t ∨ ∃ a, x = .ok a ∧ f a = .error t := by
  cases x with
  | error other =>
      cases h
      exact Or.inl rfl
  | ok a => exact Or.inr ⟨a, rfl, h⟩

/-! ## Numbers above zero -/

namespace Binary64

/-- A number above zero: a finite one with such a value, or the infinity there. -/
def Positive (x : Binary64) : Prop := x = .infinite false ∨ ∃ q, x.value? = some q ∧ 0 < q

theorem magnitude_pos_iff {n : Nat} : 0 < magnitude n ↔ 0 < n := by
  rw [← magnitude_zero, magnitude_strictMono.lt_iff_lt]

/-- The check for zero or less is passed by the numbers above zero and by what is no number. -/
theorem isNonpositive_eq_false {x : Binary64} :
    x.isNonpositive = false ↔ x = .nan ∨ x.Positive := by
  cases x with
  | nan => exact iff_of_true rfl (Or.inl rfl)
  | infinite negative => simp [isNonpositive, Positive, value?]
  | finite negative ordinal =>
      have hnonneg := magnitude_nonneg ordinal.val
      cases negative with
      | true => simp [isNonpositive, Positive, value?, hnonneg]
      | false => simp [isNonpositive, Positive, value?, magnitude_pos_iff, Nat.pos_iff_ne_zero]

/-- A whole number above zero has a nearest double above zero, if only the infinity. -/
theorem positive_ofInt {n : Int} (h : 0 < n) : (ofInt n).Positive := by
  -- Being positive, the number is rounded as a fraction over one, without a sign.
  have hsign : decide (n < 0) = false := decide_eq_false (by omega)
  rcases ofRatio_nearest (decide (n < 0)) n.natAbs Nat.one_pos with ⟨m, hnearest, hround⟩
  rw [hsign] at hround
  -- One is at least the least magnitude above zero, so nothing above it is rounded to zero.
  have hm : 1 ≤ m := by
    refine hnearest.le_of_le ?_
    have hone : (1 : ℚ) ≤ n.natAbs := by exact_mod_cast (by omega : 1 ≤ n.natAbs)
    have hleast : (2 : ℚ) ^ (-1074 : Int) ≤ 1 := zpow_le_one_of_nonpos₀ one_le_two (by decide)
    rw [magnitude_one, Nat.cast_one, div_one]
    exact hleast.trans hone
  rw [ofInt, hsign, hround, ofOrdinal]
  split
  · exact Or.inr ⟨magnitude m, rfl, magnitude_pos_iff.2 hm⟩
  · exact Or.inl rfl

end Binary64

namespace Settings

variable {files : Files} {path : String} {bytes : List UInt8} {j : Json}
variable {members : List (Text × Json)} {s : Settings} {t : Trouble}

/-! ## What a section gives -/

/-- The host that members give. -/
inductive GivesHost (members : List (Text × Json)) : Text → Prop where
  | usual (h : members.lookup (.plain "host") = none) : GivesHost members default.host
  | given {host : Text} (h : members.lookup (.plain "host") = some (.str host)) (hne : host ≠ "") :
    GivesHost members host

/-- The path on the host that members give. -/
inductive GivesEndpoint (members : List (Text × Json)) : Text → Prop where
  | usual (h : members.lookup (.plain "endPoint") = none) : GivesEndpoint members default.endpoint
  | given {endpoint : Text} (h : members.lookup (.plain "endPoint") = some (.str endpoint)) :
    GivesEndpoint members endpoint

/-- The time for an answer that members give. -/
inductive GivesTimeout (members : List (Text × Json)) : Binary64 → Prop where
  | usual (h : members.lookup (.plain "timeout") = none) : GivesTimeout members default.timeout
  | whole {n : Int} (h : members.lookup (.plain "timeout") = some (.int n)) (hpos : 0 < n)
    (hfinite : (Binary64.ofInt n).isInfinite = false) : GivesTimeout members (Binary64.ofInt n)
  | seconds {x : Binary64} (h : members.lookup (.plain "timeout") = some (.float x))
    (hpos : x.Positive) : GivesTimeout members x
  /-- What is not a number is not zero or less. -/
  | notNumber (h : members.lookup (.plain "timeout") = some (.float .nan)) :
    GivesTimeout members .nan

/-- The settings that members give. -/
structure Gives (members : List (Text × Json)) (s : Settings) : Prop where
  host : GivesHost members s.host
  endpoint : GivesEndpoint members s.endpoint
  timeout : GivesTimeout members s.timeout

/-- Members give a whole number of seconds that has no nearest double. -/
def HugeTimeout (members : List (Text × Json)) : Prop :=
  ∃ n, members.lookup (.plain "timeout") = some (.int n) ∧ 0 < n ∧
    (Binary64.ofInt n).isInfinite = true

/-- A complaint about a configuration. -/
def IsComplaint (t : Trouble) : Prop := ∃ report, t = unusable report

/-- A host is taken exactly from members that give it. -/
theorem hostOf_eq_ok {host : Text} : hostOf path members = .ok host ↔ GivesHost members host := by
  -- A host that is given has to be a text, and no empty one.
  unfold hostOf
  constructor
  · intro h
    split at h
    · rename_i hnone
      cases h
      exact .usual hnone
    · rename_i given hgiven
      dsimp only at h
      split at h
      · split at h
        · cases h
        · rename_i hne
          cases h
          exact .given hgiven hne
      · cases h
  · rintro (hnone | ⟨hgiven, hne⟩)
    · rw [hnone]
    · rw [hgiven]
      exact if_neg hne

/-- An endpoint is taken exactly from members that give it. -/
theorem endpointOf_eq_ok {endpoint : Text} :
    endpointOf path members = .ok endpoint ↔ GivesEndpoint members endpoint := by
  unfold endpointOf
  constructor
  · intro h
    split at h
    · rename_i hnone
      cases h
      exact .usual hnone
    · rename_i hgiven
      cases h
      exact .given hgiven
    · cases h
  · rintro (hnone | hgiven)
    · rw [hnone]
    · rw [hgiven]

/-- A time is taken exactly from members that give it. -/
theorem timeoutOf_eq_ok {x : Binary64} :
    timeoutOf path members = .ok x ↔ GivesTimeout members x := by
  unfold timeoutOf
  constructor
  · intro h
    split at h
    · rename_i hnone
      cases h
      exact .usual hnone
    · rename_i given hgiven
      dsimp only at h
      split at h
      · split at h
        · cases h
        · -- Only a whole number can have no nearest double.
          rename_i hpos
          split at h
          · cases h
          · rename_i hfinite
            cases h
            exact .whole hgiven (Int.not_le.1 hpos) (Bool.eq_false_iff.2 hfinite)
      · split at h
        · cases h
        · -- A double that is not refused need not be above zero.
          rename_i hpos
          cases h
          rcases Binary64.isNonpositive_eq_false.1 (Bool.eq_false_iff.2 hpos) with rfl | hpos
          · exact .notNumber hgiven
          · exact .seconds hgiven hpos
      · cases h
  · intro h
    cases h with
    | usual hnone => rw [hnone]
    | whole hgiven hpos hfinite =>
        rw [hgiven]
        simp only [if_neg (Int.not_le.2 hpos), hfinite, Bool.false_eq_true, if_false]
    | seconds hgiven hpos =>
        rw [hgiven]
        simp only [Binary64.isNonpositive_eq_false.2 (Or.inr hpos), Bool.false_eq_true, if_false]
    | notNumber hgiven => rw [hgiven]; rfl

/-- What keeps a host from being taken is complained about. -/
theorem hostOf_eq_error (h : hostOf path members = .error t) : IsComplaint t := by
  unfold hostOf at h
  split at h
  · cases h
  · dsimp only at h
    split at h
    · split at h
      · cases h
        exact ⟨_, rfl⟩
      · cases h
    · cases h
      exact ⟨_, rfl⟩

/-- What keeps an endpoint from being taken is complained about. -/
theorem endpointOf_eq_error (h : endpointOf path members = .error t) : IsComplaint t := by
  unfold endpointOf at h
  split at h
  · cases h
  · cases h
  · cases h
    exact ⟨_, rfl⟩

/-- What keeps a time from being taken is complained about, unless it is a number too large. -/
theorem timeoutOf_eq_error (h : timeoutOf path members = .error t) :
    IsComplaint t ∨ t = .hugeInteger ∧ HugeTimeout members := by
  unfold timeoutOf at h
  split at h
  · cases h
  · rename_i given hgiven
    dsimp only at h
    split at h
    · split at h
      · cases h
        exact Or.inl ⟨_, rfl⟩
      · rename_i hpos
        split at h
        · rename_i hinfinite
          cases h
          exact Or.inr ⟨rfl, _, hgiven, Int.not_le.1 hpos, hinfinite⟩
        · cases h
    · split at h
      · cases h
        exact Or.inl ⟨_, rfl⟩
      · cases h
    · cases h
      exact Or.inl ⟨_, rfl⟩

theorem timeoutOf_of_huge (h : HugeTimeout members) :
    timeoutOf path members = .error .hugeInteger := by
  rcases h with ⟨n, hgiven, hpos, hinfinite⟩
  simp only [timeoutOf, hgiven, if_neg (Int.not_le.2 hpos), hinfinite, if_true]

/-! ## What a document gives -/

/-- A document gives settings exactly if its section does. -/
theorem ofDocument_eq_ok : ofDocument path j = .ok s ↔
    ∃ members, section? j = some members ∧ Gives members s := by
  unfold ofDocument
  cases section? j with
  | none => exact iff_of_false nofun fun ⟨_, h, _⟩ => nomatch h
  | some members =>
      simp only [Wire.bind_eq_ok, hostOf_eq_ok, endpointOf_eq_ok, timeoutOf_eq_ok,
        Wire.pure_eq_ok, Option.some.injEq, exists_eq_left']
      constructor
      · rintro ⟨host, hhost, endpoint, hendpoint, timeout, htimeout, rfl⟩
        exact ⟨hhost, hendpoint, htimeout⟩
      · rintro ⟨hhost, hendpoint, htimeout⟩
        exact ⟨_, hhost, _, hendpoint, _, htimeout, rfl⟩

/-- The only trouble with a document that is no complaint comes last: what the other members give
    has been found usable. -/
theorem ofDocument_eq_error (h : ofDocument path j = .error t) :
    IsComplaint t ∨ t = .hugeInteger ∧ ∃ members host endpoint, section? j = some members ∧
      GivesHost members host ∧ GivesEndpoint members endpoint ∧ HugeTimeout members := by
  unfold ofDocument at h
  cases hsection : section? j with
  | none =>
      rw [hsection] at h
      cases h
      exact Or.inl ⟨_, rfl⟩
  | some members =>
      rw [hsection] at h
      -- The items are looked at one after the other, and the first trouble ends it.
      rcases bind_eq_error h with h | ⟨host, hhost, h⟩
      · exact Or.inl (hostOf_eq_error h)
      rcases bind_eq_error h with h | ⟨endpoint, hendpoint, h⟩
      · exact Or.inl (endpointOf_eq_error h)
      rcases bind_eq_error h with h | ⟨timeout, -, h⟩
      · refine (timeoutOf_eq_error h).imp_right fun ⟨ht, hhuge⟩ => ?_
        exact ⟨ht, members, host, endpoint, rfl, hostOf_eq_ok.1 hhost,
          endpointOf_eq_ok.1 hendpoint, hhuge⟩
      · cases h

/-- A time that is too large stops everything, if nothing before it does. -/
theorem ofDocument_of_huge {host endpoint : Text} (hsection : section? j = some members)
    (hhost : GivesHost members host) (hendpoint : GivesEndpoint members endpoint)
    (hhuge : HugeTimeout members) : ofDocument path j = .error .hugeInteger := by
  unfold ofDocument
  rw [hsection]
  simp only [hostOf_eq_ok.2 hhost, endpointOf_eq_ok.2 hendpoint, timeoutOf_of_huge hhuge]
  rfl

/-! ## What a file gives -/

/-- The text of the file at a path, with a line feed for every line end. -/
def HasText (files : Files) (path : String) (cs : List Char) : Prop :=
  path.toList.contains '\x00' = false ∧
    ∃ ds, files.read path = .ok (Utf8.encode (String.ofList ds)) ∧ cs = unifyNewlines ds

/-- The document in the file at a path. -/
def Holds (files : Files) (path : String) (j : Json) : Prop :=
  ∃ cs, HasText files path cs ∧ readDocument cs = .ok j

/-- The troubles that are passed on, each with what brings it about. -/
inductive PassedOn (files : Files) (path : String) : Trouble → Prop where
  /-- The path has a null character. -/
  | nullInPath (h : path.toList.contains '\x00' = true) : PassedOn files path .nullInPath
  /-- The bytes of the file are no text. -/
  | notText {bytes : List UInt8} {refusal : Utf8.Refusal}
    (hplain : path.toList.contains '\x00' = false) (hread : files.read path = .ok bytes)
    (h : Utf8.decode bytes = .error refusal) : PassedOn files path (.notText refusal)
  /-- A whole number in the text has too many digits. -/
  | longInteger {cs : List Char} {digits : Nat} (htext : HasText files path cs)
    (h : Json.read nestingLimit cs = .error (.longInteger digits)) :
    PassedOn files path (.longInteger digits)
  /-- The text nests too deeply. -/
  | outOfRoom {cs : List Char} (htext : HasText files path cs)
    (h : Json.read nestingLimit cs = .error .tooDeep) : PassedOn files path .outOfRoom
  /-- The time for an answer is a whole number that has no nearest double. -/
  | hugeTimeout {j : Json} {members : List (Text × Json)} {host endpoint : Text}
    (hj : Holds files path j) (hsection : section? j = some members)
    (hhost : GivesHost members host) (hendpoint : GivesEndpoint members endpoint)
    (h : HugeTimeout members) : PassedOn files path .hugeInteger

theorem readConfiguration_encode (path : String) (cs : List Char) :
    readConfiguration path (Utf8.encode (String.ofList cs)) =
      match readDocument (unifyNewlines cs) with
      | .error (.malformed complaint line column position) =>
        .error (unusable
          { message := "Configuration file is not valid JSON: " ++ path
            context := some (Json.malformedMessage complaint line column position) })
      | result => result := by
  -- The text is known, so only reading it as a document is left.
  rw [readConfiguration, Service.readText_eq_ok.2 rfl]
  rfl

/-- A configuration is read exactly if its bytes are a text that is a document. -/
theorem readConfiguration_eq_ok : readConfiguration path bytes = .ok j ↔
    ∃ cs, bytes = Utf8.encode (String.ofList cs) ∧ readDocument (unifyNewlines cs) = .ok j := by
  rw [readConfiguration]
  simp only [Wire.bind_eq_ok, Service.readText_eq_ok]
  refine exists_congr fun cs => and_congr_right fun _ => ?_
  split
  · rename_i herror
    rw [herror]
    exact iff_of_false nofun nofun
  · rfl

/-- The document is what reading the configuration gives. -/
theorem holds_iff : Holds files path j ↔ path.toList.contains '\x00' = false ∧
    ∃ bytes, files.read path = .ok bytes ∧ readConfiguration path bytes = .ok j := by
  constructor
  · rintro ⟨_, ⟨hplain, ds, hread, rfl⟩, hdocument⟩
    exact ⟨hplain, _, hread, readConfiguration_eq_ok.2 ⟨ds, rfl, hdocument⟩⟩
  · rintro ⟨hplain, bytes, hread, hj⟩
    rcases readConfiguration_eq_ok.1 hj with ⟨ds, rfl, hdocument⟩
    exact ⟨_, ⟨hplain, ds, hread, rfl⟩, hdocument⟩

/-- A file has one document at most. -/
theorem Holds.unique {k : Json} (h : Holds files path j) (h' : Holds files path k) : j = k := by
  rcases holds_iff.1 h with ⟨_, bytes, hread, hj⟩
  rcases holds_iff.1 h' with ⟨_, bytes', hread', hk⟩
  cases hread.symm.trans hread'
  cases hj.symm.trans hk
  rfl

theorem load_of_read (hplain : path.toList.contains '\x00' = false)
    (hread : files.read path = .ok bytes) :
    load files path = readConfiguration path bytes >>= ofDocument path := by
  rw [load, hplain, hread]
  rfl

/-- Settings are loaded from the document in the file. -/
theorem load_of_holds (h : Holds files path j) : load files path = ofDocument path j := by
  rcases holds_iff.1 h with ⟨hplain, bytes, hread, hj⟩
  rw [load_of_read hplain hread, hj]
  rfl

/-- The settings that a file gives are those of the document in it. -/
theorem load_eq_ok : load files path = .ok s ↔
    ∃ j members, Holds files path j ∧ section? j = some members ∧ Gives members s := by
  constructor
  · intro h
    unfold load at h
    split at h
    · cases h
    · rename_i hplain
      split at h
      · cases h
      · rename_i bytes hread
        rcases Wire.bind_eq_ok.1 h with ⟨j, hj, hs⟩
        rcases ofDocument_eq_ok.1 hs with ⟨members, hsection, hgives⟩
        exact ⟨j, members, holds_iff.2 ⟨Bool.eq_false_iff.2 hplain, bytes, hread, hj⟩, hsection,
          hgives⟩
  · rintro ⟨j, members, hholds, hsection, hgives⟩
    rw [load_of_holds hholds]
    exact ofDocument_eq_ok.2 ⟨members, hsection, hgives⟩

/-- Bytes that are not read as a document are no text, or the text is past a limit, unless there is
    a complaint. -/
theorem readConfiguration_eq_error (hplain : path.toList.contains '\x00' = false)
    (hread : files.read path = .ok bytes) (h : readConfiguration path bytes = .error t) :
    IsComplaint t ∨ PassedOn files path t := by
  cases hdecode : Utf8.decode bytes with
  | error refusal =>
      rw [readConfiguration, readText, hdecode] at h
      cases h
      exact Or.inr (.notText hplain hread hdecode)
  | ok ds =>
      -- The bytes are a text, so it is read as a document, and that may fail in three ways.
      obtain rfl := Utf8.decode_eq_ok.1 hdecode
      rw [readConfiguration_encode, readDocument] at h
      have htext : HasText files path (unifyNewlines ds) := ⟨hplain, ds, hread, rfl⟩
      cases hdocument : Json.read nestingLimit (unifyNewlines ds) with
      | ok j =>
          rw [hdocument] at h
          cases h
      | error error =>
          rw [hdocument] at h
          cases error with
          | malformed complaint line column position =>
              cases h
              exact Or.inl ⟨_, rfl⟩
          | longInteger digits =>
              cases h
              exact Or.inr (.longInteger htext hdocument)
          | tooDeep =>
              cases h
              exact Or.inr (.outOfRoom htext hdocument)

/-- What keeps settings from being loaded is complained about, or it is passed on. -/
theorem load_eq_error (h : load files path = .error t) : IsComplaint t ∨ PassedOn files path t := by
  unfold load at h
  split at h
  · rename_i hnull
    cases h
    exact Or.inr (.nullInPath hnull)
  · rename_i hplain
    -- A file that cannot be opened is complained about; what is in it may be passed on.
    have hplain := Bool.eq_false_iff.2 hplain
    split at h
    · cases h
      exact Or.inl ⟨_, rfl⟩
    · rename_i bytes hread
      rcases bind_eq_error h with h | ⟨j, hj, h⟩
      · exact readConfiguration_eq_error hplain hread h
      · refine (ofDocument_eq_error h).imp_right ?_
        rintro ⟨rfl, members, host, endpoint, hsection, hhost, hendpoint, hhuge⟩
        exact .hugeTimeout (holds_iff.2 ⟨hplain, bytes, hread, hj⟩) hsection hhost hendpoint hhuge

/-- What is listed does come about. -/
theorem PassedOn.load_eq (h : PassedOn files path t) : load files path = .error t := by
  cases h with
  | nullInPath hnull => exact if_pos hnull
  | notText hplain hread hdecode =>
      rw [load_of_read hplain hread, readConfiguration, readText, hdecode]
      rfl
  | longInteger htext hlong =>
      rcases htext with ⟨hplain, ds, hread, rfl⟩
      rw [load_of_read hplain hread, readConfiguration_encode, readDocument, hlong]
      rfl
  | outOfRoom htext hdeep =>
      rcases htext with ⟨hplain, ds, hread, rfl⟩
      rw [load_of_read hplain hread, readConfiguration_encode, readDocument, hdeep]
      rfl
  | hugeTimeout hj hsection hhost hendpoint hhuge =>
      rw [load_of_holds hj]
      exact ofDocument_of_huge hsection hhost hendpoint hhuge

/-- What is passed on is no complaint. -/
theorem PassedOn.not_isComplaint (h : PassedOn files path t) : ¬IsComplaint t := by
  rintro ⟨report, rfl⟩
  cases h

/-! ## Usable settings -/

theorem GivesHost.ne_empty {host : Text} (h : GivesHost members host) : host ≠ "" := by
  cases h with
  | usual _ => decide
  | given _ hne => exact hne

/-- A time that is a number is above zero. -/
theorem GivesTimeout.positive {x : Binary64} (h : GivesTimeout members x)
    (hnumber : members.lookup (.plain "timeout") ≠ some (.float .nan)) : x.Positive := by
  cases h with
  | usual _ => exact Binary64.positive_ofInt (n := 30) (by decide)
  | whole _ hpos _ => exact Binary64.positive_ofInt hpos
  | seconds _ hpos => exact hpos
  | notNumber h => exact absurd h hnumber

theorem GivesTimeout.eq_nan {x : Binary64} (h : GivesTimeout members x)
    (hnan : members.lookup (.plain "timeout") = some (.float .nan)) : x = .nan := by
  cases h with
  | usual h | whole h _ _ => cases h.symm.trans hnan
  | seconds h _ =>
      cases h.symm.trans hnan
      rfl
  | notNumber _ => rfl

/-- The file at a path gives a time for an answer that is not a number. -/
def GivesNotNumber (files : Files) (path : String) : Prop :=
  ∃ j members, Holds files path j ∧ section? j = some members ∧
    members.lookup (.plain "timeout") = some (.float .nan)

/-- What is loaded gives a host and a time above zero, unless the file gives what is not a number
    for the time. Then the time is just that. -/
theorem usable_of_load (h : load files path = .ok s) : s.host ≠ "" ∧
    (¬GivesNotNumber files path → s.timeout.Positive) ∧
    (GivesNotNumber files path → s.timeout = .nan) := by
  rcases load_eq_ok.1 h with ⟨j, members, hj, hsection, hgives⟩
  refine ⟨hgives.host.ne_empty, fun hnumber => hgives.timeout.positive fun hnan => ?_, ?_⟩
  · exact hnumber ⟨j, members, hj, hsection, hnan⟩
  · -- Both are about the one document in the file, so they speak of the same members.
    rintro ⟨k, others, hk, hsection', hnan⟩
    cases hj.unique hk
    cases hsection.symm.trans hsection'
    exact hgives.timeout.eq_nan hnan

/-- Settings that are loaded have a host, and a time for an answer above zero unless the file gives
    what is not a number. If there are none, there is a complaint about the configuration, or else
    one of the listed troubles, which are all passed on. -/
theorem usable_unless_passed_on (files : Files) (path : String) :
    (∀ s, load files path = .ok s → s.host ≠ "" ∧
      (¬GivesNotNumber files path → s.timeout.Positive) ∧
      (GivesNotNumber files path → s.timeout = .nan)) ∧
    ∀ t, (load files path = .error t ∧ ¬IsComplaint t) ↔ PassedOn files path t :=
  ⟨fun _ => usable_of_load, fun _ => ⟨fun h => (load_eq_error h.1).resolve_left h.2,
    fun h => ⟨h.load_eq, h.not_isComplaint⟩⟩⟩

/-- A file whose name is the path, and which is all there is. -/
theorem read_only_file {name : String} {bytes : List UInt8} (hslash : '/' ∉ name.toList)
    (hkept : isSteppedOver name = false) (hshort : name.utf8ByteSize ≤ componentLimit) :
    (⟨[([name], .file bytes)]⟩ : Files).read name = .ok bytes := by
  rw [Files.read, Files.locate_name hslash hkept hshort
    (Files.entryAt?_of_lookup_eq_some List.lookup_cons_self)]

/-- The only file, with a document that is written on one line. -/
def fileOf (j : Json) : Files :=
  ⟨[(["c.json"], .file (Utf8.encode (String.ofList (j.write .oneLine))))]⟩

/-- The only file has the document that was written to it. -/
theorem holds_fileOf (h : readDocument (j.write .oneLine) = .ok j) :
    Holds (fileOf j) "c.json" j :=
  ⟨_, ⟨rfl, _, read_only_file (by decide) rfl (by decide +kernel), rfl⟩,
    readDocument_unifyNewlines h⟩

/-- A section with all that can be said in one. -/
def fullSection : List (Text × Json) :=
  [("host", .str "scheme:80"), ("endPoint", .str "/read"), ("timeout", .int 5)]

/-- The section is read as it was written. -/
theorem readDocument_fullSection :
    readDocument ((Json.obj [("parser", .obj fullSection)]).write .oneLine) =
      .ok (.obj [("parser", .obj fullSection)]) := by
  -- Writing is known of documents without numbers, so the time is looked at by itself.
  have htime (room level : Nat) : Json.Writes Json.integerDigitLimit room
      (Json.writeAt .oneLine level (.int 5)) (Json.reread (.int 5)) := by
    have hdigits : Json.Digits ['5'] := ⟨List.cons_ne_nil _ _, List.forall_mem_singleton.2 rfl⟩
    have hnumeral : Json.NumeralText ['5'] ⟨false, ['5'], none, none⟩ :=
      .parts false ⟨hdigits, nofun⟩ .none .none
    exact (Json.Scalar.integer hnumeral (by decide)).writes
  have htext (text : Text) (room level : Nat) : Json.Writes Json.integerDigitLimit room
      (Json.writeAt .oneLine level (.str text)) (Json.reread (.str text)) :=
    (Json.Textual.str text).writes _ (Nat.zero_le room) .oneLine level
  have hsection (room level : Nat) : Json.Writes Json.integerDigitLimit (room + 1)
      (Json.writeAt .oneLine level (.obj fullSection)) (Json.reread (.obj fullSection)) :=
    Json.writes_obj (by simp [fullSection, htime, htext])
  -- The document is an object with the section in it.
  have hdocument : Json.Writes Json.integerDigitLimit nestingLimit
      ((Json.obj [("parser", .obj fullSection)]).write .oneLine) _ :=
    Json.writes_obj (List.forall_mem_singleton.2 (hsection _ 1))
  refine Service.readDocument_eq_ok.2 ⟨[], _, [], Json.gap_nil, hdocument, Json.gap_nil, ?_⟩
  rw [List.nil_append, List.append_nil]

/-- A file that gives a host, an endpoint and a time gives settings that can be used. -/
theorem full_section_is_usable :
    load (fileOf (.obj [("parser", .obj fullSection)])) "c.json" =
        .ok { host := "scheme:80", endpoint := "/read", timeout := .ofInt 5 } ∧
      Text.plain "scheme:80" ≠ "" ∧ (Binary64.ofInt 5).Positive := by
  have hholds := holds_fileOf readDocument_fullSection
  have htime : GivesTimeout fullSection (.ofInt 5) := .whole rfl (by decide) (by decide)
  have hgives : Gives fullSection
      { host := "scheme:80", endpoint := "/read", timeout := .ofInt 5 } :=
    ⟨.given rfl (by decide), .given rfl, htime⟩
  have hload := load_eq_ok.2 ⟨_, _, hholds, rfl, hgives⟩
  rcases (usable_unless_passed_on _ _).1 _ hload with ⟨hhost, hpositive, _⟩
  -- The time is a number, for the file gives one.
  refine ⟨hload, hhost, hpositive ?_⟩
  rintro ⟨j, members, hj, hsection, hnan⟩
  cases hholds.unique hj
  cases hsection
  cases hnan

/-- A file that is no text is not complained about as a configuration. -/
theorem undecodable_file_escapes :
    load ⟨[(["c.json"], .file [0xff])]⟩ "c.json" =
      .error (.notText ⟨0xff, 0, 1, .invalidStart⟩) ∧
    ¬IsComplaint (.notText ⟨0xff, 0, 1, .invalidStart⟩) := by
  refine ⟨?_, nofun⟩
  have hread : (⟨[(["c.json"], .file [0xff])]⟩ : Files).read "c.json" = .ok [0xff] :=
    read_only_file (by decide) rfl (by decide +kernel)
  rw [load_of_read rfl hread, readConfiguration, readText, Utf8.decode, Utf8.decodeFrom]
  rfl

end Settings

end StageTree
