import StageTree.Proofs.Rows
import StageTree.Proofs.Json.LineEnds
import StageTree.Proofs.Settings

/-!
# What a Configuration Means

A configuration has four items: the section that holds the settings, and in it the host, the path
on the host and the time for an answer. Each is usable or it is not, whatever the others are, and
what is missing is usable since it has a default. Settings are loaded exactly if every item can be
used. If not, the report is about the first item that cannot be used, in the order of the list.

Where an item stands and which values fit it are stated without the checks, so it is a theorem
that the checks come to this, and that they come in this order. Nothing else in a document makes a
difference: neither members with other keys nor the order of members.

## Main definitions

* `Settings.Item`: The items of a configuration, with what is reported of each.
* `Settings.Unfit`, `Settings.FirstUnfit`: An item cannot be used, and is the first such item.
* `Settings.HasSection`: The members that give settings.
* `Settings.AlikeConfigured`: Documents that differ in what makes no difference.

## Theorems

* `Settings.exists_settings_iff`: There are settings exactly if every item can be used.
* `Settings.ofDocument_of_firstUnfit`: The first item that cannot be used is reported.
* `Settings.AlikeConfigured.ofDocument_eq`: What makes no difference.
* `Settings.meaning_of_configuration`: What loading a file with a document gives.
-/

namespace StageTree

namespace Settings

/-! ## Items -/

/-- The items of a configuration: the section, and what stands in it. -/
inductive Item where
  | parser
  | host
  | endpoint
  | timeout
  deriving DecidableEq

/-- The items in the order in which they are looked at. -/
def Item.all : List Item := [.parser, .host, .endpoint, .timeout]

/-- The items that are looked at before an item. -/
def Item.before (item : Item) : List Item := all.takeWhile (· != item)

/-- The key that an item stands under. -/
def Item.key : Item → Text
  | .parser => "parser"
  | .host => "host"
  | .endpoint => "endPoint"
  | .timeout => "timeout"

/-- The steps to an item. -/
def Item.steps : Item → List Wire.Step
  | .parser => [.key Item.parser.key]
  | item => [.key Item.parser.key, .key item.key]

/-- The values that can be used for an item. -/
inductive Fits : Item → Json → Prop where
  | parser (members : List (Text × Json)) : Fits .parser (.obj members)
  | host {host : Text} (h : host ≠ "") : Fits .host (.str host)
  | endpoint (endpoint : Text) : Fits .endpoint (.str endpoint)
  | whole {n : Int} (h : 0 < n) : Fits .timeout (.int n)
  | seconds {x : Binary64} (h : x.Positive) : Fits .timeout (.float x)
  | notNumber : Fits .timeout (.float .nan)

/-- An item of a document cannot be used. What is missing can, for it has its default, but the
    document must be an object for the section to be missing from it. -/
inductive Unfit (j : Json) : Item → Prop where
  | notObject (h : ∀ members, j ≠ .obj members) : Unfit j .parser
  | given {item : Item} {value : Json} (hvalue : Wire.partAt? j item.steps = some value)
    (h : ¬Fits item value) : Unfit j item

/-- An item is the first one that cannot be used. -/
structure FirstUnfit (j : Json) (item : Item) : Prop where
  unfit : Unfit j item
  before : ∀ other ∈ item.before, ¬Unfit j other

/-- The message about an item that cannot be used. -/
def Item.message (path : String) : Item → Text
  | .parser => "Configuration file has no valid 'parser' section: " ++ path
  | .host => "Invalid parser host in " ++ path
  | .endpoint => "Invalid parser endPoint in " ++ path
  | .timeout => "Invalid parser timeout in " ++ path

/-- What an item should be. -/
def Item.expected : Item → Text
  | .parser => "\x7b\"parser\": \x7b\"host\": ..., \"endPoint\": ...\x7d\x7d"
  | .host => "a non-empty \"host:port\" string"
  | .endpoint => "a URL path string"
  | .timeout => "a positive number of seconds"

/-- What is shown of an item. The section is not shown. -/
def Item.received (j : Json) : Item → Option Text
  | .parser => none
  | item => (Wire.partAt? j item.steps).map fun value => value.literal

/-- The report of an item that cannot be used. -/
def Item.report (path : String) (j : Json) (item : Item) : Report :=
  { message := item.message path, received := item.received j, expected := some item.expected }

/-- The members that give settings: those of the section, or none if there is no section. -/
inductive HasSection : Json → List (Text × Json) → Prop where
  | missing {top : List (Text × Json)} (h : top.lookup (.plain "parser") = none) :
    HasSection (.obj top) []
  | given {top members : List (Text × Json)}
    (h : top.lookup (.plain "parser") = some (.obj members)) :
    HasSection (.obj top) members

variable {files : Files} {path : String} {j k : Json} {members others : List (Text × Json)}
  {item : Item} {value : Json}

/-! ## Where items stand -/

/-- The section stands under its key in the document. -/
theorem partAt?_section (top : List (Text × Json)) :
    Wire.partAt? (.obj top) Item.parser.steps = top.lookup (.plain "parser") := by
  cases h : top.lookup (.plain "parser") <;>
    simp [Wire.partAt?, Wire.stepInto?, Item.steps, Item.key, h]

/-- The items of a section stand under their keys in it. -/
theorem HasSection.partAt?_eq (h : HasSection j members) (hitem : item ≠ .parser) :
    Wire.partAt? j item.steps = members.lookup item.key := by
  -- All items but the section itself are looked for inside it.
  have hsteps : item.steps = [.key "parser", .key item.key] := by
    cases item with
    | parser => exact absurd rfl hitem
    | _ => rfl
  cases h with
  | missing h => simp [Wire.partAt?, Wire.stepInto?, hsteps, h]
  | given h => simp [Wire.partAt?, Wire.stepInto?, hsteps, h]

/-- The section that is found is the one that the document has. -/
theorem section?_eq_some : section? j = some members ↔ HasSection j members := by
  constructor
  · intro h
    unfold section? at h
    split at h
    · split at h
      · rename_i hnone
        cases h
        exact .missing hnone
      · rename_i hgiven
        cases h
        exact .given hgiven
      · cases h
    · cases h
  · rintro (h | h)
    · simp only [section?, h]
    · simp only [section?, h]

/-- A section that is there can be used. -/
theorem HasSection.not_unfit (h : HasSection j members) : ¬Unfit j .parser := by
  intro hunfit
  cases hunfit with
  | notObject hno => cases h <;> exact hno _ rfl
  | given hvalue hno =>
      cases h with
      | missing hnone => cases hnone.symm.trans ((partAt?_section _).symm.trans hvalue)
      -- What stands under the key is an object, and that fits.
      | given hgiven =>
          cases hgiven.symm.trans ((partAt?_section _).symm.trans hvalue)
          exact hno (.parser _)

/-- A section that cannot be used is not found. -/
theorem section?_of_unfit (h : Unfit j .parser) : section? j = none := by
  cases hsection : section? j with
  | none => rfl
  | some members => exact absurd h (section?_eq_some.1 hsection).not_unfit

/-- A document has a section for settings, unless the section cannot be used. -/
theorem unfit_or_hasSection (j : Json) : Unfit j .parser ∨ ∃ members, HasSection j members := by
  by_cases hobject : ∃ top, j = .obj top
  · rcases hobject with ⟨top, rfl⟩
    -- A document without a section has all defaults, so nothing is unfit.
    cases hlookup : top.lookup (.plain "parser") with
    | none => exact .inr ⟨[], .missing hlookup⟩
    | some value =>
        by_cases hvalue : ∃ members, value = .obj members
        · rcases hvalue with ⟨members, rfl⟩
          exact .inr ⟨members, .given hlookup⟩
        · refine .inl (.given ((partAt?_section top).trans hlookup) ?_)
          rintro ⟨members⟩
          exact hvalue ⟨members, rfl⟩
  · exact .inl (.notObject (not_exists.1 hobject))

/-- An item of the section cannot be used if it is there and does not fit. -/
theorem HasSection.unfit_iff (h : HasSection j members) (hitem : item ≠ .parser) :
    Unfit j item ↔ ∃ value, members.lookup item.key = some value ∧ ¬Fits item value := by
  constructor
  · rintro (_ | ⟨hvalue, hno⟩)
    · exact absurd rfl hitem
    · exact ⟨_, (h.partAt?_eq hitem).symm.trans hvalue, hno⟩
  · rintro ⟨value, hvalue, hno⟩
    exact .given ((h.partAt?_eq hitem).trans hvalue) hno

/-! ## What is made of an item -/

/-- What is shown of an item is the value under its key. -/
theorem HasSection.received_eq (h : HasSection j members) (hitem : item ≠ .parser)
    (hvalue : members.lookup item.key = some value) :
    item.received j = some (.plain value.literal) := by
  have hpart := (h.partAt?_eq hitem).trans hvalue
  cases item with
  | parser => exact absurd rfl hitem
  | _ => exact congrArg (Option.map fun value => Text.plain value.literal) hpart

/-- An item of the section that cannot be used is there and does not fit, and its value is
    shown. -/
theorem HasSection.exists_of_unfit (h : HasSection j members) (hitem : item ≠ .parser)
    (hunfit : Unfit j item) (path : String) : ∃ value, members.lookup item.key = some value ∧
      ¬Fits item value ∧ item.report path j =
        { message := item.message path
          received := some value.literal
          expected := some item.expected } := by
  rcases (h.unfit_iff hitem).1 hunfit with ⟨value, hvalue, hno⟩
  refine ⟨value, hvalue, hno, ?_⟩
  rw [Item.report, h.received_eq hitem hvalue]

/-- A host that cannot be used is complained about with its report. -/
theorem HasSection.hostOf_of_unfit (h : HasSection j members) (hunfit : Unfit j .host)
    (path : String) : hostOf path members = .error (unusable (Item.host.report path j)) := by
  rcases h.exists_of_unfit (by decide) hunfit path with ⟨value, hvalue, hno, hreport⟩
  change members.lookup (.plain "host") = some value at hvalue
  rw [hreport]
  unfold hostOf
  rw [hvalue]
  dsimp only
  split
  · split
    · rfl
    · rename_i hne
      exact absurd (.host hne) hno
  · rfl

/-- An endpoint that cannot be used is complained about with its report. -/
theorem HasSection.endpointOf_of_unfit (h : HasSection j members) (hunfit : Unfit j .endpoint)
    (path : String) :
    endpointOf path members = .error (unusable (Item.endpoint.report path j)) := by
  rcases h.exists_of_unfit (by decide) hunfit path with ⟨value, hvalue, hno, hreport⟩
  change members.lookup (.plain "endPoint") = some value at hvalue
  rw [hreport]
  unfold endpointOf
  rw [hvalue]
  split
  · rename_i heq
    cases heq
  · rename_i heq
    cases heq
    exact absurd (.endpoint _) hno
  · rename_i heq
    cases heq
    rfl

/-- A time that cannot be used is complained about with its report. -/
theorem HasSection.timeoutOf_of_unfit (h : HasSection j members) (hunfit : Unfit j .timeout)
    (path : String) : timeoutOf path members = .error (unusable (Item.timeout.report path j)) := by
  rcases h.exists_of_unfit (by decide) hunfit path with ⟨value, hvalue, hno, hreport⟩
  change members.lookup (.plain "timeout") = some value at hvalue
  rw [hreport]
  unfold timeoutOf
  rw [hvalue]
  dsimp only
  split
  · split
    · rfl
    · rename_i hpos
      exact absurd (.whole (Int.not_le.1 hpos)) hno
  · split
    · rfl
    · -- A double that passes the check fits, above zero or not.
      rename_i hpos
      rcases Binary64.isNonpositive_eq_false.1 (Bool.eq_false_iff.2 hpos) with rfl | hpos
      · exact absurd .notNumber hno
      · exact absurd (.seconds hpos) hno
  · rfl

/-! ## What is given -/

/-- Whole numbers of seconds have a nearest double. -/
def InRange (j : Json) : Prop :=
  ∀ n, Wire.partAt? j Item.timeout.steps = some (.int n) → (Binary64.ofInt n).isInfinite = false

/-- A value fits if its item can be used. -/
theorem HasSection.fits (h : HasSection j members) (hitem : item ≠ .parser)
    (hfit : ¬Unfit j item) (hvalue : members.lookup item.key = some value) : Fits item value := by
  by_contra hno
  exact hfit ((h.unfit_iff hitem).2 ⟨value, hvalue, hno⟩)

/-- A host that can be used is given, or there is the default. -/
theorem HasSection.exists_givesHost (h : HasSection j members) (hfit : ¬Unfit j .host) :
    ∃ host, GivesHost members host := by
  cases hvalue : members.lookup (.plain "host") with
  | none => exact ⟨_, .usual hvalue⟩
  | some value =>
      cases h.fits (by decide) hfit hvalue with
      | host hne => exact ⟨_, .given hvalue hne⟩

theorem HasSection.exists_givesEndpoint (h : HasSection j members) (hfit : ¬Unfit j .endpoint) :
    ∃ endpoint, GivesEndpoint members endpoint := by
  cases hvalue : members.lookup (.plain "endPoint") with
  | none => exact ⟨_, .usual hvalue⟩
  | some value =>
      cases h.fits (by decide) hfit hvalue with
      | endpoint endpoint => exact ⟨endpoint, .given hvalue⟩

/-- A time that can be used and is no number too large is given, or there is the default. -/
theorem HasSection.exists_givesTimeout (h : HasSection j members) (hfit : ¬Unfit j .timeout)
    (hrange : InRange j) : ∃ timeout, GivesTimeout members timeout := by
  cases hvalue : members.lookup (.plain "timeout") with
  | none => exact ⟨_, .usual hvalue⟩
  | some value =>
      cases h.fits (by decide) hfit hvalue with
      | whole hpos =>
          exact ⟨_, .whole hvalue hpos (hrange _ ((h.partAt?_eq (by decide)).trans hvalue))⟩
      | seconds hpos => exact ⟨_, .seconds hvalue hpos⟩
      | notNumber => exact ⟨_, .notNumber hvalue⟩

/-- Where the section gives settings, every item can be used. -/
theorem HasSection.not_unfit_of_gives {s : Settings} (h : HasSection j members)
    (hgives : Gives members s) (item : Item) : ¬Unfit j item := by
  intro hunfit
  cases item with
  | parser => exact h.not_unfit hunfit
  | host => cases (hostOf_eq_ok.2 hgives.host).symm.trans (h.hostOf_of_unfit hunfit "")
  | endpoint =>
      cases (endpointOf_eq_ok.2 hgives.endpoint).symm.trans
        (h.endpointOf_of_unfit hunfit "")
  | timeout =>
      cases (timeoutOf_eq_ok.2 hgives.timeout).symm.trans
        (h.timeoutOf_of_unfit hunfit "")

/-- A time that gives a setting is no number too large. -/
theorem HasSection.inRange_of_gives {s : Settings} (h : HasSection j members)
    (hgives : Gives members s) : InRange j := by
  intro n hpart
  have hvalue := (h.partAt?_eq (by decide)).symm.trans hpart
  have htimeout := hgives.timeout
  -- The case split is on where the time comes from, so it must be a variable.
  generalize s.timeout = seconds at htimeout
  cases htimeout with
  | usual hnone => cases hnone.symm.trans hvalue
  | whole hgiven _ hfinite =>
      cases hgiven.symm.trans hvalue
      exact hfinite
  | seconds hgiven _ => cases hgiven.symm.trans hvalue
  | notNumber hgiven => cases hgiven.symm.trans hvalue

/-- There are settings exactly if every item can be used. -/
theorem exists_settings_iff : (∃ members s, HasSection j members ∧ Gives members s) ↔
    (∀ item, ¬Unfit j item) ∧ InRange j := by
  constructor
  · rintro ⟨members, s, hsection, hgives⟩
    exact ⟨hsection.not_unfit_of_gives hgives, hsection.inRange_of_gives hgives⟩
  · rintro ⟨hfit, hrange⟩
    rcases unfit_or_hasSection j with hunfit | ⟨members, hsection⟩
    · exact absurd hunfit (hfit .parser)
    · rcases hsection.exists_givesHost (hfit .host) with ⟨host, hhost⟩
      rcases hsection.exists_givesEndpoint (hfit .endpoint) with ⟨endpoint, hendpoint⟩
      rcases hsection.exists_givesTimeout (hfit .timeout) hrange with ⟨timeout, htimeout⟩
      exact ⟨members, ⟨host, endpoint, timeout⟩, hsection, hhost, hendpoint, htimeout⟩

/-! ## What is reported -/

/-- If some item cannot be used, there is a first one. -/
theorem exists_firstUnfit (h : ∃ item, Unfit j item) : ∃ item, FirstUnfit j item := by
  by_contra hno
  -- An item all of whose predecessors can be used can be used itself.
  have hstep (item : Item) (hbefore : ∀ other ∈ item.before, ¬Unfit j other) : ¬Unfit j item :=
    fun hunfit => hno ⟨item, hunfit, hbefore⟩
  have hparser : ¬Unfit j .parser := hstep .parser nofun
  have hhost : ¬Unfit j .host := hstep .host (by simp [Item.before, Item.all, hparser])
  have hendpoint : ¬Unfit j .endpoint :=
    hstep .endpoint (by simp [Item.before, Item.all, hparser, hhost])
  have htimeout : ¬Unfit j .timeout :=
    hstep .timeout (by simp [Item.before, Item.all, hparser, hhost, hendpoint])
  rcases h with ⟨item, hunfit⟩
  cases item <;> contradiction

/-- There is only one first item that cannot be used. -/
theorem FirstUnfit.unique {other : Item} (h : FirstUnfit j item) (h' : FirstUnfit j other) :
    item = other := by
  -- Of two items one is looked at before the other.
  have horder : item = other ∨ item ∈ other.before ∨ other ∈ item.before := by
    cases item <;> cases other <;> decide
  rcases horder with heq | hbefore | hbefore
  · exact heq
  · exact absurd h.unfit (h'.before item hbefore)
  · exact absurd h'.unfit (h.before other hbefore)

/-- The first item that cannot be used is reported, whatever comes after it. -/
theorem ofDocument_of_firstUnfit (h : FirstUnfit j item) :
    ofDocument path j = .error (unusable (item.report path j)) := by
  unfold ofDocument
  rcases unfit_or_hasSection j with hunfit | ⟨members, hsection⟩
  · -- The section comes before everything else.
    cases item with
    | parser =>
        rw [section?_of_unfit hunfit]
        rfl
    | _ => exact absurd hunfit (h.before .parser (by decide))
  rw [section?_eq_some.2 hsection]
  dsimp only
  -- What is looked at before the item can be used, so reading gets as far as the item.
  cases item with
  | parser => exact absurd h.unfit hsection.not_unfit
  | host =>
      rw [hsection.hostOf_of_unfit h.unfit]
      rfl
  | endpoint =>
      rcases hsection.exists_givesHost (h.before .host (by decide)) with ⟨host, hhost⟩
      simp only [hostOf_eq_ok.2 hhost, hsection.endpointOf_of_unfit h.unfit]
      rfl
  | timeout =>
      rcases hsection.exists_givesHost (h.before .host (by decide)) with ⟨host, hhost⟩
      rcases hsection.exists_givesEndpoint (h.before .endpoint (by decide)) with
        ⟨endpoint, hendpoint⟩
      simp only [hostOf_eq_ok.2 hhost, endpointOf_eq_ok.2 hendpoint,
        hsection.timeoutOf_of_unfit h.unfit]
      rfl

/-! ## What makes no difference -/

/-- Members of an object, changed in ways that make no difference to what stands under some keys:
    members with distinct keys are put in another order, and members with other keys are put in or
    left out. -/
inductive SameUnder (keys : List Text) :
    List (Text × Json) → List (Text × Json) → Prop where
  | refl (members : List (Text × Json)) : SameUnder keys members members
  | symm {members others : List (Text × Json)} (h : SameUnder keys members others) :
    SameUnder keys others members
  | trans {members others more : List (Text × Json)} (h : SameUnder keys members others)
    (h' : SameUnder keys others more) : SameUnder keys members more
  | reorder {members others : List (Text × Json)} (hkeys : (members.map Prod.fst).Nodup)
    (h : members.Perm others) : SameUnder keys members others
  | other {key : Text} (value : Json) (members : List (Text × Json)) (hkey : key ∉ keys) :
    SameUnder keys ((key, value) :: members) members

/-- What makes no difference to some keys changes nothing that stands under them. -/
theorem SameUnder.lookup_eq {keys : List Text} (h : SameUnder keys members others)
    {key : Text} (hkey : key ∈ keys) : members.lookup key = others.lookup key := by
  induction h with
  | refl => rfl
  | symm _ ih => exact ih.symm
  | trans _ _ ih ih' => exact ih.trans ih'
  | reorder hkeys h => exact lookup_of_perm h hkeys key
  | other value members hname => exact lookup_cons_of_notMem hkey hname

/-- Documents that differ in what makes no difference to the settings: in the order of the members
    of the document or the section, and in members of either with other keys. -/
inductive AlikeConfigured : Json → Json → Prop where
  | trans {j k l : Json} (h : AlikeConfigured j k) (h' : AlikeConfigured k l) : AlikeConfigured j l
  | document {members others : List (Text × Json)} (h : SameUnder ["parser"] members others) :
    AlikeConfigured (.obj members) (.obj others)
  | inSection {members others : List (Text × Json)} (rest : List (Text × Json))
    (h : SameUnder ["host", "endPoint", "timeout"] members others) :
    AlikeConfigured (.obj (("parser", .obj members) :: rest))
      (.obj (("parser", .obj others) :: rest))

/-- Documents that differ in nothing that matters give the same settings, or the same report. -/
theorem AlikeConfigured.ofDocument_eq (h : AlikeConfigured j k) :
    ofDocument path j = ofDocument path k := by
  induction h with
  | trans _ _ ih ih' => exact ih.trans ih'
  -- Only one key of the document is looked up, and three keys of the section.
  | @document members others h =>
      have hlookup : members.lookup (.plain "parser") = others.lookup (.plain "parser") :=
        h.lookup_eq (by decide)
      simp only [ofDocument, section?, hlookup]
  | @inSection members others rest h =>
      have hhost : members.lookup (.plain "host") = others.lookup (.plain "host") :=
        h.lookup_eq (by decide)
      have hendpoint : members.lookup (.plain "endPoint") = others.lookup (.plain "endPoint") :=
        h.lookup_eq (by decide)
      have htimeout : members.lookup (.plain "timeout") = others.lookup (.plain "timeout") :=
        h.lookup_eq (by decide)
      simp only [ofDocument, section?, List.lookup_cons_self, hostOf, endpointOf, timeoutOf, hhost,
        hendpoint, htimeout]

/-- A file with a document gives settings exactly if all items of the document can be used, and if
    the time is a number with a nearest double. They are what the section gives, with a default for
    what is missing. If not, the first item that cannot be used is reported. Members with other keys
    and the order of members make no difference. -/
theorem meaning_of_configuration (hj : Holds files path j) :
    (∀ s, load files path = .ok s ↔ ∃ members, HasSection j members ∧ Gives members s) ∧
    ((∃ s, load files path = .ok s) ↔ (∀ item, ¬Unfit j item) ∧ InRange j) ∧
    ((∃ item, Unfit j item) → ∃ item, FirstUnfit j item ∧
      load files path = .error (unusable (item.report path j))) ∧
    ∀ files' k, Holds files' path k → AlikeConfigured j k →
      load files' path = load files path := by
  have hload (s : Settings) : load files path = .ok s ↔
      ∃ members, HasSection j members ∧ Gives members s := by
    simp only [load_of_holds hj, ofDocument_eq_ok, section?_eq_some]
  refine ⟨hload, ?_, fun hunfit => ?_, fun files' k hk halike => ?_⟩
  · -- Settings can be loaded if there are some that are given.
    rw [← exists_settings_iff, exists_comm]
    exact exists_congr hload
  · rcases exists_firstUnfit hunfit with ⟨item, hfirst⟩
    exact ⟨item, hfirst, (load_of_holds hj).trans (ofDocument_of_firstUnfit hfirst)⟩
  · rw [load_of_holds hj, load_of_holds hk, halike.ofDocument_eq]

/-- A document that is written on one line is read as it is, if it is not changed by reading. -/
theorem readDocument_oneLine (h : j.Textual) (hreread : j.reread = j)
    (hroom : j.nesting ≤ nestingLimit) : readDocument (j.write .oneLine) = .ok j := by
  have hwritten := Service.readDocument_written h hroom .oneLine Json.gap_nil Json.gap_nil
  rwa [hreread, List.nil_append, List.append_nil] at hwritten

/-- A section with a host that is empty and a time that is a text. -/
def unfitSection : List (Text × Json) := [("host", .str ""), ("timeout", .str "1")]

/-- The section alone. -/
def unfitAlone : Json := .obj [("parser", .obj unfitSection)]

/-- The section the other way round, and other members in it and beside it. -/
def unfitMixed : Json :=
  .obj [("other", .str ""), ("parser", .obj (("port", .str "") :: unfitSection.reverse))]

theorem unfit_alike : AlikeConfigured unfitAlone unfitMixed := by
  have hsection : SameUnder ["host", "endPoint", "timeout"] unfitSection
      (("port", .str "") :: unfitSection.reverse) :=
    .trans (.reorder (by decide) (List.reverse_perm _).symm) (.symm (.other _ _ (by decide)))
  exact .trans (.inSection [] hsection) (.document (.symm (.other _ _ (by decide))))

theorem textual_unfit : unfitAlone.Textual ∧ unfitMixed.Textual := by
  have hsection : (Json.obj unfitSection).Textual := .obj (by simp [unfitSection, Json.Textual.str])
  have hmixed : (Json.obj (("port", .str "") :: unfitSection.reverse)).Textual :=
    .obj (by simp [unfitSection, Json.Textual.str])
  exact ⟨.obj (by simp [hsection]), .obj (by simp [hmixed, Json.Textual.str])⟩

/-- The host is reported and the time is not, in whatever order they stand and beside whatever
    other members. -/
theorem empty_host_is_reported :
    Holds (fileOf unfitAlone) "c.json" unfitAlone ∧
      Holds (fileOf unfitMixed) "c.json" unfitMixed ∧
      load (fileOf unfitAlone) "c.json" = .error (unusable
        { message := "Invalid parser host in c.json"
          received := some "''"
          expected := some "a non-empty \"host:port\" string" }) ∧
      load (fileOf unfitMixed) "c.json" = load (fileOf unfitAlone) "c.json" := by
  have halone : Holds (fileOf unfitAlone) "c.json" unfitAlone :=
    holds_fileOf (readDocument_oneLine textual_unfit.1 rfl (by decide))
  have hmixed : Holds (fileOf unfitMixed) "c.json" unfitMixed :=
    holds_fileOf (readDocument_oneLine textual_unfit.2 rfl (by decide))
  have hunfit : Unfit unfitAlone .host := .given rfl fun h => by
    cases h
    contradiction
  have hfirst : FirstUnfit unfitAlone .host := by
    refine ⟨hunfit, fun other hother => ?_⟩
    -- Only the section is looked at before the host.
    obtain rfl : other = .parser := by simpa [Item.before, Item.all] using hother
    have hsection : HasSection unfitAlone unfitSection := .given rfl
    exact hsection.not_unfit
  rcases meaning_of_configuration halone with ⟨-, -, hreport, hsame⟩
  refine ⟨halone, hmixed, ?_, hsame _ _ hmixed unfit_alike⟩
  rcases hreport ⟨_, hunfit⟩ with ⟨item, hitem, hload⟩
  rw [hload, hitem.unique hfirst]
  rfl

end Settings

end StageTree
