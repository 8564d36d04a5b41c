import Mathlib.Tactic.SplitIfs
import StageTree.Files

/-!
# Writing Files

A file is written to the place that its path leads to. Then the path leads to the file, with what
was written in it, and what is found anywhere else is what was found there before.

That nothing else changes rests on how a path is followed. A directory is there if something is
listed under it, so a file that is listed far away from everything else would bring directories
into being. But a path is only followed through what is there, and so everything above the place
that it leads to is there already.

## Main definitions

* `Files.put`: The files after one of them is written.
* `Files.Writable`: A place for a file.

## Theorems

* `Files.place_writable`: What a path leads to is a place for a file.
* `Files.Writable.entryAt?_put`: What is found elsewhere does not change.
* `Files.read_put`: What is written to a path is read from it.
-/

namespace StageTree

variable {path : String}

/-! ## Plain paths -/

/-- What a list is split into has no separator in it. -/
theorem notMem_of_mem_splitOn {α : Type} [BEq α] [LawfulBEq α] {separator : α}
    {cs part : List α} (h : part ∈ cs.splitOn separator) : separator ∉ part := by
  induction cs generalizing part with
  | nil =>
      rw [List.splitOn_nil, List.mem_singleton] at h
      rw [h]
      exact List.not_mem_nil
  | cons c rest ih =>
      rw [List.splitOn_cons_eq_if_modifyHead] at h
      split at h
      · rcases List.mem_cons.1 h with rfl | h
        · exact List.not_mem_nil
        · exact ih h
      · rename_i hc
        cases hrest : rest.splitOn separator with
        | nil => exact absurd hrest (List.splitOn_ne_nil _ _)
        | cons first more =>
            rw [hrest] at h ih
            rcases List.mem_cons.1 h with rfl | h
            · rw [List.mem_cons, not_or]
              exact ⟨fun h => hc (by rw [h, beq_self_eq_true]), ih List.mem_cons_self⟩
            · exact ih (List.mem_cons_of_mem first h)

/-- In front of a slash there is an empty part. -/
theorem pathParts_slash (rest : String) : pathParts ("/" ++ rest) = "" :: pathParts rest := by
  rw [pathParts, String.toList_append]
  exact congrArg (List.map String.ofList) (List.splitOn_append_cons_self [] rest.toList)

/-- Parts that were joined by slashes are found again. -/
theorem pathParts_intercalate {parts : List String} (hne : parts ≠ [])
    (h : ∀ part ∈ parts, '/' ∉ part.toList) : pathParts ("/".intercalate parts) = parts := by
  have hchars : ∀ part ∈ parts.map String.toList, '/' ∉ part := List.forall_mem_map.2 h
  have hlists : parts.map String.toList ≠ [] := fun hnil => hne (List.map_eq_nil_iff.1 hnil)
  have hsplit := List.splitOn_intercalate '/' hchars hlists
  have hofList : String.ofList ∘ String.toList = id := funext fun _ => String.ofList_toList
  rw [pathParts, String.toList_intercalate]
  refine (congrArg (List.map String.ofList) hsplit).trans ?_
  rw [List.map_map, hofList, List.map_id]

/-- A component has no slash in it and is not stepped over. -/
theorem mem_pathComponents {part : String} (h : part ∈ pathComponents path) :
    '/' ∉ part.toList ∧ isSteppedOver part = false := by
  rcases List.mem_filter.1 h with ⟨hpart, hkept⟩
  rcases List.mem_map.1 hpart with ⟨cs, hcs, rfl⟩
  rw [String.toList_ofList]
  exact ⟨notMem_of_mem_splitOn hcs, by simpa using hkept⟩

/-- The parts of a plain path are its components, but for the root in front of them. -/
theorem pathComponents_suffix_plainPath (hne : pathComponents path ≠ []) :
    pathComponents path <:+ pathParts (plainPath path) := by
  have hparts : pathParts ("/".intercalate (pathComponents path)) = pathComponents path :=
    pathParts_intercalate hne fun part hpart => (mem_pathComponents hpart).1
  -- A path with components is not empty, since none of them is.
  have hsome (root : String) : root ++ "/".intercalate (pathComponents path) ≠ "" := by
    intro hplain
    have hempty : pathParts "" = [""] := by decide
    rcases List.exists_mem_of_ne_nil _ hne with ⟨part, hpart⟩
    have hkept := (mem_pathComponents hpart).2
    rw [← hparts, (String.append_eq_empty_iff.1 hplain).2, hempty, List.mem_singleton] at hpart
    rw [hpart] at hkept
    cases hkept
  rw [plainPath, if_neg (hsome _)]
  -- The root is written as nothing, as two slashes or as one.
  split_ifs
  · exact ⟨[], by rw [String.empty_append, hparts, List.nil_append]⟩
  · refine ⟨["", ""], ?_⟩
    have hdouble : "//" = "/" ++ "/" := rfl
    rw [hdouble, String.append_assoc, pathParts_slash, pathParts_slash, hparts]
    rfl
  · refine ⟨[""], ?_⟩
    rw [pathParts_slash, hparts]
    rfl

/-- A plain path that is followed anywhere does not end in a directory. -/
theorem endsInDirectory_plainPath (hne : pathComponents (plainPath path) ≠ []) :
    Files.endsInDirectory (plainPath path) = false := by
  have hcomponents : pathComponents path ≠ [] := by
    intro hnil
    refine hne ?_
    have hinter : "/".intercalate (pathComponents path) = "" := by rw [hnil]; rfl
    rw [plainPath, hinter]
    split_ifs <;> decide
  rcases pathComponents_suffix_plainPath hcomponents with ⟨root, hparts⟩
  rw [Files.endsInDirectory, ← hparts, List.getLast?_append,
    List.getLast?_eq_some_getLast hcomponents]
  exact (mem_pathComponents (List.getLast_mem hcomponents)).2

/-- A component leads to a place below, here, or above. -/
theorem Location.prefix_enter {location l : Location} {component : String}
    (h : l <+: location.enter component) : l <+: location ∨ l = location.enter component := by
  rw [Location.enter] at h ⊢
  split at h
  · exact Or.inl (h.trans (List.dropLast_prefix location))
  · split at h
    · exact Or.inl h
    · rename_i habove hroot
      rw [if_neg habove, if_neg hroot]
      exact (List.prefix_concat_iff.1 h).symm

namespace Files

variable {files : Files} {location l : Location} {bytes : List UInt8}
  {before : Option (List UInt8)}

/-! ## Following a path -/

/-- The files after one of them is written. -/
def put (files : Files) (location : Location) (bytes : List UInt8) : Files :=
  ⟨(location, .file bytes) :: files.entries⟩

/-- A place for a file: no directory is there, and everything above it is. -/
structure Writable (files : Files) (location : Location) : Prop where
  notDirectory : files.entryAt? location ≠ some .directory
  above : ∀ l, l <+: location → l ≠ location → files.entryAt? l ≠ none

/-- Everything above a location is there, and so is what is at the location. -/
def Reached (files : Files) (location : Location) : Prop :=
  ∀ l, l <+: location → files.entryAt? l ≠ none

/-- What is not listed is a directory, if something is listed below it. -/
theorem entryAt?_of_lookup_eq_none (h : files.entries.lookup l = none) :
    files.entryAt? l = if l = ["/"] || l.all (· == "..")
      || files.entries.any (fun e => l.isPrefixOf e.1) then some .directory else none := by
  rw [entryAt?, h]

theorem entryAt?_of_lookup_eq_some {entry : Entry} (h : files.entries.lookup l = some entry) :
    files.entryAt? l = some entry := by
  rw [entryAt?, h]

/-- The root, and the current directory, are there. -/
theorem reached_pathStart (files : Files) (path : String) : files.Reached (pathStart path) := by
  have hthere (l : Location) (h : l = ["/"] ∨ l = []) : files.entryAt? l ≠ none := by
    cases hlookup : files.entries.lookup l with
    | none =>
        rw [entryAt?_of_lookup_eq_none hlookup]
        rcases h with rfl | rfl <;> simp
    | some entry =>
        rw [entryAt?_of_lookup_eq_some hlookup]
        nofun
  intro l hl
  -- Above the start of a path there are only the root and the current directory.
  refine hthere l ?_
  rw [pathStart] at hl
  split at hl
  · have hroot : l <+: [] ++ ["/"] := hl
    exact (List.prefix_concat_iff.1 hroot).imp_right List.prefix_nil.1
  · exact Or.inr (List.prefix_nil.1 hl)

/-- Following one more component, one still stands below what is there. -/
theorem Reached.enter (h : files.Reached location) {component : String}
    (hnext : files.entryAt? (location.enter component) ≠ none) :
    files.Reached (location.enter component) := by
  intro l hl
  rcases Location.prefix_enter hl with hl | rfl
  · exact h l hl
  · exact hnext

/-- The place for a file that a path leads to, with the bytes of the file that is there. -/
def Located.file? : Located → Option (Location × Option (List UInt8))
  | .present location (.file bytes) => some (location, some bytes)
  | .absent location => some (location, none)
  | _ => none

/-- Following components leads to a place for a file, and to the file that is there. -/
theorem follow_writable {start : Location} {components : List String}
    (hstart : files.Reached start)
    (h : (files.follow start components).file? = some (location, before)) :
    files.Writable location ∧ files.entryAt? location = before.map .file := by
  induction components generalizing start with
  | nil => cases h
  | cons component rest ih =>
      rw [follow] at h
      split at h
      · cases h
      -- What is above the next place has been followed, whatever is found there.
      have habove : ∀ l, l <+: start.enter component → l ≠ start.enter component →
          files.entryAt? l ≠ none :=
        fun l hl hne => hstart l ((Location.prefix_enter hl).resolve_right hne)
      dsimp only at h
      split at h
      · rename_i hnone
        cases h
        refine ⟨⟨?_, habove⟩, hnone⟩
        rw [hnone]
        nofun
      · cases h
      · rename_i hfile
        cases h
        refine ⟨⟨?_, habove⟩, hfile⟩
        rw [hfile]
        nofun
      · cases h
      · rename_i hdirectory
        refine ih (hstart.enter ?_) h
        rw [hdirectory]
        nofun

/-- What a path leads to is what its components lead to. A file is not found by a path that must
    lead to a directory. -/
theorem locate_file? : (files.locate path).file? = some (location, before) ↔
    path ≠ "" ∧ path.utf8ByteSize < pathLimit ∧ (before = none ∨ endsInDirectory path = false) ∧
      (files.follow (pathStart path) (pathComponents path)).file? = some (location, before) := by
  -- A path that is empty or too long leads nowhere.
  by_cases hne : path = ""
  · rw [locate, if_pos hne]
    exact iff_of_false nofun fun h => h.1 hne
  by_cases hlong : pathLimit ≤ path.utf8ByteSize
  · rw [locate, if_neg hne, if_pos hlong]
    exact iff_of_false nofun fun h => Nat.not_lt.2 hlong h.2.1
  rw [locate, if_neg hne, if_neg hlong]
  have hshort := Nat.lt_of_not_le hlong
  cases files.follow (pathStart path) (pathComponents path) with
  | present found entry =>
      cases entry with
      | directory => exact iff_of_false nofun fun h => nomatch h.2.2.2
      | file bytes =>
          dsimp only
          by_cases hends : endsInDirectory path = true
          · rw [if_pos hends]
            refine iff_of_false nofun ?_
            rintro ⟨-, -, hbefore, hfile⟩
            cases hfile
            rcases hbefore with hnone | hfalse
            · cases hnone
            · cases hends.symm.trans hfalse
          · rw [if_neg hends]
            exact ⟨fun h => ⟨hne, hshort, Or.inr (Bool.eq_false_iff.2 hends), h⟩, fun h => h.2.2.2⟩
  | absent found =>
      refine ⟨fun h => ⟨hne, hshort, Or.inl ?_, h⟩, fun h => h.2.2.2⟩
      cases h
      rfl
  | refused problem => exact iff_of_false nofun fun h => nomatch h.2.2.2

/-- A place is found exactly if a place for a file is. -/
theorem place_eq_ok :
    files.place path = .ok (location, before) ↔
      (files.locate path).file? = some (location, before) := by
  rw [place]
  cases files.locate path with
  | present found entry => cases entry <;> simp [Located.file?]
  | absent found => simp [Located.file?]
  | refused problem => simp [Located.file?]

/-- Bytes are read exactly if a file with them is found. -/
theorem read_eq_ok :
    files.read path = .ok bytes ↔
      ∃ location, (files.locate path).file? = some (location, some bytes) := by
  rw [read]
  cases files.locate path with
  | present found entry => cases entry <;> simp [Located.file?]
  | absent found => simp [Located.file?]
  | refused problem => simp [Located.file?]

/-- What is read is there. -/
theorem exists?_of_read (h : files.read path = .ok bytes) : files.exists? path = .ok true := by
  rw [read] at h
  rw [exists?]
  cases hlocate : files.locate path with
  | present found entry => rfl
  | absent found =>
      rw [hlocate] at h
      cases h
  | refused problem =>
      rw [hlocate] at h
      cases h

/-- A path that cannot be read leads to a directory or has a name that is too long, or nothing is
    there. -/
theorem problem_of_read_error {e : PathError} (h : files.read path = .error e) :
    e.problem = .isDirectory ∧ files.exists? path = .ok true ∨
      e.problem = .nameTooLong ∧ files.exists? path = .error e ∨
      files.exists? path = .ok false := by
  rw [read] at h
  rw [exists?]
  cases hlocate : files.locate path with
  | present found entry =>
      rw [hlocate] at h
      cases entry with
      | directory =>
          cases h
          exact Or.inl ⟨rfl, rfl⟩
      | file bytes => cases h
  | absent found => exact Or.inr (Or.inr rfl)
  | refused problem =>
      rw [hlocate] at h
      cases h
      cases problem with
      | nameTooLong => exact Or.inr (Or.inl ⟨rfl, rfl⟩)
      | _ => exact Or.inr (Or.inr rfl)

/-- What a path leads to is a place for a file, where the file is that is said to be there. -/
theorem place_writable (h : files.place path = .ok (location, before)) :
    files.Writable location ∧ files.entryAt? location = before.map .file :=
  follow_writable (reached_pathStart files path) (locate_file?.1 (place_eq_ok.1 h)).2.2.2

/-- A name leads to what is found there. -/
theorem locate_name {name : String} {entry : Entry} (hslash : '/' ∉ name.toList)
    (hkept : isSteppedOver name = false) (hshort : name.utf8ByteSize ≤ componentLimit)
    (h : files.entryAt? [name] = some entry) : files.locate name = .present [name] entry := by
  have hparts : pathParts name = [name] := by
    have hsplit := pathParts_intercalate (List.cons_ne_nil name [])
      (List.forall_mem_singleton.2 hslash)
    rwa [String.intercalate_singleton] at hsplit
  have hcomponents : pathComponents name = [name] := by
    rw [pathComponents, hparts]
    simp [hkept]
  have hstart : pathStart name = [] :=
    if_neg fun hroot => hslash (List.mem_of_mem_head? (Option.mem_def.2 hroot))
  have henter : Location.enter [] name = [name] := by simp [Location.enter]
  have hne : name ≠ "" := by
    rintro rfl
    cases hkept
  have hlimit : ¬ pathLimit ≤ name.utf8ByteSize :=
    Nat.not_le.2 (Nat.lt_of_le_of_lt hshort (by decide))
  -- A name by itself does not ask for a directory.
  have hends : endsInDirectory name = false := by rw [endsInDirectory, hparts]; exact hkept
  rw [locate, if_neg hne, if_neg hlimit, hcomponents, hstart, follow, if_neg (Nat.not_lt.2 hshort)]
  dsimp only
  rw [henter, h]
  cases entry with
  | directory => rfl
  | file bytes => simp [hends]

/-! ## Writing a file -/

/-- The file that was written is found. -/
theorem entryAt?_put_self (files : Files) (location : Location) (bytes : List UInt8) :
    (files.put location bytes).entryAt? location = some (.file bytes) := by
  rw [entryAt?, put, List.lookup_cons_self]

/-- What is found elsewhere does not change. -/
theorem Writable.entryAt?_put (h : files.Writable location) (bytes : List UInt8)
    (hne : l ≠ location) : (files.put location bytes).entryAt? l = files.entryAt? l := by
  have hlookup : (files.put location bytes).entries.lookup l = files.entries.lookup l := by
    rw [put, List.lookup_cons, beq_eq_false_iff_ne.2 hne]
  cases hentry : files.entries.lookup l with
  | some entry =>
      rw [entryAt?_of_lookup_eq_some hentry]
      exact entryAt?_of_lookup_eq_some (hlookup.trans hentry)
  | none =>
      -- Something that is not listed and is there is a directory, before and after.
      by_cases hprefix : l <+: location
      · have hthere := h.above l hprefix hne
        rw [entryAt?_of_lookup_eq_none hentry] at hthere ⊢
        rw [entryAt?_of_lookup_eq_none (hlookup.trans hentry), put, List.any_cons,
          List.isPrefixOf_iff_prefix.2 hprefix]
        simpa using hthere
      · have hfalse : l.isPrefixOf location = false :=
          Bool.eq_false_iff.2 fun htrue => hprefix (List.isPrefixOf_iff_prefix.1 htrue)
        rw [entryAt?_of_lookup_eq_none hentry, entryAt?_of_lookup_eq_none (hlookup.trans hentry),
          put, List.any_cons, hfalse, Bool.false_or]

/-- Components that lead to a place for a file lead to the file that is written there. -/
theorem follow_put {start : Location} {components : List String}
    (hwritable : files.Writable location)
    (h : (files.follow start components).file? = some (location, before)) :
    ((files.put location bytes).follow start components).file? = some (location, some bytes) := by
  induction components generalizing start with
  | nil => cases h
  | cons component rest ih =>
      rw [follow] at h ⊢
      split at h
      · cases h
      rename_i hshort
      rw [if_neg hshort]
      dsimp only at h ⊢
      split at h
      · cases h
        rw [entryAt?_put_self]
        rfl
      · cases h
      · cases h
        rw [entryAt?_put_self]
        rfl
      · cases h
      · rename_i hdirectory
        -- Where a file can be written there is no directory, so the way there has not changed.
        have hne : start.enter component ≠ location := by
          rintro rfl
          exact hwritable.notDirectory hdirectory
        rw [hwritable.entryAt?_put bytes hne, hdirectory]
        exact ih h

/-- What is written to a path is read from it. -/
theorem read_put (h : files.place (plainPath path) = .ok (location, before))
    (bytes : List UInt8) : (files.put location bytes).read (plainPath path) = .ok bytes := by
  have hwritable := (place_writable h).1
  rcases locate_file?.1 (place_eq_ok.1 h) with ⟨hne, hshort, -, hfollow⟩
  have hcomponents : pathComponents (plainPath path) ≠ [] := by
    intro hnil
    rw [hnil] at hfollow
    cases hfollow
  refine read_eq_ok.2 ⟨location, locate_file?.2 ⟨hne, hshort, Or.inr ?_, ?_⟩⟩
  · exact endsInDirectory_plainPath hcomponents
  · exact follow_put hwritable hfollow

end Files

end StageTree
