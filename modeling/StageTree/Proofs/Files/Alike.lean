import StageTree.Proofs.Files

/-!
# Files That Make No Difference

Two snapshots of files may differ in a few files only: a file holds something else, or it is not
there. What this changes for other paths is little. A path that leads elsewhere leads to the same,
unless it goes through one of these files, and then it leads nowhere in both snapshots, since a
file is not gone through and neither is what is not there. The two cases have different problems.
So if a file is there in one snapshot only, this can be seen of a path that goes through it.

Where a path leads does not depend on the files, because there are no links. So it can be said of a
path alone that it leads to some other place.

## Main definitions

* `pathEnd`, `pathPassed`: Where a path leads, and what it passes on the way.
* `Files.AlikeApart`: Two snapshots are alike apart from files at some places.
* `Files.OnlyInOne`: Something is at a place in one of two snapshots only.
* `Files.Located.Blocked`: A path is not followed to its end.

## Theorems

* `Files.follow_alike`, `Files.locate_alike`: A path that leads elsewhere leads to the same, or it
  is blocked.
* `Files.exists?_alike`, `Files.read_alike`, `Files.place_alike`: What is made of this.
* `Files.Writable.alikeApart_put`: Writing a file makes a difference at its place only.
-/

namespace StageTree

/-- The location that a path leads to, whether there is anything or not. -/
def pathEnd (path : String) : Location :=
  (pathComponents path).foldl Location.enter (pathStart path)

/-- The locations that following a path leads through, from the start to the end. -/
def pathPassed (path : String) : List Location :=
  (pathComponents path).scanl Location.enter (pathStart path)

namespace Files

variable {files files' : Files} {apart : List Location} {path : String}

/-- Two snapshots are alike apart from files at some locations: at one of these there may be
    another file, or none. -/
def AlikeApart (apart : List Location) (files files' : Files) : Prop :=
  ∀ l, files.entryAt? l = files'.entryAt? l ∨
    l ∈ apart ∧ files.entryAt? l ≠ some .directory ∧ files'.entryAt? l ≠ some .directory

/-- Something is at a location in one of two snapshots only. -/
def OnlyInOne (files files' : Files) (l : Location) : Prop :=
  ¬ (files.entryAt? l = none ↔ files'.entryAt? l = none)

/-- A path is not followed to its end, since on the way there is nothing, or a file. -/
inductive Located.Blocked : Located → Prop where
  | notFound : Blocked (.refused .notFound)
  | notDirectory : Blocked (.refused .notDirectory)

section Following

variable {start : Location} {component next : String} {rest : List String}

theorem follow_directory (hshort : ¬ componentLimit < component.utf8ByteSize)
    (h : files.entryAt? (start.enter component) = some .directory) :
    files.follow start (component :: rest) = files.follow (start.enter component) rest := by
  rw [follow, if_neg hshort]
  simp only [h]

/-- What is not a directory blocks components that lead further. -/
theorem follow_blocked (hshort : ¬ componentLimit < component.utf8ByteSize)
    (h : files.entryAt? (start.enter component) ≠ some .directory) :
    (files.follow start (component :: next :: rest)).Blocked := by
  rw [follow, if_neg hshort]
  dsimp only
  cases hentry : files.entryAt? (start.enter component) with
  | none => exact .notFound
  | some entry =>
      cases entry with
      | directory => exact absurd hentry h
      | file bytes => exact .notDirectory

/-- Components that lead beyond what is no directory are blocked in the same way, if something is
    there in both snapshots or in none. -/
theorem follow_beyond (h : files.entryAt? (start.enter component) ≠ some .directory)
    (h' : files'.entryAt? (start.enter component) ≠ some .directory)
    (hthere : files.entryAt? (start.enter component) = none ↔
      files'.entryAt? (start.enter component) = none) :
    files.follow start (component :: next :: rest) =
      files'.follow start (component :: next :: rest) := by
  rw [follow, follow]
  dsimp only
  cases hentry : files.entryAt? (start.enter component) with
  | none => rw [hthere.1 hentry]
  | some entry =>
      cases hentry' : files'.entryAt? (start.enter component) with
      | none => cases hentry.symm.trans (hthere.2 hentry')
      | some entry' =>
          cases entry with
          | directory => exact absurd hentry h
          | file bytes =>
              cases entry' with
              | directory => exact absurd hentry' h'
              | file bytes' => rfl

/-- Where a component leads to the same and not to a directory, nothing else is looked at. -/
theorem follow_same (hsame : files.entryAt? (start.enter component) =
      files'.entryAt? (start.enter component))
    (h : files'.entryAt? (start.enter component) ≠ some .directory) :
    files.follow start (component :: rest) = files'.follow start (component :: rest) := by
  rw [follow, follow]
  simp only [hsame]
  cases hentry : files'.entryAt? (start.enter component) with
  | none => cases rest <;> rfl
  | some entry =>
      cases entry with
      | directory => exact absurd hentry h
      | file bytes => cases rest <;> rfl

end Following

/-- Components that lead elsewhere lead to the same in both snapshots, or they are blocked in
    both. -/
theorem follow_alike (h : AlikeApart apart files files') {start : Location}
    {components : List String} (hend : components.foldl Location.enter start ∉ apart) :
    files.follow start components = files'.follow start components ∨
      (files.follow start components).Blocked ∧ (files'.follow start components).Blocked ∧
        ∃ l ∈ components.scanl Location.enter start, OnlyInOne files files' l := by
  -- By induction on the components, along with the location that they are followed from.
  induction components generalizing start with
  | nil => exact Or.inl rfl
  | cons component rest ih =>
      -- A name that is too long is refused before the snapshots are looked at.
      by_cases hlong : componentLimit < component.utf8ByteSize
      · exact Or.inl (by rw [follow, follow, if_pos hlong, if_pos hlong])
      rw [List.scanl_cons]
      rcases h (start.enter component) with hsame | ⟨hnext, hdirectory, hdirectory'⟩
      · -- Only a directory is passed through.
        by_cases hdirectory : files'.entryAt? (start.enter component) = some .directory
        · rw [follow_directory hlong (hsame.trans hdirectory), follow_directory hlong hdirectory]
          rcases ih hend with hsame | ⟨hblocked, hblocked', l, hl, honly⟩
          · exact Or.inl hsame
          · exact Or.inr ⟨hblocked, hblocked', l, List.mem_cons_of_mem _ hl, honly⟩
        · exact Or.inl (follow_same hsame hdirectory)
      · -- The last component leads elsewhere, so this one is not the last.
        cases rest with
        | nil => exact absurd hnext hend
        | cons next rest =>
            by_cases hthere : files.entryAt? (start.enter component) = none ↔
                files'.entryAt? (start.enter component) = none
            · -- Whether something is there is all that matters to the components that follow.
              exact Or.inl (follow_beyond hdirectory hdirectory' hthere)
            refine Or.inr ⟨follow_blocked hlong hdirectory, follow_blocked hlong hdirectory',
              start.enter component, List.mem_cons_of_mem _ ?_, hthere⟩
            rw [List.scanl_cons]
            exact List.mem_cons_self

theorem locate_blocked (hne : path ≠ "") (hshort : ¬ pathLimit ≤ path.utf8ByteSize)
    (h : (files.follow (pathStart path) (pathComponents path)).Blocked) :
    (files.locate path).Blocked := by
  rw [locate, if_neg hne, if_neg hshort]
  generalize files.follow (pathStart path) (pathComponents path) = located at h ⊢
  cases h with
  | notFound => exact .notFound
  | notDirectory => exact .notDirectory

/-- A path that leads elsewhere leads to the same in both snapshots, or it is blocked in both. -/
theorem locate_alike (h : AlikeApart apart files files') (hend : pathEnd path ∉ apart) :
    files.locate path = files'.locate path ∨
      (files.locate path).Blocked ∧ (files'.locate path).Blocked ∧
        ∃ l ∈ pathPassed path, OnlyInOne files files' l := by
  -- An empty path and one that is too long are refused without being followed.
  by_cases hne : path = ""
  · exact Or.inl (by rw [locate, locate, if_pos hne, if_pos hne])
  by_cases hlong : pathLimit ≤ path.utf8ByteSize
  · exact Or.inl (by rw [locate, locate, if_neg hne, if_neg hne, if_pos hlong, if_pos hlong])
  rcases follow_alike h hend with hsame | ⟨hblocked, hblocked', hpassed⟩
  · exact Or.inl (by rw [locate, locate, if_neg hne, if_neg hne, if_neg hlong, if_neg hlong, hsame])
  · exact Or.inr ⟨locate_blocked hne hlong hblocked, locate_blocked hne hlong hblocked', hpassed⟩

/-! ## What is made of a path -/

theorem exists?_of_blocked (h : (files.locate path).Blocked) : files.exists? path = .ok false := by
  rw [exists?]
  generalize files.locate path = located at h ⊢
  cases h <;> rfl

/-- The error of a path that is blocked. -/
theorem place_of_blocked (h : (files.locate path).Blocked) :
    ∃ problem, files.place path = .error ⟨problem, path⟩ := by
  rw [place]
  generalize files.locate path = located at h ⊢
  cases h with
  | notFound => exact ⟨.notFound, rfl⟩
  | notDirectory => exact ⟨.notDirectory, rfl⟩

/-- A path that leads elsewhere leads somewhere in both snapshots or in none. -/
theorem exists?_alike (h : AlikeApart apart files files') (hend : pathEnd path ∉ apart) :
    files.exists? path = files'.exists? path := by
  rcases locate_alike h hend with hsame | ⟨hblocked, hblocked', -⟩
  · rw [exists?, exists?, hsame]
  · rw [exists?_of_blocked hblocked, exists?_of_blocked hblocked']

/-- What is there is read in the same way from both snapshots. -/
theorem read_alike (h : AlikeApart apart files files') (hend : pathEnd path ∉ apart)
    (hthere : files'.exists? path = .ok true) : files.read path = files'.read path := by
  -- What is blocked is not there, so the two lead to the same.
  rcases locate_alike h hend with hsame | ⟨-, hblocked', -⟩
  · rw [read, read, hsame]
  · rw [exists?_of_blocked hblocked'] at hthere
    cases hthere

/-- A file is written to the same place in both snapshots, or to none. -/
theorem place_alike (h : AlikeApart apart files files') (hend : pathEnd path ∉ apart) :
    files.place path = files'.place path ∨
      (∃ e e', files.place path = .error e ∧ files'.place path = .error e') ∧
        ∃ l ∈ pathPassed path, OnlyInOne files files' l := by
  rcases locate_alike h hend with hsame | ⟨hblocked, hblocked', hpassed⟩
  · exact Or.inl (by rw [place, place, hsame])
  · rcases place_of_blocked hblocked with ⟨problem, hplace⟩
    rcases place_of_blocked hblocked' with ⟨problem', hplace'⟩
    exact Or.inr ⟨⟨_, _, hplace, hplace'⟩, hpassed⟩

/-- Writing a file makes a difference at its place only. -/
theorem Writable.alikeApart_put {location : Location} (h : files.Writable location)
    (bytes : List UInt8) : AlikeApart [location] files (files.put location bytes) := by
  intro l
  by_cases hl : l = location
  · refine Or.inr ⟨hl ▸ List.mem_singleton_self l, hl ▸ h.notDirectory, ?_⟩
    rw [hl, entryAt?_put_self]
    nofun
  · exact Or.inl (h.entryAt?_put bytes hl).symm

end Files

end StageTree
