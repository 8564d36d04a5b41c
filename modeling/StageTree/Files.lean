import StageTree.Number.Decimal
import StageTree.Text.Quoted

/-!
# Files

A snapshot of the files around a run: which paths lead to a file, which to a directory, and
which to nothing.

A path is followed from the current directory, or from the root if it begins with a slash.
Empty components and single dots are stepped over, and the other components are looked up one
after the other, so that the first one that cannot be followed decides what is wrong with the
path. A directory need not be listed: it is there if something is listed under it.

## Main definitions

* `Files`: A snapshot.
* `PathError`: What is wrong with a path.
* `Files.locate`: What a path leads to.
* `Files.read`, `Files.exists?`, `Files.place`: The content of a file, whether a path leads
  somewhere, and where a file would be written.
* `plainPath`: A path without the parts that are stepped over.
-/

namespace StageTree

/-- What is wrong with a path. -/
inductive PathProblem where
  | notFound
  /-- A component before the last one is a file. -/
  | notDirectory
  /-- The path leads to a directory, where a file is needed. -/
  | isDirectory
  /-- A component has too many bytes. -/
  | nameTooLong
  deriving DecidableEq

/-- The number of a problem. -/
def PathProblem.number : PathProblem → Nat
  | .notFound => 2
  | .notDirectory => 20
  | .isDirectory => 21
  | .nameTooLong => 36

/-- The wording of a problem. -/
def PathProblem.text : PathProblem → String
  | .notFound => "No such file or directory"
  | .notDirectory => "Not a directory"
  | .isDirectory => "Is a directory"
  | .nameTooLong => "File name too long"

/-- A path with what is wrong with it. -/
structure PathError where
  problem : PathProblem
  /-- The path, as it was used. -/
  path : String
  deriving DecidableEq

/-- The message of an error. -/
def PathError.message (e : PathError) : String :=
  "[Errno " ++ integerText e.problem.number ++ "] " ++ e.problem.text ++ ": " ++ quote e.path

/-- What a path can lead to. -/
inductive Entry where
  | directory
  | file (bytes : List UInt8)

/-- The components of a path that have been followed, from the current directory or, after a
    first component `/`, from the root. -/
abbrev Location := List String

/-- A snapshot of files: what is found at some locations. -/
structure Files where
  /-- The entries that are listed. -/
  entries : List (Location × Entry)

/-- The greatest number of bytes of a component. -/
def componentLimit : Nat := 255

/-- The number of bytes from which on a path is too long as a whole. -/
def pathLimit : Nat := 4096

/-- The parts of a path between its slashes. -/
def pathParts (path : String) : List String := (path.toList.splitOn '/').map String.ofList

/-- Whether a part of a path is stepped over. -/
def isSteppedOver (part : String) : Bool := part == "" || part == "."

/-- The components of a path that are looked up. -/
def pathComponents (path : String) : List String :=
  (pathParts path).filter fun part => !isSteppedOver part

/-- Where following a path starts. -/
def pathStart (path : String) : Location :=
  if path.toList.head? = some '/' then ["/"] else []

/-- A path without the parts that are stepped over; the current directory has a name of its
    own. -/
def plainPath (path : String) : String :=
  let cs := path.toList
  let root :=
    if cs.head? != some '/' then ""
    else if "//".toList.isPrefixOf cs && !"///".toList.isPrefixOf cs then "//"
    else "/"
  let plain := root ++ "/".intercalate (pathComponents path)
  if plain = "" then "." else plain

/-- The location that following a component from a location leads to. -/
def Location.enter (location : Location) (component : String) : Location :=
  if component = ".." && location.getLast?.any (fun c => c != ".." && c != "/") then
    location.dropLast
  else if component = ".." && location = ["/"] then location
  else location ++ [component]

/-- A location as a path. -/
def Location.path (location : Location) : String :=
  match location with
  | "/" :: rest => "/" ++ "/".intercalate rest
  | rest => "/".intercalate rest

namespace Files

/-- What is found at a location. The current directory, the root and the directories above
    are always there. -/
def entryAt? (files : Files) (location : Location) : Option Entry :=
  match files.entries.lookup location with
  | some entry => some entry
  | none =>
    if location = ["/"] || location.all (· == "..")
        || files.entries.any (fun e => location.isPrefixOf e.1) then
      some .directory
    else none

/-- What a path leads to. -/
inductive Located where
  | present (location : Location) (entry : Entry)
  /-- A place in a directory where nothing is. -/
  | absent (location : Location)
  | refused (problem : PathProblem)

/-- Follow components from a directory. -/
def follow (files : Files) (location : Location) : List String → Located
  | [] => .present location .directory
  | component :: rest =>
    if componentLimit < component.utf8ByteSize then .refused .nameTooLong
    else
      let next := location.enter component
      -- Only the last component may lead to nothing or to a file.
      match files.entryAt? next, rest with
      | none, [] => .absent next
      | none, _ => .refused .notFound
      | some (.file bytes), [] => .present next (.file bytes)
      | some (.file _), _ => .refused .notDirectory
      | some .directory, rest => follow files next rest

/-- Whether the last component of a path is one that is stepped over, so that the path must
    lead to a directory. -/
def endsInDirectory (path : String) : Bool :=
  (pathParts path).getLast?.any isSteppedOver

/-- What a path leads to. A path without any character leads nowhere. -/
def locate (files : Files) (path : String) : Located :=
  if path = "" then .refused .notFound
  else if pathLimit ≤ path.utf8ByteSize then .refused .nameTooLong
  else
    match follow files (pathStart path) (pathComponents path) with
    | .present location (.file bytes) =>
      if endsInDirectory path then .refused .notDirectory
      else .present location (.file bytes)
    | located => located

/-- The bytes of the file that a path leads to. -/
def read (files : Files) (path : String) : Except PathError (List UInt8) :=
  match files.locate path with
  | .present _ (.file bytes) => .ok bytes
  | .present _ .directory => .error ⟨.isDirectory, path⟩
  | .absent _ => .error ⟨.notFound, path⟩
  | .refused problem => .error ⟨problem, path⟩

/-- Whether a path leads to a file or a directory. A name that is too long is an error and not
    just absent. -/
def exists? (files : Files) (path : String) : Except PathError Bool :=
  match files.locate path with
  | .present _ _ => .ok true
  | .refused .nameTooLong => .error ⟨.nameTooLong, path⟩
  | _ => .ok false

/-- Where a file would be written to whose path is given, and the bytes of the file that is
    there now. -/
def place (files : Files) (path : String) : Except PathError (Location × Option (List UInt8)) :=
  match files.locate path with
  | .present location (.file bytes) => .ok (location, some bytes)
  | .present _ .directory => .error ⟨.isDirectory, path⟩
  | .absent location => .ok (location, none)
  | .refused problem => .error ⟨problem, path⟩

end Files

end StageTree
