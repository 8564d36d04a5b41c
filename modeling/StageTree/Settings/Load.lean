import StageTree.Json.Literal
import StageTree.Settings.Basic
import StageTree.Text.Newline
import StageTree.Trouble

/-!
# Loading Settings

A configuration is a JSON file with an object in which a member `parser` holds the settings.
What is missing has its default, and what is there must be usable. The parts are checked one
after the other, the section, the host, the path and the time, and the first one that cannot
be used is reported.

## Main definitions

* `Settings.section?`: The section of a configuration that holds the settings.
* `Settings.ofDocument`: The settings that a document holds.
* `Settings.load`: The settings that a file holds.
-/

namespace StageTree

namespace Settings

/-- The failure of a configuration that is not usable. -/
def unusable (report : Report) : Trouble := .failure (.configuration report)

/-- The section of a document that holds the settings. -/
def section? : Json → Option (List (Text × Json))
  | .obj members =>
    match members.lookup (.plain "parser") with
    | none => some []
    | some (.obj settings) => some settings
    | some _ => none
  | _ => none

/-- The text of a member, or its default. -/
def hostOf (path : String) (members : List (Text × Json)) : Except Trouble Text :=
  match members.lookup (.plain "host") with
  | none => .ok default.host
  | some given =>
    let refuse : Except Trouble Text := .error (unusable
      { message := "Invalid parser host in " ++ path
        received := some given.literal
        expected := some "a non-empty \"host:port\" string" })
    match given with
    | .str host => if host = "" then refuse else .ok host
    | _ => refuse

/-- The path on the host, or its default. -/
def endpointOf (path : String) (members : List (Text × Json)) : Except Trouble Text :=
  match members.lookup (.plain "endPoint") with
  | none => .ok default.endpoint
  | some (.str endpoint) => .ok endpoint
  | some given => .error (unusable
      { message := "Invalid parser endPoint in " ++ path
        received := some given.literal
        expected := some "a URL path string" })

/-- The time for an answer, or its default. A number that is not one is let through, since it
    is not zero or less. -/
def timeoutOf (path : String) (members : List (Text × Json)) : Except Trouble Binary64 :=
  match members.lookup (.plain "timeout") with
  | none => .ok default.timeout
  | some given =>
    let refuse : Except Trouble Binary64 := .error (unusable
      { message := "Invalid parser timeout in " ++ path
        received := some given.literal
        expected := some "a positive number of seconds" })
    match given with
    | .int n =>
      -- The sign is looked at first, so a huge negative number is refused and does not overflow.
      if n ≤ 0 then refuse
      else
        let seconds := Binary64.ofInt n
        if seconds.isInfinite then .error .hugeInteger else .ok seconds
    | .float seconds => if seconds.isNonpositive then refuse else .ok seconds
    | _ => refuse

/-- The settings that a document holds. -/
def ofDocument (path : String) (j : Json) : Except Trouble Settings :=
  match section? j with
  | none => .error (unusable
      { message := "Configuration file has no valid 'parser' section: " ++ path
        expected := some "\x7b\"parser\": \x7b\"host\": ..., \"endPoint\": ...\x7d\x7d" })
  | some members => do
    let host ← hostOf path members
    let endpoint ← endpointOf path members
    let timeout ← timeoutOf path members
    pure ⟨host, endpoint, timeout⟩

/-- The document that a configuration file holds. -/
def readConfiguration (path : String) (bytes : List UInt8) : Except Trouble Json := do
  let cs ← readText bytes
  match readDocument (unifyNewlines cs) with
  | .error (.malformed complaint line column position) =>
    .error (unusable
      { message := "Configuration file is not valid JSON: " ++ path
        context := some (Json.malformedMessage complaint line column position) })
  | result => result

/-- The settings that a file holds. -/
def load (files : Files) (path : String) : Except Trouble Settings :=
  if path.toList.contains '\x00' then .error .nullInPath
  else
    match files.read path with
    | .error e => .error (unusable
        { message := "Cannot read configuration file: " ++ path
          context := some e.message })
    | .ok bytes => do
      let j ← readConfiguration path bytes
      ofDocument path j

end Settings

end StageTree
