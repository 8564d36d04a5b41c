import StageTree.Number.Decimal
import StageTree.Text.Basic

/-!
# Settings

Where the parser service is, and how long it has for an answer.

## Main definitions

* `Settings`: The settings, with defaults for a service on this machine.
* `Settings.url`: Where requests are posted to.
-/

namespace StageTree

/-- Thirty seconds. -/
def usualTimeout : Binary64 := .ofInt 30

/-- How the parser service is reached. -/
structure Settings where
  /-- The host, with its port. -/
  host : Text := "localhost:8000"
  /-- The path on the host. -/
  endpoint : Text := "parse"
  /-- How many seconds the service has for an answer. -/
  timeout : Binary64 := usualTimeout

namespace Settings

/-- The settings when nothing else is said. -/
def default : Settings := {}

/-- Where requests are posted to. The slashes that a path begins with are dropped, since one
    stands there already. -/
def url (s : Settings) : Text :=
  "http://" ++ s.host ++ "/" ++ .ofPoints (s.endpoint.points.dropWhile (· == '/'))

end Settings

end StageTree
