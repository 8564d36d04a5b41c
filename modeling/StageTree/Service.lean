import StageTree.Json.Reader
import StageTree.Number.Shortest
import StageTree.Settings.Basic
import StageTree.Text.Blank
import StageTree.Trace

/-!
# The Parser Service

Running a stage on source code means to post one request and to make a document of the
answer. What happens on the way to the service and back is not up to this library, so it is
an argument: an exchange says how posting the request ends, and how reading the answer does.

## Main definitions

* `TransportFault`: What can go wrong on the way.
* `Exchange`: How an exchange with the service goes.
* `Settings.request`: The request that is posted.
* `Service.document`: The document that the bytes of an answer hold.
* `Service.fetch`: The document that a service answers with.
-/

namespace StageTree

/-- What can go wrong on the way to the service and back. -/
inductive TransportFault where
  | connection (text : String)
  | timeout
  | system (text : String)
  deriving DecidableEq

/-- How an exchange with the service goes. -/
inductive Exchange where
  | failed (fault : TransportFault)
  /-- The service answers with a status, and with a body unless reading it fails. -/
  | answered (status : Int) (body : Except TransportFault (List UInt8))

/-- The request that runs a stage on source code. -/
def Settings.request (s : Settings) (stage : Stage) (code : String) : Request :=
  ⟨s.url, stage, code, s.timeout⟩

namespace Service

/-- The status of an answer that has a document. -/
def okStatus : Int := 200

/-- The trouble of a fault on the way, with what is logged. -/
def broken {α : Type} (s : Settings) : TransportFault → Traced α
  | .connection text => do
    Traced.log .warning .client ("Cannot reach parser service at " ++ s.url ++ ": " ++ text)
    Traced.fail (.failure
      (.service ("Cannot reach parser service at " ++ s.url) none (some text)))
  | .timeout => do
    Traced.log .warning .client
      ("Parser service at " ++ s.url ++ " timed out after " ++ s.timeout.text ++ "s")
    Traced.fail (.failure (.service
      ("Parser service at " ++ s.url ++ " timed out after " ++ s.timeout.text ++ " seconds")
      none none))
  | .system text => Traced.fail (.system text)

/-- The document that the bytes of an answer hold. Blanks around it are overlooked, and an
    answer without anything else holds the null value. -/
def document (bytes : List UInt8) : Except Trouble Json :=
  match trimBlankBytes bytes with
  | [] => .ok .null
  | content => do
    let cs ← readText content
    readDocument cs

/-- Whether a trouble means that an answer holds no document. -/
def isUnreadable : Trouble → Bool
  | .notText _ | .malformed _ _ _ _ => true
  | _ => false

/-- The result of an answer that came with a good status. -/
def accepted (bytes : List UInt8) : Traced Json :=
  match document bytes with
  | .ok j => pure j
  | .error trouble =>
    if isUnreadable trouble then do
      let details := trouble.message.getD ""
      Traced.log .warning .client ("Unable to parse service response: " ++ details)
      Traced.fail (.failure
        (.service "Parser service response is not valid JSON" (some okStatus) (some details)))
    else Traced.fail trouble

/-- The result of an answer that came with another status. -/
def declined (status : Int) (bytes : List UInt8) : Traced Json := do
  let cs ← Traced.ofExcept (readText bytes)
  let body := String.ofList cs
  Traced.log .warning .client
    ("Parser service error " ++ integerText status ++ ": " ++ body)
  Traced.fail (.failure
    (.service ("Parser service returned HTTP " ++ integerText status) (some status)
      (some body)))

/-- The log line about a request. -/
def requestLine (r : Request) : Text :=
  "POST " ++ r.url ++ " mode=" ++ r.stage.name ++ " (" ++ integerText r.code.length ++ " chars)"

/-- The document that the service answers with when it is asked to run a stage on source
    code. -/
def fetch (s : Settings) (stage : Stage) (code : String) (exchange : Exchange) :
    Traced Json := do
  let request := s.request stage code
  -- The request counts as posted even if posting it fails.
  Traced.log .debug .client (requestLine request)
  Traced.event (.post request)
  match exchange with
  | .failed fault => broken s fault
  | .answered _ (.error fault) => broken s fault
  | .answered status (.ok bytes) =>
    if status = okStatus then accepted bytes else declined status bytes

end Service

end StageTree
