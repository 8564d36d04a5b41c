import StageTree.Proofs.Service

/-!
# The Status in a Failure

A failure of the service carries a status, so that one can tell a service that declined a request
from one that was never reached. An answer has its status before it has its body, so the status is
known as soon as there is an answer.

Not every failure after that carries it. While the body is received the transport can break down
just as it can while the request is sent, and both are reported in the same words, without a status.
`Reports` lists what is reported with which status: the status is there exactly if the body came as
a whole, and if it broke off the failure looks as if there had been no answer.

## Main definitions

* `Exchange.status?`: The status of an answer, whatever became of its body.
* `Exchange.BreaksOff`: There is an answer, and its body does not come as a whole.
* `Service.Reports`: An exchange is reported as a failure with a status, or with none.

## Theorems

* `Service.fetch_reports_iff`: What is reported, and with which status.
* `Service.status_unless_broken_off`: The status is that of the answer, unless the answer breaks
  off.
-/

namespace StageTree

/-- The status of the answer, if there is one. -/
def Exchange.status? : Exchange → Option Int
  | .failed _ => none
  | .answered status _ => some status

/-- There is an answer, and the transport breaks down while its body is received. -/
def Exchange.BreaksOff (exchange : Exchange) : Prop :=
  ∃ status fault, exchange = .answered status (.error fault)

/-- A fault is one of the transport, and not of the system around it. -/
def TransportFault.IsOwn (fault : TransportFault) : Prop := ∀ text, fault ≠ .system text

namespace Service

variable {s : Settings} {stage : Stage} {code : String} {exchange : Exchange}
variable {status : Option Int}

/-- Something ends in a failure of the service that carries a status or none. -/
def FailsWith (x : Traced Json) (status : Option Int) : Prop :=
  ∃ message details, x.result = .error (.failure (.service message status details))

/-- An exchange is reported as a failure of the service, which carries a status or none. -/
inductive Reports : Exchange → Option Int → Prop where
  /-- The request is not sent. -/
  | notSent {fault : TransportFault} (h : fault.IsOwn) : Reports (.failed fault) none
  /-- The body breaks off. -/
  | notReceived {status : Int} {fault : TransportFault} (h : fault.IsOwn) :
    Reports (.answered status (.error fault)) none
  /-- The service declines and says why. -/
  | declined {status : Int} {bytes : List UInt8} {text : String} (hstatus : status ≠ okStatus)
    (hbytes : bytes = Utf8.encode text) : Reports (.answered status (.ok bytes)) (some status)
  /-- The body is no document. -/
  | unreadable {bytes : List UInt8} {trouble : Trouble} (h : document bytes = .error trouble)
    (hunreadable : isUnreadable trouble = true) :
    Reports (.answered okStatus (.ok bytes)) (some okStatus)

/-- A fault of the transport is reported without a status. -/
theorem failsWith_broken (s : Settings) (fault : TransportFault) :
    FailsWith (broken s fault) status ↔ fault.IsOwn ∧ status = none := by
  -- A fault of the system is passed on, and the others are reported.
  cases fault with
  | connection text | timeout =>
      constructor
      · rintro ⟨message, details, h⟩
        cases h
        exact ⟨nofun, rfl⟩
      · rintro ⟨_, rfl⟩
        exact ⟨_, _, rfl⟩
  | system text =>
      constructor
      · rintro ⟨message, details, h⟩
        cases h
      · rintro ⟨hown, _⟩
        exact absurd rfl (hown text)

/-- A body that is no document is reported with the good status. -/
theorem failsWith_accepted (bytes : List UInt8) : FailsWith (accepted bytes) status ↔
    (∃ trouble, document bytes = .error trouble ∧ isUnreadable trouble = true) ∧
      status = some okStatus := by
  -- The document decides between a result, a report, and what is passed on.
  unfold FailsWith accepted
  cases hdocument : document bytes with
  | ok j =>
      constructor
      · rintro ⟨message, details, h⟩
        cases h
      · rintro ⟨⟨trouble, h, _⟩, _⟩
        cases h
  | error trouble =>
      dsimp only
      split
      · rename_i hunreadable
        constructor
        · rintro ⟨message, details, h⟩
          cases h
          exact ⟨⟨trouble, rfl, hunreadable⟩, rfl⟩
        · rintro ⟨_, rfl⟩
          exact ⟨_, _, rfl⟩
      · rename_i hreadable
        constructor
        · -- What is not reported here is a document past a limit, and no failure of the service.
          rintro ⟨message, details, h⟩
          have hlimit := (document_error hdocument).resolve_left hreadable
          cases h
          rcases hlimit with ⟨_, _, ⟨⟨_, h⟩, _⟩ | ⟨h, _⟩⟩ <;> cases h
        · rintro ⟨⟨other, h, hunreadable⟩, _⟩
          cases h
          exact absurd hunreadable hreadable

/-- A declined answer is reported with its status, if its body is a text. -/
theorem failsWith_declined (n : Int) (bytes : List UInt8) : FailsWith (declined n bytes) status ↔
    (∃ text, bytes = Utf8.encode text) ∧ status = some n := by
  unfold FailsWith declined
  -- The body has to be a text to be part of the report.
  cases htext : readText bytes with
  | ok cs =>
      constructor
      · rintro ⟨message, details, h⟩
        cases h
        exact ⟨⟨_, readText_eq_ok.1 htext⟩, rfl⟩
      · rintro ⟨_, rfl⟩
        exact ⟨_, _, rfl⟩
  | error trouble =>
      rcases readText_eq_error htext with ⟨⟨refusal, rfl⟩, hbytes⟩
      constructor
      · rintro ⟨message, details, h⟩
        cases h
      · rintro ⟨⟨text, h⟩, _⟩
        exact absurd h (hbytes text)

/-- What is reported, and with which status. -/
theorem fetch_reports_iff : FailsWith (fetch s stage code exchange) status ↔
    Reports exchange status := by
  cases exchange with
  | failed fault =>
      -- Each kind of exchange is compared with the one report that it can be in.
      refine (failsWith_broken s fault).trans ⟨?_, ?_⟩
      · rintro ⟨hown, rfl⟩
        exact .notSent hown
      · intro h
        cases h with
        | notSent hown => exact ⟨hown, rfl⟩
  | answered n body =>
      cases body with
      | error fault =>
          refine (failsWith_broken s fault).trans ⟨?_, ?_⟩
          · rintro ⟨hown, rfl⟩
            exact .notReceived hown
          · intro h
            cases h with
            | notReceived hown => exact ⟨hown, rfl⟩
      | ok bytes =>
          by_cases hstatus : n = okStatus
          · subst hstatus
            refine (failsWith_accepted bytes).trans ⟨?_, ?_⟩
            · rintro ⟨⟨trouble, hdocument, hunreadable⟩, rfl⟩
              exact .unreadable hdocument hunreadable
            · intro h
              cases h with
              -- With the good status an answer is not declined.
              | declined hne _ => exact absurd rfl hne
              | unreadable hdocument hunreadable => exact ⟨⟨_, hdocument, hunreadable⟩, rfl⟩
          · rw [FailsWith, result_fetch_declined hstatus]
            refine (failsWith_declined n bytes).trans ⟨?_, ?_⟩
            · rintro ⟨⟨text, hbytes⟩, rfl⟩
              exact .declined hstatus hbytes
            · intro h
              cases h with
              | declined _ hbytes => exact ⟨⟨_, hbytes⟩, rfl⟩
              | unreadable _ _ => exact absurd rfl hstatus

/-- The status is that of the answer, unless it was lost with the body. -/
theorem Reports.status_eq (h : Reports exchange status) :
    (¬exchange.BreaksOff → status = exchange.status?) ∧ (exchange.BreaksOff → status = none) := by
  cases h with
  | notSent _ => exact ⟨fun _ => rfl, fun _ => rfl⟩
  | notReceived _ => exact ⟨fun hwhole => absurd ⟨_, _, rfl⟩ hwhole, fun _ => rfl⟩
  | declined _ _ | unreadable _ _ =>
      refine ⟨fun _ => rfl, ?_⟩
      rintro ⟨_, _, hbroken⟩
      cases hbroken

/-- The failures of the service, each with the exchanges that it comes from and with the status that
    it carries. The status is that of the answer, and none if there is no answer, unless the answer
    breaks off while its body is received: then it is lost. -/
theorem status_unless_broken_off (s : Settings) (stage : Stage) (code : String)
    (exchange : Exchange) (status : Option Int) :
    (FailsWith (fetch s stage code exchange) status ↔ Reports exchange status) ∧
    (FailsWith (fetch s stage code exchange) status →
      (¬exchange.BreaksOff → status = exchange.status?) ∧
        (exchange.BreaksOff → status = none)) :=
  ⟨fetch_reports_iff, fun h => (fetch_reports_iff.1 h).status_eq⟩

/-- A service that declines with nothing to say. -/
theorem declined_answer_has_status :
    FailsWith (fetch .default .reader "1" (.answered 404 (.ok []))) (some 404) ∧
      some 404 = (Exchange.answered 404 (.ok [])).status? := by
  have hreports : Reports (.answered 404 (.ok [])) (some 404) :=
    .declined (by decide) (Utf8.encode_ofList []).symm
  have hfails : FailsWith (fetch .default .reader "1" (.answered 404 (.ok []))) (some 404) :=
    (status_unless_broken_off _ _ _ _ _).1.2 hreports
  refine ⟨hfails, ((status_unless_broken_off _ _ _ _ _).2 hfails).1 ?_⟩
  rintro ⟨_, _, hbroken⟩
  cases hbroken

/-- An answer with the good status, whose body is cut short, is reported without its status. -/
theorem cut_answer_has_no_status :
    (fetch .default .reader "1" (.answered 200 (.error (.connection "cut short")))).result =
      .error (.failure (.service "Cannot reach parser service at http://localhost:8000/parse" none
        (some "cut short"))) ∧
    (Exchange.answered 200 (.error (.connection "cut short"))).status? = some 200 :=
  ⟨rfl, rfl⟩

end Service

end StageTree
