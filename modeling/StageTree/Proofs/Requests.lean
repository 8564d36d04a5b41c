import StageTree.Session

/-!
# Which Requests Are Posted

Only asking the service posts a request, and it posts one, whatever becomes of it. Everything else
that an operation does besides giving a result is to write to the log.

The requests of two operations in a row are those of the first one and, if there is a result to go
on with, those of the second one. So an operation that is put together of others which post nothing
posts nothing, and this is all that has to be known of reading and showing.

## Theorems

* `Traced.requests_bind`: The requests of two operations in a row.
* `Session.requests_showResponse`, `Session.requests_showTerm`: Showing posts nothing.
* `Service.requests_fetch`, `Session.requests_buildTree`: Asking the service posts its request.
-/

namespace StageTree

namespace Traced

variable {α β : Type}

/-- The requests of two operations in a row. -/
theorem requests_bind (x : Traced α) (f : α → Traced β) :
    (x >>= f).requests = x.requests ++ match x.result with
      | .ok a => (f a).requests
      | .error _ => [] := by
  -- The requests are picked out of the events, so they are appended as these are.
  rcases x with ⟨events, result⟩
  cases result with
  | ok a => exact List.filterMap_append
  | error t => exact (List.append_nil _).symm

/-- Operations that post nothing post nothing in a row. -/
theorem requests_bind_eq_nil {x : Traced α} {f : α → Traced β} (hx : x.requests = [])
    (hf : ∀ a, (f a).requests = []) : (x >>= f).requests = [] := by
  rw [requests_bind, hx]
  cases x.result with
  | ok a => exact hf a
  | error t => rfl

end Traced

namespace Stage

/-- Reading a response posts nothing. -/
theorem requests_readResponse (stage : Stage) (j : Json) :
    (stage.readResponse j).requests = [] := by
  unfold readResponse
  cases readNodes stage j with
  | nodes ns => rfl
  | defective d =>
      -- Whether a line is logged makes no difference here.
      dsimp only
      split <;> rfl
  | tooDeep => rfl
  | outOfRoom => rfl

end Stage

namespace Session

variable (stage : Stage)

theorem requests_showNode (node : stage.Node) : (showNode stage node).requests = [] := by
  unfold showNode
  split <;> rfl

theorem requests_showTerm (t : Term) : (showTerm stage t).requests = [] := by
  unfold showTerm
  split <;> rfl

/-- Showing the last of some terms posts nothing. -/
theorem requests_showLast (ts : List Term) : (showLast stage ts).requests = [] := by
  unfold showLast
  split
  · rfl
  · exact Traced.requests_bind_eq_nil (requests_showTerm stage _) fun _ => rfl

theorem requests_showResponse (j : Json) : (showResponse stage j).requests = [] := by
  refine Traced.requests_bind_eq_nil (stage.requests_readResponse j) fun nodes => ?_
  refine Traced.requests_bind_eq_nil rfl fun _ => ?_
  split
  · rfl
  · exact Traced.requests_bind_eq_nil (requests_showNode stage _) fun _ => rfl

end Session

namespace Service

/-- A broken exchange posts nothing more. -/
theorem requests_broken {α : Type} (s : Settings) (fault : TransportFault) :
    (broken s fault : Traced α).requests = [] := by
  cases fault <;> rfl

/-- An answer that is accepted is not asked for again. -/
theorem requests_accepted (bytes : List UInt8) : (accepted bytes).requests = [] := by
  unfold accepted
  split
  · rfl
  · split <;> rfl

/-- An answer that is declined is not asked for again. -/
theorem requests_declined (status : Int) (bytes : List UInt8) :
    (declined status bytes).requests = [] :=
  Traced.requests_bind_eq_nil rfl fun _ => rfl

/-- Asking the service posts its request, whatever the exchange comes to. -/
theorem requests_fetch (s : Settings) (stage : Stage) (code : String) (exchange : Exchange) :
    (fetch s stage code exchange).requests = [s.request stage code] := by
  refine (Traced.requests_bind _ _).trans (congrArg (s.request stage code :: ·) ?_)
  cases exchange with
  | failed fault => exact requests_broken s fault
  | answered status body =>
      cases body with
      | error fault => exact requests_broken s fault
      | ok bytes =>
          dsimp only
          split
          · exact requests_accepted bytes
          · exact requests_declined status bytes

end Service

/-- The request for source code is the only one that is posted when its tree is made. -/
theorem Session.requests_buildTree (s : Settings) (stage : Stage) (code : String)
    (exchange : Exchange) :
    (buildTree s stage code exchange).requests = [s.request stage code] := by
  rw [buildTree, Traced.requests_bind, Service.requests_fetch]
  cases (Service.fetch s stage code exchange).result with
  | ok j => exact congrArg (s.request stage code :: ·) (requests_showResponse stage j)
  | error t => rfl

end StageTree
