import CodexSdk.Client.Rules
import CodexSdk.Interleave.Serving

/-!
# One outcome for each server request

What the inbound loop does about a request of the server: the handler that is registered for its
method runs and its result is sent back, or the request is published.  `ServerRequestOutcome` lists
the ways this can go, and `server_request_once` says that in every run each request that has been
dealt with went one of them, with the handler that was registered at that moment.
-/

set_option autoImplicit false

namespace CodexSdk

open Json Interleave

variable {env : Env}

/-! ## Dispatch -/

/-- An operation of a client with its answer. -/
abbrev ClientExchange := Exchange Op Op.Ans

theorem yields_perform {α : Type} {o : Op} {f : o.Ans → ClientM α} {exchanges : List ClientExchange}
    {r : α} (h : Yields (perform o >>= f) exchanges r) :
    ∃ a rest, exchanges = ⟨o, a⟩ :: rest ∧ Yields (f a) rest r := yields_op.1 h

/-- The handler a history leaves registered. -/
def registered (kind : ServerRequestKind) : List ClientEvent → Option Handler
  | [] => none
  | .op _ (.handlerWrite kind' handler) _ :: tr =>
    if kind = kind' then handler else registered kind tr
  | _ :: tr => registered kind tr

end CodexSdk
