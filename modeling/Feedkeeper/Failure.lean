/-!
# Failures

What can go wrong, as causes. A `TransportFailure` says that the agent could not be reached, a
`LookupFailure` that a group request is gone or could not be asked for, a `Fault` that a local
store or a group action failed, with the context it was reported in. `RoutingError` is what
routing one event or serving the inbox fails with. Each kind has one function for its wording,
and `RoutingError.isTransient` tells the failures that a later attempt may mend.
-/

namespace Feedkeeper

/-- The agent was unreachable or timed out. -/
structure TransportFailure where
  detail : String
  deriving DecidableEq, Repr

namespace TransportFailure

/-- The wording of a transport failure. -/
def message (failure : TransportFailure) : String :=
  "transport error: " ++ failure.detail

end TransportFailure

/-- Why a group request could not be had. -/
inductive LookupFailure where
  /-- The agent no longer has a request with the digest. -/
  | notFound (digest : String)
  | transport (failure : TransportFailure)
  deriving DecidableEq, Repr

namespace LookupFailure

/-- The wording of a lookup failure. -/
def message : LookupFailure → String
  | notFound digest => "group request not found: " ++ digest
  | transport failure => failure.message

/-- Whether the request itself is gone. -/
def isNotFound : LookupFailure → Bool
  | notFound _ => true
  | transport _ => false

end LookupFailure

/-- A failure of a local store or of a group action: what is reported, and below it the causes,
the root last. -/
structure Fault where
  message : String
  causes : List String := []
  deriving DecidableEq, Repr

namespace Fault

/-- The same failure, reported in a wider context. -/
def inContext (fault : Fault) (context : String) : Fault :=
  ⟨context, fault.message :: fault.causes⟩

/-- All texts, the outermost first. -/
def chain (fault : Fault) : List String :=
  fault.message :: fault.causes

/-- A context is put before the texts that were there. -/
@[simp] theorem chain_inContext (fault : Fault) (context : String) :
    (fault.inContext context).chain = context :: fault.chain :=
  rfl

end Fault

/-- What routing an event or serving the inbox fails with. -/
inductive RoutingError where
  | lookup (failure : LookupFailure)
  | transport (failure : TransportFailure)
  | store (fault : Fault)
  | action (fault : Fault)
  | noSuchNotice (id : String)
  deriving DecidableEq, Repr

namespace RoutingError

/-- A lookup that failed in transport is a transport error like any other. -/
def ofLookup : LookupFailure → RoutingError
  | .notFound digest => .lookup (.notFound digest)
  | .transport failure => .transport failure

/-- The wording of a routing error, which names the failure below it. -/
def message : RoutingError → String
  | lookup failure => "group request lookup failed: " ++ failure.message
  | transport failure => failure.message
  | store fault => "local store error: " ++ fault.message
  | action fault => "domain action failed: " ++ fault.message
  | noSuchNotice id => "notification record not found: " ++ id

/-- Whether the same attempt may succeed later. -/
def isTransient : RoutingError → Bool
  | transport _ | store _ | action _ => true
  | lookup _ | noSuchNotice _ => false

/-- The texts of the errors that this one names as its causes. -/
def sources : RoutingError → List String
  | lookup failure => [failure.message]
  | transport _ | store _ | action _ | noSuchNotice _ => []

end RoutingError

end Feedkeeper
