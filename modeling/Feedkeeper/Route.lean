/-!
# Routes

The application routes that this device turns into notices. A route is written as its wire text;
`parse?_wire` and `wire_of_parse?` say that the seven wire texts, and no others, are recognized.
-/

namespace Feedkeeper

/-- A recognized route. -/
inductive Route where
  | credentialGrant
  | credentialApply
  | credentialAgree
  | groupInception
  | groupRotation
  | groupReply
  | groupExchange
  deriving DecidableEq, Repr

namespace Route

/-- All routes. -/
def all : List Route :=
  [credentialGrant, credentialApply, credentialAgree, groupInception, groupRotation, groupReply,
    groupExchange]

/-- The text of the route in an event. -/
def wire : Route → String
  | credentialGrant => "/exn/ipex/grant"
  | credentialApply => "/exn/ipex/apply"
  | credentialAgree => "/exn/ipex/agree"
  | groupInception => "/multisig/icp"
  | groupRotation => "/multisig/rot"
  | groupReply => "/multisig/rpy"
  | groupExchange => "/multisig/exn"

/-- The route with the wire text, if this device handles it. -/
def parse? (text : String) : Option Route :=
  all.find? fun route => route.wire == text

/-- Routes whose event refers to a group request. -/
def isGroup : Route → Bool
  | groupInception | groupRotation | groupReply | groupExchange => true
  | credentialGrant | credentialApply | credentialAgree => false

/-- No route is missing from the list. -/
theorem mem_all (route : Route) : route ∈ all := by
  cases route <;> decide

/-- The wire text of a route is read as the route. -/
@[simp] theorem parse?_wire (route : Route) : parse? route.wire = some route := by
  cases route <;> decide

/-- A text that is read as a route is its wire text. -/
theorem wire_of_parse? {text : String} {route : Route} (h : parse? text = some route) :
    route.wire = text := by
  simpa using List.find?_some h

end Route

end Feedkeeper
