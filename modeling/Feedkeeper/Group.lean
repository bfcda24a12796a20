import Feedkeeper.Json.Basic

/-!
# Groups

A *group request* is a pending request of several parties, which an event refers to by its digest.
It may carry a reply; a reply on the route `grantRoute` grants a role to an endpoint. An
*identifier* is the local record of an identifier or of a group.
-/

namespace Feedkeeper

namespace Group

/-- The route of a reply that grants a role to an endpoint. -/
def grantRoute : String := "/end/role/add"

/-- The reply in a group request. -/
structure Reply where
  route : String
  endpoint : String
  deriving DecidableEq, Repr

/-- A pending request of several parties. -/
structure Request where
  group : Option String
  reply : Option Reply
  /-- The exchange message of the request, handed on as it is. -/
  exchange : Json

/-- The endpoint that the request grants a role to, if it does. -/
def Request.grantedEndpoint? (request : Request) : Option String :=
  match request.reply with
  | some reply => if reply.route = grantRoute then some reply.endpoint else none
  | none => none

end Group

/-- The local record of an identifier or a group. -/
structure Identifier where
  id : String
  name : String
  /-- An operation on the identifier is still to be finished. -/
  pending : Bool
  authorized : List String
  deriving DecidableEq, Repr

namespace Identifier

/-- Whether the endpoint holds the role already. -/
def authorizes (identifier : Identifier) (endpoint : String) : Bool :=
  identifier.authorized.contains endpoint

end Identifier

end Feedkeeper
