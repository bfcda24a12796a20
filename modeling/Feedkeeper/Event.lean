import Feedkeeper.Instant
import Feedkeeper.Json.Basic
import Feedkeeper.Route

/-!
# Events and notices

The feed delivers *events*; an event that this device handles becomes a *notice*, its local copy.
Both carry an *action*: the route, the digest of the exchange message behind it, and whatever
other members the agent sent. A `Verdict` says what became of an event when it was routed.
-/

namespace Feedkeeper

/-- What an event is about. -/
structure Action where
  /-- The route as sent, recognized or not. -/
  route : String
  digest : String
  /-- All other members, in ascending order of their keys. -/
  extra : List (String × Json) := []

/-- An item of the feed. -/
structure Event where
  id : String
  occurredAt : Instant
  /-- Acknowledged by this device already. -/
  consumed : Bool
  action : Action

namespace Event

/-- The recognized route that the event is on, if it is. -/
def route? (event : Event) : Option Route :=
  Route.parse? event.action.route

end Event

/-- The local copy of an event, for the application to show and act on. -/
structure Notice where
  id : String
  createdAt : Instant
  route : Route
  read : Bool
  /-- The group that the event concerns. -/
  correlation : Option String
  /-- The sender of the exchange behind the event. -/
  connection : Option String
  action : Action

namespace Notice

/-- The unread notice of an event. -/
def ofEvent (event : Event) (route : Route) (createdAt : Instant) (correlation : Option String)
    (connection : Option String) : Notice :=
  { id := event.id, createdAt, route, read := false, correlation, connection,
    action := event.action }

end Notice

/-- What routing did with an event. -/
inductive Verdict where
  /-- The event was acknowledged before; nothing was done. -/
  | alreadyConsumed
  /-- The group request of the event is gone, or names no group. -/
  | groupGone
  /-- There is no local record of the group. -/
  | unknownGroup (group : String)
  /-- The event was handled on this device before. -/
  | duplicate
  /-- The role authorization of the group was joined. -/
  | joined (group : String)
  | noticed (notice : Notice)
  /-- The route is none that this device handles. -/
  | ignored

end Feedkeeper
