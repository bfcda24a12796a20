import Feedkeeper.Script

/-!
# Routing

What is done with one event of the feed, and then its acknowledgement. The first rule that fits
decides:

* an event on an unrecognized route is acknowledged and dropped;
* a group reply that grants a role for a known group is acknowledged and its authorization joined;
* a group inception is dropped once the group is known, or a notice about it is stored;
* every other recognized event becomes a notice, unless there is one with its id.

Replies and inceptions go through their rules also when the event is consumed: a reply is
acknowledged before the join, so that a crash in between leaves a consumed event whose join is still
to be made. A consumed event is never acknowledged again. A notice is saved before its event is
acknowledged, and an error leaves the event unacknowledged, except after a failed join.
-/

namespace Feedkeeper

namespace Routing

open Script (ask)

/-- Acknowledges the event, unless it is consumed. -/
def acknowledge (event : Event) : Attempt Unit :=
  if event.consumed then pure ()
  else .transport (ask (.acknowledge event.id))

/-- The group request behind the event with the group that it names; nothing if the request is gone
or names none. -/
def lookup (event : Event) : Attempt (Option (Group.Request × String)) :=
  ExceptT.mk do
    match ← ask (.groupRequest event.action.digest) with
    | .ok request => return .ok (request.group.map (request, ·))
    | .error (.notFound _) => return .ok none
    | .error (.transport failure) => return .error (.transport failure)

/-- The group that the event's request names, if it can be found out. -/
def correlation (event : Event) : Attempt (Option String) :=
  ExceptT.lift do
    match ← ask (.groupRequest event.action.digest) with
    | .ok request => return request.group
    | .error _ => return none

/-- The sender of the exchange behind the event, if it can be found out. -/
def connection (event : Event) : Attempt (Option String) :=
  ExceptT.lift do return (← ask (.sender event.action.digest)).toOption

/-- The generic rule: a notice is saved and announced, and the event acknowledged. -/
def notice (event : Event) (route : Route) (group : Option String) : Attempt Verdict :=
  if event.consumed then pure .alreadyConsumed
  else do
    match ← Attempt.store (ask (.findNotice event.id)) with
    | some _ => do
      acknowledge event
      return .duplicate
    | none => do
      let createdAt ← ExceptT.lift (ask .now)
      let notice := Notice.ofEvent event route createdAt group (← connection event)
      Attempt.store (ask (.saveNotice notice))
      ExceptT.lift (ask (.announceNotice notice))
      acknowledge event
      return .noticed notice

/-- The rule for group replies. The event is acknowledged before the join, so that a crash may
repeat the join and cannot skip it. -/
def reply (event : Event) : Attempt Verdict := do
  match ← lookup event with
  | none => do
    acknowledge event
    return .groupGone
  | some (request, group) => do
    match ← Attempt.store (ask (.findIdentifier group)) with
    | none => do
      acknowledge event
      return .unknownGroup group
    | some identifier =>
      match request.grantedEndpoint? with
      | none => notice event .groupReply (some group)
      | some endpoint =>
        if identifier.authorizes endpoint then do
          acknowledge event
          return .duplicate
        else do
          acknowledge event
          Attempt.action (ask (.joinAuthorization request))
          return .joined group

/-- The rule for group inceptions. -/
def inception (event : Event) : Attempt Verdict := do
  match ← lookup event with
  | none => do
    acknowledge event
    return .groupGone
  | some (_, group) => do
    let known ← Attempt.store (ask (.findIdentifier group))
    let correlated ← Attempt.store (ask (.noticesAbout group))
    if known.isSome || !correlated.isEmpty then do
      acknowledge event
      return .duplicate
    else notice event .groupInception (some group)

/-- Routes one event. -/
def route (event : Event) : Attempt Verdict :=
  match event.route? with
  | none =>
    if event.consumed then pure .alreadyConsumed
    else do
      acknowledge event
      return .ignored
  | some .groupReply => reply event
  | some .groupInception => inception event
  | some route =>
    if event.consumed then pure .alreadyConsumed
    else if route.isGroup then do notice event route (← correlation event)
    else notice event route none

end Routing

end Feedkeeper
