import Feedkeeper.Cursor
import Feedkeeper.Event
import Feedkeeper.Failure
import Feedkeeper.Group
import Feedkeeper.Operation.Queue

/-!
# Calls

Everything that the library's procedures ask of the outside: of the agent, of the local stores, of
the domain, of the gate that says whether the agent can be reached, and of the clock. `Call.Answer`
is the type of what comes back. A call that can fail answers with an `Except`, and the procedures
make no assumption on which calls fail.

The calls on the agent, the stores, the domain and the callbacks, and a reconnect that was
completed, have a `Call.Kind`, under which they are recorded.
-/

namespace Feedkeeper

/-- A request to the outside. -/
inductive Call where
  -- The agent.
  /-- The events of the feed from `offset` up to, but without, `limit`. -/
  | fetch (offset limit : Nat)
  | acknowledge (id : String)
  | groupRequest (digest : String)
  /-- The sender of an exchange message. -/
  | sender (digest : String)
  | operationStatus (id : String)
  -- The local stores.
  | loadCursor (key : String)
  | storeCursor (key : String) (cursor : Cursor)
  | saveNotice (notice : Notice)
  | findNotice (id : String)
  /-- The notices that concern a group. -/
  | noticesAbout (group : String)
  | updateNotice (notice : Notice)
  | deleteNotice (id : String)
  | allNotices
  | findIdentifier (id : String)
  | setPending (id : String) (pending : Bool)
  | pendingOperations
  | savePending (operation : Operation)
  | deletePending (id : String)
  -- The domain.
  /-- Joins the role authorization that a group request carries. -/
  | joinAuthorization (request : Group.Request)
  /-- Starts the role authorization of a newly formed group. -/
  | startAuthorization (name : String)
  /-- Has the authorization of a formed group started by a task of its own. -/
  | launchAuthorization (group : String)
  /-- Tells the application of a new notice. -/
  | announceNotice (notice : Notice)
  /-- Tells the application of a finished operation. -/
  | announceCompletion (completion : Operation.Completion)
  -- The queue of watched operations.
  | queued
  | enqueue (operation : Operation)
  /-- Adds the operations that are not queued, and answers how many were. -/
  | enqueueAll (operations : List Operation)
  | dequeue (id : String)
  -- The gate and the clock.
  | isOnline
  | isLoggedIn
  | isShutDown
  | now
  /-- Waits for the agent to be reached again; false if the shutdown came first. -/
  | reconnect
  /-- The agent has been reached again. -/
  | reconnected
  /-- Waits for a time; false if the shutdown came first. -/
  | pause (ms : Nat)
  /-- Waits for a time, shutdown or not. -/
  | sleep (ms : Nat)
  | awaitShutdown
  /-- Puts a line on record. -/
  | note (text : String)
  /-- Reports how the routing of an event came out. -/
  | reportRouting (id : String) (result : Except RoutingError Verdict)

namespace Call

/-- What a call answers. -/
@[reducible] def Answer : Call → Type
  | fetch .. => Except TransportFailure (List Event)
  | acknowledge _ => Except TransportFailure Unit
  | groupRequest _ => Except LookupFailure Group.Request
  | sender _ => Except Fault String
  | operationStatus _ => Except TransportFailure Operation.Status
  | loadCursor _ => Except Fault (Option Cursor)
  | storeCursor .. => Except Fault Unit
  | saveNotice _ => Except Fault Unit
  | findNotice _ => Except Fault (Option Notice)
  | noticesAbout _ => Except Fault (List Notice)
  | updateNotice _ => Except Fault Unit
  | deleteNotice _ => Except Fault Unit
  | allNotices => Except Fault (List Notice)
  | findIdentifier _ => Except Fault (Option Identifier)
  | setPending .. => Except Fault Unit
  | pendingOperations => Except Fault (List Operation)
  | savePending _ => Except Fault Unit
  | deletePending _ => Except Fault Unit
  | joinAuthorization _ => Except Fault Unit
  | startAuthorization _ => Except Fault Unit
  | launchAuthorization _ => Unit
  | announceNotice _ => Unit
  | announceCompletion _ => Unit
  | queued => List Operation
  | enqueue _ => Bool
  | enqueueAll _ => Nat
  | dequeue _ => Bool
  | isOnline => Bool
  | isLoggedIn => Bool
  | isShutDown => Bool
  | now => Instant
  | reconnect => Bool
  | reconnected => Unit
  | pause _ => Bool
  | sleep _ => Unit
  | awaitShutdown => Unit
  | note _ => Unit
  | reportRouting .. => Unit

/-- The calls that are recorded. -/
inductive Kind where
  | fetch
  | acknowledge
  | groupRequest
  | sender
  | operationStatus
  | loadCursor
  | storeCursor
  | saveNotice
  | findNotice
  | noticesAbout
  | updateNotice
  | deleteNotice
  | allNotices
  | findIdentifier
  | setPending
  | pendingOperations
  | savePending
  | deletePending
  | joinAuthorization
  | startAuthorization
  | announceNotice
  | announceCompletion
  | reconnected
  deriving DecidableEq, Repr

namespace Kind

/-- All kinds. -/
def all : List Kind :=
  [fetch, acknowledge, groupRequest, sender, operationStatus, loadCursor, storeCursor, saveNotice,
    findNotice, noticesAbout, updateNotice, deleteNotice, allNotices, findIdentifier, setPending,
    pendingOperations, savePending, deletePending, joinAuthorization, startAuthorization,
    announceNotice, announceCompletion, reconnected]

/-- The name of the calls in a record. -/
def name : Kind → String
  | fetch => "feed.list"
  | acknowledge => "feed.mark"
  | groupRequest => "groups.get"
  | sender => "exchanges.sender"
  | operationStatus => "operations.get"
  | loadCursor => "cursors.get"
  | storeCursor => "cursors.put"
  | saveNotice => "events.save"
  | findNotice => "events.find_by_id"
  | noticesAbout => "events.find_by_correlation"
  | updateNotice => "events.update"
  | deleteNotice => "events.delete"
  | allNotices => "events.get_all"
  | findIdentifier => "identifiers.get"
  | setPending => "identifiers.set_pending"
  | pendingOperations => "pending.get_all"
  | savePending => "pending.save"
  | deletePending => "pending.delete"
  | joinAuthorization => "actions.join"
  | startAuthorization => "actions.start"
  | announceNotice => "callback.event"
  | announceCompletion => "callback.complete"
  | reconnected => "connectivity.reconnect"

/-- The kind with the name, if there is one. -/
def ofName? (name : String) : Option Kind :=
  all.find? fun kind => kind.name == name

/-- No kind is missing from the list. -/
theorem mem_all (kind : Kind) : kind ∈ all := by
  cases kind <;> decide

end Kind

/-- The kind that a call is recorded under, if it is. -/
def kind? : Call → Option Kind
  | fetch .. => some .fetch
  | acknowledge _ => some .acknowledge
  | groupRequest _ => some .groupRequest
  | sender _ => some .sender
  | operationStatus _ => some .operationStatus
  | loadCursor _ => some .loadCursor
  | storeCursor .. => some .storeCursor
  | saveNotice _ => some .saveNotice
  | findNotice _ => some .findNotice
  | noticesAbout _ => some .noticesAbout
  | updateNotice _ => some .updateNotice
  | deleteNotice _ => some .deleteNotice
  | allNotices => some .allNotices
  | findIdentifier _ => some .findIdentifier
  | setPending .. => some .setPending
  | pendingOperations => some .pendingOperations
  | savePending _ => some .savePending
  | deletePending _ => some .deletePending
  | joinAuthorization _ => some .joinAuthorization
  | startAuthorization _ => some .startAuthorization
  | announceNotice _ => some .announceNotice
  | announceCompletion _ => some .announceCompletion
  | reconnected => some .reconnected
  | launchAuthorization _ | queued | enqueue _ | enqueueAll _ | dequeue _ | isOnline | isLoggedIn
  | isShutDown | now | reconnect | pause _ | sleep _ | awaitShutdown | note _
  | reportRouting .. => none

/-- The text that a recorded call is about, if its first argument is one. -/
def subject? : Call → Option String
  | acknowledge id | operationStatus id | findNotice id | deleteNotice id | findIdentifier id
  | setPending id _ | deletePending id => some id
  | groupRequest digest | sender digest => some digest
  | loadCursor key | storeCursor key _ => some key
  | saveNotice notice | updateNotice notice | announceNotice notice => some notice.id
  | noticesAbout group => some group
  | savePending operation => some operation.id
  | joinAuthorization request => request.group
  | startAuthorization name => some name
  | announceCompletion completion => some completion.entity
  | fetch .. | allNotices | pendingOperations | reconnected | launchAuthorization _ | queued
  | enqueue _ | enqueueAll _ | dequeue _ | isOnline | isLoggedIn | isShutDown | now | reconnect
  | pause _ | sleep _ | awaitShutdown | note _ | reportRouting .. => none

end Call

end Feedkeeper
