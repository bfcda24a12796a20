import Feedkeeper.Script
import Feedkeeper.Table

/-!
# The testbed

Dependencies in memory, for running the library's scripts without an agent: a feed, group requests,
exchanges and operations that are set up by hand, a gate that is opened and closed, stores, and a
record of the effects on the domain and the application. Failures are armed beforehand, in three
ways: a *counter* makes the next calls of a kind fail, an *injection* makes the next calls that a
trigger fits fail before they reach anything, and a *hook* changes the testbed during the next call
that its trigger fits.
-/

namespace Feedkeeper

namespace Testbed

/-- The remote side. -/
structure Agent where
  /-- The feed. -/
  events : List Event := []
  /-- The windows that were asked for. -/
  fetches : List (Nat × Nat) := []
  /-- The ids of the events that were acknowledged, in order. -/
  acknowledged : List String := []
  /-- What is answered to a digest; without an entry the request is not found. -/
  requests : Table (Except LookupFailure Group.Request) := {}
  /-- The digests that were asked for. -/
  requested : List String := []
  senders : Table String := {}
  /-- What is still to be reported of an operation; the last report repeats. -/
  reports : Table (List (Except TransportFailure Bool)) := {}
  /-- The operations that were asked for. -/
  statusAsked : List String := []

/-- Whether the agent can be reached, and what reaching it again takes. -/
structure Gate where
  online : Bool := true
  loggedIn : Bool := true
  reconnects : Nat := 0
  /-- How long a reconnect takes. -/
  delay : Option Nat := none

/-- The local stores. -/
structure Stores where
  cursors : Table Cursor := {}
  cursorWrites : Nat := 0
  notices : List Notice := []
  identifiers : Table Identifier := {}
  pending : List Operation := []

/-- What was done to the domain and told to the application. -/
structure Effects where
  joined : List Group.Request := []
  joinAttempts : Nat := 0
  started : List String := []
  startAttempts : Nat := 0
  announced : List Notice := []
  completions : List Operation.Completion := []

/-- The shutdown signals: they are numbered, and one that was given stays given. -/
structure Signals where
  current : Nat := 0
  given : List Nat := []
  /-- Greater than any number in use. -/
  next : Nat := 1
  /-- The signals that are given along with another, each behind that one. -/
  heirs : List (Nat × Nat) := []

namespace Signals

/-- Gives a signal, and all that are given along with it. -/
def give (signals : Signals) (signal : Nat) : Signals :=
  if signals.given.contains signal then signals
  else
    let heirs := (signals.heirs.filter (·.1 == signal)).map (·.2)
    { signals with given := signal :: heirs ++ signals.given }

/-- Makes the next signal one that is given along with another, and so with all that this one is
given along with. -/
def bear (signals : Signals) (signal : Nat) : Signals :=
  let ancestors := signal :: (signals.heirs.filter (·.2 == signal)).map (·.1)
  { signals with
    given := if signals.given.contains signal then signals.next :: signals.given else signals.given,
    next := signals.next + 1,
    heirs := ancestors.map (·, signals.next) ++ signals.heirs }

end Signals

/-- The calls of a kind, all or only those about one subject. -/
structure Trigger where
  kind : Call.Kind
  subject : Option String := none
  deriving DecidableEq, Repr

/-- Whether the trigger fits a call. -/
def Trigger.fits (trigger : Trigger) (c : Call) : Bool :=
  c.kind? == some trigger.kind && (trigger.subject.isNone || c.subject? == trigger.subject)

/-- A change made from outside. -/
inductive Mutation where
  | addEvent (event : Event)
  | removeEvents (id : String)
  /-- Makes the next `n` calls of the kind fail, where the kind has a counter. -/
  | failNext (kind : Call.Kind) (n : Nat)
  | inject (trigger : Trigger) (n : Nat)
  | hook (trigger : Trigger) (actions : List Mutation)
  | setRequest (digest : String) (answer : Except LookupFailure Group.Request)
  | putIdentifier (identifier : Identifier)
  /-- Sets whether an operation is reported done, for each time it is asked for. -/
  | setReports (id : String) (done : List Bool)
  /-- Lets the operation be out of reach once. -/
  | failReport (id : String)
  | setOnline (online : Bool)
  | setLoggedIn (loggedIn : Bool)
  | setDelay (ms : Nat)
  | setCursor (key : String) (cursor : Cursor)
  /-- Gives the current shutdown signal. -/
  | shutDown
  /-- Makes a fresh shutdown signal the current one. -/
  | renewSignal
  /-- Has an operation watched. -/
  | watch (operation : Operation)
  | useQueue (command : Operation.Queue.Command)

/-- Failures for the next calls that a trigger fits. -/
structure Injection where
  trigger : Trigger
  remaining : Nat

/-- Changes for the next call that a trigger fits. -/
structure Hook where
  trigger : Trigger
  actions : List Mutation

/-- Who makes a call. -/
inductive Role where
  | feed
  | poller
  /-- A task that starts a role authorization. -/
  | authorization
  /-- The service with the index in a list of services. -/
  | service (index : Nat)
  deriving DecidableEq, Repr

/-- Who makes a call, and the signal that shuts it down. -/
structure Caller where
  role : Role
  signal : Nat

/-- A recorded call. -/
structure Entry where
  time : Nat
  role : Role
  call : Call

end Testbed

/-- Dependencies in memory. -/
structure Testbed where
  agent : Testbed.Agent := {}
  gate : Testbed.Gate := {}
  stores : Testbed.Stores := {}
  effects : Testbed.Effects := {}
  queue : Operation.Queue := {}
  /-- How many of the next calls of a kind fail. -/
  failures : Call.Kind → Nat := fun _ => 0
  /-- In the order in which they were armed. -/
  injections : List Testbed.Injection := []
  /-- In the order in which they were armed. -/
  hooks : List Testbed.Hook := []
  signals : Testbed.Signals := {}
  /-- The groups whose authorization is still to be started. -/
  launched : List String := []
  /-- Milliseconds on the clock. -/
  time : Nat := 0
  log : List Testbed.Entry := []

namespace Testbed

/-! ## Changes -/

/-- Sets the counter of a kind. -/
def setFailures (bed : Testbed) (kind : Call.Kind) (n : Nat) : Testbed :=
  { bed with failures := fun other => if other = kind then n else bed.failures other }

/-- Takes a failure from the counter of a kind, if there is one. -/
def takeFailure? (bed : Testbed) (kind : Call.Kind) : Option Testbed :=
  match bed.failures kind with
  | 0 => none
  | n + 1 => some (bed.setFailures kind n)

/-- The failure of a call while the agent is out of reach. -/
def unreachable : TransportFailure := ⟨"agent unreachable"⟩

/-- An operation's reports with a failure put in front; without any, what follows is not done. -/
def withFailure (reports : List (Except TransportFailure Bool)) :
    List (Except TransportFailure Bool) :=
  .error unreachable :: (if reports.isEmpty then [.ok false] else reports)

/-- Makes a change. -/
def apply (bed : Testbed) : Mutation → Testbed
  | .addEvent event => { bed with agent.events := bed.agent.events ++ [event] }
  | .removeEvents id => { bed with agent.events := bed.agent.events.filter (·.id != id) }
  | .failNext kind n => bed.setFailures kind n
  | .inject trigger n => { bed with injections := bed.injections ++ [⟨trigger, n⟩] }
  | .hook trigger actions => { bed with hooks := bed.hooks ++ [⟨trigger, actions⟩] }
  | .setRequest digest answer =>
    { bed with agent.requests := bed.agent.requests.put digest answer }
  | .putIdentifier identifier =>
    { bed with stores.identifiers := bed.stores.identifiers.put identifier.id identifier }
  | .setReports id done => { bed with agent.reports := bed.agent.reports.put id (done.map .ok) }
  | .failReport id =>
    { bed with agent.reports :=
        bed.agent.reports.put id (withFailure ((bed.agent.reports.get? id).getD [])) }
  | .setOnline online => { bed with gate.online := online }
  | .setLoggedIn loggedIn => { bed with gate.loggedIn := loggedIn }
  | .setDelay ms => { bed with gate.delay := some ms }
  | .setCursor key cursor => { bed with stores.cursors := bed.stores.cursors.put key cursor }
  | .shutDown => { bed with signals := bed.signals.give bed.signals.current }
  | .renewSignal =>
    { bed with signals.current := bed.signals.next, signals.next := bed.signals.next + 1 }
  | .watch operation => { bed with queue := (bed.queue.push operation).2 }
  | .useQueue command => { bed with queue := (bed.queue.command command).2 }

/-- Makes changes, one after another. -/
def applyAll (bed : Testbed) (mutations : List Mutation) : Testbed :=
  mutations.foldl apply bed

/-! ## Signals -/

/-- Whether the signal was given. -/
def isShutDown (bed : Testbed) (signal : Nat) : Bool :=
  bed.signals.given.contains signal

/-- Gives a shutdown signal. -/
def signal (bed : Testbed) (signal : Nat) : Testbed :=
  { bed with signals := bed.signals.give signal }

/-- A signal that nobody else has. -/
def freshSignal (bed : Testbed) : Nat × Testbed :=
  (bed.signals.next, { bed with signals.next := bed.signals.next + 1 })

/-- A signal that nobody else has, and that is given along with another. -/
def childSignal (bed : Testbed) (signal : Nat) : Nat × Testbed :=
  (bed.signals.next, { bed with signals := bed.signals.bear signal })

end Testbed

end Feedkeeper
