import Feedkeeper.Host
import Feedkeeper.Inbox

/-!
# Sessions

A session drives the library by hand: a feed state and a testbed, on which single procedures are
run, changes made, and whole loops hosted for a while. Each `Session.Command` has a `Session.Reply`;
the calls that a command made stand on the log of the testbed afterwards.
-/

namespace Feedkeeper

open Testbed (Mutation Role)

/-- The feed loop's state and the dependencies that all procedures share. -/
structure Session where
  settings : Settings := {}
  state : Sync.State := .at .start
  bed : Testbed := {}

namespace Session

/-- The loops that are hosted for a while. -/
inductive Hosted where
  | feed
  | poller
  /-- Both, under the current shutdown signal. -/
  | both
  deriving DecidableEq, Repr

/-- What a session can be told to do. -/
inductive Command where
  /-- Makes a change on the testbed. -/
  | mutate (mutation : Mutation)
  | loadState
  | setState (cursor : Cursor)
  | step
  | settled (ids : List String)
  | route (event : Event)
  | notices
  | noticesAbout (group : String)
  | setRead (id : String) (read : Bool)
  | deleteNotice (id : String)
  | track (operation : Operation)
  | loadPending
  | poll
  /-- Hosts loops until a time, while changes are made at theirs. They are not shut down before the
last of the changes. -/
  | host (loops : Hosted) (stopAt : Nat) (timeline : List (Nat × Mutation))
  -- Straight to the testbed, past the log, the hooks and the injections.
  | saveNotice (notice : Notice)
  | updateNotice (notice : Notice)
  | savePending (operation : Operation)
  | fetch (offset limit : Nat)
  | acknowledge (id : String)
  | groupRequest (digest : String)
  | operationStatus (id : String)
  | setPending (id : String) (pending : Bool)
  /-- What the agent was asked for. -/
  | asked
  | dump

/-- What became of the hosted loops. -/
structure HostReport where
  /-- Whether the hosting was over before it was stopped. -/
  finished : Bool
  stoppedAt : Nat
  result : Except Service.Failure Unit

/-- What a command answers. -/
inductive Reply where
  | ok
  | queue (reply : Operation.Queue.Reply)
  | cursor (cursor : Cursor)
  | fault (fault : Fault)
  | failure (error : RoutingError)
  | crash (crash : Crash)
  | step (outcome : Sync.Outcome) (cursor : Cursor)
  | flags (values : List Bool)
  | verdict (verdict : Verdict)
  | notices (notices : List Notice)
  | count (n : Nat)
  | tally (tally : Poll.Tally)
  /-- Nothing if the loops do not return at once when they are stopped. -/
  | hosted (loops : Hosted) (report : Option HostReport)
  | events (events : List Event)
  | transport (failure : TransportFailure)
  | lookup (failure : LookupFailure)
  /-- How often an id was acknowledged, and whether an event with it is consumed. -/
  | acknowledged (times : Nat) (consumed : Bool)
  | request (request : Group.Request)
  | status (status : Operation.Status)
  | asked (agent : Testbed.Agent)
  | dump

/-! ## Hosting loops -/

/-- A loop as a service. -/
def service (role : Role) (loop : Loop) : Service Loop :=
  ⟨loop.name, role, loop⟩

/-- Starts a loop under a signal of its own, makes changes at their times, and stops the loop. -/
def hostOne (settings : Settings) (role : Role) (loop : Loop) (stopAt : Nat)
    (timeline : List (Nat × Mutation)) (bed : Testbed) : Option HostReport × Testbed :=
  let turn := Loop.turn settings
  let (signal, bed) := bed.freshSignal
  let handle : Handle := ⟨loop.name, signal, 0⟩
  let schedule := Schedule.start turn signal [(role, loop)] bed
  let schedule := (schedule.follow turn timeline).waitUntil turn stopAt
  let finished := handle.isFinished schedule
  let (stopped, schedule) := handle.join.timed.poll turn (schedule.shutDown turn signal)
  (stopped.value?.map fun (result, stoppedAt) => { finished, stoppedAt, result }, schedule.bed)

/-- Hosts both loops under the current signal, makes changes at their times, and gives the signal
if it was not given before. -/
def hostBoth (settings : Settings) (stopAt : Nat) (timeline : List (Nat × Mutation))
    (bed : Testbed) : Option HostReport × Testbed :=
  let turn := Loop.turn settings
  let signal := bed.signals.current
  let services := [service .feed .feedStart, service .poller .pollerStart]
  let waited := ((Host.begun signal services bed).follow turn timeline).bind
    (Runtime.waitUntil turn stopAt)
  match waited with
  | none => (none, bed)
  | some waited =>
    match (waited.give signal).run turn waited.time with
    | none => (none, bed)
    | some stopped =>
      -- Whoever stops the host looks at it from then on only.
      let report := stopped.procedure.value?.map fun (result, returnedAt) =>
        { finished := waited.procedure.value?.isSome, result,
          stoppedAt := max waited.time returnedAt : HostReport }
      (report, stopped.schedule.bed)

/-- Hosts loops until a time, while changes are made at theirs. They are not shut down before the
last of the changes. -/
def hostLoops (settings : Settings) (loops : Hosted) (stopAt : Nat)
    (timeline : List (Nat × Mutation)) (bed : Testbed) : Option HostReport × Testbed :=
  match loops with
  | .feed => hostOne settings .feed .feedStart stopAt timeline bed
  | .poller => hostOne settings .poller .pollerStart stopAt timeline bed
  | .both => hostBoth settings stopAt timeline bed

/-! ## Commands -/

/-- Runs a script for the feed loop or the inbox. -/
def asFeed {α : Type} (session : Session) (script : Script α) : α × Testbed :=
  session.bed.execute ⟨.feed, session.bed.signals.current⟩ script

/-- Runs a script for the poller. -/
def asPoller {α : Type} (session : Session) (script : Script α) : α × Testbed :=
  session.bed.execute ⟨.poller, session.bed.signals.current⟩ script

/-- The reply to a procedure that may fail with a routing error. -/
def ofAttempt {α : Type} (reply : α → Reply) : Except RoutingError α → Reply
  | .ok value => reply value
  | .error error => .failure error

/-- The reply to a procedure that may fail with a fault. -/
def ofFault {α : Type} (reply : α → Reply) : Except Fault α → Reply
  | .ok value => reply value
  | .error fault => .fault fault

/-- The reply to a call that may fail in transport. -/
def ofTransport {α : Type} (reply : α → Reply) : Except TransportFailure α → Reply
  | .ok value => reply value
  | .error failure => .transport failure

/-- Makes a change on the testbed; a use of the queue answers, and other changes do not. -/
def mutate (session : Session) (mutation : Mutation) : Reply × Session :=
  let reply := match mutation with
    | .useQueue command => Reply.queue (session.bed.queue.command command).1
    | _ => .ok
  (reply, { session with bed := session.bed.apply mutation })

/-- Takes up the stored cursor. The state stays as it is if that fails. -/
def loadState (session : Session) : Reply × Session :=
  match session.asFeed (Sync.load session.settings) with
  | (.ok state, bed) => (.cursor state.cursor, { session with state, bed })
  | (.error fault, bed) => (.fault fault, { session with bed })

/-- One step of the feed loop. The state stays as it is if the step crashes. -/
def step (session : Session) : Reply × Session :=
  match session.asFeed (Sync.step session.settings session.state) with
  | (.ok (outcome, state), bed) => (.step outcome state.cursor, { session with state, bed })
  | (.error crash, bed) => (.crash crash, { session with bed })

/-- Carries out a command, on a log that is empty at first. -/
def perform (session : Session) (command : Command) : Reply × Session :=
  let session := { session with bed.log := [] }
  match command with
  | .mutate mutation => session.mutate mutation
  | .loadState => session.loadState
  | .setState cursor => (.cursor cursor, { session with state := .at cursor })
  | .step => session.step
  | .settled ids => (.flags (ids.map session.state.isSettled), session)
  | .route event =>
    let (result, bed) := session.asFeed (Routing.route event).run
    (ofAttempt .verdict result, { session with bed })
  | .notices =>
    let (result, bed) := session.asFeed Inbox.all.run
    (ofAttempt .notices result, { session with bed })
  | .noticesAbout group =>
    let (result, bed) := session.asFeed (Inbox.about group).run
    (ofAttempt .notices result, { session with bed })
  | .setRead id read =>
    let (result, bed) := session.asFeed (Inbox.setRead id read).run
    (ofAttempt (fun _ => .ok) result, { session with bed })
  | .deleteNotice id =>
    let (result, bed) := session.asFeed (Inbox.delete id).run
    (ofAttempt (fun _ => .ok) result, { session with bed })
  | .track operation =>
    let (result, bed) := session.asPoller (Poll.track operation).run
    (ofFault (fun _ => .ok) result, { session with bed })
  | .loadPending =>
    let (result, bed) := session.asPoller Poll.load.run
    (ofFault .count result, { session with bed })
  | .poll =>
    let (tally, bed) := session.asPoller Poll.pass
    (.tally tally, { session with bed })
  | .host loops stopAt timeline =>
    let (report, bed) := hostLoops session.settings loops stopAt timeline session.bed
    (.hosted loops report, { session with bed })
  | .saveNotice notice =>
    let (result, bed) := session.bed.saveNotice notice
    (ofFault (fun _ => .ok) result, { session with bed })
  | .updateNotice notice =>
    let (result, bed) := session.bed.updateNotice notice
    (ofFault (fun _ => .ok) result, { session with bed })
  | .savePending operation => (.ok, { session with bed := session.bed.savePending operation })
  | .fetch offset limit =>
    let (result, bed) := session.bed.fetch offset limit
    (ofTransport .events result, { session with bed })
  | .acknowledge id =>
    let (result, bed) := session.bed.acknowledge id
    let times := bed.agent.acknowledged.count id
    let consumed := bed.agent.events.any fun event => event.id == id && event.consumed
    (ofTransport (fun _ => .acknowledged times consumed) result, { session with bed })
  | .groupRequest digest =>
    let (result, bed) := session.bed.groupRequest digest
    let reply := match result with
      | .ok request => Reply.request request
      | .error failure => .lookup failure
    (reply, { session with bed })
  | .operationStatus id =>
    let (result, bed) := session.bed.operationStatus id
    (ofTransport .status result, { session with bed })
  | .setPending id pending =>
    let (result, bed) := session.bed.setPending id pending
    (ofFault (fun _ => .ok) result, { session with bed })
  | .asked => (.asked session.bed.agent, session)
  | .dump => (.dump, session)

end Session

end Feedkeeper
