import Feedkeeper.Poll
import Feedkeeper.Testbed.Basic

/-!
# How the testbed answers

A recorded call is put on the log first, then the first hook that fits it strikes, then the first
injection that fits it makes it fail, and only otherwise does it reach the dependency
(`Testbed.respond`). `Testbed.answer` adds what waiting means when nothing else runs in the
meantime, and `Testbed.execute` runs a whole script in this way, and after it the authorizations
that it launched.
-/

namespace Feedkeeper

namespace Testbed

/-! ## What the dependencies do -/

/-- The events with the first one that has the id consumed. -/
def consumeFirst (id : String) : List Event → List Event
  | [] => []
  | event :: rest =>
    if event.id = id then { event with consumed := true } :: rest
    else event :: consumeFirst id rest

/-- The notices with the first one that has the notice's id replaced; `none` without one. -/
def replaceFirst? (notice : Notice) : List Notice → Option (List Notice)
  | [] => none
  | first :: rest =>
    if first.id = notice.id then some (notice :: rest)
    else (replaceFirst? notice rest).map (first :: ·)

/-- The next report of an operation, and those that are left. The last one stays. -/
def nextReport : List (Except TransportFailure Bool) →
    Except TransportFailure Bool × List (Except TransportFailure Bool)
  | [] => (.ok false, [])
  | [report] => (report, [report])
  | report :: rest => (report, rest)

/-- The time on the clock as an instant. -/
def instant (bed : Testbed) : Instant :=
  ⟨(bed.time / 1000 : Nat), bed.time % 1000 * 1000000⟩

/-- The events from the offset up to the limit, as far as the feed goes. -/
def fetch (bed : Testbed) (offset limit : Nat) :
    Except TransportFailure (List Event) × Testbed :=
  let bed := { bed with agent.fetches := bed.agent.fetches ++ [(offset, limit)] }
  match bed.takeFailure? .fetch with
  | some bed => (.error unreachable, bed)
  | none => (.ok ((bed.agent.events.drop offset).take (limit - offset)), bed)

/-- Acknowledges the event, which need not be in the feed. -/
def acknowledge (bed : Testbed) (id : String) : Except TransportFailure Unit × Testbed :=
  match bed.takeFailure? .acknowledge with
  | some bed => (.error unreachable, bed)
  | none =>
    (.ok (), { bed with
      agent.acknowledged := bed.agent.acknowledged ++ [id],
      agent.events := consumeFirst id bed.agent.events })

/-- The request that was set for the digest. -/
def groupRequest (bed : Testbed) (digest : String) :
    Except LookupFailure Group.Request × Testbed :=
  ((bed.agent.requests.get? digest).getD (.error (.notFound digest)),
    { bed with agent.requested := bed.agent.requested ++ [digest] })

/-- The sender that was set for the digest. -/
def sender (bed : Testbed) (digest : String) : Except Fault String :=
  match bed.agent.senders.get? digest with
  | some sender => .ok sender
  | none => .error ⟨"exchange not found: " ++ digest, []⟩

/-- The next report of the operation, which is not done unless one says so. -/
def operationStatus (bed : Testbed) (id : String) :
    Except TransportFailure Operation.Status × Testbed :=
  let bed := { bed with agent.statusAsked := bed.agent.statusAsked ++ [id] }
  match bed.agent.reports.get? id with
  | none => (.ok ⟨id, false⟩, bed)
  | some reports =>
    let (report, left) := nextReport reports
    (report.map (⟨id, ·⟩), { bed with agent.reports := bed.agent.reports.put id left })

/-- Stores the cursor, and counts that. -/
def storeCursor (bed : Testbed) (key : String) (cursor : Cursor) : Testbed :=
  { bed with
    stores.cursors := bed.stores.cursors.put key cursor,
    stores.cursorWrites := bed.stores.cursorWrites + 1 }

/-- Adds the notice at the end, also if its id is there. -/
def saveNotice (bed : Testbed) (notice : Notice) : Except Fault Unit × Testbed :=
  match bed.takeFailure? .saveNotice with
  | some bed => (.error ⟨"disk full", []⟩, bed)
  | none => (.ok (), { bed with stores.notices := bed.stores.notices ++ [notice] })

/-- Replaces the first notice with the id, if there is one. -/
def updateNotice (bed : Testbed) (notice : Notice) : Except Fault Unit × Testbed :=
  match replaceFirst? notice bed.stores.notices with
  | some notices => (.ok (), { bed with stores.notices := notices })
  | none => (.error ⟨"no event with id " ++ notice.id, []⟩, bed)

/-- The notices that concern the group, in the order in which they were saved. -/
def noticesAbout (bed : Testbed) (group : String) : List Notice :=
  bed.stores.notices.filter (·.correlation == some group)

/-- Sets whether the identifier is pending, if there is one with the id. -/
def setPending (bed : Testbed) (id : String) (pending : Bool) : Except Fault Unit × Testbed :=
  match bed.takeFailure? .setPending with
  | some bed => (.error ⟨"identifier store unavailable", []⟩, bed)
  | none =>
    match bed.stores.identifiers.get? id with
    | none => (.error ⟨"identifier not found: " ++ id, []⟩, bed)
    | some identifier =>
      (.ok (), { bed with
        stores.identifiers := bed.stores.identifiers.put id { identifier with pending } })

/-- Adds the operation at the end, unless its id is there. -/
def savePending (bed : Testbed) (operation : Operation) : Testbed :=
  if bed.stores.pending.any (·.id == operation.id) then bed
  else { bed with stores.pending := bed.stores.pending ++ [operation] }

/-- Deletes the operation with the id, if there is one. -/
def deletePending (bed : Testbed) (id : String) : Except Fault Unit × Testbed :=
  match bed.takeFailure? .deletePending with
  | some bed => (.error ⟨"pending operation store unavailable", []⟩, bed)
  | none => (.ok (), { bed with stores.pending := bed.stores.pending.filter (·.id != id) })

/-- Joins an authorization; the attempt counts also if it fails. -/
def joinAuthorization (bed : Testbed) (request : Group.Request) : Except Fault Unit × Testbed :=
  let bed := { bed with effects.joinAttempts := bed.effects.joinAttempts + 1 }
  match bed.takeFailure? .joinAuthorization with
  | some bed => (.error ⟨"role authorization join rejected", []⟩, bed)
  | none => (.ok (), { bed with effects.joined := bed.effects.joined ++ [request] })

/-- Starts an authorization; the attempt counts also if it fails. -/
def startAuthorization (bed : Testbed) (name : String) : Except Fault Unit × Testbed :=
  let bed := { bed with effects.startAttempts := bed.effects.startAttempts + 1 }
  match bed.takeFailure? .startAuthorization with
  | some bed => (.error ⟨"role authorization start rejected", []⟩, bed)
  | none => (.ok (), { bed with effects.started := bed.effects.started ++ [name] })

/-- Puts a call on the log. -/
def record (bed : Testbed) (role : Role) (c : Call) : Testbed :=
  { bed with log := bed.log ++ [⟨bed.time, role, c⟩] }

/-- A call that reaches its dependency. -/
def perform (bed : Testbed) (caller : Caller) : (c : Call) → c.Answer × Testbed
  | .fetch offset limit => bed.fetch offset limit
  | .acknowledge id => bed.acknowledge id
  | .groupRequest digest => bed.groupRequest digest
  | .sender digest => (bed.sender digest, bed)
  | .operationStatus id => bed.operationStatus id
  | .loadCursor key => (.ok (bed.stores.cursors.get? key), bed)
  | .storeCursor key cursor => (.ok (), bed.storeCursor key cursor)
  | .saveNotice notice => bed.saveNotice notice
  | .findNotice id => (.ok (bed.stores.notices.find? (·.id == id)), bed)
  | .noticesAbout group => (.ok (bed.noticesAbout group), bed)
  | .updateNotice notice => bed.updateNotice notice
  | .deleteNotice id =>
    (.ok (), { bed with stores.notices := bed.stores.notices.filter (·.id != id) })
  | .allNotices => (.ok bed.stores.notices, bed)
  | .findIdentifier id => (.ok (bed.stores.identifiers.get? id), bed)
  | .setPending id pending => bed.setPending id pending
  | .pendingOperations => (.ok bed.stores.pending, bed)
  | .savePending operation => (.ok (), bed.savePending operation)
  | .deletePending id => bed.deletePending id
  | .joinAuthorization request => bed.joinAuthorization request
  | .startAuthorization name => bed.startAuthorization name
  | .launchAuthorization group => ((), { bed with launched := bed.launched ++ [group] })
  | .announceNotice notice =>
    ((), { bed with effects.announced := bed.effects.announced ++ [notice] })
  | .announceCompletion completion =>
    ((), { bed with effects.completions := bed.effects.completions ++ [completion] })
  | .queued => (bed.queue.entries, bed)
  | .enqueue operation =>
    let (added, queue) := bed.queue.push operation
    (added, { bed with queue })
  | .enqueueAll operations =>
    let (added, queue) := bed.queue.extend operations
    (added, { bed with queue })
  | .dequeue id =>
    let (removed, queue) := bed.queue.remove id
    (removed, { bed with queue })
  | .isOnline => (bed.gate.online, bed)
  | .isLoggedIn => (bed.gate.loggedIn, bed)
  | .isShutDown => (bed.isShutDown caller.signal, bed)
  | .now => (bed.instant, bed)
  | .reconnect => (!bed.isShutDown caller.signal, bed)
  | .reconnected => ((), { bed with gate.reconnects := bed.gate.reconnects + 1 })
  | .pause _ => (!bed.isShutDown caller.signal, bed)
  | .sleep _ => ((), bed)
  | .awaitShutdown => ((), bed)
  | .note text => ((), bed.record caller.role (.note text))
  | .reportRouting .. => ((), bed)

/-! ## Hooks and injections -/

/-- The first hook that fits the call, and the others. -/
def splitHook? (c : Call) : List Hook → Option (Hook × List Hook)
  | [] => none
  | hook :: rest =>
    if hook.trigger.fits c then some (hook, rest)
    else (splitHook? c rest).map fun (struck, others) => (struck, hook :: others)

/-- Lets the first hook that fits the call strike. -/
def strike (bed : Testbed) (c : Call) : Testbed :=
  match splitHook? c bed.hooks with
  | some (hook, others) => applyAll { bed with hooks := others } hook.actions
  | none => bed

/-- The injections after one that fits the call was used; `none` if none fits. -/
def spendInjection? (c : Call) : List Injection → Option (List Injection)
  | [] => none
  | injection :: rest =>
    if injection.trigger.fits c && injection.remaining != 0 then
      some ({ injection with remaining := injection.remaining - 1 } :: rest)
    else (spendInjection? c rest).map (injection :: ·)

/-- The answer of a call that is made to fail, if the call can. -/
def refusal? (detail : String) : (c : Call) → Option c.Answer
  | .fetch .. => some (.error ⟨detail⟩)
  | .acknowledge _ => some (.error ⟨detail⟩)
  | .groupRequest _ => some (.error (.transport ⟨detail⟩))
  | .sender _ => some (.error ⟨detail, []⟩)
  | .operationStatus _ => some (.error ⟨detail⟩)
  | .loadCursor _ => some (.error ⟨detail, []⟩)
  | .storeCursor .. => some (.error ⟨detail, []⟩)
  | .saveNotice _ => some (.error ⟨detail, []⟩)
  | .findNotice _ => some (.error ⟨detail, []⟩)
  | .noticesAbout _ => some (.error ⟨detail, []⟩)
  | .updateNotice _ => some (.error ⟨detail, []⟩)
  | .deleteNotice _ => some (.error ⟨detail, []⟩)
  | .allNotices => some (.error ⟨detail, []⟩)
  | .findIdentifier _ => some (.error ⟨detail, []⟩)
  | .setPending .. => some (.error ⟨detail, []⟩)
  | .pendingOperations => some (.error ⟨detail, []⟩)
  | .savePending _ => some (.error ⟨detail, []⟩)
  | .deletePending _ => some (.error ⟨detail, []⟩)
  | .joinAuthorization _ => some (.error ⟨detail, []⟩)
  | .startAuthorization _ => some (.error ⟨detail, []⟩)
  | .launchAuthorization _ | .announceNotice _ | .announceCompletion _ | .queued | .enqueue _
  | .enqueueAll _ | .dequeue _ | .isOnline | .isLoggedIn | .isShutDown | .now | .reconnect
  | .reconnected | .pause _ | .sleep _ | .awaitShutdown | .note _ | .reportRouting .. => none

/-- The failure that an injection makes of the call, and the testbed with the injection spent. -/
def injected? (bed : Testbed) (kind : Call.Kind) (c : Call) : Option (c.Answer × Testbed) :=
  match refusal? ("injected failure: " ++ kind.name) c, spendInjection? c bed.injections with
  | some answer, some injections => some (answer, { bed with injections })
  | _, _ => none

/-- A call: recorded if it has a kind, subject to hooks and injections, and else performed. -/
def respond (caller : Caller) (c : Call) (bed : Testbed) : c.Answer × Testbed :=
  match c.kind? with
  | none => bed.perform caller c
  | some kind =>
    let bed := (bed.record caller.role c).strike c
    match bed.injected? kind c with
    | some (answer, bed) => (answer, bed)
    | none => bed.perform caller c

/-! ## Running scripts -/

/-- Runs the launched authorizations, in order. -/
def runLaunched (bed : Testbed) : Testbed :=
  bed.launched.foldl
    (fun bed group => ((Poll.authorize group).run (respond ⟨.authorization, 0⟩) bed).2)
    { bed with launched := [] }

/-- A call when nothing else happens in the meantime. A reconnect that takes time lets the launched
authorizations run, and no reconnect is made once the shutdown signal is given. -/
def answer (caller : Caller) (c : Call) (bed : Testbed) : c.Answer × Testbed :=
  match c with
  | .reconnect =>
    let waits := !bed.isShutDown caller.signal && bed.gate.delay.getD 0 != 0
    let bed := if waits then bed.runLaunched else bed
    if bed.isShutDown caller.signal then (false, bed)
    else (true, (respond caller .reconnected bed).2)
  | c => respond caller c bed

/-- Runs a script, and then the authorizations that it launched. -/
def execute {α : Type} (caller : Caller) (script : Script α) (bed : Testbed) : α × Testbed :=
  let (value, bed) := script.run (answer caller) bed
  (value, bed.runLaunched)

end Testbed

end Feedkeeper
