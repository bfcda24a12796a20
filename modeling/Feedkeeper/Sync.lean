import Feedkeeper.Routing
import Feedkeeper.Settings

/-!
# Following the feed

One step of the feed loop (`Sync.step`). A window of the feed is fetched from the anchor of the
cursor on. If its first event is not the anchor, the feed was changed before the cursor, and the
cursor goes back to the start. Otherwise the events behind the anchor are routed in order. A
transient failure *holds* the cursor at its event: the cursor advances to just before the first
held event, and the events behind it that routed cleanly are *settled*, which spares them when the
window is read again. Events that fail for good are passed over.
-/

namespace Feedkeeper

/-- An arithmetic error, which ends the procedure that it happens in. -/
inductive Crash where
  | addOverflow
  deriving DecidableEq, Repr

/-- The wording of a crash. -/
def Crash.message : Crash → String
  | .addOverflow => "attempt to add with overflow"

namespace Sync

open Script (ask)

/-- What the feed loop keeps in memory. -/
structure State where
  cursor : Cursor
  /-- Ids of events behind a held one that have been routed. -/
  settled : List String := []
  deriving DecidableEq, Repr

/-- The state at a cursor, with nothing settled. -/
def State.at (cursor : Cursor) : State := { cursor }

/-- Whether the event with the id was routed behind a held one. -/
def State.isSettled (state : State) (id : String) : Bool :=
  state.settled.contains id

/-- What a step came to. -/
inductive Outcome where
  | notLoggedIn
  | offline
  /-- The window could not be fetched. -/
  | fetchFailed
  /-- The feed was changed before the cursor, which is back at the start. -/
  | cursorReset
  /-- The cursor moved past some events; so many routings failed. -/
  | advanced (processed failed : Nat)
  /-- The first new event is held, and the cursor stays. -/
  | held (id : String) (failed : Nat)
  /-- There is nothing new. -/
  | idle
  /-- The shutdown came while waiting for the agent. -/
  | cancelled
  deriving DecidableEq, Repr

/-- A pass over new events part way through. -/
structure Pass where
  /-- How many events stand before the first held one. -/
  held : Option Nat := none
  failed : Nat := 0
  settled : List String

/-- The pass after an event was routed, `index` events having gone before it. -/
def Pass.record (pass : Pass) (index : Nat) (id : String) : Except RoutingError Verdict → Pass
  | .ok _ =>
    if pass.held.isSome && !pass.settled.contains id then
      { pass with settled := pass.settled ++ [id] }
    else pass
  | .error error =>
    { pass with
      failed := pass.failed + 1
      held := if error.isTransient && pass.held.isNone then some index else pass.held }

/-- Routes the events in order, leaving out those that are settled, and reports how each came
out. -/
def routeAll : List Event → Nat → Pass → Script Pass
  | [], _, pass => pure pass
  | event :: rest, index, pass =>
    if pass.settled.contains event.id then routeAll rest (index + 1) pass
    else do
      let result ← (Routing.route event).run
      ask (.reportRouting event.id result)
      routeAll rest (index + 1) (pass.record index event.id result)

/-- Stores the cursor. A failure is let pass: a stale cursor only makes events be routed again. -/
def persist (settings : Settings) (cursor : Cursor) : Script Unit := do
  let _ ← ask (.storeCursor settings.cursorKey cursor)

/-- Routes the new events of a window, and moves the cursor up to the first held one. -/
def consume (settings : Settings) (state : State) (events : List Event) :
    Script (Except Crash (Outcome × State)) := do
  let pass ← routeAll events 0 { settled := state.settled }
  match events with
  | [] => return .ok (.idle, { state with settled := pass.settled })
  | first :: _ =>
    let processed := events.take (pass.held.getD events.length)
    let settled := pass.settled.filter fun id => !processed.any (·.id == id)
    match processed.getLast? with
    | none => return .ok (.held first.id pass.failed, { state with settled })
    | some last =>
      match state.cursor.advance? processed.length last.id with
      | none => return .error .addOverflow
      | some cursor => do
        persist settings cursor
        return .ok (.advanced processed.length pass.failed, { cursor, settled })

/-- Goes on with a window that was fetched. -/
def receive (settings : Settings) (state : State) (window : List Event) :
    Script (Except Crash (Outcome × State)) :=
  if state.cursor.matchesAnchor (window.head?.map (·.id)) then
    consume settings state (if state.cursor.isStart then window else window.drop 1)
  else do
    persist settings .start
    return .ok (.cursorReset, .at .start)

/-- Waits for the agent after a failed fetch, if the gate still says that it can be reached. -/
def recover (state : State) : Script (Except Crash (Outcome × State)) := do
  if ← ask .isOnline then
    if ← ask .reconnect then return .ok (.fetchFailed, state)
    else return .ok (.cancelled, state)
  else return .ok (.fetchFailed, state)

/-- One step of the feed loop. It crashes only if the end of the window is no position, and then
before anything was asked of the feed. -/
def step (settings : Settings) (state : State) : Script (Except Crash (Outcome × State)) := do
  if ← ask .isLoggedIn then
    if ← ask .isOnline then
      let offset := state.cursor.windowStart
      match Position.add? offset settings.windowSize with
      | none => return .error .addOverflow
      | some limit =>
        match ← ask (.fetch offset limit) with
        | .ok window => receive settings state window
        | .error _ => recover state
    else return .ok (.offline, state)
  else return .ok (.notLoggedIn, state)

/-- The state at the stored cursor, which is put at the start if there is none. -/
def load (settings : Settings) : Script (Except Fault State) := do
  match ← ask (.loadCursor settings.cursorKey) with
  | .error fault => return .error fault
  | .ok (some cursor) => return .ok (.at cursor.normalized)
  | .ok none =>
    match ← ask (.storeCursor settings.cursorKey .start) with
    | .error fault => return .error fault
    | .ok () => return .ok (.at .start)

end Sync

end Feedkeeper
