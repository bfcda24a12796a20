import Feedkeeper.Poll
import Feedkeeper.Sync

/-!
# Services

A service runs for as long as it is not shut down. It is given as a *turn*: a script that does one
round of the service's work from the state that the last round left, and says how the service rests
before the next one. The endless repetition is not part of the turn, so every turn is a finite
script, and what holds of all turns holds of the service.

The two loops of this library are services in this sense: the feed loop, whose turn is a step of
`Sync`, and the poller, whose turn is a pass of `Poll`. Both first load what they go on from, and
try that again after a rest for as long as it fails.
-/

namespace Feedkeeper

/-- How a service ended. -/
inductive Ending where
  | ok
  | failed (fault : Fault)
  | crashed
  deriving DecidableEq, Repr

/-- What a service does before its next turn. -/
inductive Rest where
  /-- It waits for a time, and ends if it is shut down meanwhile. -/
  | pause (ms : Nat)
  /-- It lets the others take their turns. -/
  | yield
  deriving DecidableEq, Repr

/-- What a turn came to. -/
inductive Turn (σ : Type) where
  | again (rest : Rest) (state : σ)
  | finished (ending : Ending)

open Script (ask)

namespace Sync

/-- How the feed loop rests after an outcome; nothing if it ends. It waits when there is nothing to
do, and goes on at once after a step that changed something. -/
def Outcome.rest? (settings : Settings) : Outcome → Option Rest
  | notLoggedIn => some (.pause settings.loginInterval)
  | offline | held .. | idle => some (.pause settings.pollInterval)
  | fetchFailed | cursorReset | advanced .. => some .yield
  | cancelled => none

end Sync

/-- The loops of this library, each with what it goes on from. -/
inductive Loop where
  /-- The feed loop before its state is loaded. -/
  | feedStart
  | feed (state : Sync.State)
  /-- The poller before the stored operations are loaded. -/
  | pollerStart
  | poller
  deriving DecidableEq, Repr

namespace Loop

/-- A step of the feed loop. -/
def followFeed (settings : Settings) (state : Sync.State) : Script (Turn Loop) := do
  if ← ask .isShutDown then return .finished .ok
  else
    match ← Sync.step settings state with
    | .error _ => return .finished .crashed
    | .ok (outcome, state) =>
      match outcome.rest? settings with
      | some rest => return .again rest (.feed state)
      | none => return .finished .ok

/-- A pass of the poller. -/
def watchOperations (settings : Settings) : Script (Turn Loop) := do
  if ← ask .isShutDown then return .finished .ok
  else
    let _ ← Poll.pass
    return .again (.pause settings.operationInterval) .poller

/-- The turn of a loop. -/
def turn (settings : Settings) : Loop → Script (Turn Loop)
  | feedStart => do
    match ← Sync.load settings with
    | .ok state => followFeed settings state
    | .error _ => return .again (.pause settings.pollInterval) .feedStart
  | feed state => followFeed settings state
  | pollerStart => do
    match ← Poll.load.run with
    | .ok _ => watchOperations settings
    | .error _ => return .again (.pause settings.operationInterval) .pollerStart
  | poller => watchOperations settings

/-- The name that the loop is hosted under. -/
def name : Loop → String
  | feedStart | feed _ => "notification-sync"
  | pollerStart | poller => "operation-poller"

end Loop

end Feedkeeper
