import Feedkeeper.Script

/-!
# Watching operations

One pass over the queue of watched operations (`Poll.pass`). The agent is asked for the status of
each operation that was queued when the pass began. A finished operation is completed: its
identifier is no longer pending, a formed group has its role authorization started, the application
is told, and only then is the operation deleted from the store and taken from the queue. A failure
on the way leaves it queued, so completion is announced at least once.
-/

namespace Feedkeeper

namespace Poll

open Script (ask)

/-- What a pass came to. -/
structure Tally where
  /-- The pass was left out, the agent being offline. -/
  offline : Bool := false
  checked : Nat := 0
  completed : Nat := 0
  failed : Nat := 0
  deriving DecidableEq, Repr

/-- Takes an answer, reporting a failure in a context. -/
def within {α : Type} (context : String) (script : Script (Except Fault α)) :
    ExceptT Fault Script α :=
  ExceptT.mk do return (← script).mapError (·.inContext context)

/-- Completes a finished operation. -/
def complete (operation : Operation) : ExceptT Fault Script Unit := do
  within ("Failed to clear pending flag on " ++ operation.entity)
    (ask (.setPending operation.entity false))
  if operation.kind = .groupFormation then
    ExceptT.lift (ask (.launchAuthorization operation.entity))
  ExceptT.lift (ask (.announceCompletion operation.completion))
  within ("Failed to delete operation " ++ operation.id) (ask (.deletePending operation.id))
  let _ ← ExceptT.lift (ask (.dequeue operation.id))

/-- The rest of a pass over the operations. -/
def passOver : List Operation → Tally → Script Tally
  | [], tally => pure tally
  | operation :: rest, tally => do
    if ← ask .isShutDown then return tally
    else
      let tally := { tally with checked := tally.checked + 1 }
      match ← ask (.operationStatus operation.id) with
      | .error _ =>
        let tally := { tally with failed := tally.failed + 1 }
        if ← ask .isOnline then
          if ← ask .reconnect then passOver rest tally else return tally
        else passOver rest tally
      | .ok status =>
        if status.done then
          match ← (complete operation).run with
          | .ok () => passOver rest { tally with completed := tally.completed + 1 }
          | .error _ => passOver rest { tally with failed := tally.failed + 1 }
        else passOver rest tally

/-- One pass over the queue. -/
def pass : Script Tally := do
  if ← ask .isOnline then passOver (← ask .queued) {}
  else return { offline := true }

/-- Stores an operation and watches it. -/
def track (operation : Operation) : ExceptT Fault Script Unit := do
  within ("Failed to persist operation " ++ operation.id) (ask (.savePending operation))
  let _ ← ExceptT.lift (ask (.enqueue operation))

/-- Queues the stored operations that are not queued, and says how many there were. -/
def load : ExceptT Fault Script Nat := do
  let stored ← within "Failed to load pending operations" (ask .pendingOperations)
  ExceptT.lift (ask (.enqueueAll stored))

/-- Starts the role authorization of a formed group, under the name of its local record. Without
the record nothing is started, and a failure is let pass. -/
def authorize (group : String) : Script Unit := do
  match ← ask (.findIdentifier group) with
  | .ok (some identifier) =>
    let _ ← ask (.startAuthorization identifier.name)
  | _ => return

end Poll

end Feedkeeper
