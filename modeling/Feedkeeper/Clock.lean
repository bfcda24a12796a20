import Feedkeeper.Service
import Feedkeeper.Testbed.Answer

/-!
# Services on a virtual clock

Several services side by side, on a clock that work does not move: only waiting does. At each
instant the tasks that are ready run in turn, in order, each up to the point where it waits, until
none is ready; then the clock goes on to the next time at which one wakes (`Schedule.advanceTo`). A
task that waits for the shutdown as well is ready as soon as its signal is given. No task sleeps
for more than thirty years at a stretch, which is as far as a timer reaches (`wakeAfter`).
-/

namespace Feedkeeper

open Testbed (Caller)

/-! ## One task -/

/-- The longest sleep in milliseconds: thirty years of 365 days. The services run on timers that
cannot be set further ahead, and a longer sleep is taken for one of this length. -/
def longestSleep : Nat := 30 * 365 * 86400000

/-- The time at which a sleep ends that began at a time. A sleep that would be longer than the
longest one is cut down to that. -/
def wakeAfter (time ms : Nat) : Nat :=
  time + min ms longestSleep

/-- Where a script came to rest. -/
inductive Stop (α : Type) where
  | ended (value : α)
  /-- The script waits until `wake`, if that is a time, and then goes on with `elapsed`. If there
  is a `cut`, it goes on with that as soon as the shutdown signal is given. -/
  | asleep (wake : Option Nat) (elapsed : Script α) (cut : Option (Script α))

namespace Script

variable {α : Type}

/-- Runs a script up to the point where it waits. A wait that is over already, or that the given
signal cuts short, is no point to stop at. -/
def drive (caller : Caller) : Script α → Testbed → Stop α × Testbed
  | done value, bed => (.ended value, bed)
  | call (.pause ms) next, bed =>
    if bed.isShutDown caller.signal then drive caller (next false) bed
    else if ms = 0 then drive caller (next true) bed
    else (.asleep (some (wakeAfter bed.time ms)) (next true) (some (next false)), bed)
  | call (.sleep ms) next, bed =>
    if ms = 0 then drive caller (next ()) bed
    else (.asleep (some (wakeAfter bed.time ms)) (next ()) none, bed)
  | call .awaitShutdown next, bed =>
    if bed.isShutDown caller.signal then drive caller (next ()) bed
    else (.asleep none (next ()) (some (next ())), bed)
  | call .reconnect next, bed =>
    if bed.isShutDown caller.signal then drive caller (next false) bed
    else
      let ms := bed.gate.delay.getD 0
      if ms = 0 then drive caller (next true) (bed.respond caller .reconnected).2
      else
        (.asleep (some (wakeAfter bed.time ms)) (call .reconnected fun _ => next true)
          (some (next false)), bed)
  | call c next, bed =>
    drive caller (next (bed.respond caller c).1) (bed.respond caller c).2

end Script

/-- What a task is doing. -/
inductive Activity (σ : Type) where
  | ready (script : Script (Turn σ))
  | asleep (wake : Option Nat) (elapsed : Script (Turn σ)) (cut : Option (Script (Turn σ)))
  | ended (ending : Ending) (time : Nat)

namespace Activity

variable {σ : Type}

/-- What is left of a turn that came to rest. A service that is shut down during a rest ends. -/
def ofStop (turn : σ → Script (Turn σ)) (shutDown : Bool) (time : Nat) :
    Stop (Turn σ) → Activity σ
  | .asleep wake elapsed cut => .asleep wake elapsed cut
  | .ended (.finished ending) => .ended ending time
  | .ended (.again .yield state) => .ready (turn state)
  | .ended (.again (.pause ms) state) =>
    if shutDown then .ended .ok time
    else if ms = 0 then .ready (turn state)
    else .asleep (some (wakeAfter time ms)) (turn state) (some (.done (.finished .ok)))

/-- A task whose time has come, or whose signal is given, is ready. -/
def rouse (shutDown : Bool) (time : Nat) : Activity σ → Activity σ
  | .asleep wake elapsed cut =>
    if wake.any (· ≤ time) then .ready elapsed
    else match shutDown, cut with
      | true, some script => .ready script
      | _, _ => .asleep wake elapsed cut
  | activity => activity

/-- Whether the task is ready to run. -/
def isReady : Activity σ → Bool
  | ready _ => true
  | _ => false

/-- Whether the task has ended. -/
def isEnded : Activity σ → Bool
  | ended .. => true
  | _ => false

/-- How and when the task has ended, if it has. -/
def ending? : Activity σ → Option (Ending × Nat)
  | ended ending time => some (ending, time)
  | _ => none

/-- The time at which the task wakes, if it waits for one. -/
def wake? : Activity σ → Option Nat
  | asleep wake _ _ => wake
  | _ => none

end Activity

/-- A running service. -/
structure Task (σ : Type) where
  caller : Caller
  activity : Activity σ

/-- The ending of the task that stands at the index, if it has ended. -/
def endingAt? {σ : Type} (tasks : List (Task σ)) (index : Nat) : Option (Ending × Nat) :=
  tasks[index]?.bind (·.activity.ending?)

/-! ## All tasks -/

/-- Tasks side by side on a testbed, whose clock they share. -/
structure Schedule (σ : Type) where
  bed : Testbed
  tasks : List (Task σ)

namespace Schedule

variable {σ : Type}

/-- Lets a task run if it is ready, and then the authorizations that it launched. -/
def resume (turn : σ → Script (Turn σ)) (task : Task σ) (bed : Testbed) : Task σ × Testbed :=
  match task.activity with
  | .ready script =>
    let (stop, bed) := script.drive task.caller bed
    ({ task with
        activity := .ofStop turn (bed.isShutDown task.caller.signal) bed.time stop }, bed)
  | _ => (task, bed)

/-- Lets the ready tasks run, one after another. -/
def resumeAll (turn : σ → Script (Turn σ)) : List (Task σ) → Testbed → List (Task σ) × Testbed
  | [], bed => ([], bed)
  | task :: rest, bed =>
    let (task, bed) := resume turn task bed
    let (rest, bed) := resumeAll turn rest bed
    (task :: rest, bed)

/-- Every ready task runs up to where it waits, and then the launched authorizations run. -/
def round (turn : σ → Script (Turn σ)) (schedule : Schedule σ) : Schedule σ :=
  let (tasks, bed) := resumeAll turn schedule.tasks schedule.bed
  ⟨bed.runLaunched, tasks⟩

/-- Makes the tasks ready whose time has come or whose signal is given. -/
def rouse (schedule : Schedule σ) : Schedule σ :=
  { schedule with
    tasks := schedule.tasks.map fun task =>
      { task with
        activity := task.activity.rouse (schedule.bed.isShutDown task.caller.signal)
          schedule.bed.time } }

/-- Rounds until no task is ready, but at most so many. -/
def settle (turn : σ → Script (Turn σ)) : Nat → Schedule σ → Schedule σ
  | 0, schedule => schedule
  | rounds + 1, schedule =>
    let schedule := schedule.rouse
    if schedule.tasks.any (·.activity.isReady) then settle turn rounds (schedule.round turn)
    else schedule

/-- The earliest time at which a task wakes. -/
def wake? (schedule : Schedule σ) : Option Nat :=
  (schedule.tasks.filterMap (·.activity.wake?)).min?

/-- The schedule with its clock set. -/
def atTime (schedule : Schedule σ) (time : Nat) : Schedule σ :=
  { schedule with bed.time := time }

/-- Runs what happens up to a time, instant by instant; the clock moves on by one at least with
each, so that `instants` bounds their number. -/
def advance (turn : σ → Script (Turn σ)) (rounds : Testbed → Nat) (time : Nat) :
    Nat → Schedule σ → Schedule σ
  | 0, schedule => schedule.atTime time
  | instants + 1, schedule =>
    let schedule := schedule.settle turn (rounds schedule.bed)
    match schedule.wake? with
    | none => schedule.atTime time
    | some wake =>
      if wake ≤ time then advance turn rounds time instants (schedule.atTime wake)
      else schedule.atTime time

end Schedule

/-! ## How many rounds an instant takes -/

namespace Testbed

mutual

/-- A bound on what a change adds to the work of an instant. -/
def Mutation.weight : Mutation → Nat
  | .failNext _ n => n + 1
  | .inject _ n => n + 1
  | .hook _ actions => weights actions + 1
  | _ => 1

/-- The sum of the bounds of several changes. -/
def Mutation.weights : List Mutation → Nat
  | [] => 0
  | mutation :: rest => mutation.weight + weights rest

end

/-- More rounds than an instant takes: a task is ready again at once only after it used up a
failure, moved past an event, or found the feed changed. -/
def rounds (bed : Testbed) : Nat :=
  let hooked := bed.hooks.foldl (fun n hook => n + Mutation.weights hook.actions + 1) 0
  let injected := bed.injections.foldl (fun n injection => n + injection.remaining) 0
  (bed.failures .fetch + injected + hooked + 4) * (bed.agent.events.length + hooked + 4)

end Testbed

namespace Schedule

variable {σ : Type}

/-- Runs everything that happens up to and at a time. -/
def advanceTo (turn : σ → Script (Turn σ)) (time : Nat) (schedule : Schedule σ) : Schedule σ :=
  let time := max time schedule.bed.time
  schedule.advance turn Testbed.rounds time (time + 1 - schedule.bed.time)

/-- Waits until a time. Services run only while time is waited for: if it has come already, nothing
runs, and a service that was just started has not begun. -/
def waitUntil (turn : σ → Script (Turn σ)) (time : Nat) (schedule : Schedule σ) : Schedule σ :=
  if time ≤ schedule.bed.time then schedule else schedule.advanceTo turn time

/-- Gives a signal, and runs what follows from it at the same instant. -/
def shutDown (turn : σ → Script (Turn σ)) (signal : Nat) (schedule : Schedule σ) : Schedule σ :=
  let schedule := { schedule with bed := schedule.bed.signal signal }
  schedule.advanceTo turn schedule.bed.time

/-- Whether all tasks have ended. -/
def isOver (schedule : Schedule σ) : Bool :=
  schedule.tasks.all (·.activity.isEnded)

end Schedule

end Feedkeeper
