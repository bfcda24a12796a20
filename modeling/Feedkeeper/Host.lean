import Feedkeeper.Async

/-!
# Hosting services

Starting services on a virtual clock, shutting them down, and waiting for them to return. A *handle*
on a service that was started can stop it and wait for it (`Handle.stop`). A *host* runs several
services until a signal (`Host.runUntil`): it starts each under a signal that is given along with
that one, waits for the signal, even if all services have ended before, and stops all of them side
by side. Its result is that of the first service, in order, that did not end well.
-/

namespace Feedkeeper

open Testbed (Caller Role Mutation)

namespace Schedule

variable {σ : Type}

/-- The services ready to start, all under one signal. -/
def start (turn : σ → Script (Turn σ)) (signal : Nat) (services : List (Role × σ))
    (bed : Testbed) : Schedule σ :=
  ⟨{ bed with time := 0 },
    services.map fun service => ⟨⟨service.1, signal⟩, .ready (turn service.2)⟩⟩

/-- Makes changes at their times. -/
def follow (turn : σ → Script (Turn σ)) : List (Nat × Mutation) → Schedule σ → Schedule σ
  | [], schedule => schedule
  | (time, mutation) :: rest, schedule =>
    let schedule := schedule.waitUntil turn time
    follow turn rest { schedule with bed := schedule.bed.apply mutation }

/-- The ending of each task and its time; nothing for a task that still runs. -/
def endings (schedule : Schedule σ) : List (Option (Ending × Nat)) :=
  schedule.tasks.map (·.activity.ending?)

end Schedule

/-! ## Handles -/

/-- A service before its start. -/
structure Service (σ : Type) where
  name : String
  role : Role
  state : σ

/-- Why a service did not end well. -/
inductive Service.Failure where
  | failed (fault : Fault)
  /-- The service with the name crashed. -/
  | crashed (name : String)
  deriving DecidableEq, Repr

/-- What the ending of a service with the name comes to. -/
def Ending.outcome (name : String) : Ending → Except Service.Failure Unit
  | ok => .ok ()
  | failed fault => .error (.failed fault)
  | crashed => .error (.crashed name)

/-- A service that was started, and the signal that stops it. -/
structure Handle where
  name : String
  signal : Nat
  /-- The place of its task. -/
  task : Nat
  deriving DecidableEq, Repr

namespace Handle

variable {σ : Type}

/-- Starts a service under a signal. -/
def spawnUnder (service : Service σ) (signal : Nat) : Async σ Handle := do
  let task ← Async.request (.spawn service.role signal service.state)
  return ⟨service.name, signal, task⟩

/-- Starts a service under a signal of its own. -/
def spawn (service : Service σ) : Async σ Handle := do
  spawnUnder service (← Async.request .fresh)

/-- Whether the service has ended. -/
def isFinished (handle : Handle) (schedule : Schedule σ) : Bool :=
  (endingAt? schedule.tasks handle.task).isSome

/-- Waits for the service to end. -/
def join (handle : Handle) : Async σ (Except Service.Failure Unit) := do
  return (← Async.request (.join handle.task)).outcome handle.name

/-- Gives the signal of the service, and waits for it to end. -/
def stop (handle : Handle) : Async σ (Except Service.Failure Unit) := do
  Async.request (.give handle.signal)
  handle.join

end Handle

/-! ## Hosts -/

namespace Host

variable {σ : Type}

/-- The first failure among results, if there is one. -/
def firstFailure (results : List (Except Service.Failure Unit)) : Except Service.Failure Unit :=
  let first := results.foldl (fun (first : Option Service.Failure) result =>
    match result with
    | .ok () => first
    | .error failure => some (first.getD failure)) none
  match first with
  | some failure => .error failure
  | none => .ok ()

/-- Runs services until a signal is given, and then stops all of them. -/
def runUntil (services : List (Service σ)) (shutdown : Nat) :
    Async σ (Except Service.Failure Unit) := do
  let handles ← services.mapM fun service => do
    Handle.spawnUnder service (← Async.request (.child shutdown))
  Async.request (.await shutdown)
  let results ← Async.all (handles.map Handle.stop)
  return firstFailure results

/-- A host of services with the time at which it returns. -/
abbrev Hosting (σ : Type) := Runtime σ (Except Service.Failure Unit × Nat)

section

variable (turn : σ → Script (Turn σ)) (signal : Nat) (services : List (Service σ)) (bed : Testbed)
  (shutDownAt : Nat)

/-- A host that is about to begin. -/
def begun : Hosting σ :=
  .start (runUntil services signal).timed bed

/-- The host when its signal is to be given. -/
def waited : Option (Hosting σ) :=
  (begun signal services bed).waitUntil turn shutDownAt

/-- The host at a time, its signal being given at `shutDownAt`. -/
def reached (time : Nat) : Option (Hosting σ) :=
  if time < shutDownAt then (begun signal services bed).run turn time
  else (waited turn signal services bed shutDownAt).bind fun hosting =>
    (hosting.give signal).run turn time

end

/-! ## Waiting -/

/-- Whether a pause runs out, and when it is over, given when the shutdown signal is given. It is
made by a service that ends well exactly if the pause runs out. -/
def pause (ms : Nat) (shutDownAt : Option Nat) : Bool × Nat :=
  let turn (_ : Unit) : Script (Turn Unit) := do
    if ← Script.ask (.pause ms) then return .finished .ok
    else return .finished (.failed ⟨"shut down", []⟩)
  let schedule := Schedule.start turn 0 [(.service 0, ())] {}
  let schedule := match shutDownAt with
    | some time => schedule.follow turn [(time, .shutDown)]
    | none => schedule
  let schedule := schedule.advanceTo turn (max ms (shutDownAt.getD 0))
  match schedule.endings with
  | [some (ending, time)] => (ending == .ok, time)
  | _ => (false, schedule.bed.time)

end Host

/-! ## Services that follow a plan -/

/-- What a planned service does between its start and its end. -/
inductive Plan.Behaviour where
  /-- It waits for the shutdown, and then for a time. -/
  | wait
  /-- It waits for a time, or the shutdown. -/
  | once
  /-- It puts a tick on record each time a pause is over, until the shutdown. -/
  | tick
  deriving DecidableEq, Repr

/-- A service that does what is prescribed, putting it on record. -/
structure Plan where
  name : String
  behaviour : Plan.Behaviour
  /-- The time of its pauses. -/
  after : Nat
  ending : Ending
  deriving DecidableEq, Repr

namespace Plan

open Script (ask)

/-- A planned service, which has been started or not. -/
structure State where
  plan : Plan
  started : Bool := false

/-- Puts the return on record, and ends as planned. -/
def finish (plan : Plan) : Script (Turn State) := do
  ask (.note "returned")
  return .finished plan.ending

/-- One pause of a ticking service. -/
def beat (plan : Plan) : Script (Turn State) := do
  if ← ask (.pause plan.after) then
    ask (.note "tick")
    return .again .yield { plan, started := true }
  else finish plan

/-- The turn of a planned service: what it does up to its end, or up to its next tick. -/
def turn (state : State) : Script (Turn State) := do
  let plan := state.plan
  if state.started then beat plan
  else
    ask (.note "started")
    match plan.behaviour with
    | .wait =>
      ask .awaitShutdown
      ask (.note "cancelled")
      ask (.sleep plan.after)
      finish plan
    | .once =>
      if ← ask (.pause plan.after) then finish plan
      else
        ask (.note "cancelled")
        return .finished .ok
    | .tick => beat plan

end Plan

namespace Host

/-- A line that a service put on record. -/
structure Line where
  time : Nat
  service : Nat
  text : String
  deriving DecidableEq, Repr

/-- The lines on the log, in the order of time and then of services. -/
def lines (bed : Testbed) : List Line :=
  let lines := bed.log.filterMap fun entry =>
    match entry.role, entry.call with
    | .service index, .note text => some { time := entry.time, service := index, text }
    | _, _ => none
  lines.mergeSort fun a b => a.time < b.time || (a.time == b.time && a.service ≤ b.service)

/-- How long a handle waits for its service to return. -/
def patience : Nat := 3600000

/-- The signal that a single service is started under. -/
inductive Token where
  | own
  | shared
  /-- One that is given along with a shared one. -/
  | child
  deriving DecidableEq, Repr

/-- Starts a service, and answers its handle and the signal that is shared with it. -/
def spawn (service : Service Plan.State) (token : Token) : Async Plan.State (Handle × Nat) := do
  let shared ← Async.request .fresh
  match token with
  | .own => return (← Handle.spawn service, shared)
  | .shared => return (← Handle.spawnUnder service shared, shared)
  | .child => return (← Handle.spawnUnder service (← Async.request (.child shared)), shared)

/-- What became of a single service. -/
structure HandleReport where
  finishedAtProbe : Bool
  /-- Nothing if it did not return in time. -/
  result : Option (Except Service.Failure Unit)
  endedAt : Nat
  lines : List Line

/-- Starts a service; looks at it at `probeAt`, and gives the shared signal if told so; then stops
the service, or only waits for it to return. -/
def handle (plan : Plan) (token : Token) (probeAt : Nat) (gives stops : Bool) :
    Option HandleReport :=
  let spawned := (Runtime.start (spawn ⟨plan.name, .service 0, { plan }⟩ token) {}).poll Plan.turn
  spawned.procedure.value?.bind fun (handle, shared) =>
    (spawned.waitUntil Plan.turn probeAt).bind fun probed =>
      let given := if gives then probed.give shared else probed
      let leaving : Runtime Plan.State (Except Service.Failure Unit × Nat) :=
        ⟨given.schedule, (if stops then handle.stop else handle.join).timed⟩
      (leaving.run Plan.turn (probeAt + patience)).map fun left =>
        { finishedAtProbe := handle.isFinished probed.schedule,
          result := left.procedure.value?.map (·.1),
          endedAt := (left.procedure.value?.map (·.2)).getD (probeAt + patience),
          lines := lines left.schedule.bed }

/-- What became of a host. -/
structure HostReport where
  /-- Whether the host had returned when the signal was given. -/
  finishedBefore : Bool
  result : Except Service.Failure Unit
  stoppedAt : Nat
  lines : List Line

/-- Planned services before they are started, with their places. -/
def planned (plans : List Plan) : List (Service Plan.State) :=
  plans.zipIdx.map fun (plan, index) => ⟨plan.name, .service index, { plan }⟩

/-- Hosts services under a signal that is given at a time, and looks at them once they have had the
time to return. -/
def host (plans : List Plan) (shutDownAt : Nat) : Option HostReport :=
  let services := planned plans
  let latest := shutDownAt + (plans.map (·.after)).foldl max 0
  (waited Plan.turn 0 services {} shutDownAt).bind fun before =>
    (reached Plan.turn 0 services {} shutDownAt latest).bind fun after =>
      after.procedure.value?.map fun (result, stoppedAt) =>
        { finishedBefore := before.procedure.value?.isSome, result, stoppedAt,
          lines := lines after.schedule.bed }

end Host

end Feedkeeper
