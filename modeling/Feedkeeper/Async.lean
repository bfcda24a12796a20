import Feedkeeper.Clock

/-!
# Procedures beside services

A procedure that starts services, gives signals, and waits for signals and for services to end. It
is a task like the services that it starts: whoever runs it lets it go on up to the point where it
waits (`Async.poll`), and again once it can go on (`Async.isReady`). Two procedures may go on side
by side (`Async.both`).

A `Runtime` is a schedule of services with such a procedure. It goes on step by step
(`Runtime.next?`): as long as a service or the procedure is ready there is one more round at the
same instant, and then the clock goes on to the next time at which a service wakes. There is no
bound on the rounds of an instant, so that a run up to a time has no outcome if one of its instants
never comes to an end (`Runtime.run`).
-/

namespace Feedkeeper

open Testbed (Role Mutation)

namespace Async

variable {σ : Type}

/-- What a procedure asks of the schedule that it runs beside. -/
inductive Request (σ : Type) where
  /-- A signal that nobody else has. -/
  | fresh
  /-- A signal that nobody else has, and that is given along with another. -/
  | child (signal : Nat)
  | give (signal : Nat)
  /-- Waits until the signal is given. -/
  | await (signal : Nat)
  /-- Starts a service under a signal, as a task whose place is answered. -/
  | spawn (role : Role) (signal : Nat) (state : σ)
  /-- Waits until the task in a place has ended. -/
  | join (task : Nat)
  | now

/-- What a request is answered with. -/
abbrev Request.Answer : Request σ → Type
  | fresh | child _ | spawn .. | now => Nat
  | give _ | await _ => Unit
  | join _ => Ending

/-- Answers a request; nothing if it has to wait. -/
def Request.answer? (turn : σ → Script (Turn σ)) :
    (request : Request σ) → Schedule σ → Option (request.Answer × Schedule σ)
  | fresh, schedule =>
    let (signal, bed) := schedule.bed.freshSignal
    some (signal, { schedule with bed })
  | child signal, schedule =>
    let (signal, bed) := schedule.bed.childSignal signal
    some (signal, { schedule with bed })
  | give signal, schedule => some ((), { schedule with bed := schedule.bed.signal signal })
  | await signal, schedule => if schedule.bed.isShutDown signal then some ((), schedule) else none
  | spawn role signal state, schedule =>
    let task : Task σ := ⟨⟨role, signal⟩, .ready (turn state)⟩
    some (schedule.tasks.length, { schedule with tasks := schedule.tasks ++ [task] })
  | join task, schedule => (endingAt? schedule.tasks task).map fun ended => (ended.1, schedule)
  | now, schedule => some (schedule.bed.time, schedule)

end Async

/-- A procedure that ends with a value. -/
inductive Async (σ : Type) : Type → Type 1 where
  | done {α : Type} (value : α) : Async σ α
  | ask {α : Type} (request : Async.Request σ) (next : request.Answer → Async σ α) : Async σ α
  /-- Two procedures side by side, until both have ended. -/
  | both {α β γ : Type} (left : Async σ α) (right : Async σ β) (next : α → β → Async σ γ) :
    Async σ γ

namespace Async

variable {σ α β : Type}

/-- One procedure after another. -/
def bind : Async σ α → (α → Async σ β) → Async σ β
  | done value, f => f value
  | ask request next, f => ask request fun answer => bind (next answer) f
  | both left right next, f => both left right fun value other => bind (next value other) f

instance : Monad (Async σ) where
  pure := done
  bind := bind

/-- Ending with the value of a procedure adds nothing to it. -/
theorem bind_done (procedure : Async σ α) : bind procedure done = procedure := by
  induction procedure with
  | done value => rfl
  | ask request next ih => simp [bind, ih]
  | both left right next _ _ ih => simp [bind, ih]

/-- Sequences of procedures may be bracketed either way. -/
theorem bind_assoc {γ : Type} (procedure : Async σ α) (f : α → Async σ β) (g : β → Async σ γ) :
    bind (bind procedure f) g = bind procedure fun value => bind (f value) g := by
  induction procedure with
  | done value => rfl
  | ask request next ih => simp [bind, ih]
  | both left right next _ _ ih => simp [bind, ih]

instance : LawfulMonad (Async σ) :=
  LawfulMonad.mk' (Async σ) bind_done (fun _ _ => rfl) bind_assoc

/-- The procedure of a single request. -/
def request (request : Request σ) : Async σ request.Answer :=
  ask request done

/-- The value of a procedure that has ended. -/
def value? : Async σ α → Option α
  | done value => some value
  | _ => none

/-- All of some procedures side by side. -/
def all : List (Async σ α) → Async σ (List α)
  | [] => done []
  | first :: rest => both first (all rest) fun value values => done (value :: values)

/-- A procedure with the time at which it ended. -/
def timed (procedure : Async σ α) : Async σ (α × Nat) := do
  let value ← procedure
  return (value, ← request .now)

/-- Lets a procedure go on until it waits. -/
def poll (turn : σ → Script (Turn σ)) :
    {α : Type} → Async σ α → Schedule σ → Async σ α × Schedule σ
  | _, done value, schedule => (done value, schedule)
  | _, ask request next, schedule =>
    match request.answer? turn schedule with
    | some (answer, schedule) => poll turn (next answer) schedule
    | none => (ask request next, schedule)
  | _, both left right next, schedule =>
    let (left, schedule) := poll turn left schedule
    let (right, schedule) := poll turn right schedule
    match left.value?, right.value? with
    | some value, some other => poll turn (next value other) schedule
    | _, _ => (both left right next, schedule)

/-- Whether a procedure can go on. -/
def isReady (turn : σ → Script (Turn σ)) : {α : Type} → Async σ α → Schedule σ → Bool
  | _, done _, _ => false
  | _, ask request _, schedule => (request.answer? turn schedule).isSome
  | _, both left right _, schedule =>
    isReady turn left schedule || isReady turn right schedule ||
      left.value?.isSome && right.value?.isSome

end Async

/-- Services on a schedule and a procedure beside them. -/
structure Runtime (σ α : Type) where
  schedule : Schedule σ
  procedure : Async σ α

namespace Runtime

variable {σ α : Type}

/-- A procedure at the start of the clock. -/
def start (procedure : Async σ α) (bed : Testbed) : Runtime σ α :=
  ⟨⟨{ bed with time := 0 }, []⟩, procedure⟩

/-- The time on the clock. -/
def time (runtime : Runtime σ α) : Nat :=
  runtime.schedule.bed.time

/-- The runtime with its clock set. -/
def atTime (runtime : Runtime σ α) (time : Nat) : Runtime σ α :=
  { runtime with schedule := runtime.schedule.atTime time }

/-- The runtime after a change from outside. -/
def apply (runtime : Runtime σ α) (mutation : Mutation) : Runtime σ α :=
  { runtime with schedule.bed := runtime.schedule.bed.apply mutation }

/-- The runtime after a signal was given from outside. -/
def give (runtime : Runtime σ α) (signal : Nat) : Runtime σ α :=
  { runtime with schedule.bed := runtime.schedule.bed.signal signal }

/-- Makes the services ready whose time has come or whose signal is given. -/
def rouse (runtime : Runtime σ α) : Runtime σ α :=
  { runtime with schedule := runtime.schedule.rouse }

variable (turn : σ → Script (Turn σ))

/-- Whether a service or the procedure is ready. -/
def isReady (runtime : Runtime σ α) : Bool :=
  runtime.schedule.tasks.any (·.activity.isReady) ||
    runtime.procedure.isReady turn runtime.schedule

/-- Lets the procedure go on. -/
def poll (runtime : Runtime σ α) : Runtime σ α :=
  let (procedure, schedule) := runtime.procedure.poll turn runtime.schedule
  ⟨schedule, procedure⟩

/-- The ready services run, and then the procedure goes on. -/
def round (runtime : Runtime σ α) : Runtime σ α :=
  poll turn { runtime with schedule := runtime.schedule.round turn }

/-- The next step up to a time: a round if anything is ready, and else the clock goes on to when a
service wakes. Nothing if nothing happens up to that time any more. -/
def next? (time : Nat) (runtime : Runtime σ α) : Option (Runtime σ α) :=
  if runtime.rouse.isReady turn then some (runtime.rouse.round turn)
  else
    match runtime.schedule.wake? with
    | some wake => if wake ≤ time then some (runtime.atTime wake) else none
    | none => none

section

variable (time : Nat)

/-- Runs everything that happens up to and at a time. -/
def run (runtime : Runtime σ α) : Option (Runtime σ α) :=
  match runtime.next? turn time with
  | some next => by
    -- Made by a tactic, the recursive call carries no position in the source with it.
    apply run
    exact next
  | none => some (runtime.atTime (max time runtime.time))
partial_fixpoint

end

/-- Waits until a time. Services run only while time is waited for: if it has come already, nothing
runs. -/
def waitUntil (time : Nat) (runtime : Runtime σ α) : Option (Runtime σ α) :=
  if time ≤ runtime.time then some runtime else runtime.run turn time

/-- Makes changes at their times. -/
def follow : List (Nat × Mutation) → Runtime σ α → Option (Runtime σ α)
  | [], runtime => some runtime
  | (time, mutation) :: rest, runtime =>
    (runtime.waitUntil turn time).bind fun runtime => follow rest (runtime.apply mutation)

end Runtime

end Feedkeeper
