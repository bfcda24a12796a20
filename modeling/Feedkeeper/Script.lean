import Feedkeeper.Call

/-!
# Scripts

A procedure is a *script*: a finite tree of calls, each followed by a script for every answer. What
the calls do is left to whoever runs the script, so the same script can be run against stores in
memory, be interrupted between two calls, or be looked at under any pattern of failures.
`Script.run` runs a script against a state of type `W`; `run_bind` says that running one script
after another is running their sequence.
-/

namespace Feedkeeper

/-- A procedure that makes calls and ends with a value. -/
inductive Script (α : Type) where
  | done (value : α)
  | call (c : Call) (next : c.Answer → Script α)

namespace Script

variable {α β W : Type}

/-- One script after another. -/
def bind : Script α → (α → Script β) → Script β
  | done value, f => f value
  | call c next, f => call c fun answer => bind (next answer) f

instance : Monad Script where
  pure := done
  bind := bind

/-- The script of a single call. -/
def ask (c : Call) : Script c.Answer :=
  call c done

/-- Ending with the value of a script adds nothing to it. -/
theorem bind_done (script : Script α) : bind script done = script := by
  induction script with
  | done value => rfl
  | call c next ih => simp [bind, ih]

/-- Sequences of scripts may be bracketed either way. -/
theorem bind_assoc {γ : Type} (script : Script α) (f : α → Script β) (g : β → Script γ) :
    bind (bind script f) g = bind script fun value => bind (f value) g := by
  induction script with
  | done value => rfl
  | call c next ih => simp [bind, ih]

instance : LawfulMonad Script :=
  LawfulMonad.mk' Script bind_done (fun _ _ => rfl) bind_assoc

/-- Runs a script, given what each call answers and does. -/
def run (answer : (c : Call) → W → c.Answer × W) : Script α → W → α × W
  | done value, world => (value, world)
  | call c next, world => run answer (next (answer c world).1) (answer c world).2

/-- A script without calls leaves the state as it is. -/
@[simp] theorem run_done (answer : (c : Call) → W → c.Answer × W) (value : α) (world : W) :
    run answer (done value) world = (value, world) :=
  rfl

/-- The script of a call does what the call does. -/
@[simp] theorem run_ask (answer : (c : Call) → W → c.Answer × W) (c : Call) (world : W) :
    run answer (ask c) world = answer c world :=
  rfl

/-- A sequence is run by running its parts in turn. -/
theorem run_bind (answer : (c : Call) → W → c.Answer × W) (script : Script α)
    (f : α → Script β) (world : W) :
    run answer (bind script f) world =
      run answer (f (run answer script world).1) (run answer script world).2 := by
  induction script generalizing world with
  | done value => rfl
  | call c next ih => simp [bind, run, ih]

end Script

/-! ## Scripts that can fail -/

/-- A script that ends with a value or a routing error; an error ends it at once. -/
abbrev Attempt := ExceptT RoutingError Script

namespace Attempt

variable {α : Type}

/-- Takes the answer of a call whose failure is a failure of a local store. -/
def store (script : Script (Except Fault α)) : Attempt α :=
  ExceptT.mk do return (← script).mapError .store

/-- Takes the answer of a call whose failure is a failure of a group action. -/
def action (script : Script (Except Fault α)) : Attempt α :=
  ExceptT.mk do return (← script).mapError .action

/-- Takes the answer of a call whose failure is a failure to reach the agent. -/
def transport (script : Script (Except TransportFailure α)) : Attempt α :=
  ExceptT.mk do return (← script).mapError .transport

end Attempt

end Feedkeeper
