import Feedkeeper.Host
import Feedkeeper.Proofs.Runtime

/-!
# What services end with

How a service ends is not seen by the others. If every failure is taken for another ending, or for
none, then all the services do the same at the same times, and only their endings are the others
(`Schedule.round_relabel`).

A procedure beside the services sees how they end. Two procedures are alike (`Async.Alike`) if they
ask the same, whatever the services end with, and they stay alike in the course of time
(`Runtime.Alike.run`).
-/

namespace Feedkeeper

open Script Testbed

variable {σ α β : Type}

/-- The stop with what comes of it changed. -/
def Stop.map (f : α → β) : Stop α → Stop β
  | .ended value => .ended (f value)
  | .asleep wake elapsed cut => .asleep wake (f <$> elapsed) (cut.map (f <$> ·))

/-- What comes of a script makes no difference to where it rests. -/
theorem Script.drive_map (f : α → β) (caller : Caller) (script : Script α) (bed : Testbed) :
    (f <$> script).drive caller bed =
      ((script.drive caller bed).1.map f, (script.drive caller bed).2) := by
  have rests : Rests caller (fun stop bed' =>
      (stop, bed') = ((script.drive caller bed).1.map f, (script.drive caller bed).2))
      (script >>= fun value => pure (f value)) bed := by
    rw [rests_bind, Rests]
    cases (script.drive caller bed).1 <;> rfl
  rw [map_eq_pure_bind]
  exact rests

section

variable (f : Ending → Ending)

/-- The turn with its ending changed. -/
def Turn.relabel : Turn σ → Turn σ
  | .again rest state => .again rest state
  | .finished ending => .finished (f ending)

/-- The activity with its endings changed, those to come as well. -/
def Activity.relabel : Activity σ → Activity σ
  | .ready script => .ready (Turn.relabel f <$> script)
  | .asleep wake elapsed cut =>
    .asleep wake (Turn.relabel f <$> elapsed) (cut.map (Turn.relabel f <$> ·))
  | .ended ending time => .ended (f ending) time

/-- The task with its endings changed. -/
def Task.relabel (task : Task σ) : Task σ :=
  { task with activity := task.activity.relabel f }

/-- The schedule with the endings of its tasks changed. -/
def Schedule.relabel (schedule : Schedule σ) : Schedule σ :=
  { schedule with tasks := schedule.tasks.map (Task.relabel f) }

/-- The turns of services whose endings are changed. -/
def relabelled (turn : σ → Script (Turn σ)) (state : σ) : Script (Turn σ) :=
  Turn.relabel f <$> turn state

end

variable {f : Ending → Ending} {turn : σ → Script (Turn σ)}

/-! ## One task -/

namespace Activity

@[simp] theorem isReady_relabel (activity : Activity σ) :
    (activity.relabel f).isReady = activity.isReady := by
  cases activity <;> rfl

@[simp] theorem wake?_relabel (activity : Activity σ) :
    (activity.relabel f).wake? = activity.wake? := by
  cases activity <;> rfl

theorem rouse_relabel (activity : Activity σ) (shutDown : Bool) (time : Nat) :
    (activity.relabel f).rouse shutDown time = (activity.rouse shutDown time).relabel f := by
  cases activity with
  | ready | ended => rfl
  | asleep wake elapsed cut =>
    cases shutDown <;> cases cut <;>
      · simp only [relabel, rouse, Option.map_none, Option.map_some]
        split <;> rfl

/-- A service that ends well when it is shut down does so with its endings changed. -/
theorem ofStop_relabel (well : f .ok = .ok) (shutDown : Bool) (time : Nat)
    (stop : Stop (Turn σ)) :
    ofStop (relabelled f turn) shutDown time (stop.map (Turn.relabel f)) =
      (ofStop turn shutDown time stop).relabel f := by
  cases stop with
  | asleep wake elapsed cut => rfl
  | ended last =>
    cases last with
    | finished ending => rfl
    | again rest state =>
      cases rest with
      | yield => rfl
      | pause ms =>
        have ends : (Turn.relabel f <$> done (.finished .ok) : Script (Turn σ)) =
            done (.finished .ok) :=
          congrArg (fun ending => (done (.finished ending) : Script (Turn σ))) well
        simp only [Stop.map, Turn.relabel, ofStop]
        split
        · rw [relabel, well]
        · split
          · rfl
          · rw [relabel, Option.map_some, ends]
            rfl

end Activity

namespace Schedule

theorem resume_relabel (well : f .ok = .ok) (task : Task σ) (bed : Testbed) :
    resume (relabelled f turn) (task.relabel f) bed =
      ((resume turn task bed).1.relabel f, (resume turn task bed).2) := by
  obtain ⟨caller, activity⟩ := task
  cases activity with
  | asleep | ended => rfl
  | ready script =>
    simp only [resume, Task.relabel, Activity.relabel, Script.drive_map,
      Activity.ofStop_relabel well]

theorem resumeAll_relabel (well : f .ok = .ok) (tasks : List (Task σ)) (bed : Testbed) :
    resumeAll (relabelled f turn) (tasks.map (Task.relabel f)) bed =
      ((resumeAll turn tasks bed).1.map (Task.relabel f), (resumeAll turn tasks bed).2) := by
  induction tasks generalizing bed with
  | nil => rfl
  | cons task rest ih => simp only [List.map_cons, resumeAll, resume_relabel well, ih]

variable (schedule : Schedule σ)

theorem round_relabel (well : f .ok = .ok) :
    (schedule.relabel f).round (relabelled f turn) = (schedule.round turn).relabel f := by
  simp only [round, relabel, resumeAll_relabel well]

theorem rouse_relabel : (schedule.relabel f).rouse = schedule.rouse.relabel f := by
  simp only [rouse, relabel, List.map_map]
  congr 1
  refine List.map_congr_left fun task _ => ?_
  simp only [Function.comp_apply, Task.relabel, Activity.rouse_relabel]

theorem any_isReady_relabel : (schedule.relabel f).tasks.any (·.activity.isReady) =
    schedule.tasks.any (·.activity.isReady) := by
  rw [relabel, List.any_map]
  exact congrArg schedule.tasks.any (funext fun task => Activity.isReady_relabel task.activity)

theorem wake?_relabel : (schedule.relabel f).wake? = schedule.wake? := by
  rw [wake?, wake?, relabel, List.filterMap_map]
  exact congrArg (fun asleep => (schedule.tasks.filterMap asleep).min?)
    (funext fun task => Activity.wake?_relabel task.activity)

theorem endings_relabel : (schedule.relabel f).endings =
    schedule.endings.map (Option.map fun ended => (f ended.1, ended.2)) := by
  rw [endings, endings, relabel, List.map_map, List.map_map]
  refine List.map_congr_left fun task _ => ?_
  obtain ⟨caller, activity⟩ := task
  cases activity <;> rfl

theorem endingAt?_relabel (tasks : List (Task σ)) (index : Nat) :
    endingAt? (tasks.map (Task.relabel f)) index =
      (endingAt? tasks index).map fun ended => (f ended.1, ended.2) := by
  rw [endingAt?, endingAt?, List.getElem?_map, Option.bind_map, Option.map_bind]
  refine Option.bind_congr fun task _ => ?_
  obtain ⟨caller, activity⟩ := task
  cases activity <;> rfl

end Schedule

/-! ## Procedures beside the services -/

namespace Async

/-- The answer to a request once the endings are changed. -/
def Request.relabel (f : Ending → Ending) : (request : Request σ) → request.Answer → request.Answer
  | .join _, ending => f ending
  | .fresh, answer | .child _, answer | .give _, answer | .await _, answer | .spawn .., answer
  | .now, answer => answer

/-- Two procedures that ask the same, the second one where the endings are changed, and that end
with values related by `R`. -/
inductive Alike (f : Ending → Ending) :
    {α β : Type} → (α → β → Prop) → Async σ α → Async σ β → Prop where
  | done {α β : Type} {R : α → β → Prop} {value : α} {value' : β} (related : R value value') :
    Alike f R (.done value) (.done value')
  | ask {α β : Type} {R : α → β → Prop} (request : Request σ) {next : request.Answer → Async σ α}
    {next' : request.Answer → Async σ β}
    (goesOn : ∀ answer, Alike f R (next answer) (next' (request.relabel f answer))) :
    Alike f R (.ask request next) (.ask request next')
  | both {α β γ α' β' γ' : Type} {R : γ → γ' → Prop} {S : α → α' → Prop} {T : β → β' → Prop}
    {left : Async σ α} {left' : Async σ α'} {right : Async σ β} {right' : Async σ β'}
    {next : α → β → Async σ γ} {next' : α' → β' → Async σ γ'} (lefts : Alike f S left left')
    (rights : Alike f T right right')
    (goesOn : ∀ value value' other other', S value value' → T other other' →
      Alike f R (next value other) (next' value' other')) :
    Alike f R (.both left right next) (.both left' right' next')

theorem Request.answer?_relabel (request : Request σ) (schedule : Schedule σ) :
    request.answer? (relabelled f turn) (schedule.relabel f) =
      (request.answer? turn schedule).map fun (answer, schedule) =>
        (request.relabel f answer, schedule.relabel f) := by
  cases request with
  | fresh | child | give | now => rfl
  | await signal =>
    have same : (schedule.relabel f).bed = schedule.bed := rfl
    rw [answer?, answer?, same]
    split <;> rfl
  | spawn role signal state =>
    simp only [answer?, Schedule.relabel, List.length_map, List.map_append, Option.map_some]
    rfl
  | join task =>
    have same : (schedule.relabel f).tasks = schedule.tasks.map (Task.relabel f) := rfl
    rw [answer?, answer?, same, Schedule.endingAt?_relabel]
    cases endingAt? schedule.tasks task <;> rfl

namespace Alike

variable {R : α → β → Prop} {procedure : Async σ α} {procedure' : Async σ β}

theorem value? (alike : Alike f R procedure procedure') :
    Option.Rel R procedure.value? procedure'.value? := by
  cases alike with
  | done related => exact .some related
  | ask | both => exact .none

/-- Procedures that are alike go on alike. -/
theorem poll (turn : σ → Script (Turn σ)) (alike : Alike f R procedure procedure')
    (schedule : Schedule σ) :
    Alike f R (procedure.poll turn schedule).1
        (procedure'.poll (relabelled f turn) (schedule.relabel f)).1 ∧
      (procedure'.poll (relabelled f turn) (schedule.relabel f)).2 =
        (procedure.poll turn schedule).2.relabel f := by
  induction alike generalizing schedule with
  | done related => exact ⟨.done related, rfl⟩
  | ask request goesOn ih =>
    rw [Async.poll, Async.poll, Request.answer?_relabel]
    cases request.answer? turn schedule with
    | none => exact ⟨.ask request goesOn, rfl⟩
    | some answered => exact ih answered.1 answered.2
  | @both _ _ _ _ _ _ R S T left left' right right' next next' lefts rights goesOn
      ihLeft ihRight ih =>
    obtain ⟨lefts, same⟩ := ihLeft schedule
    obtain ⟨rights, same'⟩ := ihRight (left.poll turn schedule).2
    rw [Async.poll, Async.poll]
    dsimp only
    rw [same, same']
    have values := lefts.value?
    have others := rights.value?
    generalize (left.poll turn schedule).1.value? = value at values ⊢
    generalize (left'.poll (relabelled f turn) (schedule.relabel f)).1.value? = value' at values ⊢
    generalize (right.poll turn (left.poll turn schedule).2).1.value? = other at others ⊢
    generalize (right'.poll (relabelled f turn) ((left.poll turn schedule).2.relabel f)).1.value? =
      other' at others ⊢
    cases values with
    | none => exact ⟨.both lefts rights goesOn, rfl⟩
    | some related =>
      cases others with
      | none => exact ⟨.both lefts rights goesOn, rfl⟩
      | some related' => exact ih _ _ _ _ related related' _

theorem isReady (alike : Alike f R procedure procedure') (schedule : Schedule σ) :
    procedure'.isReady (relabelled f turn) (schedule.relabel f) =
      procedure.isReady turn schedule := by
  induction alike with
  | done related => rfl
  | ask request goesOn =>
    rw [Async.isReady, Async.isReady, Request.answer?_relabel, Option.isSome_map]
  | both lefts rights goesOn ihLeft ihRight =>
    have values : ∀ {α β : Type} {R : α → β → Prop} {value : Option α} {value' : Option β},
        Option.Rel R value value' → value'.isSome = value.isSome := by
      rintro _ _ _ _ _ (_ | _) <;> rfl
    rw [Async.isReady, Async.isReady, ihLeft, ihRight, values lefts.value?, values rights.value?]

/-- Sequences of procedures that are alike are alike. -/
theorem bind {γ δ : Type} {S : γ → δ → Prop} {next : α → Async σ γ} {next' : β → Async σ δ}
    (alike : Alike f R procedure procedure')
    (goesOn : ∀ value value', R value value' → Alike f S (next value) (next' value')) :
    Alike f S (procedure >>= next) (procedure' >>= next') := by
  induction alike with
  | done related => exact goesOn _ _ related
  | ask request _ ih => exact .ask request fun answer => ih answer goesOn
  | both lefts rights _ _ _ ih =>
    exact .both lefts rights fun _ _ _ _ related related' => ih _ _ _ _ related related' goesOn

end Alike

end Async

/-! ## Runs -/

namespace Runtime

/-- Two runtimes of which the second is the first with the endings of its services changed. -/
structure Alike (f : Ending → Ending) (R : α → β → Prop) (runtime : Runtime σ α)
    (runtime' : Runtime σ β) : Prop where
  schedule : runtime'.schedule = runtime.schedule.relabel f
  procedure : Async.Alike f R runtime.procedure runtime'.procedure

namespace Alike

variable {R : α → β → Prop} {runtime : Runtime σ α} {runtime' : Runtime σ β} {time : Nat}

theorem time_eq (alike : Alike f R runtime runtime') : runtime'.time = runtime.time := by
  rw [Runtime.time, alike.schedule]
  rfl

theorem atTime (alike : Alike f R runtime runtime') (time : Nat) :
    Alike f R (runtime.atTime time) (runtime'.atTime time) :=
  ⟨congrArg (Schedule.atTime · time) alike.schedule, alike.procedure⟩

theorem give (alike : Alike f R runtime runtime') (signal : Nat) :
    Alike f R (runtime.give signal) (runtime'.give signal) := by
  refine ⟨?_, alike.procedure⟩
  rw [Runtime.give, alike.schedule]
  rfl

theorem rouse (alike : Alike f R runtime runtime') : Alike f R runtime.rouse runtime'.rouse := by
  refine ⟨?_, alike.procedure⟩
  rw [Runtime.rouse, alike.schedule]
  exact Schedule.rouse_relabel _

theorem isReady (alike : Alike f R runtime runtime') :
    runtime'.isReady (relabelled f turn) = runtime.isReady turn := by
  rw [Runtime.isReady, Runtime.isReady, alike.schedule, Schedule.any_isReady_relabel,
    alike.procedure.isReady]

theorem round (well : f .ok = .ok) (alike : Alike f R runtime runtime') :
    Alike f R (runtime.round turn) (runtime'.round (relabelled f turn)) := by
  obtain ⟨procedure, schedule⟩ := alike.procedure.poll turn (runtime.schedule.round turn)
  rw [← Schedule.round_relabel _ well, ← alike.schedule] at procedure schedule
  exact ⟨schedule, procedure⟩

theorem next? (turn : σ → Script (Turn σ)) (well : f .ok = .ok)
    (alike : Alike f R runtime runtime') (time : Nat) :
    Option.Rel (Alike f R) (runtime.next? turn time)
      (runtime'.next? (relabelled f turn) time) := by
  rw [Runtime.next?, Runtime.next?, alike.rouse.isReady, alike.schedule, Schedule.wake?_relabel]
  split
  · exact .some (alike.rouse.round well)
  · cases runtime.schedule.wake? with
    | none => exact .none
    | some wake =>
      dsimp only
      split
      · exact .some (alike.atTime wake)
      · exact .none

/-- With the endings changed, all happens as it did. -/
theorem run {last : Runtime σ α} (well : f .ok = .ok) (alike : Alike f R runtime runtime')
    (ran : runtime.run turn time = some last) :
    ∃ last', runtime'.run (relabelled f turn) time = some last' ∧ Alike f R last last' := by
  induction run_eq_some_iff.1 ran generalizing runtime' with
  | @rest runtime found =>
    have next := alike.next? turn well time
    rw [found] at next
    cases there : runtime'.next? (relabelled f turn) time with
    | some after =>
      rw [there] at next
      cases next
    | none =>
      refine ⟨_, run_eq_some_iff.2 (.rest there), ?_⟩
      rw [alike.time_eq]
      exact alike.atTime _
  | @step runtime next last found rest ih =>
    have related := alike.next? turn well time
    rw [found] at related
    cases there : runtime'.next? (relabelled f turn) time with
    | none =>
      rw [there] at related
      cases related
    | some after =>
      rw [there] at related
      cases related with
      | some goesOn =>
        obtain ⟨last', ran', ends⟩ := ih goesOn (run_eq_some_iff.2 rest)
        exact ⟨last', run_eq_some_iff.2 (.step there (run_eq_some_iff.1 ran')), ends⟩

end Alike

end Runtime

end Feedkeeper
