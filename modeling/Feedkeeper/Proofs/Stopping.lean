import Feedkeeper.Host
import Feedkeeper.Proofs.Driving
import Feedkeeper.Proofs.Signals

/-!
# Stopping at once

A task is *prompt* if it sleeps, and has no more to do than to end well once it is shut down
(`Activity.IsPrompt`). If the tasks of a schedule are prompt at the end of an instant, then giving
their signal ends all of them at that instant, and without a call (`Schedule.shutDown_of_isPrompt`).
Nothing happens to a schedule all of whose tasks have ended (`Schedule.advanceTo_of_isOver`).
-/

namespace Feedkeeper

open Script Testbed

/-! ## Schedules that are over -/

namespace Schedule

variable {σ : Type} {turn : σ → Script (Turn σ)} {schedule : Schedule σ}

/-- Nothing happens to a schedule that is over. -/
theorem advanceTo_of_isOver (isOver : schedule.isOver = true) (time : Nat) :
    schedule.advanceTo turn time = schedule.atTime (max time schedule.bed.time) := by
  rw [advanceTo, Nat.succ_sub (Nat.le_max_right _ _), advance,
    (isQuiet_of_isOver isOver).settle_eq, wake?_of_isOver isOver]

end Schedule

/-! ## Schedules that are prompt -/

section

variable {σ : Type}

/-- A service that is shut down ends well with such a turn. -/
def Turn.IsLast : Turn σ → Prop
  | .again (.pause _) _ | .finished .ok => True
  | _ => False

/-- The task sleeps and does no more than to end well if it is shut down, or it has ended. -/
def Activity.IsPrompt : Activity σ → Prop
  | .asleep _ _ (some (.done last)) => last.IsLast
  | .ended .. => True
  | _ => False

/-- The task after it was shut down at a time. -/
def Task.stopped (time : Nat) (task : Task σ) : Task σ :=
  match task.activity with
  | .ended .. => task
  | _ => { task with activity := .ended .ok time }

variable {turn : σ → Script (Turn σ)} {task : Task σ} {tasks : List (Task σ)} {bed : Testbed}
  {schedule : Schedule σ} {signal : Nat}

theorem Turn.IsLast.ofStop_eq {last : Turn σ} (isLast : last.IsLast) (time : Nat) :
    Activity.ofStop turn true time (.ended last) = .ended .ok time := by
  cases last with
  | again rest state =>
    cases rest with
    | pause ms => rfl
    | yield => exact isLast.elim
  | finished ending =>
    cases ending with
    | ok => rfl
    | failed | crashed => exact isLast.elim

/-- A prompt task that is shut down while it is quiet ends at once without a call. -/
theorem Activity.IsPrompt.resume_rouse (prompt : task.activity.IsPrompt)
    (quiet : task.activity.IsQuiet false bed.time)
    (given : bed.isShutDown task.caller.signal = true) :
    Schedule.resume turn { task with activity := task.activity.rouse true bed.time } bed =
      (task.stopped bed.time, bed) := by
  obtain ⟨caller, activity⟩ := task
  cases activity with
  | ready => exact prompt.elim
  | ended => rfl
  | asleep wake elapsed cut =>
    cases cut with
    | none => exact prompt.elim
    | some script =>
      cases script with
      | call => exact prompt.elim
      | done last =>
        have sleeps : wake.any (· ≤ bed.time) = false := by
          cases wake with
          | none => rfl
          | some due => simpa using quiet.1 due rfl
        rw [Activity.rouse, sleeps, if_neg Bool.false_ne_true]
        change ((⟨caller, .ofStop turn (bed.isShutDown caller.signal) bed.time (.ended last)⟩ :
          Task σ), bed) = _
        rw [given, Turn.IsLast.ofStop_eq prompt]
        rfl

theorem Schedule.resumeAll_rouse (prompt : ∀ task ∈ tasks, task.activity.IsPrompt)
    (quiet : ∀ task ∈ tasks, task.activity.IsQuiet false bed.time)
    (given : ∀ task ∈ tasks, bed.isShutDown task.caller.signal = true) :
    Schedule.resumeAll turn (tasks.map fun task =>
      { task with activity := task.activity.rouse true bed.time }) bed =
      (tasks.map (Task.stopped bed.time), bed) := by
  induction tasks with
  | nil => rfl
  | cons task rest ih =>
    rw [List.forall_mem_cons] at prompt quiet given
    rw [List.map_cons, resumeAll, prompt.1.resume_rouse quiet.1 given.1]
    dsimp only
    rw [ih prompt.2 quiet.2 given.2]
    rfl

/-- A prompt task that does not get ready when it is shut down has ended before. -/
theorem Activity.IsPrompt.stopped_eq (prompt : task.activity.IsPrompt) {time : Nat}
    (unready : (task.activity.rouse true time).isReady = false) :
    task.stopped time = { task with activity := task.activity.rouse true time } := by
  obtain ⟨caller, activity⟩ := task
  cases activity with
  | ready => exact prompt.elim
  | ended => rfl
  | asleep wake elapsed cut =>
    cases cut with
    | none => exact prompt.elim
    | some script =>
      by_cases woken : wake.any (· ≤ time) = true <;>
        simp [Activity.rouse, woken, Activity.isReady] at unready

theorem Schedule.isOver_stopped (time : Nat) :
    (⟨bed, tasks.map (Task.stopped time)⟩ : Schedule σ).isOver = true := by
  refine List.all_eq_true.2 fun stopped mem => ?_
  obtain ⟨task, -, rfl⟩ := List.mem_map.1 mem
  obtain ⟨caller, activity⟩ := task
  cases activity <;> rfl

/-- Prompt tasks that sleep when their signals are given all end at once without a call. -/
theorem Schedule.advanceTo_of_isPrompt (prompt : ∀ task ∈ tasks, task.activity.IsPrompt)
    (quiet : ∀ task ∈ tasks, task.activity.IsQuiet false bed.time)
    (given : ∀ task ∈ tasks, bed.isShutDown task.caller.signal = true)
    (idle : bed.launched = [] ∨ tasks = []) :
    Schedule.advanceTo turn bed.time ⟨bed, tasks⟩ =
      ⟨bed, tasks.map (Task.stopped bed.time)⟩ := by
  have roused : Schedule.rouse ⟨bed, tasks⟩ = ⟨bed, tasks.map fun task =>
      { task with activity := task.activity.rouse true bed.time }⟩ := by
    rw [rouse]
    congr 1
    refine List.map_congr_left fun task mem => ?_
    rw [given task mem]
  have settled (rounds : Nat) : Schedule.settle turn (rounds + 2) ⟨bed, tasks⟩ =
      ⟨bed, tasks.map (Task.stopped bed.time)⟩ := by
    rw [settle, roused]
    dsimp only
    -- One round ends all tasks that sleep, and if none does they have all ended before.
    split
    · rename_i ready
      have launched : bed.launched = [] := idle.resolve_right (by rintro rfl; cases ready)
      rw [round, resumeAll_rouse prompt quiet given]
      dsimp only
      rw [runLaunched_of_nil launched]
      exact (isQuiet_of_isOver (isOver_stopped bed.time)).settle_eq turn _
    · rename_i unready
      congr 1
      refine List.map_congr_left fun task mem => ?_
      have asleep := List.any_eq_false.1 (Bool.not_eq_true _ ▸ unready) _ (List.mem_map_of_mem mem)
      exact ((prompt task mem).stopped_eq (by simpa using asleep)).symm
  obtain ⟨rounds, many⟩ : ∃ rounds, bed.rounds = rounds + 2 :=
    Nat.exists_eq_add_of_le' (Nat.le_trans (by omega) bed.le_rounds)
  replace settled : Schedule.settle turn bed.rounds ⟨bed, tasks⟩ = _ := many ▸ settled rounds
  refine (advanceTo_eq (Nat.le_refl bed.time)).trans ?_
  dsimp only
  rw [Nat.add_sub_cancel_left, advance, settled, wake?_of_isOver (isOver_stopped bed.time)]
  rfl

/-- If prompt tasks are shut down while they are quiet, all of them end at once without a call. -/
theorem Schedule.shutDown_of_isPrompt (quiet : schedule.IsQuiet)
    (running : ∀ task ∈ schedule.tasks, schedule.bed.isShutDown task.caller.signal = false)
    (signals : ∀ task ∈ schedule.tasks, task.caller.signal = signal)
    (prompt : ∀ task ∈ schedule.tasks, task.activity.IsPrompt)
    (idle : schedule.bed.launched = [] ∨ schedule.tasks = []) :
    schedule.shutDown turn signal =
      ⟨schedule.bed.signal signal, schedule.tasks.map (Task.stopped schedule.bed.time)⟩ :=
  advanceTo_of_isPrompt prompt (fun task mem => running task mem ▸ quiet task mem)
    (fun task mem => signals task mem ▸ Testbed.isShutDown_signal_self _ _) idle

end

/-! ## Running up to a time -/

namespace Schedule

variable {σ : Type}

/-- The services, started under a signal, up to a time. -/
def upTo (turn : σ → Script (Turn σ)) (signal : Nat) (services : List (Role × σ)) (bed : Testbed)
    (time : Nat) : Schedule σ :=
  (start turn signal services bed).advanceTo turn time

/-- The services, started under a signal, up to a time at which they are shut down. -/
def stopAt (turn : σ → Script (Turn σ)) (signal : Nat) (services : List (Role × σ))
    (bed : Testbed) (time : Nat) : Schedule σ :=
  ((start turn signal services bed).waitUntil turn time).shutDown turn signal

end Schedule

end Feedkeeper
