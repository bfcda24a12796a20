import Feedkeeper.Proofs.Async

/-!
# Runs up to a time

A run up to a time is a finite number of steps (`Runtime.Reaches`, `Runtime.run_eq_some_iff`), and
whatever a round and the passing of time preserve holds at its end (`Runtime.run_induction`). At
the end everything is quiet, and the clock is at the time (`Runtime.run_arrives`). If each round
lowers some bound, then a run gets to every time (`Runtime.exists_run`).

A run may be looked at on the way : if it gets to a time, it gets to all earlier ones
(`Runtime.exists_run_of_le`), and going on from there is the same run (`Runtime.run_run`). What ends
in a run ends between its first time and its last (`Runtime.run_since`).
-/

namespace Feedkeeper

open Testbed

variable {σ α : Type} {turn : σ → Script (Turn σ)} {runtime runtime' last : Runtime σ α}
  {time later : Nat}

namespace Runtime

/-! ## Single steps -/

/-- Nothing is ready, and nothing gets ready while the clock and the signals stay. -/
structure IsQuiet (turn : σ → Script (Turn σ)) (runtime : Runtime σ α) : Prop where
  schedule : runtime.schedule.IsQuiet
  procedure : runtime.procedure.isReady turn runtime.schedule = false

theorem IsQuiet.rouse_eq (quiet : runtime.IsQuiet turn) : runtime.rouse = runtime := by
  rw [rouse, quiet.schedule.rouse_eq]

theorem isQuiet_iff : runtime.IsQuiet turn ↔ runtime.rouse.isReady turn = false := by
  constructor
  · intro quiet
    rw [quiet.rouse_eq, isReady, quiet.schedule.any_isReady_eq, quiet.procedure]
    rfl
  · intro unready
    obtain ⟨tasks, procedure⟩ := Bool.or_eq_false_iff.1 unready
    have quiet : runtime.schedule.IsQuiet := Schedule.isQuiet_of_rouse tasks
    refine ⟨quiet, ?_⟩
    change runtime.procedure.isReady turn runtime.schedule.rouse = false at procedure
    rwa [quiet.rouse_eq] at procedure

/-- The clock may be put forward to before a service wakes. -/
theorem IsQuiet.atTime (quiet : runtime.IsQuiet turn)
    (early : ∀ wake, runtime.schedule.wake? = some wake → time < wake) :
    (runtime.atTime time).IsQuiet turn :=
  ⟨quiet.schedule.atTime early, (Async.isReady_atTime _ _ _).trans quiet.procedure⟩

/-- A step is a round, or the clock goes on to the next time at which a service wakes. -/
theorem next?_cases (next : runtime.next? turn time = some runtime') :
    runtime.rouse.isReady turn = true ∧ runtime' = runtime.rouse.round turn ∨
      ∃ wake, runtime.IsQuiet turn ∧ runtime.schedule.wake? = some wake ∧ wake ≤ time ∧
        runtime' = runtime.atTime wake := by
  rw [next?] at next
  split at next
  · rename_i ready
    exact .inl ⟨ready, (Option.some.inj next).symm⟩
  · rename_i unready
    have quiet := isQuiet_iff.2 (Bool.eq_false_iff.2 unready)
    split at next
    · rename_i wake wakes
      split at next
      · rename_i early
        exact .inr ⟨wake, quiet, wakes, early, (Option.some.inj next).symm⟩
      · cases next
    · cases next

theorem next?_of_isReady (ready : runtime.rouse.isReady turn = true) (time : Nat) :
    runtime.next? turn time = some (runtime.rouse.round turn) :=
  if_pos ready

theorem next?_of_isQuiet (quiet : runtime.IsQuiet turn) (time : Nat) :
    runtime.next? turn time =
      (runtime.schedule.wake?.filter (· ≤ time)).map runtime.atTime := by
  rw [next?, if_neg (Bool.eq_false_iff.1 (isQuiet_iff.1 quiet))]
  cases runtime.schedule.wake? with
  | none => rfl
  | some wake =>
    by_cases early : wake ≤ time <;> simp [Option.filter, early]

/-- Nothing more happens up to a time if everything is quiet and no service wakes up to then. -/
theorem next?_eq_none_iff : runtime.next? turn time = none ↔
    runtime.IsQuiet turn ∧ ∀ wake, runtime.schedule.wake? = some wake → time < wake := by
  cases ready : runtime.rouse.isReady turn with
  | true =>
    rw [next?_of_isReady ready]
    refine iff_of_false nofun fun h => ?_
    rw [isQuiet_iff.1 h.1] at ready
    cases ready
  | false =>
    have quiet := isQuiet_iff.2 ready
    rw [next?_of_isQuiet quiet, Option.map_eq_none_iff, Option.filter_eq_none_iff]
    simp [quiet]

/-- What happens next up to a time happens next up to any later time. -/
theorem next?_mono (next : runtime.next? turn time = some runtime') (le : time ≤ later) :
    runtime.next? turn later = some runtime' := by
  rcases next?_cases next with ⟨ready, rfl⟩ | ⟨wake, quiet, wakes, early, rfl⟩
  · exact next?_of_isReady ready later
  · rw [next?_of_isQuiet quiet, wakes]
    simp [Nat.le_trans early le]

/-- A round ends tasks at the time of the clock, and all else that it does is work. -/
theorem round_since (turn : σ → Script (Turn σ)) (runtime : Runtime σ α) :
    SinceAll (· = runtime.time) runtime.schedule.tasks
        (runtime.rouse.round turn).schedule.tasks ∧
      (runtime.rouse.round turn).time = runtime.time ∧
      runtime.schedule.bed.signals.given ⊆
        (runtime.rouse.round turn).schedule.bed.signals.given := by
  obtain ⟨since, works⟩ := Schedule.rouse_round_since turn runtime.schedule
  have beside : Async.Beside (runtime.schedule.rouse.round turn)
      (runtime.rouse.round turn).schedule := Async.poll_beside runtime.procedure _
  exact ⟨since.trans beside.since, beside.time.trans works.time,
    List.Subset.trans works.signals.given_subset beside.given⟩

theorem next?_le (next : runtime.next? turn time = some runtime') (le : runtime.time ≤ time) :
    runtime'.time ≤ time := by
  rcases next?_cases next with ⟨-, rfl⟩ | ⟨wake, -, -, early, rfl⟩
  · rwa [(round_since turn runtime).2.1]
  · exact early

/-! ## Runs -/

/-- The runtime comes to be the second one at a time, in so many steps. -/
inductive Reaches (turn : σ → Script (Turn σ)) (time : Nat) :
    Runtime σ α → Runtime σ α → Prop where
  | rest {runtime : Runtime σ α} (none : runtime.next? turn time = none) :
    Reaches turn time runtime (runtime.atTime (max time runtime.time))
  | step {runtime next last : Runtime σ α} (some : runtime.next? turn time = some next)
    (rest : Reaches turn time next last) : Reaches turn time runtime last

/-- A run is a finite number of steps. -/
theorem run_eq_some_iff : runtime.run turn time = some last ↔ Reaches turn time runtime last := by
  constructor
  · refine run.partial_correctness turn time (Reaches turn time) ?_ runtime last
    intro run ih runtime last ran
    split at ran
    · rename_i next found
      exact .step found (ih _ _ ran)
    · rename_i found
      cases ran
      exact .rest found
  · intro reaches
    induction reaches with
    | rest found => rw [run, found]
    | step found _ ih =>
      rw [run, found]
      exact ih

/-- What every round and every moment that passes preserve holds at the end of a run. -/
theorem run_induction {P : Runtime σ α → Prop}
    (round : ∀ runtime, P runtime → runtime.rouse.isReady turn = true →
      P (runtime.rouse.round turn))
    (passes : ∀ runtime time, P runtime → runtime.IsQuiet turn → runtime.time ≤ time →
      P (runtime.atTime time))
    (ran : runtime.run turn time = some last) (starts : P runtime) : P last := by
  induction run_eq_some_iff.1 ran with
  | rest found =>
    exact passes _ _ starts (next?_eq_none_iff.1 found).1 (Nat.le_max_right _ _)
  | step found rest ih =>
    refine ih (run_eq_some_iff.2 rest) ?_
    rcases next?_cases found with ⟨ready, rfl⟩ | ⟨wake, quiet, wakes, -, rfl⟩
    · exact round _ starts ready
    · exact passes _ _ starts quiet (Nat.le_of_lt (quiet.schedule.lt_of_wake wakes))

/-- At the end of a run everything is quiet, and the clock is at the time. -/
theorem run_arrives (ran : runtime.run turn time = some last) (le : runtime.time ≤ time) :
    last.IsQuiet turn ∧ last.time = time := by
  induction run_eq_some_iff.1 ran with
  | rest found =>
    obtain ⟨quiet, late⟩ := next?_eq_none_iff.1 found
    rw [Nat.max_eq_left le]
    exact ⟨quiet.atTime late, rfl⟩
  | step found rest ih => exact ih (run_eq_some_iff.2 rest) (next?_le found le)

/-- A run gets to every time if there is a bound that each round lowers. -/
theorem exists_run {P : Nat → Runtime σ α → Prop}
    (round : ∀ bound runtime, P bound runtime → runtime.rouse.isReady turn = true →
      ∃ less < bound, P less (runtime.rouse.round turn))
    (passes : ∀ bound runtime time, P bound runtime → runtime.IsQuiet turn →
      runtime.time ≤ time → ∃ bound, P bound (runtime.atTime time))
    {bound : Nat} (starts : P bound runtime) (time : Nat) :
    ∃ last bound, runtime.run turn time = some last ∧ P bound last := by
  -- Less time is left when time has passed, and the bound is less after a round.
  induction remains : time - runtime.time using Nat.strongRecOn
    generalizing runtime bound with | _ left later =>
  induction bound using Nat.strongRecOn generalizing runtime with | _ bound sooner =>
  cases next : runtime.next? turn time with
  | none =>
    obtain ⟨bound', kept⟩ := passes bound runtime _ starts (next?_eq_none_iff.1 next).1
      (Nat.le_max_right time _)
    exact ⟨_, bound', run_eq_some_iff.2 (.rest next), kept⟩
  | some after =>
    obtain ⟨last, bound', ran, kept⟩ : ∃ last bound, after.run turn time = some last ∧
        P bound last := by
      rcases next?_cases next with ⟨ready, rfl⟩ | ⟨wake, quiet, wakes, early, rfl⟩
      · obtain ⟨less, fewer, kept⟩ := round bound runtime starts ready
        exact sooner less fewer kept (by rw [(round_since turn runtime).2.1, remains])
      · have moved := quiet.schedule.lt_of_wake wakes
        obtain ⟨bound', kept⟩ := passes bound runtime wake starts quiet (Nat.le_of_lt moved)
        have earlier : time - wake < left := by
          rw [← remains]
          exact Nat.sub_lt_sub_left (Nat.lt_of_lt_of_le moved early) moved
        exact later _ earlier kept rfl
    exact ⟨last, bound', run_eq_some_iff.2 (.step next (run_eq_some_iff.1 ran)), kept⟩

/-- A run that gets to a time gets to all earlier ones. -/
theorem exists_run_of_le (ran : runtime.run turn later = some last) (le : time ≤ later) :
    ∃ middle, runtime.run turn time = some middle := by
  induction run_eq_some_iff.1 ran with
  | rest found =>
    obtain ⟨quiet, late⟩ := next?_eq_none_iff.1 found
    exact ⟨_, run_eq_some_iff.2 (.rest (next?_eq_none_iff.2
      ⟨quiet, fun wake wakes => Nat.lt_of_le_of_lt le (late wake wakes)⟩))⟩
  | @step runtime next last found rest ih =>
    cases early : runtime.next? turn time with
    | none => exact ⟨_, run_eq_some_iff.2 (.rest early)⟩
    | some next' =>
      obtain rfl := Option.some.inj ((next?_mono early le).symm.trans found)
      obtain ⟨middle, ran⟩ := ih (run_eq_some_iff.2 rest)
      exact ⟨middle, run_eq_some_iff.2 (.step early (run_eq_some_iff.1 ran))⟩

/-- Going on from the end of a run is going on from its start. -/
theorem run_run {middle : Runtime σ α} (ran : runtime.run turn time = some middle)
    (le : runtime.time ≤ time) (le' : time ≤ later) :
    middle.run turn later = runtime.run turn later := by
  induction run_eq_some_iff.1 ran with
  | @rest runtime found =>
    obtain ⟨quiet, late⟩ := next?_eq_none_iff.1 found
    have same : (runtime.atTime (max time runtime.time)).next? turn later =
        runtime.next? turn later := by
      rw [Nat.max_eq_left le, next?_of_isQuiet (quiet.atTime late), next?_of_isQuiet quiet]
      rfl
    rw [run, same, run.eq_1 turn later runtime]
    cases runtime.next? turn later with
    | some next => rfl
    | none =>
      have clock : max later (max time runtime.time) = max later runtime.time := by omega
      exact congrArg (fun time => some (runtime.atTime time)) clock
  | @step runtime next last found rest ih =>
    rw [ih (run_eq_some_iff.2 rest) (next?_le found le), run.eq_1 turn later runtime,
      next?_mono found le']

/-- Once nothing can happen any more, only time passes. -/
theorem run_of_isOver (isOver : runtime.schedule.isOver = true)
    (waits : runtime.procedure.isReady turn runtime.schedule = false) (time : Nat) :
    runtime.run turn time = some (runtime.atTime (max time runtime.time)) := by
  have quiet : runtime.IsQuiet turn := ⟨Schedule.isQuiet_of_isOver isOver, waits⟩
  have never := Schedule.wake?_of_isOver isOver
  exact run_eq_some_iff.2 (.rest (next?_eq_none_iff.2 ⟨quiet, by simp [never]⟩))

/-- A run of fewer than so many steps. -/
def runWithin (turn : σ → Script (Turn σ)) (time : Nat) :
    Nat → Runtime σ α → Option (Runtime σ α)
  | 0, _ => none
  | steps + 1, runtime =>
    match runtime.next? turn time with
    | some next => runWithin turn time steps next
    | none => some (runtime.atTime (max time runtime.time))

theorem run_of_runWithin {steps : Nat} (ran : runtime.runWithin turn time steps = some last) :
    runtime.run turn time = some last := by
  induction steps generalizing runtime with
  | zero => cases ran
  | succ steps ih =>
    rw [runWithin] at ran
    rw [run]
    cases next : runtime.next? turn time with
    | none =>
      rw [next] at ran
      exact ran
    | some after =>
      rw [next] at ran
      exact ih ran

/-! ## What ends in a run -/

/-- What ends in a run ends between its first time and its last. -/
theorem run_since (ran : runtime.run turn time = some last) (le : runtime.time ≤ time) :
    SinceAll (fun ended => runtime.time ≤ ended ∧ ended ≤ time) runtime.schedule.tasks
      last.schedule.tasks := by
  have all : runtime.time ≤ last.time ∧
      SinceAll (fun ended => runtime.time ≤ ended ∧ ended ≤ last.time) runtime.schedule.tasks
        last.schedule.tasks := by
    refine run_induction (P := fun after => runtime.time ≤ after.time ∧
      SinceAll (fun ended => runtime.time ≤ ended ∧ ended ≤ after.time) runtime.schedule.tasks
        after.schedule.tasks) ?_ ?_ ran ⟨Nat.le_refl _, .refl _⟩
    · rintro after ⟨begun, since⟩ -
      obtain ⟨now, clock, -⟩ := round_since turn after
      rw [clock]
      exact ⟨begun, since.trans (now.mono fun ended same =>
        ⟨same.symm ▸ begun, Nat.le_of_eq same⟩)⟩
    · rintro after time ⟨begun, since⟩ - passes
      exact ⟨Nat.le_trans begun passes,
        since.mono fun ended between => ⟨between.1, Nat.le_trans between.2 passes⟩⟩
  rw [(run_arrives ran le).2] at all
  exact all.2

/-- From a quiet runtime on nothing ends before the clock has moved. -/
theorem run_since_of_isQuiet (quiet : runtime.IsQuiet turn)
    (ran : runtime.run turn time = some last) :
    SinceAll (fun ended => runtime.time < ended ∧ ended ≤ time) runtime.schedule.tasks
      last.schedule.tasks := by
  rw [run, next?_of_isQuiet quiet] at ran
  cases wakes : runtime.schedule.wake?.filter (· ≤ time) with
  | none =>
    rw [wakes] at ran
    cases ran
    exact .refl _
  | some wake =>
    rw [wakes] at ran
    obtain ⟨found, early⟩ := Option.filter_eq_some_iff.1 wakes
    have moved := quiet.schedule.lt_of_wake found
    exact (run_since ran (of_decide_eq_true early)).mono fun ended between =>
      ⟨Nat.lt_of_lt_of_le moved between.1, between.2⟩

/-- No signal is taken back in a run. -/
theorem run_given (ran : runtime.run turn time = some last) :
    runtime.schedule.bed.signals.given ⊆ last.schedule.bed.signals.given := by
  refine run_induction (P := fun after =>
    runtime.schedule.bed.signals.given ⊆ after.schedule.bed.signals.given) ?_ ?_ ran
    (List.Subset.refl _)
  · exact fun after given _ => List.Subset.trans given (round_since turn after).2.2
  · exact fun after time given _ _ => given

end Runtime

end Feedkeeper
