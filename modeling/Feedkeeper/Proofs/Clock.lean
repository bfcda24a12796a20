import Feedkeeper.Clock

/-!
# Instants

At the end of an instant a schedule is *quiet* : every task has ended, or waits for a time that has
not come and has not been cut short (`Schedule.IsQuiet`). `Schedule.Settles` says of a kind of
schedules that each of their instants comes to an end. Of these it does not matter how often one
looks at them on the way : going on to a time and then to a later one is going on to the later one
(`Schedule.Settles.advanceTo_advanceTo`), and from a quiet schedule on no call is made before the
clock has moved (`Schedule.Settles.logs_of_quiet`).
-/

namespace Feedkeeper

/-- A sleep that takes time ends later. -/
theorem lt_wakeAfter (time : Nat) {ms : Nat} (takes : ms ≠ 0) : time < wakeAfter time ms :=
  Nat.lt_add_of_pos_right (Nat.lt_min.2 ⟨Nat.pos_of_ne_zero takes, by decide⟩)

variable {σ : Type}

namespace Activity

/-- The task is not ready, and does not get ready while the clock and the signals stay. -/
def IsQuiet (shutDown : Bool) (time : Nat) : Activity σ → Prop
  | ready _ => False
  | asleep wake _ cut => (∀ due ∈ wake, time < due) ∧ (shutDown = true → cut = none)
  | ended .. => True

variable {activity : Activity σ} {shutDown : Bool} {time : Nat}

theorem rouse_of_le {wake : Nat} {elapsed : Script (Turn σ)} {cut : Option (Script (Turn σ))}
    (woken : wake ≤ time) :
    (asleep (some wake) elapsed cut).rouse shutDown time = .ready elapsed := by
  simp [rouse, woken]

theorem rouse_of_lt {wake : Nat} {elapsed : Script (Turn σ)} {cut : Option (Script (Turn σ))}
    (sleeps : time < wake) :
    (asleep (some wake) elapsed cut).rouse false time = .asleep (some wake) elapsed cut := by
  simp [rouse, sleeps]

theorem IsQuiet.rouse_eq (quiet : activity.IsQuiet shutDown time) :
    activity.rouse shutDown time = activity := by
  cases activity with
  | ready | ended => rfl
  | asleep wake elapsed cut =>
    obtain ⟨later, uncut⟩ := quiet
    have sleeps : wake.any (· ≤ time) = false := by
      cases wake with
      | none => rfl
      | some due => simpa using later due rfl
    cases shutDown <;> simp_all [rouse]

theorem IsQuiet.isReady_eq (quiet : activity.IsQuiet shutDown time) : activity.isReady = false := by
  cases activity with
  | ready => exact quiet.elim
  | asleep | ended => rfl

/-- A task that is not ready once it was roused is quiet. -/
theorem isQuiet_of_rouse (unready : (activity.rouse shutDown time).isReady = false) :
    activity.IsQuiet shutDown time := by
  cases activity with
  | ready => cases unready
  | ended => trivial
  | asleep wake elapsed cut =>
    by_cases woken : wake.any (· ≤ time) = true
    · simp [rouse, woken, isReady] at unready
    refine ⟨fun due mem => ?_, fun given => ?_⟩
    · obtain rfl := Option.mem_def.1 mem
      simp at woken
      omega
    · subst given
      cases cut with
      | none => rfl
      | some script => simp [rouse, woken, isReady] at unready

end Activity

/-- The log of the second testbed is that of the first and then calls, at times of which `p`
holds. -/
def Testbed.Logs (p : Nat → Prop) (bed bed' : Testbed) : Prop :=
  ∃ calls, bed'.log = bed.log ++ calls ∧ ∀ entry ∈ calls, p entry.time

namespace Testbed.Logs

variable {p q : Nat → Prop} {bed bed' bed'' : Testbed}

theorem of_eq (same : bed'.log = bed.log) : bed.Logs p bed' :=
  ⟨[], by rw [same, List.append_nil], List.forall_mem_nil _⟩

theorem trans (h : bed.Logs p bed') (h' : bed'.Logs p bed'') : bed.Logs p bed'' := by
  obtain ⟨calls, log, times⟩ := h
  obtain ⟨calls', log', times'⟩ := h'
  refine ⟨calls ++ calls', by rw [log', log, List.append_assoc], fun entry mem => ?_⟩
  exact (List.mem_append.1 mem).elim (times entry) (times' entry)

theorem mono (h : bed.Logs p bed') (imp : ∀ time, p time → q time) : bed.Logs q bed' := by
  obtain ⟨calls, log, times⟩ := h
  exact ⟨calls, log, fun entry mem => imp _ (times entry mem)⟩

end Testbed.Logs

namespace Schedule

/-- No task is ready, and none gets ready while the clock and the signals stay. -/
def IsQuiet (schedule : Schedule σ) : Prop :=
  ∀ task ∈ schedule.tasks,
    task.activity.IsQuiet (schedule.bed.isShutDown task.caller.signal) schedule.bed.time

variable {turn : σ → Script (Turn σ)} {schedule : Schedule σ}

/-! ## Quiet schedules -/

theorem IsQuiet.rouse_eq (quiet : schedule.IsQuiet) : schedule.rouse = schedule := by
  obtain ⟨bed, tasks⟩ := schedule
  unfold rouse
  congr 1
  refine (List.map_congr_left fun task mem => ?_).trans (List.map_id _)
  rw [(quiet task mem).rouse_eq]
  rfl

theorem IsQuiet.any_isReady_eq (quiet : schedule.IsQuiet) :
    schedule.tasks.any (·.activity.isReady) = false :=
  List.any_eq_false.2 fun task mem => by simp [(quiet task mem).isReady_eq]

/-- A schedule none of whose tasks is ready once they were roused is quiet. -/
theorem isQuiet_of_rouse (unready : schedule.rouse.tasks.any (·.activity.isReady) = false) :
    schedule.IsQuiet := by
  intro task mem
  refine Activity.isQuiet_of_rouse ?_
  simpa using List.any_eq_false.1 unready _ (List.mem_map_of_mem mem)

/-- In a quiet schedule there is nothing to settle. -/
theorem IsQuiet.settle_eq (quiet : schedule.IsQuiet) (turn : σ → Script (Turn σ)) (rounds : Nat) :
    schedule.settle turn rounds = schedule := by
  cases rounds with
  | zero => rfl
  | succ rounds => rw [settle, quiet.rouse_eq, quiet.any_isReady_eq, if_neg Bool.false_ne_true]

/-- A schedule settles within as many rounds as some bound has left to fall. -/
theorem exists_settle {R : Nat → Schedule σ → Prop}
    (falls : ∀ bound schedule, R bound schedule →
      schedule.rouse.tasks.any (·.activity.isReady) = true →
        ∃ less < bound, R less (schedule.rouse.round turn))
    {bound rounds : Nat} (h : R bound schedule) (enough : bound ≤ rounds) :
    ∃ less, R less (schedule.settle turn rounds) ∧ (schedule.settle turn rounds).IsQuiet := by
  induction rounds generalizing schedule bound with
  | zero =>
    cases ready : schedule.rouse.tasks.any (·.activity.isReady) with
    | false => exact ⟨bound, h, isQuiet_of_rouse ready⟩
    | true =>
      obtain ⟨less, fell, -⟩ := falls bound schedule h ready
      omega
  | succ rounds ih =>
    rw [settle]
    cases ready : schedule.rouse.tasks.any (·.activity.isReady) with
    | false =>
      rw [if_neg Bool.false_ne_true, (isQuiet_of_rouse ready).rouse_eq]
      exact ⟨bound, h, isQuiet_of_rouse ready⟩
    | true =>
      rw [if_pos rfl]
      obtain ⟨less, fell, h'⟩ := falls bound schedule h ready
      exact ih h' (by omega)

/-- A task that wakes at a time is there, if that is when the schedule wakes. -/
theorem IsQuiet.lt_of_wake (quiet : schedule.IsQuiet) {wake : Nat}
    (wakes : schedule.wake? = some wake) : schedule.bed.time < wake := by
  obtain ⟨mem, -⟩ := List.min?_eq_some_iff.1 wakes
  obtain ⟨task, found, asleep⟩ := List.mem_filterMap.1 mem
  have later := quiet task found
  cases activity : task.activity with
  | ready | ended => simp [activity, Activity.wake?] at asleep
  | asleep at_ elapsed cut =>
    rw [activity] at asleep later
    exact later.1 wake asleep

/-- The clock may be put forward to before a task wakes. -/
theorem IsQuiet.atTime (quiet : schedule.IsQuiet) {time : Nat}
    (early : ∀ wake, schedule.wake? = some wake → time < wake) :
    (schedule.atTime time).IsQuiet := by
  intro task mem
  have still := quiet task mem
  cases activity : task.activity with
  | ready => simp [activity, Activity.IsQuiet] at still
  | ended => trivial
  | asleep at_ elapsed cut =>
    rw [activity] at still
    refine ⟨fun wake found => ?_, still.2⟩
    have wakes : wake ∈ schedule.tasks.filterMap (·.activity.wake?) :=
      List.mem_filterMap.2 ⟨task, mem, by rw [activity]; exact found⟩
    cases least : schedule.wake? with
    | none =>
      rw [wake?, List.min?_eq_none_iff] at least
      rw [least] at wakes
      cases wakes
    | some first =>
      exact Nat.lt_of_lt_of_le (early first least) ((List.min?_eq_some_iff.1 least).2 wake wakes)

theorem isQuiet_of_isOver (isOver : schedule.isOver = true) : schedule.IsQuiet := by
  intro task mem
  have ended := List.all_eq_true.1 isOver task mem
  cases activity : task.activity with
  | ended => trivial
  | ready | asleep => simp [activity, Activity.isEnded] at ended

theorem wake?_of_isOver (isOver : schedule.isOver = true) : schedule.wake? = none := by
  rw [wake?, List.min?_eq_none_iff, List.filterMap_eq_nil_iff]
  intro task mem
  have ended := List.all_eq_true.1 isOver task mem
  cases activity : task.activity with
  | ended => rfl
  | ready | asleep => simp [activity, Activity.isEnded] at ended

theorem resume_caller (task : Task σ) (bed : Testbed) :
    (resume turn task bed).1.caller = task.caller := by
  unfold resume
  split <;> rfl

/-- The tasks keep their callers. -/
theorem resumeAll_callers (turn : σ → Script (Turn σ)) (tasks : List (Task σ)) (bed : Testbed) :
    (resumeAll turn tasks bed).1.map (·.caller) = tasks.map (·.caller) := by
  induction tasks generalizing bed with
  | nil => rfl
  | cons task rest ih =>
    rw [List.map_cons, ← ih (resume turn task bed).2, ← resume_caller task bed]
    rfl

/-! ## Letting time pass -/

/-- Each instant of a schedule of the kind comes to an end, with all calls made at its time, and the
schedule is of the kind then and at any later time. -/
structure Settles (turn : σ → Script (Turn σ)) (R : Schedule σ → Prop) : Prop where
  settle {schedule : Schedule σ} (h : R schedule) :
    R (schedule.settle turn schedule.bed.rounds)
  quiet {schedule : Schedule σ} (h : R schedule) :
    (schedule.settle turn schedule.bed.rounds).IsQuiet
  time {schedule : Schedule σ} (h : R schedule) :
    (schedule.settle turn schedule.bed.rounds).bed.time = schedule.bed.time
  logs {schedule : Schedule σ} (h : R schedule) :
    schedule.bed.Logs (· = schedule.bed.time) (schedule.settle turn schedule.bed.rounds).bed
  later {schedule : Schedule σ} (h : R schedule) {time : Nat} (le : schedule.bed.time ≤ time) :
    R (schedule.atTime time)

variable {R : Schedule σ → Prop} {time instants : Nat}

/-- If no task wakes up to the time, the clock goes there at once. -/
theorem advance_of_late
    (late : ∀ wake, (schedule.settle turn schedule.bed.rounds).wake? = some wake → time < wake) :
    schedule.advance turn Testbed.rounds time (instants + 1) =
      (schedule.settle turn schedule.bed.rounds).atTime time := by
  rw [advance]
  split
  · rfl
  · rename_i wake wakes
    rw [if_neg (Nat.not_le.2 (late wake wakes))]

theorem advance_of_wake {wake : Nat}
    (wakes : (schedule.settle turn schedule.bed.rounds).wake? = some wake) (le : wake ≤ time) :
    schedule.advance turn Testbed.rounds time (instants + 1) =
      ((schedule.settle turn schedule.bed.rounds).atTime wake).advance turn Testbed.rounds time
        instants := by
  rw [advance, wakes]
  exact if_pos le

/-- Either the clock goes to the time at once, or to the next instant. -/
theorem late_or_wake (schedule : Schedule σ) (time : Nat) :
    (∀ wake, schedule.wake? = some wake → time < wake) ∨
      ∃ wake, schedule.wake? = some wake ∧ wake ≤ time := by
  cases schedule.wake? with
  | none => exact .inl fun _ h => by cases h
  | some wake =>
    rcases Nat.lt_or_ge time wake with late | early
    · exact .inl fun other same => Option.some.inj same ▸ late
    · exact .inr ⟨wake, rfl, early⟩

theorem advanceTo_eq (le : schedule.bed.time ≤ time) : schedule.advanceTo turn time =
    schedule.advance turn Testbed.rounds time (time + 1 - schedule.bed.time) := by
  rw [advanceTo, Nat.max_eq_left le]

namespace Settles

variable (settles : Settles turn R)

include settles

/-- The clock has moved on by the next instant. -/
theorem lt_of_wake (h : R schedule) {wake : Nat}
    (wakes : (schedule.settle turn schedule.bed.rounds).wake? = some wake) :
    schedule.bed.time < wake :=
  settles.time h ▸ (settles.quiet h).lt_of_wake wakes

theorem next (h : R schedule) {wake : Nat}
    (wakes : (schedule.settle turn schedule.bed.rounds).wake? = some wake) :
    R ((schedule.settle turn schedule.bed.rounds).atTime wake) :=
  settles.later (settles.settle h) (Nat.le_of_lt ((settles.quiet h).lt_of_wake wakes))

/-- More instants than milliseconds make no difference. -/
theorem advance_eq (h : R schedule) {instants' : Nat}
    (enough : time - schedule.bed.time < instants)
    (enough' : time - schedule.bed.time < instants') :
    schedule.advance turn Testbed.rounds time instants =
      schedule.advance turn Testbed.rounds time instants' := by
  induction instants generalizing schedule instants' with
  | zero => omega
  | succ instants ih =>
    cases instants' with
    | zero => omega
    | succ instants' =>
      rcases late_or_wake (schedule.settle turn schedule.bed.rounds) time with
        late | ⟨wake, wakes, early⟩
      · rw [advance_of_late late, advance_of_late late]
      · have moved := settles.lt_of_wake h wakes
        have now : ((schedule.settle turn schedule.bed.rounds).atTime wake).bed.time = wake := rfl
        rw [advance_of_wake wakes early, advance_of_wake wakes early]
        exact ih (settles.next h wakes) (by omega) (by omega)

/-- However many instants there are up to a time, the schedule is quiet then. -/
theorem advance (h : R schedule) (le : schedule.bed.time ≤ time)
    (enough : time - schedule.bed.time < instants) :
    R (schedule.advance turn Testbed.rounds time instants) ∧
      (schedule.advance turn Testbed.rounds time instants).IsQuiet ∧
      (schedule.advance turn Testbed.rounds time instants).bed.time = time ∧
      schedule.bed.Logs (fun made => schedule.bed.time ≤ made ∧ made ≤ time)
        (schedule.advance turn Testbed.rounds time instants).bed := by
  induction instants generalizing schedule with
  | zero => omega
  | succ instants ih =>
    have logs : schedule.bed.Logs (fun made => schedule.bed.time ≤ made ∧ made ≤ time)
        (schedule.settle turn schedule.bed.rounds).bed :=
      (settles.logs h).mono fun made same => ⟨Nat.le_of_eq same.symm, same ▸ le⟩
    rcases late_or_wake (schedule.settle turn schedule.bed.rounds) time with
      late | ⟨wake, wakes, early⟩
    · rw [advance_of_late late]
      refine ⟨settles.later (settles.settle h) (by rwa [settles.time h]), ?_, rfl, logs⟩
      exact (settles.quiet h).atTime late
    · have moved := settles.lt_of_wake h wakes
      have now : ((schedule.settle turn schedule.bed.rounds).atTime wake).bed.time = wake := rfl
      rw [advance_of_wake wakes early]
      obtain ⟨kept, quiet, arrived, logs'⟩ := ih (settles.next h wakes) early (by omega)
      obtain ⟨calls, log, times⟩ := logs'.mono (q := fun made => schedule.bed.time ≤ made ∧
        made ≤ time) fun made between => ⟨Nat.le_trans (Nat.le_of_lt moved) between.1, between.2⟩
      exact ⟨kept, quiet, arrived, logs.trans ⟨calls, log, times⟩⟩

/-- Going on to a time and then to a later one is going on to the later one. -/
theorem advance_advance (h : R schedule) {later instants' instants'' : Nat}
    (le : schedule.bed.time ≤ time) (le' : time ≤ later)
    (enough : time - schedule.bed.time < instants) (enough' : later - time < instants')
    (enough'' : later - schedule.bed.time < instants'') :
    (schedule.advance turn Testbed.rounds time instants).advance turn Testbed.rounds later
        instants' = schedule.advance turn Testbed.rounds later instants'' := by
  induction instants generalizing schedule instants'' with
  | zero => omega
  | succ instants ih =>
    cases instants'' with
    | zero => omega
    | succ instants'' =>
      rcases late_or_wake (schedule.settle turn schedule.bed.rounds) time with
        late | ⟨wake, wakes, early⟩
      · -- Nothing happens at the first time, so the way goes on as if it had not been looked at.
        cases instants' with
        | zero => omega
        | succ instants' =>
          have still := ((settles.quiet h).atTime late).settle_eq turn
          rw [advance_of_late late]
          rcases late_or_wake (schedule.settle turn schedule.bed.rounds) later with
            late' | ⟨wake, wakes, early⟩
          · rw [advance_of_late late', advance_of_late (by rw [still]; exact late'), still]
            rfl
          · have moved := settles.lt_of_wake h wakes
            have now : ((schedule.settle turn schedule.bed.rounds).atTime wake).bed.time = wake :=
              rfl
            have after := late wake wakes
            rw [advance_of_wake wakes early, advance_of_wake (by rw [still]; exact wakes) early,
              still]
            exact settles.advance_eq (settles.next h wakes) (by omega) (by omega)
      · have moved := settles.lt_of_wake h wakes
        have now : ((schedule.settle turn schedule.bed.rounds).atTime wake).bed.time = wake := rfl
        rw [advance_of_wake wakes early, advance_of_wake wakes (Nat.le_trans early le')]
        exact ih (settles.next h wakes) early (by omega) (by omega)

/-! ## Up to a time -/

theorem advanceTo (h : R schedule) (le : schedule.bed.time ≤ time) :
    R (schedule.advanceTo turn time) ∧ (schedule.advanceTo turn time).IsQuiet ∧
      (schedule.advanceTo turn time).bed.time = time ∧
      schedule.bed.Logs (fun made => schedule.bed.time ≤ made ∧ made ≤ time)
        (schedule.advanceTo turn time).bed := by
  rw [advanceTo_eq le]
  exact settles.advance h le (by omega)

theorem advanceTo_advanceTo (h : R schedule) {later : Nat} (le : schedule.bed.time ≤ time)
    (le' : time ≤ later) :
    (schedule.advanceTo turn time).advanceTo turn later = schedule.advanceTo turn later := by
  have arrived := (settles.advanceTo h le).2.2.1
  rw [advanceTo_eq (by rwa [arrived]), arrived, advanceTo_eq le,
    advanceTo_eq (Nat.le_trans le le')]
  exact settles.advance_advance h le le' (by omega) (by omega) (by omega)

/-- From a quiet schedule on no call is made before the clock has moved. -/
theorem logs_of_quiet (h : R schedule) (quiet : schedule.IsQuiet) (le : schedule.bed.time ≤ time) :
    schedule.bed.Logs (schedule.bed.time < ·) (schedule.advanceTo turn time).bed := by
  have still := quiet.settle_eq turn schedule.bed.rounds
  rw [advanceTo_eq le, Nat.succ_sub le]
  rcases late_or_wake schedule time with late | ⟨wake, wakes, early⟩
  · rw [advance_of_late (by rwa [still]), still]
    exact .of_eq rfl
  · have moved := quiet.lt_of_wake wakes
    rw [advance_of_wake (by rwa [still]) early, still]
    have after := settles.later h (Nat.le_of_lt moved)
    have enough : time - wake < time - schedule.bed.time := by omega
    obtain ⟨-, -, -, logs⟩ := settles.advance after early enough
    exact logs.mono fun made between => Nat.lt_of_lt_of_le moved between.1

end Settles

end Schedule

end Feedkeeper
