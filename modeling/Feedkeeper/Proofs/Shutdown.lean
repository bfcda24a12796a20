import Feedkeeper.Proofs.Pace

/-!
# Shutting the loops down

The loops may be shut down at any time. `Loop.Hosts` is what holds of a schedule of loops under
signals that are not given : whatever a task sleeps for, it has no more to do than to end if it is
shut down, and what it may do at one instant is bounded. So each instant comes to an end
(`Loop.settles_hosts`), and at its end the signal ends all tasks. `loops_stop_promptly` puts this
together : when the loops are shut down they end at that time, and what was called up to then is
what is called up to then in a run that goes on.
-/

namespace Feedkeeper

open Script Testbed

/-! ## Loops side by side -/

namespace Loop

variable {room : Cursor → Prop} {settings : Settings} {ids : List String}

/-- What a task of a loop is doing, where all that it may do at this instant is bounded. -/
inductive Runs (room : Cursor → Prop) (settings : Settings) (ids : List String) (k : Nat)
    (bed : Testbed) : Activity Loop → Prop where
  | ready {n : Nat} {script : Script (Turn Loop)} (due : Due room settings ids n script)
      (less : n + bed.refusals < k) : Runs room settings ids k bed (.ready script)
  | asleep {n wake : Nat} {elapsed : Script (Turn Loop)} {last : Turn Loop}
      (due : Due room settings ids n elapsed) (isLast : last.IsLast)
      (later : bed.time < wake ∨ n + bed.refusals < k) :
      Runs room settings ids k bed (.asleep (some wake) elapsed (some (done last)))
  | crashed {cursor : Cursor} {time : Nat} (fits : room cursor)
      (overflow : ¬cursor.HasRoom settings.windowSize) (before : time ≤ bed.time) :
      Runs room settings ids k bed (.ended .crashed time)

variable {k n : Nat} {p : Cursor → Prop} {bed bed' : Testbed} {activity : Activity Loop}

theorem Runs.after (runs : Runs room settings ids k bed activity) (goesOn : bed.GoesOn p bed') :
    Runs room settings ids k bed' activity := by
  have fewer := goesOn.refusals
  cases runs with
  | ready due less => exact .ready due (by omega)
  | asleep due isLast later =>
    refine .asleep due isLast (later.imp (fun lt => goesOn.time ▸ lt) fun less => ?_)
    omega
  | crashed fits overflow before => exact .crashed fits overflow (goesOn.time ▸ before)

/-- A task that has nothing to do at this instant. -/
theorem Runs.of_zero (runs : Runs room settings ids 0 bed activity) :
    Runs room settings ids k bed activity := by
  cases runs with
  | ready due less => exact absurd less (Nat.not_lt_zero _)
  | asleep due isLast later =>
    exact .asleep due isLast (.inl (later.resolve_right (Nat.not_lt_zero _)))
  | crashed fits overflow before => exact .crashed fits overflow before

theorem Runs.pos (runs : Runs room settings ids k bed activity)
    (ready : activity.isReady = true) : 0 < k := by
  cases runs with
  | ready due less => exact Nat.zero_lt_of_lt less
  | asleep | crashed => cases ready

theorem Due.bounded {script : Script (Turn Loop)} (due : Due room settings ids n script)
    (bed : Testbed) : n + bed.refusals < bed.refusals + ids.length + 3 := by
  have := due.le
  omega

/-- The bound for a task whose instant has just begun. -/
theorem Runs.atTime (runs : Runs room settings ids k bed activity) {time : Nat}
    (le : bed.time ≤ time) :
    Runs room settings ids (bed.refusals + ids.length + 3) { bed with time } activity := by
  cases runs with
  | ready due less => exact .ready due (due.bounded bed)
  | asleep due isLast later => exact .asleep due isLast (.inr (due.bounded bed))
  | crashed fits overflow before => exact .crashed fits overflow (Nat.le_trans before le)

/-- Once it is roused, a task is ready or has nothing to do at this instant. -/
theorem Runs.rouse (runs : Runs room settings ids k bed activity) :
    Runs room settings ids k bed (activity.rouse false bed.time) ∧
      ((activity.rouse false bed.time).isReady = true ∨
        Runs room settings ids 0 bed (activity.rouse false bed.time)) := by
  cases runs with
  | ready due less => exact ⟨.ready due less, .inl rfl⟩
  | crashed fits overflow before =>
    exact ⟨.crashed fits overflow before, .inr (.crashed fits overflow before)⟩
  | @asleep n wake elapsed last due isLast later =>
    rcases Nat.lt_or_ge bed.time wake with sleeps | woken
    · rw [Activity.rouse_of_lt sleeps]
      exact ⟨.asleep due isLast (.inl sleeps), .inr (.asleep due isLast (.inl sleeps))⟩
    · rw [Activity.rouse_of_le woken]
      exact ⟨.ready due (later.resolve_left (Nat.not_lt.2 woken)), .inl rfl⟩

theorem Halts.runs {stop : Stop (Turn Loop)} (halts : Halts room settings ids n bed stop bed')
    (less : n + bed.refusals < k + 1) : Runs room settings ids k bed'
      (.ofStop (Loop.turn settings) false bed'.time stop) := by
  cases halts with
  | pausing takes fits =>
    rw [Activity.ofStop, if_neg Bool.false_ne_true, if_neg takes]
    exact .asleep (.turn fits) trivial (.inl (lt_wakeAfter _ takes))
  | yielding fits less' => exact .ready (.turn fits) (by omega)
  | waiting later due isLast => exact .asleep due isLast (.inl later)
  | crashed fits overflow => exact .crashed fits overflow (Nat.le_refl _)

/-! ### Rounds -/

section

variable {task : Task Loop} {tasks : List (Task Loop)} (paced : settings.Paced)
  (within : ∀ cursor, cursor.nextIndex ≤ ids.length → room cursor)

include paced within

theorem Runs.resume (runs : Runs room settings ids (k + 1) bed task.activity)
    (roused : task.activity.isReady = true ∨ Runs room settings ids 0 bed task.activity)
    (steady : bed.Steady room settings ids) (running : bed.isShutDown task.caller.signal = false) :
    bed.GoesOn (·.nextIndex ≤ ids.length)
        (Schedule.resume (Loop.turn settings) task bed).2 ∧
      Runs room settings ids k (Schedule.resume (Loop.turn settings) task bed).2
        (Schedule.resume (Loop.turn settings) task bed).1.activity := by
  obtain ⟨caller, activity⟩ := task
  cases runs with
  | @ready n script due less =>
    obtain ⟨goesOn, halts⟩ : Arrives .. := due.rests paced steady running within
    refine ⟨goesOn, ?_⟩
    change Runs room settings ids k (drive caller script bed).2 (.ofStop _
      ((drive caller script bed).2.isShutDown caller.signal) _ (drive caller script bed).1)
    rw [goesOn.isShutDown_eq, running]
    exact halts.runs less
  | asleep | crashed => exact ⟨.refl bed, (roused.resolve_left Bool.false_ne_true).of_zero⟩

theorem Runs.resumeAll (steady : bed.Steady room settings ids)
    (running : ∀ task ∈ tasks, bed.isShutDown task.caller.signal = false)
    (runs : ∀ task ∈ tasks, Runs room settings ids (k + 1) bed task.activity ∧
      (task.activity.isReady = true ∨ Runs room settings ids 0 bed task.activity)) :
    bed.GoesOn (·.nextIndex ≤ ids.length)
        (Schedule.resumeAll (Loop.turn settings) tasks bed).2 ∧
      ∀ task ∈ (Schedule.resumeAll (Loop.turn settings) tasks bed).1, Runs room settings ids k
        (Schedule.resumeAll (Loop.turn settings) tasks bed).2 task.activity := by
  induction tasks generalizing bed with
  | nil => exact ⟨.refl bed, List.forall_mem_nil _⟩
  | cons task rest ih =>
    rw [List.forall_mem_cons] at running runs
    obtain ⟨first, runs₁⟩ := Runs.resume paced within runs.1.1 runs.1.2 steady running.1
    rw [Schedule.resumeAll]
    generalize Schedule.resume (Loop.turn settings) task bed = resumed at first runs₁ ⊢
    obtain ⟨task₁, bed₁⟩ := resumed
    dsimp only at first runs₁ ⊢
    obtain ⟨others, runs₂⟩ := ih (steady.after within first)
      (fun task mem => (first.isShutDown_eq _).trans (running.2 task mem))
      (fun task mem => (runs.2 task mem).imp (·.after first) (·.imp_right (·.after first)))
    exact ⟨first.trans others, List.forall_mem_cons.2 ⟨runs₁.after others, runs₂⟩⟩

end

/-- The tasks are loops whose signals are not given, and all that they may do at this instant is
bounded. -/
structure Hosts (room : Cursor → Prop) (settings : Settings) (ids : List String)
    (callers : List Caller) (k : Nat) (schedule : Schedule Loop) : Prop where
  steady : schedule.bed.Steady room settings ids
  callers_eq : schedule.tasks.map (·.caller) = callers
  running : ∀ caller ∈ callers, schedule.bed.isShutDown caller.signal = false
  runs : ∀ task ∈ schedule.tasks, Runs room settings ids k schedule.bed task.activity
  /-- No authorization is left to start, unless no task has begun. -/
  idle : schedule.bed.launched = [] ∨ ∀ task ∈ schedule.tasks, task.activity.isReady = true

variable {callers : List Caller} {schedule : Schedule Loop}

theorem Hosts.isShutDown_eq (hosts : Hosts room settings ids callers k schedule)
    {task : Task Loop} (mem : task ∈ schedule.tasks) :
    schedule.bed.isShutDown task.caller.signal = false :=
  hosts.running _ (hosts.callers_eq ▸ List.mem_map_of_mem mem)

theorem Hosts.rouse (hosts : Hosts room settings ids callers k schedule) :
    Hosts room settings ids callers k schedule.rouse ∧ ∀ task ∈ schedule.rouse.tasks,
      task.activity.isReady = true ∨ Runs room settings ids 0 schedule.bed task.activity := by
  have roused : schedule.rouse.tasks = schedule.tasks.map fun task =>
      { task with activity := task.activity.rouse false schedule.bed.time } :=
    List.map_congr_left fun task mem => by rw [hosts.isShutDown_eq mem]
  refine ⟨⟨hosts.steady, ?_, hosts.running, ?_, hosts.idle.imp_right fun ready => ?_⟩, ?_⟩
  · rw [roused, List.map_map]
    exact hosts.callers_eq
  all_goals
    rw [roused, List.forall_mem_map]
    intro task mem
  · exact (hosts.runs task mem).rouse.1
  · cases activity : task.activity with
    | ready => rfl
    | asleep | ended => simpa [activity, Activity.isReady] using ready task mem
  · exact (hosts.runs task mem).rouse.2

theorem Hosts.round (hosts : Hosts room settings ids callers (k + 1) schedule)
    (roused : ∀ task ∈ schedule.tasks, task.activity.isReady = true ∨
      Runs room settings ids 0 schedule.bed task.activity) (paced : settings.Paced)
    (within : ∀ cursor, cursor.nextIndex ≤ ids.length → room cursor) :
    Hosts room settings ids callers k (schedule.round (Loop.turn settings)) ∧
      schedule.bed.GoesOn (·.nextIndex ≤ ids.length)
        (schedule.round (Loop.turn settings)).bed := by
  have same := Schedule.resumeAll_callers (Loop.turn settings) schedule.tasks schedule.bed
  obtain ⟨goesOn, runs⟩ := Runs.resumeAll paced within hosts.steady
    (fun task mem => hosts.isShutDown_eq mem) fun task mem => ⟨hosts.runs task mem, roused task mem⟩
  rw [Schedule.round]
  generalize Schedule.resumeAll (Loop.turn settings) schedule.tasks schedule.bed = resumed
    at same goesOn runs ⊢
  obtain ⟨tasks, bed⟩ := resumed
  dsimp only at same goesOn runs ⊢
  obtain ⟨launched, idle⟩ := runLaunched_goesOn (p := (·.nextIndex ≤ ids.length))
    (goesOn.hooks.trans hosts.steady.hooks)
  have through := goesOn.trans launched
  exact ⟨⟨hosts.steady.after within through, same.trans hosts.callers_eq,
    fun caller mem => (through.isShutDown_eq _).trans (hosts.running caller mem),
    fun task mem => (runs task mem).after launched, .inl idle⟩, through⟩

theorem Hosts.atTime (hosts : Hosts room settings ids callers k schedule) {time : Nat}
    (le : schedule.bed.time ≤ time) : Hosts room settings ids callers
      (schedule.bed.refusals + ids.length + 3) (schedule.atTime time) :=
  ⟨⟨hosts.steady.hooks, hosts.steady.ids, hosts.steady.room⟩, hosts.callers_eq, hosts.running,
    fun task mem => (hosts.runs task mem).atTime le, hosts.idle⟩

/-- An instant of loops side by side comes to its end. -/
theorem Hosts.settle (hosts : Hosts room settings ids callers k schedule) (paced : settings.Paced)
    (within : ∀ cursor, cursor.nextIndex ≤ ids.length → room cursor) :
    ∃ less, (Hosts room settings ids callers less
        (schedule.settle (Loop.turn settings) schedule.bed.rounds) ∧
      schedule.bed.GoesOn (·.nextIndex ≤ ids.length)
        (schedule.settle (Loop.turn settings) schedule.bed.rounds).bed) ∧
      (schedule.settle (Loop.turn settings) schedule.bed.rounds).IsQuiet := by
  have bound : schedule.bed.refusals + ids.length + 3 ≤ schedule.bed.rounds := by
    rw [← hosts.steady.ids, List.length_map]
    exact schedule.bed.le_rounds
  refine Schedule.exists_settle (R := fun k schedule' =>
    Hosts room settings ids callers k schedule' ∧
      schedule.bed.GoesOn (·.nextIndex ≤ ids.length) schedule'.bed) ?_
    ⟨hosts.atTime (Nat.le_refl _), .refl schedule.bed⟩ bound
  rintro k schedule' ⟨hosts', goesOn⟩ ready
  obtain ⟨task, mem, ready⟩ := List.any_eq_true.1 ready
  obtain ⟨kept, roused⟩ := hosts'.rouse
  -- Some task is ready, and so there is something of the bound that the round can use up.
  have some := (kept.runs task mem).pos ready
  obtain ⟨next, goesOn'⟩ := (Nat.sub_add_cancel some ▸ kept).round roused paced within
  exact ⟨k - 1, by omega, next, goesOn.trans goesOn'⟩

/-- Each instant of loops side by side comes to an end. -/
theorem settles_hosts (paced : settings.Paced)
    (within : ∀ cursor, cursor.nextIndex ≤ ids.length → room cursor) :
    Schedule.Settles (Loop.turn settings) fun schedule =>
      ∃ k, Hosts room settings ids callers k schedule where
  settle := fun ⟨_, hosts⟩ => (hosts.settle paced within).imp fun _ settled => settled.1.1
  quiet := fun ⟨_, hosts⟩ => (hosts.settle paced within).elim fun _ settled => settled.2
  time := fun ⟨_, hosts⟩ => (hosts.settle paced within).elim fun _ settled => settled.1.2.time
  logs := fun ⟨_, hosts⟩ => (hosts.settle paced within).elim fun _ settled => settled.1.2.logs
  later := fun ⟨_, hosts⟩ _ le => ⟨_, hosts.atTime le⟩

/-- A task of a loop that has nothing to do at this instant may be shut down. -/
theorem Runs.isPrompt (runs : Runs room settings ids k bed activity)
    (unready : activity.isReady = false) : activity.IsPrompt := by
  cases runs with
  | ready => cases unready
  | asleep due isLast later => exact isLast
  | crashed => trivial

/-- At the end of an instant the loops end at once without a call if they are shut down. -/
theorem Hosts.shutDown (hosts : Hosts room settings ids callers k schedule)
    (quiet : schedule.IsQuiet) {signal : Nat}
    (signals : ∀ caller ∈ callers, caller.signal = signal) :
    schedule.shutDown (Loop.turn settings) signal =
      ⟨schedule.bed.signal signal, schedule.tasks.map (Task.stopped schedule.bed.time)⟩ := by
  have unready : ∀ task ∈ schedule.tasks, task.activity.isReady = false :=
    fun task mem => (quiet task mem).isReady_eq
  refine Schedule.shutDown_of_isPrompt quiet (fun task mem => hosts.isShutDown_eq mem)
    (fun task mem => signals _ (hosts.callers_eq ▸ List.mem_map_of_mem mem))
    (fun task mem => (hosts.runs task mem).isPrompt (unready task mem))
    (hosts.idle.imp_right fun ready => List.eq_nil_iff_forall_not_mem.2 fun task mem => ?_)
  exact Bool.noConfusion ((ready task mem).symm.trans (unready task mem))

/-- A task that was shut down has ended well then, or has crashed before. -/
theorem Runs.stopped {task : Task Loop} (runs : Runs room settings ids k bed task.activity) :
    (task.stopped bed.time).activity = .ended .ok bed.time ∨
      ∃ time ≤ bed.time, (task.stopped bed.time).activity = .ended .crashed time ∧
        ∃ cursor, room cursor ∧ ¬cursor.HasRoom settings.windowSize := by
  obtain ⟨caller, activity⟩ := task
  cases runs with
  | ready | asleep => exact .inl rfl
  | crashed fits overflow before => exact .inr ⟨_, before, rfl, _, fits, overflow⟩

/-! ### Runs that are stopped -/

/-- Loops that may be started on the testbed under a signal, of all whose cursors `room` holds. -/
structure Starts (room : Cursor → Prop) (settings : Settings) (signal : Nat)
    (services : List (Role × Loop)) (bed : Testbed) : Prop where
  paced : settings.Paced
  hooks : bed.hooks = []
  running : bed.isShutDown signal = false
  stored : ∀ cursor, bed.stores.cursors.get? settings.cursorKey = some cursor →
    room cursor.normalized
  fits : ∀ service ∈ services, service.2.Fits room
  within : ∀ cursor, cursor.nextIndex ≤ bed.agent.events.length → room cursor

namespace Starts

variable {signal c : Nat} {services : List (Role × Loop)}
  (starts : Starts room settings signal services bed)

include starts

theorem settles : Schedule.Settles (Loop.turn settings) fun schedule =>
    ∃ k, Hosts room settings (bed.agent.events.map (·.id))
      (services.map fun service => ⟨service.1, signal⟩) k schedule :=
  settles_hosts starts.paced fun cursor le => starts.within cursor (by simpa using le)

theorem hosts : ∃ k, Hosts room settings (bed.agent.events.map (·.id))
    (services.map fun service => ⟨service.1, signal⟩) k
    (Schedule.start (Loop.turn settings) signal services bed) := by
  refine ⟨bed.refusals + (bed.agent.events.map (·.id)).length + 3,
    ⟨starts.hooks, rfl, starts.stored⟩, List.map_map, ?_, ?_, .inr ?_⟩
  all_goals
    refine List.forall_mem_map.2 fun service mem => ?_
  · exact starts.running
  · exact .ready (.turn (starts.fits service mem))
      (Due.bounded (.turn (starts.fits service mem)) bed)
  · rfl

/-- Where the loops have got to by a time. -/
theorem upTo (c : Nat) :
    (∃ k, Hosts room settings (bed.agent.events.map (·.id))
      (services.map fun service => ⟨service.1, signal⟩) k
      (Schedule.upTo (Loop.turn settings) signal services bed c)) ∧
    (Schedule.upTo (Loop.turn settings) signal services bed c).IsQuiet ∧
    (Schedule.upTo (Loop.turn settings) signal services bed c).bed.time = c ∧
    bed.Logs (· ≤ c) (Schedule.upTo (Loop.turn settings) signal services bed c).bed := by
  obtain ⟨hosts, quiet, arrived, logs⟩ := starts.settles.advanceTo starts.hosts (Nat.zero_le c)
  exact ⟨hosts, quiet, arrived, logs.mono fun _ => And.right⟩

/-- After the time that they have got to, the loops call nothing before the clock moves on. -/
theorem upTo_logs {later : Nat} (le : c ≤ later) :
    (Schedule.upTo (Loop.turn settings) signal services bed c).bed.Logs (c < ·)
      (Schedule.upTo (Loop.turn settings) signal services bed later).bed := by
  obtain ⟨hosts, quiet, arrived, -⟩ := starts.upTo c
  have logs := starts.settles.logs_of_quiet hosts quiet (arrived.symm ▸ le)
  rw [arrived, Schedule.upTo,
    starts.settles.advanceTo_advanceTo starts.hosts (Nat.zero_le c) le] at logs
  exact logs

/-- The loops are stopped where they have got to by then. -/
theorem stopAt_eq (late : 0 < c) : Schedule.stopAt (Loop.turn settings) signal services bed c =
    ⟨(Schedule.upTo (Loop.turn settings) signal services bed c).bed.signal signal,
      (Schedule.upTo (Loop.turn settings) signal services bed c).tasks.map (Task.stopped c)⟩ := by
  obtain ⟨⟨k, hosts⟩, quiet, arrived, -⟩ := starts.upTo c
  have waited : (Schedule.start (Loop.turn settings) signal services bed).waitUntil
      (Loop.turn settings) c = Schedule.upTo (Loop.turn settings) signal services bed c :=
    if_neg (Nat.not_le.2 late)
  rw [Schedule.stopAt, waited, hosts.shutDown quiet (List.forall_mem_map.2 fun _ _ => rfl), arrived]

theorem log_stopAt (late : 0 < c) :
    (Schedule.stopAt (Loop.turn settings) signal services bed c).bed.log =
      (Schedule.upTo (Loop.turn settings) signal services bed c).bed.log := by
  rw [starts.stopAt_eq late]
  rfl

/-- Each loop has ended well at the time that it was stopped, unless a window overflowed. -/
theorem endings (late : 0 < c) : ∀ ending ∈
      (Schedule.stopAt (Loop.turn settings) signal services bed c).endings,
    ending = some (.ok, c) ∨ ∃ time ≤ c, ending = some (.crashed, time) ∧
      ∃ cursor, room cursor ∧ ¬cursor.HasRoom settings.windowSize := by
  obtain ⟨⟨k, hosts⟩, -, arrived, -⟩ := starts.upTo c
  rw [starts.stopAt_eq late, Schedule.endings, List.map_map]
  refine List.forall_mem_map.2 fun task mem => ?_
  have stopped := (hosts.runs task mem).stopped
  rw [arrived] at stopped
  obtain well | ⟨time, before, crashed, overflow⟩ := stopped
  · refine .inl ?_
    rw [Function.comp, well]
    rfl
  · refine .inr ⟨time, before, ?_, overflow⟩
    rw [Function.comp, crashed]
    rfl

theorem length_endings (late : 0 < c) :
    (Schedule.stopAt (Loop.turn settings) signal services bed c).endings.length =
      services.length := by
  obtain ⟨⟨k, hosts⟩, -⟩ := starts.upTo c
  have := congrArg List.length hosts.callers_eq
  rw [starts.stopAt_eq late, Schedule.endings]
  simpa using this

end Starts

/-- No window that the loops may ask for reaches beyond the positions. -/
structure Roomy (settings : Settings) (services : List (Role × Loop)) (bed : Testbed) : Prop where
  feed : bed.agent.events.length - 1 + settings.windowSize < Position.bound
  stored : ∀ cursor, bed.stores.cursors.get? settings.cursorKey = some cursor →
    cursor.normalized.HasRoom settings.windowSize
  services : ∀ service ∈ services, service.2.Fits (Cursor.HasRoom settings.windowSize)

variable {services : List (Role × Loop)} {signal : Nat}

theorem starts_of_paced (paced : settings.Paced) (hooks : bed.hooks = [])
    (running : bed.isShutDown signal = false) :
    Starts (fun _ => True) settings signal services bed where
  paced := paced
  hooks := hooks
  running := running
  stored _ _ := trivial
  fits service _ := by cases service.2 <;> trivial
  within _ _ := trivial

theorem Roomy.starts (roomy : Roomy settings services bed) (paced : settings.Paced)
    (hooks : bed.hooks = []) (running : bed.isShutDown signal = false) :
    Starts (Cursor.HasRoom settings.windowSize) settings signal services bed where
  paced := paced
  hooks := hooks
  running := running
  stored := roomy.stored
  fits := roomy.services
  within cursor le := by
    have := roomy.feed
    rw [Cursor.HasRoom, Cursor.windowStart]
    omega

end Loop

/-- Loops whose pauses take time, shut down at a time after their start, all end at that time and
call nothing more. They end well, but for those that crashed before; and none does whose windows
have room. What they called is what is called up to that time if they are shut down at a later
one. -/
theorem loops_stop_promptly {settings : Settings} {services : List (Role × Loop)} {bed : Testbed}
    {signal c : Nat} (paced : settings.Paced) (hooks : bed.hooks = [])
    (running : bed.isShutDown signal = false) (late : 0 < c) :
    let stopped := Schedule.stopAt (Loop.turn settings) signal services bed
    (∀ ending ∈ (stopped c).endings,
      ending = some (.ok, c) ∨ ∃ time ≤ c, ending = some (.crashed, time)) ∧
    (Loop.Roomy settings services bed →
      (stopped c).endings = services.map fun _ => some (.ok, c)) ∧
    (∀ time, ((stopped c).advanceTo (Loop.turn settings) time).bed.log = (stopped c).bed.log) ∧
    ∃ calls, (stopped c).bed.log = bed.log ++ calls ∧ (∀ entry ∈ calls, entry.time ≤ c) ∧
      ∀ later, c ≤ later → ∃ after, (stopped later).bed.log = bed.log ++ calls ++ after ∧
        ∀ entry ∈ after, c < entry.time := by
  have starts : Loop.Starts (fun _ => True) settings signal services bed :=
    Loop.starts_of_paced paced hooks running
  refine ⟨fun ending mem => ?_, fun roomy => ?_, fun time => ?_, ?_⟩
  · refine (starts.endings late ending mem).imp_right ?_
    rintro ⟨time, before, crashed, -⟩
    exact ⟨time, before, crashed⟩
  · have starts := roomy.starts paced hooks running
    rw [List.map_const', ← starts.length_endings late]
    refine List.eq_replicate_of_mem fun ending mem => ?_
    refine (starts.endings late ending mem).resolve_right ?_
    rintro ⟨time, -, -, cursor, fits, overflow⟩
    exact overflow fits
  · rw [starts.stopAt_eq late, Schedule.advanceTo_of_isOver (Schedule.isOver_stopped c)]
    rfl
  · obtain ⟨-, -, -, calls, made, times⟩ := starts.upTo c
    refine ⟨calls, (starts.log_stopAt late).trans made, times, fun later le => ?_⟩
    obtain ⟨after, goesOn, times'⟩ := starts.upTo_logs le
    refine ⟨after, ?_, times'⟩
    rw [starts.log_stopAt (Nat.lt_of_lt_of_le late le), goesOn, made]

/-- The time at which the agent is reached again, if the task sleeps until then and would go on
otherwise when it is shut down. -/
def Activity.reachesAt? {σ : Type} : Activity σ → Option Nat
  | .asleep wake (.call .reconnected _) (some _) => wake
  | _ => none

/-- Both loops are stopped while they wait for the agent to be reached again : the feed loop after
its fetch failed, and the poller in its pass, after it could not ask for the operation. -/
theorem loops_stop_promptly_reconnecting :
    let services := [(.feed, .feedStart), (.poller, .pollerStart)]
    let bed := applyAll {} [.failNext .fetch 1, .watch ⟨"op", .witnessAssignment, "group"⟩,
      .failReport "op", .setDelay 60000]
    let before := Schedule.upTo (Loop.turn {}) 0 services bed 1500
    let stopped := Schedule.stopAt (Loop.turn {}) 0 services bed
    before.tasks.map (·.activity.reachesAt?) = [some 60000, some 60000] ∧
    before.bed.log = [⟨0, .feed, .loadCursor "keria-notification-marker"⟩,
      ⟨0, .feed, .storeCursor "keria-notification-marker" .start⟩, ⟨0, .feed, .fetch 0 24⟩,
      ⟨0, .poller, .pendingOperations⟩, ⟨0, .poller, .operationStatus "op"⟩] ∧
    (stopped 1500).bed.log = before.bed.log ∧
    (stopped 1500).endings = [some (.ok, 1500), some (.ok, 1500)] ∧
      ∀ time, ((stopped 1500).advanceTo (Loop.turn {}) time).bed.log = (stopped 1500).bed.log :=
  ⟨rfl, rfl, rfl,
    (loops_stop_promptly ⟨by decide, by decide, by decide⟩ rfl rfl (by decide)).2.imp
      (· ⟨by decide, (fun _ found => by cases found), by simp [Loop.Fits]⟩) And.left⟩

end Feedkeeper
