import Feedkeeper.Host
import Feedkeeper.Proofs.Async

/-!
# Waiting for services

What a host does at each of its stages. Once it has begun, all its services are tasks under signals
that are given along with its own (`Host.poll_begun`), and it waits for that (`Host.awaiting`). Then
it stops them : of a service that has ended it has the outcome, and for every other it still waits
(`Handle.left`). It has returned once no service is left, and before that no ending, and no failure,
makes a difference to what it waits for (`Host.leaving`).
-/

namespace Feedkeeper

open Testbed

variable {σ : Type} {turn : σ → Script (Turn σ)} {schedule : Schedule σ} {tasks : List (Task σ)}

/-! ## A single service -/

namespace Handle

/-- What is left of waiting for a service, which may have ended among the tasks. -/
def left (tasks : List (Task σ)) (handle : Handle) : Async σ (Except Service.Failure Unit) :=
  match endingAt? tasks handle.task with
  | some ended => .done (ended.1.outcome handle.name)
  | none => handle.join

variable {handle : Handle}

theorem poll_join : handle.join.poll turn schedule = (handle.left schedule.tasks, schedule) := by
  have asked : handle.join.poll turn schedule = Async.poll turn
      (.ask (.join handle.task) fun ending => .done (ending.outcome handle.name)) schedule := rfl
  rw [asked, Async.poll, Async.Request.answer?, left]
  cases endingAt? schedule.tasks handle.task <;> rfl

/-- What has ended has ended for good. -/
theorem poll_left (kept : ∀ ended ∈ endingAt? tasks handle.task,
      ended ∈ endingAt? schedule.tasks handle.task) :
    (handle.left tasks).poll turn schedule = (handle.left schedule.tasks, schedule) := by
  cases before : endingAt? tasks handle.task with
  | none =>
    have waits : handle.left tasks = handle.join := by rw [left, before]
    rw [waits, poll_join]
  | some ended =>
    have after := kept ended before
    rw [left, before, left, after]
    rfl

/-- A service whose signal is given is stopped by waiting for it. -/
theorem poll_stop (given : schedule.bed.isShutDown handle.signal = true) :
    handle.stop.poll turn schedule = (handle.left schedule.tasks, schedule) := by
  have same : schedule.bed.signal handle.signal = schedule.bed := by
    rw [Testbed.signal, Signals.give_of_mem (isShutDown_iff.1 given)]
  have asked : handle.stop.poll turn schedule = handle.join.poll turn
      { schedule with bed := schedule.bed.signal handle.signal } := rfl
  rw [asked, same, poll_join]

theorem value?_left : (handle.left tasks).value? =
    (endingAt? tasks handle.task).map fun ended => ended.1.outcome handle.name := by
  rw [left]
  cases endingAt? tasks handle.task <;> rfl

end Handle

/-! ## Several services -/

section

variable {α : Type} {first first' : Async σ α} {rest rest' : Async σ (List α)}

/-- A procedure and others side by side, of which all may have ended. -/
def Async.paired (first : Async σ α) (rest : Async σ (List α)) : Async σ (List α) :=
  match first.value?, rest.value? with
  | some value, some values => .done (value :: values)
  | _, _ => .both first rest fun value values => .done (value :: values)

theorem Async.poll_both (h : first.poll turn schedule = (first', schedule))
    (h' : rest.poll turn schedule = (rest', schedule)) :
    (both first rest fun value values => .done (value :: values)).poll turn schedule =
      (paired first' rest', schedule) := by
  rw [poll, h]
  dsimp only
  rw [h', paired]
  cases first'.value? with
  | none => rfl
  | some value => cases rest'.value? <;> rfl

theorem Async.poll_paired (h : first.poll turn schedule = (first', schedule))
    (h' : rest.poll turn schedule = (rest', schedule)) :
    (paired first rest).poll turn schedule = (paired first' rest', schedule) := by
  cases own : first.value? with
  | none =>
    rw [paired, own]
    exact poll_both h h'
  | some value =>
    cases others : rest.value? with
    | none =>
      rw [paired, own, others]
      exact poll_both h h'
    | some values =>
      obtain rfl := value?_eq_some_iff.1 own
      obtain rfl := value?_eq_some_iff.1 others
      obtain rfl := (Prod.mk.inj h).1
      obtain rfl := (Prod.mk.inj h').1
      rfl

end

namespace Host

/-- What is left of waiting for services side by side. -/
def allLeft (tasks : List (Task σ)) : List Handle → Async σ (List (Except Service.Failure Unit))
  | [] => .done []
  | handle :: rest => .paired (handle.left tasks) (allLeft tasks rest)

variable {handles : List Handle}

theorem poll_all_stop (given : ∀ handle ∈ handles, schedule.bed.isShutDown handle.signal = true) :
    (Async.all (handles.map Handle.stop)).poll turn schedule =
      (allLeft schedule.tasks handles, schedule) := by
  induction handles with
  | nil => rfl
  | cons handle rest ih =>
    rw [List.forall_mem_cons] at given
    exact Async.poll_both (Handle.poll_stop given.1) (ih given.2)

theorem poll_allLeft (kept : ∀ index, ∀ ended ∈ endingAt? tasks index,
      ended ∈ endingAt? schedule.tasks index) :
    (allLeft tasks handles).poll turn schedule = (allLeft schedule.tasks handles, schedule) := by
  induction handles with
  | nil => rfl
  | cons handle rest ih => exact Async.poll_paired (Handle.poll_left (kept handle.task)) ih

/-- No service is left once each has ended, and then their outcomes are known. -/
theorem value?_allLeft_eq_some_iff {results : List (Except Service.Failure Unit)} :
    (allLeft tasks handles).value? = some results ↔
      List.Forall₂ (fun handle result => (handle.left tasks).value? = some result)
        handles results := by
  induction handles generalizing results with
  | nil => simp [allLeft, Async.value?, eq_comm]
  | cons handle rest ih =>
    rw [allLeft, List.forall₂_cons_left_iff, Async.paired]
    simp only [← ih]
    cases (handle.left tasks).value? with
    | none => simp [Async.value?]
    | some result => cases (allLeft tasks rest).value? <;> simp [Async.value?, eq_comm]

/-- Outcomes that are known stay known. -/
theorem value?_allLeft_of_kept {tasks' : List (Task σ)}
    (kept : ∀ index, ∀ ended ∈ endingAt? tasks index, ended ∈ endingAt? tasks' index)
    {results : List (Except Service.Failure Unit)}
    (returned : (allLeft tasks handles).value? = some results) :
    (allLeft tasks' handles).value? = some results := by
  rw [value?_allLeft_eq_some_iff] at returned ⊢
  refine returned.imp fun handle result known => ?_
  rw [Handle.value?_left] at known ⊢
  obtain ⟨ended, mem, same⟩ := Option.map_eq_some_iff.1 known
  exact Option.map_eq_some_iff.2 ⟨ended, kept handle.task ended mem, same⟩

/-- As long as no other service ends there is nothing to go on with. -/
theorem isReady_allLeft
    (same : ∀ index, endingAt? schedule.tasks index = endingAt? tasks index) :
    (allLeft tasks handles).isReady turn schedule = false := by
  have waits (handle : Handle) : (handle.left tasks).isReady turn schedule = false := by
    cases ended : endingAt? tasks handle.task with
    | some ended' => rw [Handle.left, ended]; rfl
    | none =>
      have asks : (Handle.left tasks handle).isReady turn schedule =
          ((Async.Request.join handle.task).answer? turn schedule).isSome := by
        rw [Handle.left, ended]
        rfl
      rw [asks, Async.Request.answer?, same, ended]
      rfl
  induction handles with
  | nil => rfl
  | cons handle rest ih =>
    rw [allLeft, Async.paired]
    split
    · rfl
    · rename_i unfinished
      rw [Async.isReady, waits, ih]
      cases own : (handle.left tasks).value? with
      | none => rfl
      | some value =>
        cases others : (allLeft tasks rest).value? with
        | none => rfl
        | some values => exact (unfinished value values own others).elim

/-! ## Starting services -/

/-- The schedule once services were started, each under a signal that is given along with the given
one. -/
def spawned (turn : σ → Script (Turn σ)) (signal : Nat) : List (Service σ) → Schedule σ → Schedule σ
  | [], schedule => schedule
  | service :: rest, schedule =>
    spawned turn signal rest
      ⟨{ schedule.bed with signals := schedule.bed.signals.bear signal },
        schedule.tasks ++
          [⟨⟨service.role, schedule.bed.signals.next⟩, .ready (turn service.state)⟩]⟩

variable {signal first : Nat} {services : List (Service σ)}

theorem length_tasks_spawned (service : Service σ) :
    (spawned turn signal [service] schedule).tasks.length = schedule.tasks.length + 1 :=
  List.length_append

theorem numbered_spawned (numbered : schedule.bed.signals.next = first + schedule.tasks.length)
    {service : Service σ} : (spawned turn signal [service] schedule).bed.signals.next =
      first + (spawned turn signal [service] schedule).tasks.length := by
  rw [length_tasks_spawned]
  exact congrArg Nat.succ numbered

theorem poll_spawn (numbered : schedule.bed.signals.next = first + schedule.tasks.length) :
    (services.mapM fun service => do
      Handle.spawnUnder service (← Async.request (.child signal))).poll turn schedule =
      (.done ((services.zipIdx schedule.tasks.length).map fun (service, index) =>
        ⟨service.name, first + index, index⟩), spawned turn signal services schedule) := by
  induction services generalizing schedule with
  | nil => rfl
  | cons service rest ih =>
    have later := @ih (spawned turn signal [service] schedule) (numbered_spawned numbered)
    have one : (do Handle.spawnUnder service (← Async.request (.child signal))).poll turn schedule =
      (.done ⟨service.name, schedule.bed.signals.next, schedule.tasks.length⟩,
        spawned turn signal [service] schedule) := rfl
    rw [List.mapM_cons, Async.poll_bind_of_done one, Async.poll_bind_of_done later,
      length_tasks_spawned, List.zipIdx_cons, List.map_cons, numbered]
    rfl

theorem tasks_spawned (numbered : schedule.bed.signals.next = first + schedule.tasks.length) :
    (spawned turn signal services schedule).tasks = schedule.tasks ++
      (services.zipIdx schedule.tasks.length).map fun (service, index) =>
        ⟨⟨service.role, first + index⟩, .ready (turn service.state)⟩ := by
  induction services generalizing schedule with
  | nil => exact (List.append_nil _).symm
  | cons service rest ih =>
    have later := @ih (spawned turn signal [service] schedule) (numbered_spawned numbered)
    rw [length_tasks_spawned] at later
    rw [List.zipIdx_cons, List.map_cons, List.append_cons]
    dsimp only
    rw [← numbered]
    exact later

/-- Starting services only makes signals. -/
theorem bed_spawned (turn : σ → Script (Turn σ)) (signal : Nat) (services : List (Service σ))
    (schedule : Schedule σ) : (spawned turn signal services schedule).bed =
      { schedule.bed with
        signals := (spawned turn signal services schedule).bed.signals } := by
  induction services generalizing schedule with
  | nil => rfl
  | cons service rest ih => exact ih (spawned turn signal [service] schedule)

theorem isShutDown_spawned (waits : schedule.bed.isShutDown signal = false) :
    (spawned turn signal services schedule).bed.isShutDown signal = false := by
  induction services generalizing schedule with
  | nil => exact waits
  | cons service rest ih =>
    refine @ih (spawned turn signal [service] schedule) (Bool.eq_false_iff.2 fun given => ?_)
    have either := Signals.mem_given_bear_iff.1 (isShutDown_iff.1 given)
    exact Bool.eq_false_iff.1 waits (isShutDown_iff.2 (either.elim id And.right))

theorem heir_spawned {child : Nat} (heir : Signals.Heir signal child schedule.bed.signals) :
    Signals.Heir signal child (spawned turn signal services schedule).bed.signals := by
  induction services generalizing schedule with
  | nil => exact heir
  | cons service rest ih => exact ih (heir.bear signal)

theorem heirs_spawned (sound : schedule.bed.signals.Sound)
    (inUse : signal < schedule.bed.signals.next) {index : Nat} (inside : index < services.length) :
    Signals.Heir signal (schedule.bed.signals.next + index)
      (spawned turn signal services schedule).bed.signals := by
  induction services generalizing schedule index with
  | nil => cases inside
  | cons service rest ih =>
    have whole : spawned turn signal (service :: rest) schedule =
      spawned turn signal rest (spawned turn signal [service] schedule) := rfl
    rw [whole]
    cases index with
    | zero =>
      have born : Signals.Heir signal schedule.bed.signals.next
        (spawned turn signal [service] schedule).bed.signals := sound.heir inUse
      exact heir_spawned born
    | succ index =>
      have bears : (spawned turn signal [service] schedule).bed.signals =
        schedule.bed.signals.bear signal := rfl
      have later := @ih (spawned turn signal [service] schedule) (bears ▸ sound.bear inUse)
        (bears ▸ Nat.lt_succ_of_lt inUse) index (Nat.lt_of_succ_lt_succ inside)
      rw [bears] at later
      have same : schedule.bed.signals.next + (index + 1) =
        schedule.bed.signals.next + 1 + index := by omega
      rw [same]
      exact later

/-- The handles on services in their places, with signals that are numbered from `first` on. -/
def handlesOn (services : List (Service σ)) (first : Nat) : List Handle :=
  services.zipIdx.map fun (service, index) => ⟨service.name, first + index, index⟩

/-- The services were started, and each stands in its place under a signal that is given along with
the given one. -/
structure Placed (services : List (Service σ)) (signal first : Nat) (schedule : Schedule σ) :
    Prop where
  callers : schedule.tasks.map (·.caller) = services.zipIdx.map fun (service, index) =>
    ⟨service.role, first + index⟩
  heirs : ∀ index < services.length,
    Signals.Heir signal (first + index) schedule.bed.signals

namespace Placed

variable (placed : Placed services signal first schedule)

include placed

theorem length_eq : schedule.tasks.length = services.length := by
  have same := congrArg List.length placed.callers
  simpa using same

theorem roles : schedule.tasks.map (·.caller.role) = services.map (·.role) := by
  have same := congrArg (List.map (·.role)) placed.callers
  rw [List.map_map, List.map_map] at same
  have roles : (services.zipIdx.map Prod.fst).map (·.role) = services.map (·.role) :=
    congrArg _ (List.zipIdx_map_fst 0 services)
  rw [List.map_map] at roles
  exact same.trans roles

/-- The signal of each service is given exactly if the signal of the host is. -/
theorem isShutDown_eq {task : Task σ} (mem : task ∈ schedule.tasks) :
    schedule.bed.isShutDown task.caller.signal = schedule.bed.isShutDown signal := by
  have called := List.mem_map_of_mem (f := (·.caller)) mem
  rw [placed.callers] at called
  obtain ⟨⟨service, index⟩, there, same⟩ := List.mem_map.1 called
  have inside : index < services.length := by
    have := (List.mem_zipIdx there).2.1
    omega
  rw [← same, Bool.eq_iff_iff, isShutDown_iff, isShutDown_iff]
  exact (placed.heirs index inside).given

theorem isShutDown_handles (given : schedule.bed.isShutDown signal = true) :
    ∀ handle ∈ handlesOn services first, schedule.bed.isShutDown handle.signal = true := by
  refine List.forall_mem_map.2 ?_
  rintro ⟨service, index⟩ there
  have inside : index < services.length := by
    have := (List.mem_zipIdx there).2.1
    omega
  exact isShutDown_iff.2 ((placed.heirs index inside).given.2 (isShutDown_iff.1 given))

/-- The services keep to their places while work is done. -/
theorem works {schedule' : Schedule σ}
    (callers : schedule'.tasks.map (·.caller) = schedule.tasks.map (·.caller))
    (works : schedule.bed.Works schedule'.bed) : Placed services signal first schedule' :=
  ⟨callers.trans placed.callers, fun index inside => works.signals.heir (placed.heirs index inside)⟩

theorem round (turn : σ → Script (Turn σ)) :
    Placed services signal first (schedule.rouse.round turn) := by
  have roused : schedule.rouse.tasks.map (·.caller) = schedule.tasks.map (·.caller) := by
    rw [Schedule.rouse, List.map_map]
    rfl
  exact placed.works ((Schedule.resumeAll_callers turn _ _).trans roused)
    (Schedule.round_since turn schedule.rouse).2

/-- The host's signal may be given. -/
theorem give : Placed services signal first ⟨schedule.bed.signal signal, schedule.tasks⟩ :=
  ⟨placed.callers, fun index inside =>
    (placed.heirs index inside).give (placed.heirs index inside).parent_ne⟩

end Placed

/-! ## The stages of a host -/

/-- A host that stops its services. -/
def closing (handles : List Handle) : Async σ (Except Service.Failure Unit × Nat) := do
  let results ← Async.all (handles.map Handle.stop)
  return (firstFailure results, ← Async.request .now)

/-- A host that waits for its signal. -/
def awaiting (signal : Nat) (handles : List Handle) :
    Async σ (Except Service.Failure Unit × Nat) := do
  Async.request (.await signal)
  closing handles

/-- A host that waits for its services to end, or has returned at the time. -/
def leaving (tasks : List (Task σ)) (handles : List Handle) (time : Nat) :
    Async σ (Except Service.Failure Unit × Nat) :=
  match (allLeft tasks handles).value? with
  | some results => .done (firstFailure results, time)
  | none => do
    let results ← allLeft tasks handles
    return (firstFailure results, ← Async.request .now)

theorem poll_closing (given : ∀ handle ∈ handles, schedule.bed.isShutDown handle.signal = true) :
    (closing handles).poll turn schedule =
      (leaving schedule.tasks handles schedule.bed.time, schedule) := by
  rw [closing, Async.poll_bind, poll_all_stop given, leaving]
  dsimp only
  split
  · rename_i results ended
    rw [ended]
    rfl
  · rename_i unfinished
    rw [unfinished]

theorem poll_awaiting_of_given {signal : Nat} (given : schedule.bed.isShutDown signal = true) :
    (awaiting signal handles).poll turn schedule = (closing handles).poll turn schedule := by
  have asked : (awaiting signal handles).poll turn schedule =
      (Async.ask (.await signal) fun _ => closing handles).poll turn schedule := rfl
  rw [asked, Async.poll, Async.Request.answer?, if_pos given]

theorem poll_awaiting_of_not_given {signal : Nat}
    (waits : schedule.bed.isShutDown signal = false) :
    (awaiting signal handles).poll turn schedule = (awaiting signal handles, schedule) := by
  have asked : (awaiting signal handles).poll turn schedule =
      (Async.ask (.await signal) fun _ => closing handles).poll turn schedule := rfl
  rw [asked, Async.poll, Async.Request.answer?, if_neg (Bool.eq_false_iff.1 waits)]
  rfl

theorem isReady_awaiting (signal : Nat) (handles : List Handle) (schedule : Schedule σ) :
    (awaiting signal handles).isReady turn schedule = schedule.bed.isShutDown signal := by
  have asked : (awaiting signal handles).isReady turn schedule =
      ((Async.Request.await signal).answer? turn schedule).isSome := rfl
  rw [asked, Async.Request.answer?]
  cases schedule.bed.isShutDown signal <;> rfl

section

variable (kept : ∀ index, ∀ ended ∈ endingAt? tasks index,
  ended ∈ endingAt? schedule.tasks index)

include kept

/-- A host that has returned has returned for good. -/
theorem poll_leaving_of_returned {results : List (Except Service.Failure Unit)}
    (returned : (allLeft tasks handles).value? = some results) (time : Nat) :
    (leaving tasks handles time).poll turn schedule =
      (leaving schedule.tasks handles time, schedule) := by
  rw [leaving, leaving, returned, value?_allLeft_of_kept kept returned]
  rfl

/-- A host that waits for its services waits for those that are left. -/
theorem poll_leaving_of_unfinished (unfinished : (allLeft tasks handles).value? = none)
    (time : Nat) : (leaving tasks handles time).poll turn schedule =
      (leaving schedule.tasks handles schedule.bed.time, schedule) := by
  rw [leaving, unfinished]
  dsimp only
  rw [Async.poll_bind, poll_allLeft kept, leaving]
  dsimp only
  split
  · rename_i results ended
    rw [ended]
    rfl
  · rename_i waits
    rw [waits]

end

theorem isReady_leaving (same : ∀ index, endingAt? schedule.tasks index = endingAt? tasks index)
    (time : Nat) : (leaving tasks handles time).isReady turn schedule = false := by
  rw [leaving]
  split
  · rfl
  · rename_i unfinished
    rw [Async.isReady_bind_of_none unfinished, isReady_allLeft same]

/-- Once no service is left the host has returned. -/
theorem value?_leaving (tasks : List (Task σ)) (handles : List Handle) (time : Nat) :
    (leaving tasks handles time).value? =
      (allLeft tasks handles).value?.map fun results => (firstFailure results, time) := by
  rw [leaving]
  cases waits : (allLeft tasks handles).value? with
  | none => exact Async.value?_bind_of_none waits
  | some results => rfl

/-- A host starts its services, and then it waits for its signal. -/
theorem timed_runUntil (services : List (Service σ)) (signal : Nat) :
    (runUntil services signal).timed = (services.mapM fun service => do
      Handle.spawnUnder service (← Async.request (.child signal))) >>= awaiting signal := by
  rw [runUntil, Async.timed, bind_assoc]
  refine congrArg (_ >>= ·) (funext fun handles => ?_)
  rw [awaiting, closing, bind_assoc]
  refine congrArg (_ >>= ·) (funext fun _ => ?_)
  rw [bind_assoc]
  rfl

/-- A host that begins has started all services when it waits. -/
theorem poll_begun (none : schedule.tasks = []) :
    (runUntil services signal).timed.poll turn schedule =
      (awaiting signal (handlesOn services schedule.bed.signals.next)).poll turn
        (spawned turn signal services schedule) := by
  have numbered : schedule.bed.signals.next =
      schedule.bed.signals.next + schedule.tasks.length := by
    rw [none]
    rfl
  rw [timed_runUntil, Async.poll_bind_of_done (poll_spawn numbered), none]
  rfl

theorem placed_spawned (turn : σ → Script (Turn σ)) (services : List (Service σ))
    (none : schedule.tasks = []) (sound : schedule.bed.signals.Sound)
    (inUse : signal < schedule.bed.signals.next) :
    Placed services signal schedule.bed.signals.next (spawned turn signal services schedule) := by
  have numbered : schedule.bed.signals.next =
      schedule.bed.signals.next + schedule.tasks.length := by
    rw [none]
    rfl
  refine ⟨?_, fun index inside => heirs_spawned sound inUse inside⟩
  rw [tasks_spawned numbered, none, List.nil_append, List.map_map]
  rfl

end Host

end Feedkeeper
