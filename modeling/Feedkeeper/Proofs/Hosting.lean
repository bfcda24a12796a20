import Feedkeeper.Proofs.Handles
import Feedkeeper.Proofs.Runtime

/-!
# Hosted services in the course of time

Before its signal is given a host is about to start its services, or it waits for the signal
(`Host.Unheard`). From then on it waits for the services that have not ended, and it returns with
the last of them (`Host.Leaving`). If nobody else gives the signal, and every service ends
(`Host.Orderly`), then the host gets to every time (`Host.exists_reached`), it is at one of these
stages there (`Host.seen`), and each service ends once, whenever one looks at it
(`Host.exists_ends`).
-/

namespace Feedkeeper

open Testbed

variable {σ : Type} {turn : σ → Script (Turn σ)}

/-! ## Endings of several services -/

namespace Schedule

variable {schedule : Schedule σ} {ends : List (Ending × Nat)}

/-- What there is of everything can be collected. -/
theorem map_some_filterMap {α β : Type} {f : α → Option β} {xs : List α}
    (h : ∀ x ∈ xs, (f x).isSome = true) : (xs.filterMap f).map some = xs.map f := by
  induction xs with
  | nil => rfl
  | cons x rest ih =>
    rw [List.forall_mem_cons] at h
    obtain ⟨y, found⟩ := Option.isSome_iff_exists.1 h.1
    rw [List.filterMap_cons_some found, List.map_cons, List.map_cons, ih h.2, found]

theorem endings_eq_map_iff {f : Ending × Nat → Option (Ending × Nat)} :
    schedule.endings = ends.map f ↔ schedule.tasks.length = ends.length ∧
      ∀ index, endingAt? schedule.tasks index = ends[index]?.bind f := by
  constructor
  · intro same
    refine ⟨by simpa [endings] using congrArg List.length same, fun index => ?_⟩
    have there := congrArg (fun endings => endings[index]?.bind id) same
    simp only [endings, List.getElem?_map, Option.bind_map] at there
    exact there
  · rintro ⟨lengths, same⟩
    refine List.ext_getElem (by simpa [endings] using lengths) fun index inside inside' => ?_
    have there := same index
    simp only [endings, List.length_map] at inside inside'
    simpa [endings, endingAt?, inside, inside'] using there

theorem endingAt?_of_endings (all : schedule.endings = ends.map some) {index : Nat}
    (inside : index < ends.length) : endingAt? schedule.tasks index = some ends[index] := by
  rw [(endings_eq_map_iff.1 all).2, List.getElem?_eq_getElem inside, Option.bind_some]

/-- All services have ended once there is an ending for each. -/
theorem isOver_iff_endings :
    schedule.isOver = true ↔ ∃ ends : List (Ending × Nat), schedule.endings = ends.map some := by
  rw [isOver, List.all_eq_true]
  constructor
  · intro ended
    exact ⟨_, (map_some_filterMap fun task mem =>
      (Activity.isSome_ending? _).trans (ended task mem)).symm⟩
  · rintro ⟨ends, same⟩ task mem
    have ended : task.activity.ending? ∈ schedule.endings := List.mem_map_of_mem mem
    rw [same] at ended
    obtain ⟨last, -, is⟩ := List.mem_map.1 ended
    rw [← Activity.isSome_ending?, ← is]
    rfl

/-- Services that have ended have ended for good. -/
theorem endings_of_since {schedule' : Schedule σ} {p : Nat → Prop}
    (since : SinceAll p schedule.tasks schedule'.tasks)
    (lengths : schedule'.tasks.length = schedule.tasks.length)
    (all : schedule.endings = ends.map some) : schedule'.endings = ends.map some := by
  have each := (endings_eq_map_iff.1 all).1
  refine endings_eq_map_iff.2 ⟨lengths.trans each, fun index => ?_⟩
  rcases Nat.lt_or_ge index ends.length with inside | beyond
  · rw [(since index).1 _ (endingAt?_of_endings all inside), List.getElem?_eq_getElem inside]
    rfl
  · rw [endingAt?, List.getElem?_eq_none (by omega), List.getElem?_eq_none beyond]
    rfl

end Schedule

/-! ## Endings in the past -/

namespace Runtime

variable {α : Type} {runtime last : Runtime σ α} {time : Nat}

/-- What has ended did so by the time on the clock. -/
def Timely (runtime : Runtime σ α) : Prop :=
  ∀ index, ∀ ended ∈ endingAt? runtime.schedule.tasks index, ended.2 ≤ runtime.time

namespace Timely

theorem round (turn : σ → Script (Turn σ)) (timely : runtime.Timely) :
    (runtime.rouse.round turn).Timely := by
  intro index ended mem
  obtain ⟨since, clock, -⟩ := round_since turn runtime
  rw [clock]
  exact ((since index).2 ended mem).elim (timely index ended) Nat.le_of_eq

theorem atTime (timely : runtime.Timely) (passes : runtime.time ≤ time) :
    (runtime.atTime time).Timely :=
  fun index ended mem => Nat.le_trans (timely index ended mem) passes

theorem run (timely : runtime.Timely) (ran : runtime.run turn time = some last) : last.Timely :=
  run_induction (P := Timely) (fun _ timely _ => timely.round turn)
    (fun _ _ timely _ passes => timely.atTime passes) ran timely

end Timely

end Runtime

namespace Host

variable {signal : Nat} {services : List (Service σ)} {bed : Testbed}
  {shutDownAt time later first since : Nat} {hosting hosting' : Hosting σ}

/-! ## Before the signal -/

/-- A host that has not heard its signal. -/
inductive Unheard (signal : Nat) (services : List (Service σ)) (hosting : Hosting σ) : Prop where
  /-- It is about to start its services. -/
  | begun (none : hosting.schedule.tasks = []) (sound : hosting.schedule.bed.signals.Sound)
      (inUse : signal < hosting.schedule.bed.signals.next)
      (procedure : hosting.procedure = (runUntil services signal).timed)
  /-- It waits for its signal. -/
  | waiting {first : Nat} (placed : Placed services signal first hosting.schedule)
      (procedure : hosting.procedure = awaiting signal (handlesOn services first))

namespace Unheard

theorem atTime (unheard : Unheard signal services hosting) (time : Nat) :
    Unheard signal services (hosting.atTime time) := by
  cases unheard with
  | begun none sound inUse procedure => exact .begun none sound inUse procedure
  | waiting placed procedure => exact .waiting ⟨placed.callers, placed.heirs⟩ procedure

theorem give (unheard : Unheard signal services hosting) :
    Unheard signal services (hosting.give signal) := by
  cases unheard with
  | begun none sound inUse procedure =>
    exact .begun none (sound.give inUse)
      (Nat.lt_of_lt_of_eq inUse (Signals.next_give _ _).symm) procedure
  | waiting placed procedure => exact .waiting placed.give procedure

/-- A host that goes on waits for its signal, or for its services if the signal is given. -/
theorem round (turn : σ → Script (Turn σ)) (unheard : Unheard signal services hosting) :
    ∃ first, Placed services signal first (hosting.rouse.round turn).schedule ∧
      (hosting.rouse.round turn).procedure =
        if (hosting.rouse.round turn).schedule.bed.isShutDown signal = true then
          leaving (hosting.rouse.round turn).schedule.tasks (handlesOn services first)
            (hosting.rouse.round turn).time
        else awaiting signal (handlesOn services first) := by
  obtain ⟨first, schedule, placed, goesOn⟩ : ∃ first schedule,
      Placed services signal first schedule ∧
        hosting.procedure.poll turn (hosting.schedule.rouse.round turn) =
          (awaiting signal (handlesOn services first)).poll turn schedule := by
    cases unheard with
    | begun none sound inUse procedure =>
      have works := (Schedule.round_since turn hosting.schedule.rouse).2.signals
      have still : (hosting.schedule.rouse.round turn).tasks = [] := by
        rw [Schedule.round, Schedule.rouse, none]
        rfl
      rw [procedure, poll_begun still]
      exact ⟨_, _, placed_spawned turn services still (works.sound sound)
        (Nat.lt_of_lt_of_le inUse works.next_le), rfl⟩
    | @waiting first placed procedure =>
      exact ⟨first, _, placed.round turn, by rw [procedure]⟩
  have next : hosting.rouse.round turn =
      ⟨((awaiting signal (handlesOn services first)).poll turn schedule).2,
        ((awaiting signal (handlesOn services first)).poll turn schedule).1⟩ := goesOn ▸ rfl
  refine ⟨first, ?_⟩
  rw [next]
  cases given : schedule.bed.isShutDown signal with
  | true =>
    rw [poll_awaiting_of_given given, poll_closing (placed.isShutDown_handles given)]
    exact ⟨placed, (if_pos given).symm⟩
  | false =>
    rw [poll_awaiting_of_not_given given]
    exact ⟨placed, (if_neg (Bool.eq_false_iff.1 given)).symm⟩

/-- A host that does not go on waits for its signal. -/
theorem of_isQuiet (unheard : Unheard signal services hosting) (quiet : hosting.IsQuiet turn) :
    ∃ first, Placed services signal first hosting.schedule ∧
      hosting.procedure = awaiting signal (handlesOn services first) := by
  cases unheard with
  | @waiting first placed procedure => exact ⟨first, placed, procedure⟩
  | begun none sound inUse procedure =>
    have waits := quiet.procedure
    rw [procedure, timed_runUntil] at waits
    cases services with
    | cons service rest =>
      rw [List.mapM_cons] at waits
      cases waits
    | nil =>
      refine ⟨0, ⟨by rw [none]; rfl, fun _ inside => absurd inside (Nat.not_lt_zero _)⟩, ?_⟩
      rw [procedure, timed_runUntil]
      rfl

/-- A host whose signal is given hears it. -/
theorem not_isQuiet (unheard : Unheard signal services hosting)
    (given : hosting.schedule.bed.isShutDown signal = true) : ¬hosting.IsQuiet turn := by
  intro quiet
  obtain ⟨first, -, procedure⟩ := unheard.of_isQuiet quiet
  have waits := quiet.procedure
  rw [procedure, isReady_awaiting, given] at waits
  cases waits

end Unheard

/-! ## From the signal on -/

/-- The outcomes of services that have ended. -/
def outcomes (services : List (Service σ)) (ends : List (Ending × Nat)) :
    List (Except Service.Failure Unit) :=
  List.zipWith (fun service ended => ended.1.outcome service.name) services ends

/-- No service is left once all have ended. -/
theorem Placed.value?_allLeft {schedule : Schedule σ} {ends : List (Ending × Nat)}
    (placed : Placed services signal first schedule) (ended : schedule.endings = ends.map some) :
    (allLeft schedule.tasks (handlesOn services first)).value? = some (outcomes services ends) := by
  obtain ⟨lengths, each⟩ := Schedule.endings_eq_map_iff.1 ended
  have same := placed.length_eq
  refine value?_allLeft_eq_some_iff.2 (List.forall₂_iff_get.2 ⟨?_, fun index inside inside' => ?_⟩)
  · simp only [handlesOn, outcomes, List.length_map, List.length_zipIdx, List.length_zipWith]
    omega
  · have there : index < ends.length := by
      simp only [handlesOn, List.length_map, List.length_zipIdx] at inside
      omega
    rw [Handle.value?_left]
    simp [handlesOn, outcomes, each, there]

/-- As long as a service has not ended, it is left. -/
theorem Placed.isOver_of_value?_allLeft {schedule : Schedule σ}
    (placed : Placed services signal first schedule)
    {results : List (Except Service.Failure Unit)}
    (returned : (allLeft schedule.tasks (handlesOn services first)).value? = some results) :
    schedule.isOver = true := by
  obtain ⟨lengths, each⟩ := List.forall₂_iff_get.1 (value?_allLeft_eq_some_iff.1 returned)
  simp only [handlesOn, List.length_map, List.length_zipIdx] at lengths
  refine List.all_eq_true.2 fun task mem => ?_
  obtain ⟨index, inside, rfl⟩ := List.mem_iff_getElem.1 mem
  rw [placed.length_eq] at inside
  have left := each index (by simpa [handlesOn] using inside) (by omega)
  rw [Handle.value?_left] at left
  obtain ⟨ended, found, -⟩ := Option.map_eq_some_iff.1 left
  simp only [handlesOn, List.get_eq_getElem, List.getElem_map, List.getElem_zipIdx, endingAt?,
    Nat.zero_add] at found
  rw [List.getElem?_eq_getElem (by rwa [placed.length_eq]), Option.bind_some] at found
  rw [← Activity.isSome_ending?, found]
  rfl

/-- A host that has stopped its services. Of those that have ended it has the outcomes, and it waits
for the others. -/
structure Leaving (signal : Nat) (services : List (Service σ)) (shutDownAt first since : Nat)
    (hosting : Hosting σ) : Prop where
  placed : Placed services signal first hosting.schedule
  procedure : hosting.procedure =
    leaving hosting.schedule.tasks (handlesOn services first) since
  from_signal : shutDownAt ≤ since
  /-- It has returned when the last service ended, or at once. -/
  latest : hosting.schedule.isOver = true →
    (∀ index, ∀ ended ∈ endingAt? hosting.schedule.tasks index, ended.2 ≤ since) ∧
      (since = shutDownAt ∨
        ∃ index, ∃ ended ∈ endingAt? hosting.schedule.tasks index, ended.2 = since)

namespace Leaving

variable (leaves : Leaving signal services shutDownAt first since hosting)

include leaves

/-- The host has returned if all services have ended. -/
theorem procedure_of_ends {ends : List (Ending × Nat)}
    (ended : hosting.schedule.endings = ends.map some) :
    hosting.procedure = .done (firstFailure (outcomes services ends), since) := by
  rw [leaves.procedure, leaving, leaves.placed.value?_allLeft ended]

/-- As long as a service has not ended, services are left. -/
theorem value?_allLeft_of_not_isOver (running : hosting.schedule.isOver = false) :
    (allLeft hosting.schedule.tasks (handlesOn services first)).value? = none := by
  cases returned : (allLeft hosting.schedule.tasks (handlesOn services first)).value? with
  | none => rfl
  | some results =>
    rw [leaves.placed.isOver_of_value?_allLeft returned] at running
    cases running

theorem value?_of_not_isOver (running : hosting.schedule.isOver = false) :
    hosting.procedure.value? = none := by
  rw [leaves.procedure, value?_leaving, leaves.value?_allLeft_of_not_isOver running]
  rfl

theorem atTime (time : Nat) :
    Leaving signal services shutDownAt first since (hosting.atTime time) :=
  ⟨⟨leaves.placed.callers, leaves.placed.heirs⟩, leaves.procedure, leaves.from_signal,
    leaves.latest⟩

/-- A host goes on waiting, and if it returns then because a service has ended. -/
theorem round (turn : σ → Script (Turn σ)) (timely : hosting.Timely)
    (after : shutDownAt ≤ hosting.time) :
    ∃ since, Leaving signal services shutDownAt first since (hosting.rouse.round turn) := by
  obtain ⟨ended, works⟩ := Schedule.rouse_round_since turn hosting.schedule
  have kept (index : Nat) := (ended index).1
  have placed := leaves.placed.round turn
  have next : hosting.rouse.round turn = Runtime.poll turn
    ⟨hosting.schedule.rouse.round turn, hosting.procedure⟩ := rfl
  cases isOver : hosting.schedule.isOver with
  | true =>
    obtain ⟨ends, all⟩ := Schedule.isOver_iff_endings.1 isOver
    have still := Schedule.endings_of_since ended
      (placed.length_eq.trans leaves.placed.length_eq.symm) all
    have same (index : Nat) : endingAt? (hosting.schedule.rouse.round turn).tasks index =
        endingAt? hosting.schedule.tasks index :=
      ((Schedule.endings_eq_map_iff.1 still).2 index).trans
        ((Schedule.endings_eq_map_iff.1 all).2 index).symm
    rw [next, Runtime.poll, leaves.procedure,
      poll_leaving_of_returned kept (leaves.placed.value?_allLeft all)]
    refine ⟨since, placed, rfl, leaves.from_signal, fun _ => ?_⟩
    simpa only [same] using leaves.latest isOver
  | false =>
    have past := timely.round turn
    rw [next, Runtime.poll, leaves.procedure,
      poll_leaving_of_unfinished kept (leaves.value?_allLeft_of_not_isOver isOver)] at past ⊢
    refine ⟨_, placed, rfl, Nat.le_trans after (Nat.le_of_eq works.time.symm),
      fun isOver' => ⟨past, .inr ?_⟩⟩
    -- There was a service that had not ended yet, and so it has ended at this time.
    obtain ⟨task, mem, running⟩ := List.all_eq_false.1 isOver
    obtain ⟨index, inside, rfl⟩ := List.mem_iff_getElem.1 mem
    obtain ⟨ends, all⟩ := Schedule.isOver_iff_endings.1 isOver'
    have there : index < ends.length := by
      rw [← (Schedule.endings_eq_map_iff.1 all).1, placed.length_eq, ← leaves.placed.length_eq]
      exact inside
    have found := Schedule.endingAt?_of_endings all there
    refine ⟨index, ends[index], found, ?_⟩
    rcases (ended index).2 _ found with before | now
    · rw [endingAt?, List.getElem?_eq_getElem inside, Option.bind_some] at before
      rw [← Activity.isSome_ending?, before] at running
      exact absurd rfl running
    · exact now.trans works.time.symm

end Leaving

/-! ## Runs of a host -/

/-- While its signal is not given, a host has not heard it. -/
theorem Unheard.run (unheard : Unheard signal services hosting)
    (ran : hosting.run turn time = some hosting')
    (waits : hosting'.schedule.bed.isShutDown signal = false) :
    Unheard signal services hosting' := by
  have either : hosting'.schedule.bed.isShutDown signal = true ∨
      Unheard signal services hosting' := by
    refine Runtime.run_induction (P := fun hosting =>
      hosting.schedule.bed.isShutDown signal = true ∨ Unheard signal services hosting)
      ?_ ?_ ran (.inr unheard)
    · rintro hosting (given | unheard) -
      · exact .inl (isShutDown_iff.2 ((Runtime.round_since turn hosting).2.2
          (isShutDown_iff.1 given)))
      · obtain ⟨first, placed, procedure⟩ := unheard.round turn
        cases given : (hosting.rouse.round turn).schedule.bed.isShutDown signal with
        | true => exact .inl rfl
        | false =>
          rw [if_neg (Bool.eq_false_iff.1 given)] at procedure
          exact .inr (.waiting placed procedure)
    · exact fun hosting time either _ _ => either.imp_right fun unheard => unheard.atTime time
  exact either.resolve_left (Bool.eq_false_iff.1 waits)

/-- A host whose signal was given at `shutDownAt`. -/
structure Stopping (signal : Nat) (services : List (Service σ)) (shutDownAt : Nat)
    (hosting : Hosting σ) : Prop where
  given : hosting.schedule.bed.isShutDown signal = true
  timely : hosting.Timely
  after : shutDownAt ≤ hosting.time
  stage : hosting.time = shutDownAt ∧ Unheard signal services hosting ∨
    ∃ first since, Leaving signal services shutDownAt first since hosting

namespace Stopping

variable (stopping : Stopping signal services shutDownAt hosting)

include stopping

theorem leaving_round (turn : σ → Script (Turn σ)) :
    ∃ first since, Leaving signal services shutDownAt first since (hosting.rouse.round turn) := by
  obtain ⟨-, clock, kept⟩ := Runtime.round_since turn hosting
  rcases stopping.stage with ⟨now, unheard⟩ | ⟨first, since, leaves⟩
  · obtain ⟨first, placed, procedure⟩ := unheard.round turn
    rw [if_pos (isShutDown_iff.2 (kept (isShutDown_iff.1 stopping.given)))] at procedure
    have now' := clock.trans now
    exact ⟨first, _, placed, procedure, Nat.le_of_eq now'.symm, fun _ =>
      ⟨stopping.timely.round turn, .inl now'⟩⟩
  · obtain ⟨since, leaves⟩ := leaves.round turn stopping.timely stopping.after
    exact ⟨first, since, leaves⟩

theorem leaving_of_isQuiet (quiet : hosting.IsQuiet turn) :
    ∃ first since, Leaving signal services shutDownAt first since hosting :=
  stopping.stage.resolve_left fun ⟨_, unheard⟩ => unheard.not_isQuiet stopping.given quiet

/-- What follows from its signal, a host is stopping. -/
theorem run (ran : hosting.run turn time = some hosting') :
    Stopping signal services shutDownAt hosting' := by
  refine Runtime.run_induction (P := Stopping signal services shutDownAt) ?_ ?_ ran stopping
  · intro hosting stopping _
    obtain ⟨-, clock, kept⟩ := Runtime.round_since turn hosting
    exact ⟨isShutDown_iff.2 (kept (isShutDown_iff.1 stopping.given)), stopping.timely.round turn,
      Nat.le_trans stopping.after (Nat.le_of_eq clock.symm), .inr (stopping.leaving_round turn)⟩
  · intro hosting time stopping quiet passes
    obtain ⟨first, since, leaves⟩ := stopping.leaving_of_isQuiet quiet
    exact ⟨stopping.given, stopping.timely.atTime passes, Nat.le_trans stopping.after passes,
      .inr ⟨first, since, leaves.atTime time⟩⟩

end Stopping

/-! ## Services that return -/

/-- The services may be hosted under the signal, which is given at `shutDownAt`. -/
structure Orderly (turn : σ → Script (Turn σ)) (signal : Nat) (services : List (Service σ))
    (bed : Testbed) (shutDownAt : Nat) : Prop where
  sound : bed.signals.Sound
  inUse : signal < bed.signals.next
  /-- Nobody else gives the signal before. -/
  unsignalled : ∀ hosting, waited turn signal services bed shutDownAt = some hosting →
    hosting.schedule.bed.isShutDown signal = false
  /-- Every service ends, by itself or because its signal is given. -/
  returns : ∃ time hosting, reached turn signal services bed shutDownAt time = some hosting ∧
    hosting.schedule.isOver = true

theorem reached_of_lt (before : time < shutDownAt) :
    reached turn signal services bed shutDownAt time = (begun signal services bed).run turn time :=
  if_pos before

theorem reached_of_le (after : shutDownAt ≤ time) :
    reached turn signal services bed shutDownAt time =
      (waited turn signal services bed shutDownAt).bind fun hosting =>
        (hosting.give signal).run turn time :=
  if_neg (Nat.not_lt.2 after)

theorem waited_of_pos (pos : 0 < shutDownAt) : waited turn signal services bed shutDownAt =
    (begun signal services bed).run turn shutDownAt :=
  if_neg (Nat.not_le.2 pos)

theorem timely_begun (signal : Nat) (services : List (Service σ)) (bed : Testbed) :
    (begun signal services bed).Timely := by
  intro index ended mem
  cases mem

namespace Orderly

variable (orderly : Orderly turn signal services bed shutDownAt)

include orderly

theorem unheard_begun : Unheard signal services (begun signal services bed) :=
  .begun rfl orderly.sound orderly.inUse rfl

/-- The host gets to the time of its signal. -/
theorem exists_waited : ∃ hosting, waited turn signal services bed shutDownAt = some hosting := by
  obtain ⟨time, hosting, reaches, isOver⟩ := orderly.returns
  rcases Nat.lt_or_ge time shutDownAt with before | after
  · rw [reached_of_lt before] at reaches
    obtain ⟨quiet, -⟩ := Runtime.run_arrives reaches (Nat.zero_le _)
    rw [waited_of_pos (Nat.zero_lt_of_lt before),
      ← Runtime.run_run reaches (Nat.zero_le _) (Nat.le_of_lt before)]
    exact ⟨_, Runtime.run_of_isOver isOver quiet.procedure shutDownAt⟩
  · rw [reached_of_le after] at reaches
    obtain ⟨hosting, waits, -⟩ := Option.bind_eq_some_iff.1 reaches
    exact ⟨hosting, waits⟩

section

variable (waits : waited turn signal services bed shutDownAt = some hosting)

include waits

/-- The host has not heard its signal when that is given. -/
theorem waited_spec : hosting.time = shutDownAt ∧ hosting.Timely ∧
    Unheard signal services hosting := by
  rcases Nat.eq_zero_or_pos shutDownAt with rfl | pos
  · obtain rfl := Option.some.inj waits
    exact ⟨rfl, timely_begun signal services bed, orderly.unheard_begun⟩
  · have free := orderly.unsignalled hosting waits
    rw [waited_of_pos pos] at waits
    exact ⟨(Runtime.run_arrives waits (Nat.zero_le _)).2,
      (timely_begun signal services bed).run waits, orderly.unheard_begun.run waits free⟩

theorem stopping_give : Stopping signal services shutDownAt (hosting.give signal) := by
  obtain ⟨now, timely, unheard⟩ := orderly.waited_spec waits
  exact ⟨isShutDown_signal_self _ _, timely, Nat.le_of_eq now.symm, .inl ⟨now, unheard.give⟩⟩

/-- If all services have ended before the signal, the host returns when it is given. -/
theorem run_give_of_isOver (pos : 0 < shutDownAt) (isOver : hosting.schedule.isOver = true)
    (time : Nat) : ∃ hosting', (hosting.give signal).run turn time = some hosting' := by
  have free := orderly.unsignalled hosting waits
  have stopping := orderly.stopping_give waits
  rw [waited_of_pos pos] at waits
  have quiet := (Runtime.run_arrives waits (Nat.zero_le _)).1
  obtain ⟨first, placed, procedure⟩ := (orderly.unheard_begun.run waits free).of_isQuiet quiet
  obtain ⟨first', since, leaves⟩ := stopping.leaving_round turn
  have lengths := leaves.placed.length_eq.trans placed.length_eq.symm
  obtain ⟨ends, all⟩ := Schedule.isOver_iff_endings.1 isOver
  have still := Schedule.endings_of_since
    (Runtime.round_since turn (hosting.give signal)).1 lengths all
  have waits' : ((hosting.give signal).rouse.round turn).procedure.isReady turn
      ((hosting.give signal).rouse.round turn).schedule = false := by
    rw [leaves.procedure_of_ends still]
    rfl
  have ready : (hosting.give signal).rouse.isReady turn = true := by
    have hears : (hosting.give signal).procedure.isReady turn
        (hosting.give signal).schedule.rouse = true := by
      have same : (hosting.give signal).procedure = awaiting signal (handlesOn services first) :=
        procedure
      rw [same, isReady_awaiting]
      exact stopping.given
    exact Bool.or_eq_true_iff.2 (.inr hears)
  rw [Runtime.run, Runtime.next?_of_isReady ready]
  exact ⟨_, Runtime.run_of_isOver (Schedule.isOver_iff_endings.2 ⟨ends, still⟩) waits' time⟩

end

/-- The host gets to every time. -/
theorem exists_reached (time : Nat) :
    ∃ hosting, reached turn signal services bed shutDownAt time = some hosting := by
  obtain ⟨start, waits⟩ := orderly.exists_waited
  rcases Nat.lt_or_ge time shutDownAt with before | after
  · rw [reached_of_lt before]
    rw [waited_of_pos (Nat.zero_lt_of_lt before)] at waits
    exact Runtime.exists_run_of_le waits (Nat.le_of_lt before)
  rw [reached_of_le after, waits, Option.bind_some]
  obtain ⟨last, hosting, reaches, isOver⟩ := orderly.returns
  rcases Nat.lt_or_ge last shutDownAt with early | late
  · refine orderly.run_give_of_isOver waits (Nat.zero_lt_of_lt early) ?_ time
    rw [reached_of_lt early] at reaches
    obtain ⟨quiet, -⟩ := Runtime.run_arrives reaches (Nat.zero_le _)
    rw [waited_of_pos (Nat.zero_lt_of_lt early),
      ← Runtime.run_run reaches (Nat.zero_le _) (Nat.le_of_lt early),
      Runtime.run_of_isOver isOver quiet.procedure] at waits
    obtain rfl := Option.some.inj waits
    exact isOver
  · rw [reached_of_le late, waits, Option.bind_some] at reaches
    have now : (start.give signal).time = shutDownAt := (orderly.waited_spec waits).1
    rcases Nat.le_total time last with le | le
    · exact Runtime.exists_run_of_le reaches le
    · obtain ⟨quiet, -⟩ := Runtime.run_arrives reaches (now ▸ late)
      rw [← Runtime.run_run reaches (now ▸ late) le]
      exact ⟨_, Runtime.run_of_isOver isOver quiet.procedure time⟩

end Orderly

/-! ## The host at a time -/

/-- What a host is up to at a time. -/
structure Seen (turn : σ → Script (Turn σ)) (signal : Nat) (services : List (Service σ))
    (shutDownAt time : Nat) (hosting : Hosting σ) : Prop where
  quiet : hosting.IsQuiet turn
  now : hosting.time = time
  timely : hosting.Timely
  given : hosting.schedule.bed.isShutDown signal = true ↔ shutDownAt ≤ time
  early : time < shutDownAt → ∃ first, Placed services signal first hosting.schedule ∧
    hosting.procedure = awaiting signal (handlesOn services first)
  late : shutDownAt ≤ time → ∃ first since, Leaving signal services shutDownAt first since hosting

theorem Seen.placed (seen : Seen turn signal services shutDownAt time hosting) :
    ∃ first, Placed services signal first hosting.schedule := by
  rcases Nat.lt_or_ge time shutDownAt with before | after
  · obtain ⟨first, placed, -⟩ := seen.early before
    exact ⟨first, placed⟩
  · obtain ⟨first, since, leaves⟩ := seen.late after
    exact ⟨first, leaves.placed⟩

namespace Orderly

variable (orderly : Orderly turn signal services bed shutDownAt)

include orderly

theorem seen (reaches : reached turn signal services bed shutDownAt time = some hosting) :
    Seen turn signal services shutDownAt time hosting := by
  obtain ⟨start, waits⟩ := orderly.exists_waited
  rcases Nat.lt_or_ge time shutDownAt with before | after
  · have free := orderly.unsignalled start waits
    rw [waited_of_pos (Nat.zero_lt_of_lt before)] at waits
    rw [reached_of_lt before] at reaches
    obtain ⟨quiet, now⟩ := Runtime.run_arrives reaches (Nat.zero_le _)
    -- A signal that was given would be given when the host gives it.
    have unsignalled : hosting.schedule.bed.isShutDown signal = false := by
      rw [← Runtime.run_run reaches (Nat.zero_le _) (Nat.le_of_lt before)] at waits
      refine Bool.eq_false_iff.2 fun given => Bool.eq_false_iff.1 free ?_
      exact isShutDown_iff.2 (Runtime.run_given waits (isShutDown_iff.1 given))
    exact ⟨quiet, now, (timely_begun signal services bed).run reaches,
      iff_of_false (Bool.eq_false_iff.1 unsignalled) (Nat.not_le.2 before),
      fun _ => (orderly.unheard_begun.run reaches unsignalled).of_isQuiet quiet,
      fun after => absurd before (Nat.not_lt.2 after)⟩
  · rw [reached_of_le after, waits, Option.bind_some] at reaches
    have start_eq : (start.give signal).time = shutDownAt := (orderly.waited_spec waits).1
    obtain ⟨quiet, now⟩ := Runtime.run_arrives reaches (start_eq ▸ after)
    have stopping := (orderly.stopping_give waits).run reaches
    exact ⟨quiet, now, stopping.timely, iff_of_true stopping.given after,
      fun before => absurd before (Nat.not_lt.2 after), fun _ => stopping.leaving_of_isQuiet quiet⟩

/-- What ends after a time ends later than it. -/
theorem since_reached (le : time ≤ later)
    (reaches : reached turn signal services bed shutDownAt time = some hosting)
    (reaches' : reached turn signal services bed shutDownAt later = some hosting') :
    SinceAll (fun ended => time < ended ∧ ended ≤ later) hosting.schedule.tasks
      hosting'.schedule.tasks := by
  have quiet := (orderly.seen reaches).quiet
  have now := (orderly.seen reaches).now
  obtain ⟨start, waits⟩ := orderly.exists_waited
  have start_eq : (start.give signal).time = shutDownAt := (orderly.waited_spec waits).1
  rcases Nat.lt_or_ge time shutDownAt with before | after
  · rw [reached_of_lt before] at reaches
    rcases Nat.lt_or_ge later shutDownAt with before' | after'
    · rw [reached_of_lt before', ← Runtime.run_run reaches (Nat.zero_le _) le] at reaches'
      exact now ▸ Runtime.run_since_of_isQuiet quiet reaches'
    · rw [reached_of_le after', waits, Option.bind_some] at reaches'
      rw [waited_of_pos (Nat.zero_lt_of_lt before),
        ← Runtime.run_run reaches (Nat.zero_le _) (Nat.le_of_lt before)] at waits
      have first := Runtime.run_since_of_isQuiet quiet waits
      have last := Runtime.run_since reaches' (start_eq ▸ after')
      rw [now] at first
      rw [start_eq] at last
      refine (first.mono fun ended between => ?_).trans (last.mono fun ended between => ?_)
      all_goals omega
  · rw [reached_of_le after, waits, Option.bind_some] at reaches
    rw [reached_of_le (Nat.le_trans after le), waits, Option.bind_some,
      ← Runtime.run_run reaches (start_eq ▸ after) le] at reaches'
    exact now ▸ Runtime.run_since_of_isQuiet quiet reaches'

/-- Of a service that has ended in the end, all that can be seen at a time is that, if it has. -/
theorem endingAt?_reached {index last : Nat} {ended : Ending × Nat}
    (reaches : reached turn signal services bed shutDownAt time = some hosting)
    (reaches' : reached turn signal services bed shutDownAt last = some hosting')
    (mem : ended ∈ endingAt? hosting'.schedule.tasks index) :
    endingAt? hosting.schedule.tasks index = if ended.2 ≤ time then some ended else none := by
  have timely := (orderly.seen reaches).timely
  have timely' := (orderly.seen reaches').timely
  rw [Runtime.Timely, (orderly.seen reaches).now] at timely
  rw [Runtime.Timely, (orderly.seen reaches').now] at timely'
  rcases Nat.le_total time last with early | late
  · obtain ⟨stays, new⟩ := orderly.since_reached early reaches reaches' index
    split
    · rename_i past
      exact (new ended mem).resolve_right fun between => Nat.not_lt.2 past between.1
    · rename_i future
      refine Option.eq_none_iff_forall_not_mem.2 fun other seen => future ?_
      obtain rfl := Option.mem_unique (stays other seen) mem
      exact timely index other seen
  · have past := Nat.le_trans (timely' index ended mem) late
    rw [if_pos past]
    exact (orderly.since_reached late reaches' reaches index).1 ended mem

/-- Each service ends once, whenever one looks at it. -/
theorem exists_ends : ∃ ends : List (Ending × Nat), ends.length = services.length ∧
    ∀ time hosting, reached turn signal services bed shutDownAt time = some hosting →
      hosting.schedule.endings =
        ends.map fun ended => if ended.2 ≤ time then some ended else none := by
  obtain ⟨last, hosting', reaches', isOver⟩ := orderly.returns
  obtain ⟨ends, all⟩ := Schedule.isOver_iff_endings.1 isOver
  have lengths := (Schedule.endings_eq_map_iff.1 all).1
  obtain ⟨first', placed'⟩ := (orderly.seen reaches').placed
  refine ⟨ends, lengths.symm.trans placed'.length_eq, fun time hosting reaches => ?_⟩
  obtain ⟨first, placed⟩ := (orderly.seen reaches).placed
  have same := placed.length_eq.trans (placed'.length_eq.symm.trans lengths)
  refine Schedule.endings_eq_map_iff.2 ⟨same, fun index => ?_⟩
  rcases Nat.lt_or_ge index ends.length with inside | beyond
  · rw [List.getElem?_eq_getElem inside, Option.bind_some]
    exact orderly.endingAt?_reached reaches reaches' (Schedule.endingAt?_of_endings all inside)
  · rw [endingAt?, List.getElem?_eq_none (same ▸ beyond), List.getElem?_eq_none beyond]
    rfl

end Orderly

/-- The latest of some times. -/
theorem foldl_max_spec (first : Nat) (times : List Nat) :
    first ≤ times.foldl max first ∧ (∀ time ∈ times, time ≤ times.foldl max first) ∧
      (times.foldl max first = first ∨ times.foldl max first ∈ times) := by
  induction times generalizing first with
  | nil => exact ⟨Nat.le_refl _, List.forall_mem_nil _, .inl rfl⟩
  | cons time rest ih =>
    obtain ⟨above, all, among⟩ := ih (max first time)
    rw [List.foldl_cons]
    refine ⟨Nat.le_trans (Nat.le_max_left _ _) above,
      List.forall_mem_cons.2 ⟨Nat.le_trans (Nat.le_max_right _ _) above, all⟩, ?_⟩
    rcases among with same | among
    · rw [same]
      rcases Nat.le_total first time with le | le
      · rw [Nat.max_eq_right le]
        exact .inr List.mem_cons_self
      · exact .inl (Nat.max_eq_left le)
    · exact .inr (List.mem_cons_of_mem _ among)

end Host

end Feedkeeper
