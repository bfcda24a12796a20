import Feedkeeper.Proofs.Plans
import Feedkeeper.Proofs.Relabelling

/-!
# Joining hosted services

A host that runs services until its signal (`Host.runUntil`) returns, if they may be hosted, at the
last of the times at which the signal was given or a service ended, with the failure of the first
service in order that failed, whichever failed first in time (`host_stops_all`). A failure gives no
signal to the others, and does not delay them.
-/

namespace Feedkeeper

open Testbed

namespace Host

/-! ## The first failure -/

section

variable {results : List (Except Service.Failure Unit)} {failure : Service.Failure}

theorem firstFailure_cons_ok (results : List (Except Service.Failure Unit)) :
    firstFailure (.ok () :: results) = firstFailure results :=
  rfl

theorem firstFailure_cons_error (failure : Service.Failure)
    (results : List (Except Service.Failure Unit)) :
    firstFailure (.error failure :: results) = .error failure := by
  rw [firstFailure, List.foldl_cons]
  dsimp only [Option.getD_none]
  induction results with
  | nil => rfl
  | cons result rest ih => cases result <;> exact ih

theorem firstFailure_eq_ok_iff :
    firstFailure results = .ok () ↔ ∀ result ∈ results, result = .ok () := by
  induction results with
  | nil => exact iff_of_true rfl (List.forall_mem_nil _)
  | cons result rest ih =>
    rw [List.forall_mem_cons]
    cases result with
    | ok => rw [firstFailure_cons_ok, ih, and_iff_right rfl]
    | error failure => simp [firstFailure_cons_error]

theorem firstFailure_eq_error_iff : firstFailure results = .error failure ↔
    ∃ index : Nat, results[index]? = some (.error failure) ∧
      ∀ earlier < index, results[earlier]? = some (.ok ()) := by
  induction results with
  | nil => simp [firstFailure]
  | cons result rest ih =>
    cases result with
    | ok =>
      rw [firstFailure_cons_ok, ih]
      constructor
      · rintro ⟨index, failed, before⟩
        refine ⟨index + 1, failed, fun earlier less => ?_⟩
        cases earlier with
        | zero => rfl
        | succ earlier => exact before earlier (Nat.lt_of_succ_lt_succ less)
      · rintro ⟨index, failed, before⟩
        cases index with
        | zero => cases failed
        | succ index =>
          exact ⟨index, failed, fun earlier less => before (earlier + 1) (Nat.succ_lt_succ less)⟩
    | error other =>
      rw [firstFailure_cons_error]
      constructor
      · intro same
        exact ⟨0, congrArg some same, fun earlier less => absurd less (Nat.not_lt_zero _)⟩
      · rintro ⟨index, failed, before⟩
        cases index with
        | zero => exact Option.some.inj failed
        | succ index => cases before 0 (Nat.zero_lt_succ _)

end

section

variable {σ : Type} {services : List (Service σ)} {ends : List (Ending × Nat)}

theorem outcome_eq_ok_iff {ending : Ending} {name : String} :
    ending.outcome name = .ok () ↔ ending = .ok := by
  cases ending <;> simp [Ending.outcome]

theorem firstFailure_outcomes_eq_ok_iff (lengths : ends.length = services.length) :
    firstFailure (outcomes services ends) = .ok () ↔ ∀ ended ∈ ends, ended.1 = .ok := by
  rw [firstFailure_eq_ok_iff]
  induction services generalizing ends with
  | nil =>
    obtain rfl := List.length_eq_zero_iff.1 lengths
    exact iff_of_true (List.forall_mem_nil _) (List.forall_mem_nil _)
  | cons service rest ih =>
    obtain ⟨ended, others, rfl⟩ := List.exists_cons_of_length_eq_add_one lengths
    rw [outcomes, List.zipWith_cons_cons, List.forall_mem_cons, List.forall_mem_cons,
      outcome_eq_ok_iff]
    exact and_congr_right fun _ => ih (Nat.succ.inj lengths)

theorem firstFailure_outcomes_eq_error_iff (lengths : ends.length = services.length)
    {failure : Service.Failure} : firstFailure (outcomes services ends) = .error failure ↔
      ∃ (index : Nat) (service : Service σ) (ended : Ending × Nat),
        services[index]? = some service ∧ ends[index]? = some ended ∧
        ended.1.outcome service.name = .error failure ∧
        ∀ earlier < index, (ends.map (·.1))[earlier]? = some .ok := by
  simp only [firstFailure_eq_error_iff, outcomes, List.getElem?_zipWith_eq_some, List.getElem?_map,
    Option.map_eq_some_iff, outcome_eq_ok_iff]
  constructor
  · rintro ⟨index, ⟨service, ended, there, then', failed⟩, before⟩
    refine ⟨index, service, ended, there, then', failed, fun earlier less => ?_⟩
    obtain ⟨-, other, -, found, well⟩ := before earlier less
    exact ⟨other, found, well⟩
  · rintro ⟨index, service, ended, there, then', failed, before⟩
    refine ⟨index, ⟨service, ended, there, then', failed⟩, fun earlier less => ?_⟩
    obtain ⟨other, found, well⟩ := before earlier less
    have inside : earlier < services.length := lengths ▸ (List.getElem?_eq_some_iff.1 found).1
    exact ⟨services[earlier], other, List.getElem?_eq_getElem inside, found, well⟩

end

/-! ## Endings that are seen -/

section

variable {σ : Type} {turn : σ → Script (Turn σ)} {signal : Nat} {services : List (Service σ)}
  {bed : Testbed} {shutDownAt time : Nat} {hosting : Hosting σ} {ends : List (Ending × Nat)}

/-- All services have ended once each has. -/
theorem isOver_iff_past (endings : hosting.schedule.endings =
      ends.map fun ended => if ended.2 ≤ time then some ended else none) :
    hosting.schedule.isOver = true ↔ ∀ ended ∈ ends, ended.2 ≤ time := by
  rw [Schedule.isOver_iff_endings, endings]
  constructor
  · rintro ⟨all, same⟩ ended mem
    have seen := List.mem_map_of_mem (f := fun ended : Ending × Nat =>
      if ended.2 ≤ time then some ended else none) mem
    rw [same] at seen
    obtain ⟨other, -, is⟩ := List.mem_map.1 seen
    by_contra future
    rw [if_neg future] at is
    cases is
  · intro past
    exact ⟨ends, List.map_congr_left fun ended mem => if_pos (past ended mem)⟩

/-- A host has returned from the latest of the times of the signal and the endings on. -/
theorem Seen.value?_eq (seen : Seen turn signal services shutDownAt time hosting)
    (endings : hosting.schedule.endings =
      ends.map fun ended => if ended.2 ≤ time then some ended else none) :
    hosting.procedure.value? =
      if (ends.map (·.2)).foldl max shutDownAt ≤ time then
        some (firstFailure (outcomes services ends), (ends.map (·.2)).foldl max shutDownAt)
      else none := by
  obtain ⟨fromSignal, fromEnds, atLast⟩ := foldl_max_spec shutDownAt (ends.map (·.2))
  generalize (ends.map (·.2)).foldl max shutDownAt = stoppedAt at fromSignal fromEnds atLast ⊢
  rw [List.forall_mem_map] at fromEnds
  rcases Nat.lt_or_ge time shutDownAt with before | after
  · obtain ⟨first, -, procedure⟩ := seen.early before
    rw [procedure, if_neg (Nat.not_le.2 (Nat.lt_of_lt_of_le before fromSignal))]
    rfl
  obtain ⟨first, since, leaves⟩ := seen.late after
  cases isOver : hosting.schedule.isOver with
  | false =>
    rw [leaves.value?_of_not_isOver isOver, if_neg]
    intro past
    rw [(isOver_iff_past endings).2 fun ended mem => Nat.le_trans (fromEnds ended mem) past]
      at isOver
    cases isOver
  | true =>
    have past := (isOver_iff_past endings).1 isOver
    have all : hosting.schedule.endings = ends.map some :=
      endings.trans (List.map_congr_left fun ended mem => if_pos (past ended mem))
    have each (index : Nat) : endingAt? hosting.schedule.tasks index = ends[index]? :=
      ((Schedule.endings_eq_map_iff.1 all).2 index).trans (Option.bind_fun_some _)
    obtain ⟨none, last⟩ := leaves.latest isOver
    simp only [each] at none last
    have same : since = stoppedAt := by
      refine Nat.le_antisymm ?_ ?_
      · rcases last with rfl | ⟨index, ended, mem, rfl⟩
        · exact fromSignal
        · exact fromEnds ended (List.mem_of_getElem? mem)
      · rcases atLast with rfl | mem
        · exact leaves.from_signal
        · obtain ⟨ended, there, rfl⟩ := List.mem_map.1 mem
          obtain ⟨index, found⟩ := List.mem_iff_getElem?.1 there
          exact none index ended found
    have reached : stoppedAt ≤ time := by
      rcases atLast with rfl | mem
      · exact after
      · obtain ⟨ended, there, rfl⟩ := List.mem_map.1 mem
        exact past ended there
    rw [leaves.procedure_of_ends all, same, if_pos reached]
    rfl

/-! ## Services that end otherwise -/

variable {f : Ending → Ending}

/-- A host asks the same, whatever its services end with. -/
theorem alike_runUntil (f : Ending → Ending) (services : List (Service σ)) (signal : Nat) :
    Async.Alike f (fun ended ended' => ended.2 = ended'.2) (runUntil services signal).timed
      (runUntil services signal).timed := by
  have spawn : Async.Alike f Eq (services.mapM fun service => do
        Handle.spawnUnder service (← Async.request (.child signal)))
      (services.mapM fun service => do
        Handle.spawnUnder service (← Async.request (.child signal))) := by
    induction services with
    | nil => exact .done rfl
    | cons service rest ih =>
      rw [List.mapM_cons]
      have one : Async.Alike f Eq (do Handle.spawnUnder service (← Async.request (.child signal)))
          (do Handle.spawnUnder service (← Async.request (.child signal))) :=
        .ask _ fun _ => .ask _ fun _ => .done rfl
      refine one.bind fun handle _ same => same ▸ ih.bind fun handles _ same => ?_
      exact same ▸ .done rfl
  have stop (handles : List Handle) : Async.Alike f (fun _ _ => True)
      (Async.all (handles.map fun handle => (handle.stop : Async σ _)))
      (Async.all (handles.map Handle.stop)) := by
    induction handles with
    | nil => exact .done trivial
    | cons handle rest ih =>
      have one : Async.Alike f (fun _ _ => True) (handle.stop : Async σ _) handle.stop :=
        .ask _ fun _ => .ask _ fun _ => .done trivial
      exact .both one ih fun _ _ _ _ _ _ => .done trivial
  rw [timed_runUntil]
  refine spawn.bind fun handles _ same => same ▸ .ask _ fun _ => ?_
  exact (stop handles).bind fun _ _ _ => .ask _ fun _ => .done rfl

/-- Had the services ended otherwise, all would have happened at the same times. -/
theorem reached_relabel (well : f .ok = .ok)
    (reaches : reached turn signal services bed shutDownAt time = some hosting) :
    ∃ other, reached (relabelled f turn) signal services bed shutDownAt time = some other ∧
      Runtime.Alike f (fun ended ended' => ended.2 = ended'.2) hosting other := by
  have begins : Runtime.Alike f (fun ended ended' => ended.2 = ended'.2)
      (begun signal services bed) (begun signal services bed) :=
    ⟨rfl, alike_runUntil f services signal⟩
  rcases Nat.lt_or_ge time shutDownAt with before | after
  · rw [reached_of_lt before] at reaches ⊢
    exact begins.run well reaches
  · rw [reached_of_le after] at reaches ⊢
    obtain ⟨start, waits, reaches⟩ := Option.bind_eq_some_iff.1 reaches
    obtain ⟨start', waits', alike⟩ : ∃ start',
        waited (relabelled f turn) signal services bed shutDownAt = some start' ∧
          Runtime.Alike f (fun ended ended' => ended.2 = ended'.2) start start' := by
      rcases Nat.eq_zero_or_pos shutDownAt with rfl | pos
      · obtain rfl := Option.some.inj waits
        exact ⟨_, rfl, begins⟩
      · rw [waited_of_pos pos] at waits ⊢
        exact begins.run well waits
    rw [waits', Option.bind_some]
    exact (alike.give signal).run well reaches

end

/-! ## What becomes of a host -/

/-- What becomes of hosted services whose signal is given at `shutDownAt`, and of their host. At a
time they have come to be as `hosted` then. Each ends as listed, and the host at `stoppedAt`. -/
structure Stops {σ : Type} (turn : σ → Script (Turn σ)) (signal : Nat)
    (services : List (Service σ)) (bed : Testbed) (shutDownAt : Nat) (hosted : Nat → Hosting σ)
    (ends : List (Ending × Nat)) (stoppedAt : Nat) (result : Except Service.Failure Unit) :
    Prop where
  reaches : ∀ time, reached turn signal services bed shutDownAt time = some (hosted time)
  /-- The services are the tasks beside the host, in their order. -/
  roles : ∀ time, (hosted time).schedule.tasks.map (·.caller.role) = services.map (·.role)
  length : ends.length = services.length
  /-- Each service ends at its time, whenever one looks at it. -/
  endings : ∀ time, (hosted time).schedule.endings =
    ends.map fun ended => if ended.2 ≤ time then some ended else none
  /-- The signal is given at its time, to every service. -/
  given : ∀ time, ∀ task ∈ (hosted time).schedule.tasks,
    (hosted time).schedule.bed.isShutDown task.caller.signal = true ↔ shutDownAt ≤ time
  /-- From then on no service is in a wait that the signal would cut short. -/
  cut : ∀ time, shutDownAt ≤ time → ∀ task ∈ (hosted time).schedule.tasks,
    task.activity.IsQuiet true time
  /-- The host returns at the latest of the times of the signal and the endings. -/
  from_signal : shutDownAt ≤ stoppedAt
  from_ends : ∀ ended ∈ ends, ended.2 ≤ stoppedAt
  at_last : stoppedAt = shutDownAt ∨ ∃ ended ∈ ends, ended.2 = stoppedAt
  returned : ∀ time, (hosted time).procedure.value? =
    if stoppedAt ≤ time then some (result, stoppedAt) else none
  /-- It has not returned when the signal is given. -/
  unfinished : ∀ before, waited turn signal services bed shutDownAt = some before →
    before.procedure.value? = none
  /-- Had the services that failed ended otherwise, all would have happened at the same times. -/
  apart : ∀ f : Ending → Ending, f .ok = .ok → ∀ time, ∃ other,
    reached (relabelled f turn) signal services bed shutDownAt time = some other ∧
      other.schedule.bed = (hosted time).schedule.bed ∧
      other.schedule.endings =
        ends.map (fun ended => if ended.2 ≤ time then some (f ended.1, ended.2) else none) ∧
      other.procedure.value?.map (·.2) = (hosted time).procedure.value?.map (·.2)
  /-- The result is the first failure in the order of the services. -/
  well : result = .ok () ↔ ∀ ended ∈ ends, ended.1 = .ok
  first : ∀ failure, result = .error failure ↔
    ∃ (index : Nat) (service : Service σ) (ended : Ending × Nat),
      services[index]? = some service ∧ ends[index]? = some ended ∧
      ended.1.outcome service.name = .error failure ∧
      ∀ earlier < index, (ends.map (·.1))[earlier]? = some .ok

theorem Unheard.value?_eq {σ : Type} {signal : Nat} {services : List (Service σ)}
    {hosting : Hosting σ} (unheard : Unheard signal services hosting) :
    hosting.procedure.value? = none := by
  cases unheard with
  | waiting placed procedure => rw [procedure]; rfl
  | begun none sound inUse procedure =>
    rw [procedure, timed_runUntil]
    cases services with
    | nil => rfl
    | cons service rest => rw [List.mapM_cons]; rfl

end Host

open Host in
/-- A host of plans reports, if those that tick wait between two ticks : it has not returned when
its signal is given, and it returns within the longest of their waits. -/
theorem Plan.host_reports {plans : List Plan} (paced : ∀ plan ∈ plans, plan.Paced)
    (shutDownAt : Nat) : ∃ report, host plans shutDownAt = some report ∧
      report.finishedBefore = false ∧ shutDownAt ≤ report.stoppedAt ∧
      report.stoppedAt ≤ shutDownAt + longest plans := by
  have orderly := orderly_planned paced shutDownAt
  obtain ⟨ends, -, endings⟩ := orderly.exists_ends
  obtain ⟨before, waits⟩ := orderly.exists_waited
  obtain ⟨after, reaches, isOver⟩ := exists_isOver_planned paced shutDownAt
  obtain ⟨fromSignal, -, atLast⟩ := foldl_max_spec shutDownAt (ends.map (·.2))
  have endings := endings _ after reaches
  have within : (ends.map (·.2)).foldl max shutDownAt ≤ shutDownAt + longest plans := by
    rcases atLast with same | mem
    · exact Nat.le_trans (Nat.le_of_eq same) (Nat.le_add_right _ _)
    · obtain ⟨ended, there, same⟩ := List.mem_map.1 mem
      exact same ▸ (isOver_iff_past endings).1 isOver ended there
  have value := (orderly.seen reaches).value?_eq endings
  rw [if_pos within] at value
  have reported : host plans shutDownAt = some ⟨before.procedure.value?.isSome,
      firstFailure (outcomes (planned plans) ends), (ends.map (·.2)).foldl max shutDownAt,
      lines after.schedule.bed⟩ := by
    rw [host, waits, Option.bind_some]
    refine (congrArg (Option.bind · _) reaches).trans ?_
    rw [Option.bind_some, value, Option.map_some]
  have unfinished := congrArg Option.isSome (orderly.waited_spec waits).2.2.value?_eq
  exact ⟨_, reported, unfinished, fromSignal, within⟩

open Host in
/-- A host returns when its signal is given and all its services have ended, with the first failure
in their order. -/
theorem host_stops_all {σ : Type} {turn : σ → Script (Turn σ)} {signal : Nat}
    {services : List (Service σ)} {bed : Testbed} {shutDownAt : Nat}
    (orderly : Orderly turn signal services bed shutDownAt) :
    ∃ hosted ends stoppedAt result,
      Stops turn signal services bed shutDownAt hosted ends stoppedAt result := by
  obtain ⟨ends, length, endings⟩ := orderly.exists_ends
  choose hosted reaches using orderly.exists_reached
  have seen (time : Nat) : Seen turn signal services shutDownAt time (hosted time) :=
    orderly.seen (reaches time)
  have endings (time : Nat) := endings time (hosted time) (reaches time)
  obtain ⟨fromSignal, fromEnds, atLast⟩ := foldl_max_spec shutDownAt (ends.map (·.2))
  rw [List.forall_mem_map] at fromEnds
  refine ⟨hosted, ends, (ends.map (·.2)).foldl max shutDownAt,
    firstFailure (outcomes services ends), ?_⟩
  constructor
  case reaches => exact reaches
  case roles =>
    intro time
    obtain ⟨first, placed⟩ := (seen time).placed
    exact placed.roles
  case length => exact length
  case endings => exact endings
  case given =>
    intro time task mem
    obtain ⟨first, placed⟩ := (seen time).placed
    rw [placed.isShutDown_eq mem]
    exact (seen time).given
  case cut =>
    intro time after task mem
    obtain ⟨first, placed⟩ := (seen time).placed
    have still := (seen time).quiet.schedule task mem
    rwa [placed.isShutDown_eq mem, (seen time).given.2 after,
      show (hosted time).schedule.bed.time = time from (seen time).now] at still
  case from_signal => exact fromSignal
  case from_ends => exact fromEnds
  case at_last =>
    refine atLast.imp_right fun mem => ?_
    obtain ⟨ended, mem, same⟩ := List.mem_map.1 mem
    exact ⟨ended, mem, same⟩
  case returned => exact fun time => (seen time).value?_eq (endings time)
  case unfinished => exact fun before waits => (orderly.waited_spec waits).2.2.value?_eq
  case apart =>
    intro f well time
    obtain ⟨other, reaches', alike⟩ := reached_relabel well (reaches time)
    refine ⟨other, reaches', ?_, ?_, ?_⟩
    · rw [alike.schedule]
      rfl
    · rw [alike.schedule, Schedule.endings_relabel, endings, List.map_map]
      refine List.map_congr_left fun ended _ => ?_
      dsimp only [Function.comp_apply]
      split <;> rfl
    · have returned := alike.procedure.value?
      generalize (hosted time).procedure.value? = value at returned ⊢
      generalize other.procedure.value? = value' at returned ⊢
      cases returned with
      | none => rfl
      | some same => exact congrArg some same.symm
  case well => exact firstFailure_outcomes_eq_ok_iff length
  case first => exact fun failure => firstFailure_outcomes_eq_error_iff length

/-- Services of which the first fails late, and the others crash, fail early and end well. -/
def Plan.mixed : List Plan :=
  [⟨"late", .wait, 70, .failed ⟨"late", []⟩⟩, ⟨"panic", .once, 5, .crashed⟩,
    ⟨"early", .wait, 10, .failed ⟨"early", []⟩⟩, ⟨"tick", .tick, 4, .ok⟩]

open Host in
/-- The failure that is reported is the last one in time. -/
theorem host_stops_all_mixed : Orderly Plan.turn 0 (planned Plan.mixed) {} 15 ∧
    (∃ hosted ends, Stops Plan.turn 0 (planned Plan.mixed) {} 15 hosted ends 85
      (.error (.failed ⟨"late", []⟩))) ∧
    ∃ report, host Plan.mixed 15 = some report ∧ report.finishedBefore = false ∧
      report.result = .error (.failed ⟨"late", []⟩) ∧ report.stoppedAt = 85 := by
  have orderly : Orderly Plan.turn 0 (planned Plan.mixed) {} 15 :=
    Plan.orderly_planned (by decide) 15
  have ran : ((begun 0 (planned Plan.mixed) {}).runWithin Plan.turn 15 20).bind (fun before =>
      ((before.give 0).runWithin Plan.turn 85 20).map fun after =>
        (before.procedure.value?.isSome, after.procedure.value?)) =
      some (false, some (.error (.failed ⟨"late", []⟩), 85)) := by decide +kernel
  obtain ⟨before, ran, goesOn⟩ := Option.bind_eq_some_iff.1 ran
  obtain ⟨after, ran', values⟩ := Option.map_eq_some_iff.1 goesOn
  obtain ⟨unfinished, value⟩ := Prod.mk.inj values
  have waits : waited Plan.turn 0 (planned Plan.mixed) {} 15 = some before :=
    Runtime.run_of_runWithin ran
  have reaches : reached Plan.turn 0 (planned Plan.mixed) {} 15 85 = some after := by
    rw [reached_of_le (by decide), waits]
    exact Runtime.run_of_runWithin ran'
  have reported : host Plan.mixed 15 = some ⟨before.procedure.value?.isSome,
      .error (.failed ⟨"late", []⟩), 85, lines after.schedule.bed⟩ := by
    have latest : reached Plan.turn 0 (planned Plan.mixed) {} 15
        (15 + (Plan.mixed.map (·.after)).foldl max 0) = some after := reaches
    rw [host, waits, Option.bind_some, latest, Option.bind_some, value, Option.map_some]
  obtain ⟨hosted, ends, stoppedAt, result, stops⟩ := host_stops_all orderly
  have returned := stops.returned 85
  rw [Option.some.inj ((stops.reaches 85).symm.trans reaches), value] at returned
  split at returned
  · obtain ⟨rfl, rfl⟩ := Prod.mk.inj (Option.some.inj returned)
    exact ⟨orderly, ⟨hosted, ends, stops⟩, _, reported, unfinished, rfl, rfl⟩
  · cases returned

end Feedkeeper
