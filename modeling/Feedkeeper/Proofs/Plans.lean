import Feedkeeper.Proofs.Hosting

/-!
# Planned services

A planned service goes through few phases (`Plan.Phase`), and what it does from a phase on comes to
rest after two rounds at most. So each instant of a host of planned services comes to an end, if
those that tick wait between two ticks (`Plan.Course.round`), and the host gets to every time
(`Plan.Course.exists_run`). Once their signal is given all services return within the longest of
their waits (`Plan.exists_isOver`), so that they may be hosted (`Plan.orderly`).
-/

namespace Feedkeeper

open Script Testbed

/-- The second testbed is the first after some lines were put on record. -/
def Testbed.Tells (bed bed' : Testbed) : Prop :=
  ∃ entries : List Entry, bed' = { bed with log := bed.log ++ entries }

namespace Testbed.Tells

variable {bed bed' bed'' : Testbed}

theorem refl (bed : Testbed) : bed.Tells bed :=
  ⟨[], by rw [List.append_nil]⟩

theorem trans (h : bed.Tells bed') (h' : bed'.Tells bed'') : bed.Tells bed'' := by
  obtain ⟨entries, rfl⟩ := h
  obtain ⟨entries', rfl⟩ := h'
  exact ⟨entries ++ entries', by simp only [List.append_assoc]⟩

theorem record (bed : Testbed) (role : Role) (text : String) :
    bed.Tells (bed.record role (.note text)) :=
  ⟨[⟨bed.time, role, .note text⟩], rfl⟩

end Testbed.Tells

theorem wakeAfter_le (time ms : Nat) : wakeAfter time ms ≤ time + ms :=
  Nat.add_le_add_left (Nat.min_le_left _ _) _

/-- A task that gets ready goes on with what it waited for, or with what its signal makes of it. -/
theorem Activity.rouse_eq_of_isReady {σ : Type} {wake : Option Nat} {elapsed : Script (Turn σ)}
    {cut : Option (Script (Turn σ))} {shutDown : Bool} {time : Nat}
    (ready : (rouse shutDown time (.asleep wake elapsed cut)).isReady = true) :
    rouse shutDown time (.asleep wake elapsed cut) = .ready elapsed ∨
      ∃ script ∈ cut, rouse shutDown time (.asleep wake elapsed cut) = .ready script := by
  by_cases woken : wake.any (· ≤ time) = true
  · exact .inl (if_pos woken)
  · cases shutDown with
    | false => simp [rouse, woken, isReady] at ready
    | true =>
      cases cut with
      | none => simp [rouse, woken, isReady] at ready
      | some script => exact .inr ⟨script, rfl, if_neg woken⟩

namespace Plan

/-- A service that ticks waits between two ticks. -/
def Paced (plan : Plan) : Prop :=
  plan.behaviour = .tick → plan.after ≠ 0

instance (plan : Plan) : Decidable plan.Paced :=
  inferInstanceAs (Decidable (_ → _))

/-- From where a planned service goes on. -/
inductive Phase where
  /-- From the start. -/
  | begun
  /-- From a tick on. -/
  | beating
  /-- A pause between two ticks is over. -/
  | ticking
  /-- The shutdown that the service waited for has come. -/
  | heard
  | leaving
  /-- The shutdown has come before the end of the only wait. -/
  | excused
  deriving DecidableEq

namespace Phase

/-- What the service does from the phase on. -/
def script (plan : Plan) : Phase → Script (Turn State)
  | begun => turn { plan }
  | beating => turn { plan, started := true }
  | ticking => do
    ask (.note "tick")
    return .again .yield { plan, started := true }
  | heard => do
    ask (.note "cancelled")
    ask (.sleep plan.after)
    finish plan
  | leaving => finish plan
  | excused => do
    ask (.note "cancelled")
    return .finished .ok

/-- How many rounds it takes to come to rest. -/
def rank : Phase → Nat
  | ticking => 2
  | _ => 1

/-- The service may be in the phase. -/
def Fits (plan : Plan) : Phase → Prop
  | begun => plan.Paced
  | beating | ticking => plan.after ≠ 0
  | _ => True

end Phase

/-- How a planned service rests : it wakes in a phase, and unless it is only to leave, its signal
cuts the rest short. -/
structure Rests (plan : Plan) (time : Nat) (wake : Option Nat) (phase : Phase)
    (cut : Option Phase) : Prop where
  fits : phase.Fits plan
  cuts : ∀ phase ∈ cut, phase.Fits plan
  uncut : cut = none → phase = .leaving ∧ ∃ due, wake = some due ∧ due ≤ time + plan.after

/-- Where a planned service comes to rest that was in a phase of the rank. -/
inductive Halts (plan : Plan) (shutDown : Bool) (time rank : Nat) : Stop (Turn State) → Prop where
  | finished {ending : Ending} : Halts plan shutDown time rank (.ended (.finished ending))
  | ticked (takes : plan.after ≠ 0) (more : 1 < rank) :
      Halts plan shutDown time rank (.ended (.again .yield { plan, started := true }))
  | resting {wake : Option Nat} {phase : Phase} {cut : Option Phase}
      (rests : Rests plan time wake phase cut) (later : ∀ due ∈ wake, time < due)
      (uncut : shutDown = true → cut = none) :
      Halts plan shutDown time rank
        (.asleep wake (phase.script plan) (cut.map (Phase.script plan)))

/-- From the script on the service comes to rest, with no more than some lines on record. -/
structure Comes (plan : Plan) (rank : Nat) (caller : Caller) (script : Script (Turn State))
    (bed : Testbed) : Prop where
  halts : Halts plan (bed.isShutDown caller.signal) bed.time rank (script.drive caller bed).1
  tells : bed.Tells (script.drive caller bed).2

variable {plan : Plan} {rank : Nat} {caller : Caller} {bed : Testbed}

namespace Comes

theorem of_drive_eq {script script' : Script (Turn State)}
    (same : script.drive caller bed = script'.drive caller bed)
    (h : Comes plan rank caller script' bed) : Comes plan rank caller script bed :=
  ⟨same ▸ h.halts, same ▸ h.tells⟩

theorem note {script : Script (Turn State)} {text : String}
    (h : Comes plan rank caller script (bed.record caller.role (.note text))) :
    Comes plan rank caller (call (.note text) fun _ => script) bed :=
  ⟨h.halts, (Tells.record bed caller.role text).trans h.tells⟩

theorem leaving : Comes plan rank caller (finish plan) bed :=
  ⟨.finished, .record bed caller.role "returned"⟩

theorem excused : Comes plan rank caller (Phase.excused.script plan) bed :=
  ⟨.finished, .record bed caller.role "cancelled"⟩

theorem resting {script : Script (Turn State)} {wake : Option Nat} {phase : Phase}
    {cut : Option Phase} (rests : Rests plan bed.time wake phase cut)
    (later : ∀ due ∈ wake, bed.time < due)
    (uncut : bed.isShutDown caller.signal = true → cut = none)
    (same : script.drive caller bed =
      (.asleep wake (phase.script plan) (cut.map (Phase.script plan)), bed)) :
    Comes plan rank caller script bed :=
  ⟨same ▸ .resting rests later uncut, same ▸ .refl bed⟩

/-- A wait for a time or the signal. -/
theorem pause (phase cut : Phase) (fits : phase.Fits plan) (cuts : cut.Fits plan)
    (given : Comes plan rank caller (cut.script plan) bed)
    (elapsed : plan.after = 0 → Comes plan rank caller (phase.script plan) bed) :
    Comes plan rank caller (call (.pause plan.after) fun answer =>
      if answer = true then phase.script plan else cut.script plan) bed := by
  by_cases shutDown : bed.isShutDown caller.signal = true
  · exact given.of_drive_eq (if_pos shutDown)
  by_cases takes : plan.after = 0
  · exact (elapsed takes).of_drive_eq ((if_neg shutDown).trans (if_pos takes))
  · have rests : Rests plan bed.time (wakeAfter bed.time plan.after) phase cut :=
      ⟨fits, by rintro _ ⟨⟩; exact cuts, nofun⟩
    refine .resting rests ?_ (fun given => (shutDown given).elim)
      ((if_neg shutDown).trans (if_neg takes))
    rintro _ ⟨⟩
    exact lt_wakeAfter _ takes

/-- A wait for a time only. -/
theorem sleep : Comes plan rank caller (call (.sleep plan.after) fun _ => finish plan) bed := by
  by_cases takes : plan.after = 0
  · exact leaving.of_drive_eq (if_pos takes)
  · have rests : Rests plan bed.time (wakeAfter bed.time plan.after) .leaving none :=
      ⟨trivial, nofun, fun _ => ⟨rfl, _, rfl, wakeAfter_le _ _⟩⟩
    refine .resting rests ?_ (fun _ => rfl) (if_neg takes)
    rintro _ ⟨⟩
    exact lt_wakeAfter _ takes

/-- A wait for the signal only. -/
theorem awaitShutdown (given : Comes plan rank caller (Phase.heard.script plan) bed) :
    Comes plan rank caller (call .awaitShutdown fun _ => Phase.heard.script plan) bed := by
  by_cases shutDown : bed.isShutDown caller.signal = true
  · exact given.of_drive_eq (if_pos shutDown)
  · have rests : Rests plan bed.time none .heard (some .heard) :=
      ⟨trivial, by rintro _ ⟨⟩; trivial, nofun⟩
    exact .resting rests nofun (fun given => (shutDown given).elim) (if_neg shutDown)

theorem heard : Comes plan rank caller (Phase.heard.script plan) bed :=
  note sleep

theorem beating (takes : plan.after ≠ 0) : Comes plan rank caller (beat plan) bed :=
  pause .ticking .leaving takes trivial leaving fun none => (takes none).elim

end Comes

/-- From every phase on a service comes to rest. -/
theorem Phase.comes {phase : Phase} (fits : phase.Fits plan) (caller : Caller) (bed : Testbed) :
    Comes plan phase.rank caller (phase.script plan) bed := by
  cases phase with
  | begun =>
    obtain ⟨name, behaviour, after, ending⟩ := plan
    cases behaviour with
    | wait => exact Comes.note (.awaitShutdown .heard)
    | once =>
      exact Comes.note (.pause .leaving .excused trivial trivial .excused fun _ => .leaving)
    | tick => exact Comes.note (.beating (fits rfl))
  | beating => exact .beating fits
  | ticking => exact ⟨.ticked fits (by decide), .record bed caller.role "tick"⟩
  | heard => exact .heard
  | leaving => exact .leaving
  | excused => exact .excused

/-! ## Planned services side by side -/

/-- What a planned service is up to that takes `rank` more rounds at most until it rests, and whose
own wait is no longer than `most`. If there is a last time, it is only to leave, by then. -/
inductive Due (most : Nat) (last : Option Nat) (rank : Nat) (shutDown : Bool) (time : Nat) :
    Activity State → Prop where
  | ready {plan : Plan} {phase : Phase} (short : plan.after ≤ most) (fits : phase.Fits plan)
      (soon : phase.rank ≤ rank) (leaves : ∀ _ ∈ last, phase = .leaving) :
      Due most last rank shutDown time (.ready (phase.script plan))
  | asleep {plan : Plan} {wake : Option Nat} {phase : Phase} {cut : Option Phase}
      (short : plan.after ≤ most) (rests : Rests plan time wake phase cut)
      (quiet : rank ≤ 2 → Activity.IsQuiet shutDown time
        (.asleep wake (phase.script plan) (cut.map (Phase.script plan))))
      (leaves : ∀ limit ∈ last, cut = none ∧ ∀ due ∈ wake, due ≤ limit) :
      Due most last rank shutDown time
        (.asleep wake (phase.script plan) (cut.map (Phase.script plan)))
  | ended {ending : Ending} {since : Nat} : Due most last rank shutDown time (.ended ending since)

theorem Phase.rank_le (phase : Phase) : phase.rank ≤ 2 := by
  cases phase <;> decide

theorem Phase.rank_pos (phase : Phase) : 0 < phase.rank := by
  cases phase <;> decide

namespace Due

variable {most time : Nat} {last : Option Nat} {shutDown : Bool} {activity : Activity State}

/-- At a later time, or once its signal is given, a service may have more to do. -/
theorem later (h : Due most last rank shutDown time activity) {later : Nat} (le : time ≤ later)
    (shutDown' : Bool) : Due most last 3 shutDown' later activity := by
  cases h with
  | ready short fits soon leaves =>
    exact .ready short fits (Nat.le_succ_of_le (Phase.rank_le _)) leaves
  | asleep short rests quiet leaves =>
    refine .asleep short ⟨rests.fits, rests.cuts, fun uncut => ?_⟩ (fun few => by omega) leaves
    obtain ⟨same, due, wakes, soon⟩ := rests.uncut uncut
    exact ⟨same, due, wakes, by omega⟩
  | ended => exact .ended

/-- A service that gets ready is in a phase of its plan. -/
theorem rouse (h : Due most last rank shutDown time activity) :
    Due most last (min rank 2) shutDown time (activity.rouse shutDown time) := by
  cases h with
  | ready short fits soon leaves =>
    exact .ready short fits (Nat.le_min.2 ⟨soon, Phase.rank_le _⟩) leaves
  | ended => exact .ended
  | @asleep plan wake phase cut short rests quiet leaves =>
    cases ready : (Activity.rouse shutDown time
      (.asleep wake (phase.script plan) (cut.map (Phase.script plan)))).isReady with
    | false =>
      have still := Activity.isQuiet_of_rouse ready
      rw [still.rouse_eq]
      exact .asleep short rests (fun _ => still) leaves
    | true =>
      have many : 2 ≤ min rank 2 := by
        by_contra few
        have still := quiet (by omega)
        rw [still.rouse_eq] at ready
        cases ready
      have soon (phase : Phase) : phase.rank ≤ min rank 2 := Nat.le_trans phase.rank_le many
      rcases Activity.rouse_eq_of_isReady ready with same | ⟨script, mem, same⟩
      · rw [same]
        exact .ready short rests.fits (soon _) fun limit isLast =>
          (rests.uncut (leaves limit isLast).1).1
      · obtain ⟨phase, found, rfl⟩ := Option.map_eq_some_iff.1 mem
        rw [same]
        refine .ready short (rests.cuts phase found) (soon _) fun limit isLast => ?_
        rw [(leaves limit isLast).1] at found
        cases found

theorem isReady_eq (h : Due most last 0 shutDown time activity) : activity.isReady = false := by
  cases h with
  | ready short fits soon => exact absurd soon (Nat.not_le.2 (Phase.rank_pos _))
  | asleep | ended => rfl

/-- Where a service comes to rest it has a round less to go. -/
theorem ofStop {plan : Plan} {phase : Phase} (short : plan.after ≤ most)
    (soon : phase.rank ≤ rank) {stop : Stop (Turn State)}
    (halts : Halts plan shutDown time phase.rank stop) :
    Due most none (rank - 1) shutDown time (.ofStop turn shutDown time stop) := by
  cases halts with
  | finished => exact .ended
  | ticked takes more =>
    have one : Phase.beating.rank ≤ rank - 1 := Nat.le_sub_one_of_lt (Nat.lt_of_lt_of_le more soon)
    have fits : Phase.beating.Fits plan := takes
    exact .ready short fits one nofun
  | resting rests later uncut =>
    refine .asleep short rests (fun _ => ⟨later, fun given => ?_⟩) nofun
    rw [uncut given, Option.map_none]

/-- A service that is let run has a round less to go. -/
theorem resume {task : Task State} (few : rank ≤ 2)
    (h : Due most last rank (bed.isShutDown task.caller.signal) bed.time task.activity) :
    Due most last (rank - 1) (bed.isShutDown task.caller.signal) bed.time
        (Schedule.resume turn task bed).1.activity ∧
      bed.Tells (Schedule.resume turn task bed).2 := by
  obtain ⟨caller, activity⟩ := task
  cases h with
  | ended => exact ⟨.ended, .refl bed⟩
  | asleep short rests quiet leaves =>
    exact ⟨.asleep short rests (fun _ => quiet few) leaves, .refl bed⟩
  | @ready plan phase short fits soon leaves =>
    obtain ⟨halts, tells⟩ := Phase.comes fits caller bed
    refine ⟨?_, tells⟩
    obtain ⟨entries, told⟩ := tells
    cases last with
    | none =>
      have due := ofStop short soon halts
      dsimp only [Schedule.resume]
      rw [told]
      exact due
    | some limit =>
      rw [leaves limit rfl]
      exact .ended

end Due

/-- Planned services that take `rank` more rounds at most until they all rest. -/
structure Planned (most : Nat) (last : Option Nat) (rank : Nat) (schedule : Schedule State) :
    Prop where
  idle : schedule.bed.launched = []
  due : ∀ task ∈ schedule.tasks, Due most last rank
    (schedule.bed.isShutDown task.caller.signal) schedule.bed.time task.activity

variable {most : Nat} {last : Option Nat} {tasks : List (Task State)} {schedule : Schedule State}

theorem resumeAll_due (few : rank ≤ 2)
    (h : ∀ task ∈ tasks, Due most last rank (bed.isShutDown task.caller.signal) bed.time
      task.activity) :
    (∀ task ∈ (Schedule.resumeAll turn tasks bed).1, Due most last (rank - 1)
      (bed.isShutDown task.caller.signal) bed.time task.activity) ∧
      bed.Tells (Schedule.resumeAll turn tasks bed).2 := by
  induction tasks generalizing bed with
  | nil => exact ⟨List.forall_mem_nil _, .refl bed⟩
  | cons task rest ih =>
    rw [List.forall_mem_cons] at h
    obtain ⟨due, tells⟩ := Due.resume few h.1
    rw [← Schedule.resume_caller task bed] at due
    rw [Schedule.resumeAll]
    generalize Schedule.resume turn task bed = resumed at due tells ⊢
    obtain ⟨task', bed'⟩ := resumed
    dsimp only at due tells ⊢
    have others : ∀ task ∈ rest, Due most last rank (bed'.isShutDown task.caller.signal) bed'.time
        task.activity := by
      obtain ⟨entries, rfl⟩ := tells
      exact h.2
    obtain ⟨dues, tells'⟩ := ih others
    refine ⟨List.forall_mem_cons.2 ⟨due, ?_⟩, tells.trans tells'⟩
    obtain ⟨entries, rfl⟩ := tells
    exact dues

namespace Planned

/-- Let run, the services take a round less. -/
theorem round (h : Planned most last rank schedule) :
    Planned most last (min rank 2 - 1) (schedule.rouse.round turn) ∧
      schedule.bed.Tells (schedule.rouse.round turn).bed := by
  have roused : ∀ task ∈ schedule.rouse.tasks, Due most last (min rank 2)
      (schedule.bed.isShutDown task.caller.signal) schedule.bed.time task.activity := by
    intro task mem
    obtain ⟨before, there, rfl⟩ := List.mem_map.1 mem
    exact (h.due before there).rouse
  obtain ⟨due, tells⟩ := resumeAll_due (Nat.min_le_right _ _) roused
  have same : (Schedule.resumeAll turn schedule.rouse.tasks schedule.bed).2.runLaunched =
      (Schedule.resumeAll turn schedule.rouse.tasks schedule.bed).2 := by
    obtain ⟨entries, told⟩ := tells
    exact runLaunched_of_nil (told ▸ h.idle)
  have done : schedule.rouse.round turn =
      ⟨(Schedule.resumeAll turn schedule.rouse.tasks schedule.bed).2,
        (Schedule.resumeAll turn schedule.rouse.tasks schedule.bed).1⟩ :=
    congrArg (Schedule.mk · _) same
  rw [done]
  refine ⟨?_, tells⟩
  obtain ⟨entries, told⟩ := tells
  rw [told]
  exact ⟨h.idle, due⟩

/-- While a service is ready there are rounds to go. -/
theorem pos_of_ready (h : Planned most last rank schedule)
    (ready : schedule.rouse.tasks.any (·.activity.isReady) = true) : 0 < rank := by
  by_contra none
  obtain rfl : rank = 0 := Nat.eq_zero_of_not_pos none
  obtain ⟨roused, mem, isReady⟩ := List.any_eq_true.1 ready
  obtain ⟨before, there, rfl⟩ := List.mem_map.1 mem
  have unready := (h.due before there).rouse.isReady_eq
  rw [unready] at isReady
  cases isReady

theorem atTime (h : Planned most last rank schedule) {time : Nat} (le : schedule.bed.time ≤ time) :
    Planned most last 3 (schedule.atTime time) :=
  ⟨h.idle, fun task mem => (h.due task mem).later le _⟩

/-- Planned services do not mind that a signal is given. -/
theorem signal (h : Planned most last rank schedule) (signal : Nat) :
    Planned most last 3 ⟨schedule.bed.signal signal, schedule.tasks⟩ :=
  ⟨h.idle, fun task mem => (h.due task mem).later (Nat.le_refl _) _⟩

/-- Once all their signals are given, services that rest are only to leave. -/
theorem leave (h : Planned most none rank schedule) (quiet : schedule.IsQuiet)
    (given : ∀ task ∈ schedule.tasks, schedule.bed.isShutDown task.caller.signal = true) :
    Planned most (some (schedule.bed.time + most)) 3 schedule := by
  refine ⟨h.idle, fun task mem => ?_⟩
  have due := h.due task mem
  have still := quiet task mem
  obtain ⟨caller, activity⟩ := task
  cases due with
  | ready => exact still.elim
  | ended => exact .ended
  | asleep short rests _ _ =>
    have uncut := Option.map_eq_none_iff.1 (still.2 (given _ mem))
    refine .asleep short rests (fun few => by omega) ?_
    rintro _ ⟨⟩
    obtain ⟨-, due, rfl, soon⟩ := rests.uncut uncut
    refine ⟨uncut, ?_⟩
    rintro _ ⟨⟩
    exact Nat.le_trans soon (Nat.add_le_add_left short _)

/-- Services that are only to leave have left by their last time. -/
theorem isOver {limit : Nat} (h : Planned most (some limit) rank schedule)
    (quiet : schedule.IsQuiet) (le : limit ≤ schedule.bed.time) : schedule.isOver = true := by
  refine List.all_eq_true.2 fun task mem => ?_
  have due := h.due task mem
  have still := quiet task mem
  obtain ⟨caller, activity⟩ := task
  cases due with
  | ready => exact still.elim
  | ended => rfl
  | asleep short rests _ leaves =>
    obtain ⟨uncut, early⟩ := leaves limit rfl
    obtain ⟨-, due, rfl, -⟩ := rests.uncut uncut
    exact absurd (Nat.lt_of_lt_of_le (still.1 due rfl) (early due rfl)) (Nat.not_lt.2 le)

end Planned

/-! ## Planned services under a host -/

open Host

/-- Services that have not been started, of which those that tick wait between two ticks, and none
waits for longer than `most`. -/
structure Fresh (most : Nat) (services : List (Service State)) : Prop where
  started : ∀ service ∈ services, service.state.started = false
  paced : ∀ service ∈ services, service.state.plan.Paced
  short : ∀ service ∈ services, service.state.plan.after ≤ most

variable {signal first : Nat} {services : List (Service State)}

/-- Once they are started the services are as planned. -/
theorem Fresh.spawned (fresh : Fresh most services) (idle : schedule.bed.launched = [])
    (none : schedule.tasks = []) :
    Planned most Option.none 3 (spawned turn signal services schedule) := by
  have numbered : schedule.bed.signals.next =
      schedule.bed.signals.next + schedule.tasks.length := by
    rw [none]
    rfl
  refine ⟨by rw [bed_spawned]; exact idle, ?_⟩
  rw [tasks_spawned numbered, none, List.nil_append]
  refine List.forall_mem_map.2 ?_
  rintro ⟨⟨name, role, plan, started⟩, index⟩ there
  have mem := List.fst_mem_of_mem_zipIdx there
  obtain rfl : started = false := fresh.started _ mem
  have fits : Phase.begun.Fits plan := fresh.paced _ mem
  exact .ready (fresh.short _ mem) fits (by decide) nofun

/-- A host of planned services, and how many more rounds it takes at most until everything is quiet.
There is a last time only once it waits for its services. -/
inductive Course (signal : Nat) (services : List (Service State)) (most : Nat) (last : Option Nat) :
    Nat → Hosting State → Prop where
  | begun {bound : Nat} {hosting : Hosting State} (none : hosting.schedule.tasks = [])
    (sound : hosting.schedule.bed.signals.Sound)
    (inUse : signal < hosting.schedule.bed.signals.next)
    (procedure : hosting.procedure = (runUntil services signal).timed)
    (idle : hosting.schedule.bed.launched = []) (endless : last = Option.none)
    (many : 8 ≤ bound) : Course signal services most last bound hosting
  | waiting {first rank bound : Nat} {hosting : Hosting State}
    (placed : Placed services signal first hosting.schedule)
    (procedure : hosting.procedure = awaiting signal (handlesOn services first))
    (planned : Planned most last rank hosting.schedule) (many : rank + 4 ≤ bound) :
    Course signal services most last bound hosting
  | leaving {first since bound : Nat} {hosting : Hosting State}
    (placed : Placed services signal first hosting.schedule)
    (procedure : hosting.procedure =
      leaving hosting.schedule.tasks (handlesOn services first) since)
    (planned : Planned most last bound hosting.schedule) :
    Course signal services most last bound hosting

namespace Course

variable {bound : Nat} {hosting hosting' : Hosting State}

/-- Before it waits for its services a host has not heard its signal. -/
theorem stage (course : Course signal services most last bound hosting) :
    Unheard signal services hosting ∨ ∃ first since rank,
      Placed services signal first hosting.schedule ∧
        hosting.procedure = Host.leaving hosting.schedule.tasks (handlesOn services first) since ∧
          Planned most last rank hosting.schedule := by
  cases course with
  | begun none sound inUse procedure idle endless many =>
    exact .inl (Unheard.begun none sound inUse procedure)
  | waiting placed procedure planned many => exact .inl (Unheard.waiting placed procedure)
  | leaving placed procedure planned => exact .inr ⟨_, _, _, placed, procedure, planned⟩

/-- A host goes on from waiting for its signal. -/
theorem of_poll_awaiting {rank : Nat} (placed : Placed services signal first schedule)
    (planned : Planned most last rank schedule) :
    ∃ less ≤ rank + 4, (schedule.bed.isShutDown signal = true → less ≤ rank) ∧
      Course signal services most last less
        (Runtime.poll turn ⟨schedule, awaiting signal (handlesOn services first)⟩) ∧
      (Runtime.poll turn ⟨schedule, awaiting signal (handlesOn services first)⟩).schedule =
        schedule := by
  rw [Runtime.poll]
  cases given : schedule.bed.isShutDown signal with
  | true =>
    rw [poll_awaiting_of_given given, poll_closing (placed.isShutDown_handles given)]
    exact ⟨rank, Nat.le_add_right _ _, fun _ => Nat.le_refl _, .leaving placed rfl planned, rfl⟩
  | false =>
    rw [poll_awaiting_of_not_given given]
    exact ⟨rank + 4, Nat.le_refl _, fun heard => absurd heard Bool.false_ne_true,
      .waiting placed rfl planned (Nat.le_refl _), rfl⟩

/-- Every round lowers the bound, and none gives the signal. -/
theorem round (fresh : Fresh most services)
    (course : Course signal services most last bound hosting)
    (ready : hosting.rouse.isReady turn = true) :
    ∃ less < bound, Course signal services most last less (hosting.rouse.round turn) ∧
      (hosting.schedule.bed.isShutDown signal = false →
        (hosting.rouse.round turn).schedule.bed.isShutDown signal = false) := by
  have next : hosting.rouse.round turn = Runtime.poll turn
    ⟨hosting.schedule.rouse.round turn, hosting.procedure⟩ := rfl
  have ready : hosting.schedule.rouse.tasks.any (·.activity.isReady) = true ∨
    hosting.procedure.isReady turn hosting.schedule.rouse = true := Bool.or_eq_true_iff.1 ready
  rw [next]
  cases course with
  | begun none sound inUse procedure idle endless many =>
    have still : hosting.schedule.rouse.round turn = hosting.schedule := by
      obtain ⟨⟨bed, tasks⟩, procedure⟩ := hosting
      obtain rfl : tasks = [] := none
      exact congrArg (Schedule.mk · []) (runLaunched_of_nil idle)
    have begins : Runtime.poll turn ⟨hosting.schedule, (runUntil services signal).timed⟩ =
        Runtime.poll turn ⟨spawned turn signal services hosting.schedule,
          awaiting signal (handlesOn services hosting.schedule.bed.signals.next)⟩ := by
      rw [Runtime.poll, Runtime.poll, poll_begun none]
    rw [still, procedure, begins, endless]
    obtain ⟨less, le, -, course, same⟩ := of_poll_awaiting
      (placed_spawned turn services none sound inUse) (fresh.spawned idle none)
    exact ⟨less, by omega, course, fun free => same.symm ▸ isShutDown_spawned free⟩
  | @waiting first rank _ _ placed procedure planned many =>
    obtain ⟨planned', tells⟩ := planned.round
    obtain ⟨entries, told⟩ := tells
    have given_eq : (hosting.schedule.rouse.round turn).bed.isShutDown signal =
        hosting.schedule.bed.isShutDown signal := by
      rw [told]
      rfl
    obtain ⟨less, le, heard, course, same⟩ := of_poll_awaiting (placed.round turn) planned'
    rw [procedure]
    refine ⟨less, ?_, course, fun free => by rw [same, given_eq]; exact free⟩
    cases given : hosting.schedule.bed.isShutDown signal with
    | true =>
      have := heard (given_eq.trans given)
      omega
    | false =>
      rw [procedure, isReady_awaiting] at ready
      have := planned.pos_of_ready (ready.resolve_right (Bool.eq_false_iff.1 given))
      omega
  | @leaving first since _ _ placed procedure planned =>
    obtain ⟨planned', entries, told⟩ := planned.round
    have kept (index : Nat) := ((Schedule.rouse_round_since turn hosting.schedule).1 index).1
    have waits : hosting.procedure.isReady turn hosting.schedule.rouse = false := by
      rw [procedure]
      exact isReady_leaving (Schedule.endingAt?_rouse hosting.schedule) since
    have := planned.pos_of_ready (ready.resolve_right (Bool.eq_false_iff.1 waits))
    refine ⟨min bound 2 - 1, by omega, ?_⟩
    rw [Runtime.poll, procedure]
    cases left : (allLeft hosting.schedule.tasks (handlesOn services first)).value? with
    | none =>
      rw [poll_leaving_of_unfinished kept left]
      exact ⟨.leaving (placed.round turn) rfl planned', fun free => by rw [told]; exact free⟩
    | some results =>
      rw [poll_leaving_of_returned kept left]
      exact ⟨.leaving (placed.round turn) rfl planned', fun free => by rw [told]; exact free⟩

theorem atTime (course : Course signal services most last bound hosting) {time : Nat}
    (passes : hosting.time ≤ time) :
    ∃ bound, Course signal services most last bound (hosting.atTime time) := by
  cases course with
  | begun none sound inUse procedure idle endless many =>
    exact ⟨bound, .begun none sound inUse procedure idle endless many⟩
  | waiting placed procedure planned many =>
    exact ⟨7, .waiting ⟨placed.callers, placed.heirs⟩ procedure (planned.atTime passes)
      (Nat.le_refl _)⟩
  | leaving placed procedure planned =>
    exact ⟨3, .leaving ⟨placed.callers, placed.heirs⟩ procedure (planned.atTime passes)⟩

theorem give (course : Course signal services most last bound hosting) :
    ∃ bound, Course signal services most last bound (hosting.give signal) := by
  cases course with
  | begun none sound inUse procedure idle endless many =>
    exact ⟨bound, .begun none (sound.give inUse)
      (Nat.lt_of_lt_of_eq inUse (Signals.next_give _ _).symm) procedure idle endless many⟩
  | waiting placed procedure planned many =>
    exact ⟨7, .waiting placed.give procedure (planned.signal signal) (Nat.le_refl _)⟩
  | leaving placed procedure planned =>
    exact ⟨3, .leaving placed.give procedure (planned.signal signal)⟩

/-- A host of planned services gets to every time. -/
theorem exists_run (fresh : Fresh most services)
    (course : Course signal services most last bound hosting) (time : Nat) :
    ∃ hosting' bound, hosting.run turn time = some hosting' ∧
      Course signal services most last bound hosting' ∧
        (hosting.schedule.bed.isShutDown signal = false →
          hosting'.schedule.bed.isShutDown signal = false) := by
  refine Runtime.exists_run (P := fun bound hosting' =>
    Course signal services most last bound hosting' ∧
      (hosting.schedule.bed.isShutDown signal = false →
        hosting'.schedule.bed.isShutDown signal = false)) ?_ ?_ ⟨course, id⟩ time
  · rintro bound hosting' ⟨course, free⟩ ready
    obtain ⟨less, fewer, course', free'⟩ := course.round fresh ready
    exact ⟨less, fewer, course', free' ∘ free⟩
  · rintro bound hosting' time ⟨course, free⟩ - passes
    obtain ⟨bound', course'⟩ := course.atTime passes
    exact ⟨bound', course', free⟩

/-- At the end of the instant of its signal a host waits for services that are only to leave. -/
theorem leave (course : Course signal services most none bound hosting)
    (given : hosting.schedule.bed.isShutDown signal = true) (quiet : hosting.IsQuiet turn) :
    Course signal services most (some (hosting.time + most)) 3 hosting := by
  obtain ⟨first, since, rank, placed, procedure, planned⟩ :=
    course.stage.resolve_left fun unheard => unheard.not_isQuiet given quiet
  exact .leaving placed procedure (planned.leave quiet.schedule fun task mem =>
    (placed.isShutDown_eq mem).trans given)

theorem isOver {limit : Nat} (course : Course signal services most (some limit) bound hosting)
    (given : hosting.schedule.bed.isShutDown signal = true) (quiet : hosting.IsQuiet turn)
    (le : limit ≤ hosting.time) : hosting.schedule.isOver = true := by
  obtain ⟨_, _, _, -, -, planned⟩ :=
    course.stage.resolve_left fun unheard => unheard.not_isQuiet given quiet
  exact planned.isOver quiet.schedule le

end Course

section

variable {bed : Testbed} (sound : bed.signals.Sound) (inUse : signal < bed.signals.next)
  (idle : bed.launched = []) (unsignalled : bed.isShutDown signal = false)
  (fresh : Fresh most services) (shutDownAt : Nat)

include sound inUse idle unsignalled fresh

/-- A host of planned services gets to its signal, which nobody else gives. -/
theorem exists_waited : ∃ start bound, waited turn signal services bed shutDownAt = some start ∧
    Course signal services most none bound start ∧
      start.schedule.bed.isShutDown signal = false ∧ start.time = shutDownAt := by
  have begins : Course signal services most none 8 (Host.begun signal services bed) :=
    .begun rfl sound inUse rfl idle rfl (Nat.le_refl _)
  rcases Nat.eq_zero_or_pos shutDownAt with rfl | pos
  · exact ⟨_, 8, rfl, begins, unsignalled, rfl⟩
  · obtain ⟨start, bound, ran, course, free⟩ := begins.exists_run fresh shutDownAt
    exact ⟨start, bound, (waited_of_pos pos).trans ran, course, free unsignalled,
      (Runtime.run_arrives ran (Nat.zero_le _)).2⟩

/-- All planned services have ended when as much time has passed since their signal as the longest
of their waits takes. -/
theorem exists_isOver : ∃ hosting,
    reached turn signal services bed shutDownAt (shutDownAt + most) = some hosting ∧
      hosting.schedule.isOver = true := by
  obtain ⟨start, bound, waits, waiting, -, now⟩ :=
    exists_waited sound inUse idle unsignalled fresh shutDownAt
  have now : (start.give signal).time = shutDownAt := now
  -- At the end of the instant of the signal all services rest or have ended; then they leave.
  obtain ⟨_, hearing⟩ := waiting.give
  obtain ⟨resting, _, ran, hears, -⟩ := hearing.exists_run fresh shutDownAt
  obtain ⟨quiet, rests⟩ := Runtime.run_arrives ran (Nat.le_of_eq now)
  have given : resting.schedule.bed.isShutDown signal = true :=
    isShutDown_iff.2 (Runtime.run_given ran (Signals.mem_given_give_self _ _))
  have leaves := hears.leave given quiet
  rw [rests] at leaves
  obtain ⟨last, _, ran', left, -⟩ := leaves.exists_run fresh (shutDownAt + most)
  obtain ⟨quiet', ends⟩ := Runtime.run_arrives ran' (rests ▸ Nat.le_add_right _ _)
  refine ⟨last, ?_, left.isOver ?_ quiet' (Nat.le_of_eq ends.symm)⟩
  · rw [reached_of_le (Nat.le_add_right _ _), waits, Option.bind_some,
      ← Runtime.run_run ran (Nat.le_of_eq now) (Nat.le_add_right _ _)]
    exact ran'
  · exact isShutDown_iff.2 (Runtime.run_given ran' (isShutDown_iff.1 given))

/-- Planned services may be hosted, if those that tick wait between two ticks and their signal is
not given before. -/
theorem orderly : Orderly turn signal services bed shutDownAt := by
  refine ⟨sound, inUse, fun hosting waits => ?_,
    ⟨_, exists_isOver sound inUse idle unsignalled fresh shutDownAt⟩⟩
  obtain ⟨start, bound, waits', -, free, -⟩ :=
    exists_waited sound inUse idle unsignalled fresh shutDownAt
  obtain rfl := Option.some.inj (waits.symm.trans waits')
  exact free

end

/-! ## Hosts of plans -/

/-- The longest of the waits of some plans. -/
def longest (plans : List Plan) : Nat :=
  (plans.map (·.after)).foldl max 0

theorem fresh_planned {plans : List Plan} (paced : ∀ plan ∈ plans, plan.Paced) :
    Fresh (longest plans) (planned plans) := by
  have short := List.forall_mem_map.1 (foldl_max_spec 0 (plans.map (·.after))).2.1
  constructor
  all_goals
    refine List.forall_mem_map.2 ?_
    rintro ⟨plan, index⟩ there
    have mem := List.fst_mem_of_mem_zipIdx there
  · rfl
  · exact paced plan mem
  · exact short plan mem

/-- On a testbed on which nothing has happened one signal is in use, and none is given. -/
theorem sound_default : Signals.Sound {} :=
  ⟨Nat.zero_lt_one, List.forall_mem_nil _, fun _ _ mem => absurd mem List.not_mem_nil⟩

section

variable {plans : List Plan} (paced : ∀ plan ∈ plans, plan.Paced) (shutDownAt : Nat)

include paced

theorem orderly_planned : Orderly turn 0 (planned plans) {} shutDownAt :=
  orderly sound_default Nat.zero_lt_one rfl rfl (fresh_planned paced) shutDownAt

theorem exists_isOver_planned : ∃ hosting,
    reached turn 0 (planned plans) {} shutDownAt (shutDownAt + longest plans) = some hosting ∧
      hosting.schedule.isOver = true :=
  exists_isOver sound_default Nat.zero_lt_one rfl rfl (fresh_planned paced) shutDownAt

end

end Plan

end Feedkeeper
