import Feedkeeper.Proofs.Driving
import Feedkeeper.Proofs.Signals

/-!
# What has ended stays ended

A service that has ended stays as it ended, and one that ends does so at the time on the clock,
whatever it or the others do and whatever hooks are armed (`Schedule.round_since`). The clock stays
while services run, and all that they do to the signals is to give current ones and to renew them
(`Testbed.Works`).
-/

namespace Feedkeeper

open Script Testbed

/-! ## The testbed at work -/

namespace Testbed

/-- The second testbed is the first after some work at its time, in which signals may be given. -/
structure Works (bed bed' : Testbed) : Prop where
  time : bed'.time = bed.time
  signals : bed.signals.Changes bed'.signals

variable {bed bed' bed'' : Testbed} {caller : Caller}

theorem Works.refl (bed : Testbed) : bed.Works bed :=
  ⟨rfl, .refl⟩

theorem Works.trans (h : bed.Works bed') (h' : bed'.Works bed'') : bed.Works bed'' :=
  ⟨h'.time.trans h.time, h.signals.trans h'.signals⟩

theorem Works.of_signals (time : bed'.time = bed.time) (signals : bed'.signals = bed.signals) :
    bed.Works bed' :=
  ⟨time, signals ▸ .refl⟩

theorem apply_works (bed : Testbed) (mutation : Mutation) : bed.Works (bed.apply mutation) := by
  cases mutation with
  | shutDown => exact ⟨rfl, .shutDown .refl⟩
  | renewSignal => exact ⟨rfl, .renew .refl⟩
  | _ => exact ⟨rfl, .refl⟩

theorem applyAll_works (bed : Testbed) (mutations : List Mutation) :
    bed.Works (bed.applyAll mutations) := by
  induction mutations generalizing bed with
  | nil => exact .refl bed
  | cons mutation rest ih => exact (apply_works bed mutation).trans (ih _)

theorem strike_works (bed : Testbed) (c : Call) : bed.Works (bed.strike c) := by
  unfold strike
  split
  · rename_i hook others _
    have split : bed.Works { bed with hooks := others } := .of_signals rfl rfl
    exact split.trans (applyAll_works _ _)
  · exact .refl bed

theorem perform_works (bed : Testbed) (caller : Caller) (c : Call) :
    bed.Works (bed.perform caller c).2 := by
  have goesOn := perform_goesOn (p := fun _ => True) bed caller (c := c) fun _ _ _ => trivial
  exact .of_signals goesOn.time goesOn.signals

theorem respond_works (bed : Testbed) (caller : Caller) (c : Call) :
    bed.Works (respond caller c bed).2 := by
  unfold respond
  split
  · exact perform_works bed caller c
  rename_i kind _
  have recorded : bed.Works (bed.record caller.role c) := .of_signals rfl rfl
  have struck := recorded.trans (strike_works _ c)
  dsimp only
  split
  · rename_i answer bed' injected
    unfold injected? at injected
    split at injected
    · cases injected
      exact ⟨struck.time, struck.signals⟩
    · cases injected
  · exact struck.trans (perform_works _ caller c)

theorem run_works {α : Type} (caller : Caller) (script : Script α) (bed : Testbed) :
    bed.Works (script.run (respond caller) bed).2 := by
  induction script generalizing bed with
  | done value => exact .refl bed
  | call c next ih => exact (respond_works bed caller c).trans (ih _ _)

theorem runLaunched_works (bed : Testbed) : bed.Works bed.runLaunched := by
  have authorized (groups : List String) (bed : Testbed) : bed.Works (groups.foldl
      (fun bed group => ((Poll.authorize group).run (respond ⟨.authorization, 0⟩) bed).2) bed) := by
    induction groups generalizing bed with
    | nil => exact .refl bed
    | cons group rest ih => exact (run_works _ _ bed).trans (ih _)
  have begun : bed.Works { bed with launched := [] } := .of_signals rfl rfl
  exact begun.trans (authorized bed.launched _)

end Testbed

/-- A script comes to rest at the time at which it runs. -/
theorem Script.drive_works {α : Type} (caller : Caller) (script : Script α) (bed : Testbed) :
    bed.Works (script.drive caller bed).2 := by
  fun_induction Script.drive caller script bed with
  | case1 | case4 | case6 | case8 | case11 => exact .refl _
  | case2 _ _ _ _ ih | case3 _ _ _ ih | case5 _ _ ih | case7 _ _ _ ih | case9 _ _ _ ih => exact ih
  | case10 _ _ _ _ _ ih => exact (respond_works _ _ _).trans ih
  | case12 _ _ _ _ _ _ _ ih => exact (respond_works _ _ _).trans ih

variable {σ : Type} {turn : σ → Script (Turn σ)}

/-! ## Endings -/

/-- What has ended before stays as it is, and what has ended since did so at a time of which `p`
holds. -/
def Since (p : Nat → Prop) (before after : Option (Ending × Nat)) : Prop :=
  (∀ ended ∈ before, ended ∈ after) ∧ ∀ ended ∈ after, ended ∈ before ∨ p ended.2

namespace Since

variable {p q : Nat → Prop} {first second third : Option (Ending × Nat)}

theorem refl (ended : Option (Ending × Nat)) : Since p ended ended :=
  ⟨fun _ mem => mem, fun _ mem => .inl mem⟩

theorem trans (h : Since p first second) (h' : Since p second third) : Since p first third :=
  ⟨fun ended mem => h'.1 ended (h.1 ended mem), fun ended mem =>
    (h'.2 ended mem).elim (h.2 ended) .inr⟩

theorem mono (h : Since p first second) (imp : ∀ time, p time → q time) : Since q first second :=
  ⟨h.1, fun ended mem => (h.2 ended mem).imp_right (imp _)⟩

end Since

@[simp] theorem Activity.isSome_ending? (activity : Activity σ) :
    activity.ending?.isSome = activity.isEnded := by
  cases activity <;> rfl

theorem Activity.ending?_rouse (activity : Activity σ) (shutDown : Bool) (time : Nat) :
    (activity.rouse shutDown time).ending? = activity.ending? := by
  unfold rouse
  split
  · split
    · rfl
    · split <;> rfl
  · rfl

/-- A turn that came to rest has ended then, if it has. -/
theorem Activity.ending?_ofStop (turn : σ → Script (Turn σ)) (shutDown : Bool) (time : Nat)
    (stop : Stop (Turn σ)) :
    ∀ ended ∈ (Activity.ofStop turn shutDown time stop).ending?, ended.2 = time := by
  unfold ofStop
  split
  · exact nofun
  · rintro _ ⟨⟩
    rfl
  · exact nofun
  · split
    · rintro _ ⟨⟩
      rfl
    · split <;> exact nofun

/-- Whatever has ended among the tasks stays so, and what has ended since did so at a time of which
`p` holds. -/
def SinceAll (p : Nat → Prop) (tasks tasks' : List (Task σ)) : Prop :=
  ∀ index, Since p (endingAt? tasks index) (endingAt? tasks' index)

namespace SinceAll

variable {p q : Nat → Prop} {tasks tasks' tasks'' : List (Task σ)}

theorem refl (tasks : List (Task σ)) : SinceAll p tasks tasks :=
  fun _ => .refl _

theorem trans (h : SinceAll p tasks tasks') (h' : SinceAll p tasks' tasks'') :
    SinceAll p tasks tasks'' :=
  fun index => (h index).trans (h' index)

theorem mono (h : SinceAll p tasks tasks') (imp : ∀ time, p time → q time) :
    SinceAll q tasks tasks' :=
  fun index => (h index).mono imp

end SinceAll

namespace Schedule

variable {schedule : Schedule σ}

theorem endingAt?_rouse (schedule : Schedule σ) (index : Nat) :
    endingAt? schedule.rouse.tasks index = endingAt? schedule.tasks index := by
  simp only [endingAt?, rouse, List.getElem?_map, Option.bind_map]
  exact Option.bind_congr fun task _ => Activity.ending?_rouse _ _ _

/-- A task ends at the time at which it runs. -/
theorem resume_since (turn : σ → Script (Turn σ)) (task : Task σ) (bed : Testbed) :
    Since (· = bed.time) task.activity.ending? (resume turn task bed).1.activity.ending? ∧
      bed.Works (resume turn task bed).2 := by
  unfold resume
  split
  · rename_i script ready
    have works := script.drive_works task.caller bed
    generalize script.drive task.caller bed = driven at works ⊢
    obtain ⟨stop, bed'⟩ := driven
    dsimp only at works ⊢
    rw [ready]
    refine ⟨⟨nofun, fun ended mem => .inr ?_⟩, works⟩
    rw [← works.time]
    exact Activity.ending?_ofStop _ _ _ _ ended mem
  · exact ⟨.refl _, .refl _⟩

theorem resumeAll_since (turn : σ → Script (Turn σ)) (tasks : List (Task σ)) (bed : Testbed) :
    SinceAll (· = bed.time) tasks (resumeAll turn tasks bed).1 ∧
      bed.Works (resumeAll turn tasks bed).2 := by
  induction tasks generalizing bed with
  | nil => exact ⟨.refl _, .refl _⟩
  | cons task rest ih =>
    obtain ⟨since, works⟩ := resume_since turn task bed
    rw [resumeAll]
    generalize resume turn task bed = resumed at since works ⊢
    obtain ⟨task', bed'⟩ := resumed
    dsimp only at since works ⊢
    obtain ⟨others, works'⟩ := ih bed'
    refine ⟨?_, works.trans works'⟩
    rintro (_ | index)
    · exact since
    · exact (others index).mono fun time same => same.trans works.time

theorem round_since (turn : σ → Script (Turn σ)) (schedule : Schedule σ) :
    SinceAll (· = schedule.bed.time) schedule.tasks (schedule.round turn).tasks ∧
      schedule.bed.Works (schedule.round turn).bed := by
  obtain ⟨since, works⟩ := resumeAll_since turn schedule.tasks schedule.bed
  exact ⟨since, works.trans (runLaunched_works _)⟩

theorem rouse_round_since (turn : σ → Script (Turn σ)) (schedule : Schedule σ) :
    SinceAll (· = schedule.bed.time) schedule.tasks (schedule.rouse.round turn).tasks ∧
      schedule.bed.Works (schedule.rouse.round turn).bed := by
  have roused : SinceAll (· = schedule.bed.time) schedule.tasks schedule.rouse.tasks :=
    fun index => endingAt?_rouse schedule index ▸ .refl _
  obtain ⟨since, works⟩ := round_since turn schedule.rouse
  exact ⟨roused.trans since, works⟩

end Schedule

end Feedkeeper
