import Feedkeeper.Async
import Feedkeeper.Proofs.Clock
import Feedkeeper.Proofs.Endings

/-!
# Procedures that go on

Letting a sequence of procedures go on is letting its parts go on in turn (`Async.poll_bind`). All
that a procedure does to the schedule beside it is to start tasks, which are ready then, and to give
and to make signals (`Async.Beside`); what the tasks do, and the clock, are left alone.
-/

namespace Feedkeeper

open Testbed

variable {σ α β : Type} {turn : σ → Script (Turn σ)} {schedule schedule' : Schedule σ}

namespace Async

theorem value?_eq_some_iff {procedure : Async σ α} {value : α} :
    procedure.value? = some value ↔ procedure = done value := by
  cases procedure <;> simp [value?]

/-! ## Sequences -/

/-- In a sequence the second part goes on once the first has ended. -/
theorem poll_bind (procedure : Async σ α) (f : α → Async σ β) (schedule : Schedule σ) :
    (procedure >>= f).poll turn schedule =
      match (procedure.poll turn schedule).1.value? with
      | some value => (f value).poll turn (procedure.poll turn schedule).2
      | none =>
        ((procedure.poll turn schedule).1 >>= f, (procedure.poll turn schedule).2) := by
  change (bind procedure f).poll turn schedule = _
  induction procedure generalizing schedule with
  | done value => rfl
  | ask request next ih =>
    rw [bind, poll, poll]
    cases request.answer? turn schedule with
    | none => rfl
    | some answered => exact ih answered.1 f answered.2
  | both left right next _ _ ih =>
    rw [bind, poll, poll]
    dsimp only
    cases (left.poll turn schedule).1.value? with
    | none => rfl
    | some value =>
      cases (right.poll turn (left.poll turn schedule).2).1.value? with
      | none => rfl
      | some other => exact ih value other f _

theorem poll_bind_of_done {procedure : Async σ α} {f : α → Async σ β} {value : α}
    (ends : procedure.poll turn schedule = (done value, schedule')) :
    (procedure >>= f).poll turn schedule = (f value).poll turn schedule' := by
  rw [poll_bind, ends]
  rfl

theorem value?_bind_of_none {procedure : Async σ α} {f : α → Async σ β}
    (waits : procedure.value? = none) : (procedure >>= f).value? = none := by
  cases procedure with
  | done => cases waits
  | ask | both => rfl

theorem isReady_bind_of_none {procedure : Async σ α} {f : α → Async σ β}
    (waits : procedure.value? = none) :
    (procedure >>= f).isReady turn schedule = procedure.isReady turn schedule := by
  cases procedure with
  | done => cases waits
  | ask | both => rfl

/-! ## The schedule beside a procedure -/

/-- The second schedule is the first after a procedure beside it went on. -/
structure Beside (schedule schedule' : Schedule σ) : Prop where
  bed : schedule'.bed = { schedule.bed with signals := schedule'.bed.signals }
  given : schedule.bed.signals.given ⊆ schedule'.bed.signals.given
  tasks : ∃ started : List (Task σ), schedule'.tasks = schedule.tasks ++ started ∧
    ∀ task ∈ started, task.activity.isReady = true

namespace Beside

theorem refl (schedule : Schedule σ) : Beside schedule schedule :=
  ⟨rfl, List.Subset.refl _, [], (List.append_nil _).symm, List.forall_mem_nil _⟩

theorem trans {schedule'' : Schedule σ} (h : Beside schedule schedule')
    (h' : Beside schedule' schedule'') : Beside schedule schedule'' := by
  obtain ⟨started, tasks, ready⟩ := h.tasks
  obtain ⟨started', tasks', ready'⟩ := h'.tasks
  refine ⟨?_, List.Subset.trans h.given h'.given, started ++ started', ?_, ?_⟩
  · rw [h'.bed, h.bed]
  · rw [tasks', tasks, List.append_assoc]
  · exact List.forall_mem_append.2 ⟨ready, ready'⟩

theorem time (h : Beside schedule schedule') : schedule'.bed.time = schedule.bed.time := by
  rw [h.bed]

/-- A task that was started has not ended. -/
theorem endingAt?_eq (h : Beside schedule schedule') (index : Nat) :
    endingAt? schedule'.tasks index = endingAt? schedule.tasks index := by
  obtain ⟨started, tasks, ready⟩ := h.tasks
  rw [endingAt?, endingAt?, tasks]
  rcases Nat.lt_or_ge index schedule.tasks.length with inside | beyond
  · rw [List.getElem?_append_left inside]
  · rw [List.getElem?_append_right beyond, List.getElem?_eq_none beyond, Option.bind_none,
      Option.bind_eq_none_iff]
    intro task found
    have isReady := ready task (List.mem_of_getElem? found)
    cases activity : task.activity with
    | ready => rfl
    | asleep | ended => simp [activity, Activity.isReady] at isReady

theorem since {p : Nat → Prop} (h : Beside schedule schedule') :
    SinceAll p schedule.tasks schedule'.tasks :=
  fun index => h.endingAt?_eq index ▸ .refl _

end Beside

theorem Request.beside {request : Request σ} {answer : request.Answer}
    (answered : request.answer? turn schedule = some (answer, schedule')) :
    Beside schedule schedule' := by
  cases request with
  | fresh | now =>
    cases answered
    exact ⟨rfl, List.Subset.refl _, [], (List.append_nil _).symm, List.forall_mem_nil _⟩
  | child signal =>
    cases answered
    exact ⟨rfl, fun _ mem => Signals.mem_given_bear_iff.2 (.inl mem), [],
      (List.append_nil _).symm, List.forall_mem_nil _⟩
  | give signal =>
    cases answered
    exact ⟨rfl, Signals.given_subset_give _ _, [], (List.append_nil _).symm,
      List.forall_mem_nil _⟩
  | await signal =>
    rw [answer?] at answered
    split at answered
    · cases answered
      exact .refl schedule
    · cases answered
  | spawn role signal state =>
    cases answered
    exact ⟨rfl, List.Subset.refl _, [_], rfl, by simp [Activity.isReady]⟩
  | join task =>
    obtain ⟨ended, -, same⟩ := Option.map_eq_some_iff.1 answered
    cases same
    exact .refl schedule

/-- A procedure that goes on leaves the services and the clock alone. -/
theorem poll_beside (procedure : Async σ α) (schedule : Schedule σ) :
    Beside schedule (procedure.poll turn schedule).2 := by
  induction procedure generalizing schedule with
  | done value => exact .refl schedule
  | ask request next ih =>
    rw [poll]
    cases answered : request.answer? turn schedule with
    | none => exact .refl schedule
    | some answer => exact (Request.beside answered).trans (ih answer.1 answer.2)
  | both left right next ihLeft ihRight ih =>
    have both := (ihLeft schedule).trans (ihRight (left.poll turn schedule).2)
    rw [poll]
    dsimp only
    split
    · exact both.trans (ih _ _ _)
    · exact both

/-- Whether a procedure can go on is no matter of the clock. -/
theorem isReady_atTime (procedure : Async σ α) (schedule : Schedule σ) (time : Nat) :
    procedure.isReady turn (schedule.atTime time) = procedure.isReady turn schedule := by
  induction procedure with
  | done value => rfl
  | ask request next =>
    cases request with
    | join task =>
      simp only [isReady, Request.answer?, Option.isSome_map]
      rfl
    | await signal =>
      have same : (schedule.atTime time).bed.isShutDown signal =
        schedule.bed.isShutDown signal := rfl
      simp only [isReady, Request.answer?, same]
      split <;> rfl
    | _ => rfl
  | both left right next ihLeft ihRight => rw [isReady, isReady, ihLeft, ihRight]

end Async

end Feedkeeper
