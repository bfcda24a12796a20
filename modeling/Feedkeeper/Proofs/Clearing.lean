import Feedkeeper.Proofs.Roster

/-!
# When an identifier stops pending

An identifier is pending while operations on it are to be finished. Operations are told apart by
their ids, which name a kind and an entity, but an identifier has one flag for all of them. A pass
lowers the flag as soon as one operation on the identifier is reported to be finished
(`Roster.exists_report_of_cleared`), and leaves the others queued : whatever has not been reported
stays in the queue (`Roster.mem_queue_of_unreported`).

So the flag tells the truth after a pass that lowered it exactly if by then all operations on the
identifier that were queued had been reported, and it does where no two of them were queued
(`cleared_upon_report`). `cleared_while_waiting` is a pass that lowers the flag of a group while its
witnesses are still to be assigned.
-/

namespace Feedkeeper

namespace Roster

open Script

/-- Whether the identifier is pending, if there is a record of it. -/
def pending? (r : Roster) (id : String) : Option Bool :=
  (r.identifiers.get? id).map (·.pending)

/-- The agent has reported the operation with the id to be finished. -/
def Reported (r : Roster) (id : String) : Prop :=
  ∃ status, status.done = true ∧ ⟨.operationStatus id, .ok status⟩ ∈ r.trail

/-- A pass that leads from the first state to the second has lowered the flag of the identifier. -/
structure Clears (r : Roster) (entity : String) (r' : Roster) : Prop where
  pass : ∃ tally, Ends calls Poll.pass r tally r'
  before : r.pending? entity = some true
  after : r'.pending? entity = some false

variable {r r' : Roster} {made : List Answered} {entity id : String} {operation : Operation}

/-! ## What lowers a flag -/

theorem pending?_mark_of_ne {other : String} (differs : entity ≠ other) (pending : Bool) :
    (r.mark other pending).pending? entity = r.pending? entity := by
  unfold mark
  split
  · rfl
  · rw [pending?, pending?, Table.get?_put_of_ne differs]

theorem pending?_mark_self (was : r.pending? entity = some true) :
    (r.mark entity true).pending? entity = some true := by
  obtain ⟨identifier, found, -⟩ := Option.map_eq_some_iff.1 was
  rw [mark, found, pending?, Table.get?_put_self]
  rfl

/-- An identifier stays pending unless a call lowers its flag. -/
theorem pending?_after {answered : Answered} (was : r.pending? entity = some true)
    (other : answered ≠ ⟨.setPending entity false, .ok ()⟩) :
    (calls.after r answered.call answered.answer).pending? entity = some true := by
  obtain ⟨c, answer⟩ := answered
  change (r.changed c answer).pending? entity = some true
  cases c with
  | setPending id pending =>
    cases answer with
    | error fault => exact was
    | ok _ =>
      by_cases same : entity = id
      · subst same
        cases pending with
        | true => exact pending?_mark_self was
        | false => exact absurd rfl other
      · exact (pending?_mark_of_ne same pending).trans was
  | savePending operation =>
    cases answer with
    | error fault => exact was
    | ok _ =>
      have kept : (r.save operation).identifiers = r.identifiers := by
        unfold save
        split <;> rfl
      change ((r.save operation).identifiers.get? entity).map (·.pending) = some true
      rw [kept]
      exact was
  | deletePending id => cases answer <;> exact was
  | _ => exact was

/-- A flag that was lowered was lowered by a call. -/
theorem mem_of_pending?_replay (was : r.pending? entity = some true)
    (cleared : (calls.replay r made).pending? entity = some false) :
    ⟨.setPending entity false, .ok ()⟩ ∈ made := by
  induction made generalizing r with
  | nil =>
    rw [show calls.replay r [] = r from rfl, was] at cleared
    cases cleared
  | cons answered made ih =>
    by_cases here : answered = ⟨.setPending entity false, .ok ()⟩
    · exact here ▸ List.mem_cons_self
    · exact List.mem_cons_of_mem _ (ih (pending?_after was here) cleared)

end Roster

namespace Poll

variable {operation : Operation} {calls : List Answered} {entity : String}

/-- A visit that lowers a flag lowers that of the operation's entity, on a report. -/
theorem Visit.cleared (visit : Visit operation calls)
    (cleared : ⟨.setPending entity false, .ok ()⟩ ∈ calls) : operation.entity = entity ∧
      ∃ status, status.done = true ∧ ⟨.operationStatus operation.id, .ok status⟩ ∈ calls := by
  obtain ⟨id, kind, own⟩ := operation
  cases visit with
  | kept status done fault =>
    refine ⟨?_, status, done, by simp [keeping, announcing]⟩
    cases kind <;> simpa [keeping, announcing, launching, eq_comm] using cleared
  | completed status done removed =>
    refine ⟨?_, status, done, by simp [completing, announcing]⟩
    cases kind <;> simpa [completing, announcing, launching, eq_comm] using cleared

end Poll

namespace Roster

open Script

variable {r r' : Roster} {entity : String} {operation : Operation}

/-! ## Reports and the queue -/

/-- The flag is lowered upon a report on one of the queued operations. -/
theorem Clears.exists_report (clears : r.Clears entity r') :
    ∃ operation ∈ r.queue.entries, operation.entity = entity ∧ r'.Reported operation.id := by
  obtain ⟨⟨tally, ends⟩, before, after⟩ := clears
  obtain ⟨made, steps⟩ := (Moves.pass ends).exists_steps
  cases steps with
  | passed passage allowed =>
    obtain ⟨operation, mem, calls', visit, cleared, within⟩ :=
      passage.exists_visit (mem_of_pending?_replay before after) fun idle => idle
    obtain ⟨same, status, done, reported⟩ := visit.cleared cleared
    refine ⟨operation, mem, same, status, done, ?_⟩
    rw [trail_replay]
    exact List.mem_append_right _ (within.subset reported)

/-- A pass queues nothing, and takes off the queue only what was reported to be finished. -/
theorem entries_of_pass {tally : Poll.Tally} (ends : Ends calls Poll.pass r tally r') :
    r'.queue.entries ⊆ r.queue.entries ∧
      ∀ operation ∈ r.queue.entries, ¬r'.Reported operation.id → operation ∈ r'.queue.entries := by
  obtain ⟨made, steps⟩ := (Moves.pass ends).exists_steps
  cases steps with
  | passed passage allowed =>
    rw [entries_replay passage.adds_eq_false]
    refine ⟨List.filter_sublist.subset, fun operation mem unreported => ?_⟩
    refine List.mem_filter.2 ⟨mem, ?_⟩
    by_contra dequeued
    have deleted : operation.id ∈ made.filterMap Answered.deleted? := by
      rw [← passage.dequeued_eq]
      simpa using dequeued
    obtain ⟨other, -, same, status, removed, done, block⟩ :=
      passage.completing_of_deleted (Answered.mem_filterMap_deleted.1 deleted)
    refine unreported ⟨status, done, ?_⟩
    rw [trail_replay, ← same]
    exact List.mem_append_right _ (block.subset (by simp [Poll.completing, Poll.announcing]))

end Roster

/-- A pass that lowers the flag of an identifier :

* has had one of the queued operations on it reported to be finished;
* leaves queued whatever has not been reported, and queues nothing;
* leaves none queued on the identifier that has not been reported exactly if all of those that were
  queued have been;
* leaves none if no two of those that were queued have different ids. -/
theorem cleared_upon_report {r r' : Roster} {entity : String} (clears : r.Clears entity r') :
    (∃ operation ∈ r.queue.entries, operation.entity = entity ∧ r'.Reported operation.id) ∧
    (∀ operation ∈ r.queue.entries, ¬r'.Reported operation.id → operation ∈ r'.queue.entries) ∧
    r'.queue.entries ⊆ r.queue.entries ∧
    ((∀ operation ∈ r'.queue.entries, operation.entity = entity → r'.Reported operation.id) ↔
      ∀ operation ∈ r.queue.entries, operation.entity = entity → r'.Reported operation.id) ∧
    ((∀ operation ∈ r.queue.entries, ∀ other ∈ r.queue.entries, operation.entity = entity →
        other.entity = entity → operation.id = other.id) →
      ∀ operation ∈ r'.queue.entries, operation.entity = entity → r'.Reported operation.id) := by
  obtain ⟨tally, ends⟩ := clears.pass
  obtain ⟨fewer, stays⟩ := Roster.entries_of_pass ends
  obtain ⟨finished, mem, same, reported⟩ := clears.exists_report
  refine ⟨⟨finished, mem, same, reported⟩, stays, fewer, ⟨fun all operation queued on => ?_,
    fun all operation queued => all operation (fewer queued)⟩, fun alone operation queued on => ?_⟩
  · by_contra unreported
    exact unreported (all operation (stays operation queued unreported) on)
  · rw [alone operation (fewer queued) finished mem on same]
    exact reported

/-! ## Two operations on one identifier -/

namespace Operation

/-- The formation of a group. -/
def formation : Operation :=
  .ofEntity .groupFormation "E"

/-- The assignment of witnesses to the same group. -/
def assignment : Operation :=
  .ofEntity .witnessAssignment "E"

end Operation

namespace Roster

open Script

/-- The surroundings in which a group waits for its formation and for its witnesses. -/
def forming : Roster :=
  { pending := [.formation, .assignment]
    queue := ⟨[.formation, .assignment]⟩
    identifiers := ⟨[("E", ⟨"E", "name", true, []⟩)]⟩ }

/-- The calls of a pass to which the formation is reported to be finished, and the assignment
not. -/
def formed : List Answered :=
  [⟨.isOnline, true⟩, ⟨.queued, [.formation, .assignment]⟩, ⟨.isShutDown, false⟩] ++
    Poll.completing .formation ⟨"group.E", true⟩ true ++
    [⟨.isShutDown, false⟩, ⟨.operationStatus "witness.E", .ok ⟨"witness.E", false⟩⟩]

theorem clears_forming : forming.Clears "E" (calls.replay forming formed) := by
  refine ⟨⟨{ checked := 2, completed := 1 }, reaches_iff.2 ⟨formed, ?_, ?_, rfl⟩⟩, rfl, rfl⟩
  · exact .next (.next (.next (.next (.next (.next (.next (.next (.next (.next (.next
      (.here _)))))))))))
  · exact ⟨trivial, rfl, trivial, trivial, rfl, trivial, trivial, trivial, rfl, trivial, trivial,
      trivial⟩

/-- The assignment has been asked about, and is still to be finished. -/
theorem unreported_assignment :
    ¬(calls.replay forming formed).Reported Operation.assignment.id := by
  rintro ⟨status, done, mem⟩
  rw [trail_replay] at mem
  have : status = ⟨"witness.E", false⟩ := by
    simpa [forming, formed, Poll.completing, Poll.announcing, Poll.launching, Operation.formation,
      Operation.assignment, Operation.ofEntity, Operation.Kind.label] using mem
  subst this
  cases done

end Roster

open Roster in
/-- The group is no longer pending, and the assignment of its witnesses is still queued. -/
theorem cleared_upon_report_formed :
    forming.Clears "E" (calls.replay forming formed) ∧
      (∃ operation ∈ forming.queue.entries, operation.entity = "E" ∧
        (calls.replay forming formed).Reported operation.id) ∧
      Operation.assignment ∈ (calls.replay forming formed).queue.entries := by
  obtain ⟨reported, stays, -⟩ := cleared_upon_report clears_forming
  exact ⟨clears_forming, reported, stays _ (by decide) unreported_assignment⟩

open Roster in
/-- A pass may lower the flag of an identifier, and leave an operation on it queued that has not
been reported to be finished. -/
theorem cleared_while_waiting :
    ¬∀ (r r' : Roster) (entity : String), r.Clears entity r' →
      ∀ operation ∈ r'.queue.entries, operation.entity = entity → r'.Reported operation.id := by
  intro all
  exact unreported_assignment (all _ _ _ clears_forming .assignment (by decide) rfl)

end Feedkeeper
