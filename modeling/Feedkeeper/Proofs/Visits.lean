import Feedkeeper.Poll
import Feedkeeper.Proofs.Execution
import Mathlib.Data.List.Infix

/-!
# The visits of a pass

A pass over the queue asks for the operations one after another. Nothing comes of most visits; if an
operation is finished and its completion announced, then its deletion fails, and the pass keeps it,
or succeeds, and the pass takes it off the queue (`Poll.Visit`). `Poll.records_pass` : however the
calls of a pass are answered, they are such visits to queued operations, in the order of the queue,
and otherwise change nothing (`Poll.Passage`).

So a pass announces and deletes operations in pairs (`Poll.Passage.exists_served`), deletes none
that was not reported to be finished, cleared and announced just before
(`Poll.Passage.completing_of_deleted`), and takes off the queue those that it deleted
(`Poll.Passage.dequeued_eq`).
-/

namespace Feedkeeper

namespace Answered

/-- Calls that tell something and change nothing. -/
def IsIdle : Answered → Prop
  | ⟨.isShutDown, _⟩ | ⟨.isOnline, _⟩ | ⟨.reconnect, _⟩ | ⟨.queued, _⟩ | ⟨.operationStatus _, _⟩ =>
    True
  | ⟨.setPending .., .error _⟩ => True
  | _ => False

/-- Whether the call stores or queues operations. -/
def adds : Answered → Bool
  | ⟨.savePending _, _⟩ | ⟨.enqueue _, _⟩ | ⟨.enqueueAll _, _⟩ => true
  | _ => false

/-- Whether the call announces a completion or deletes an operation. -/
def settles : Answered → Bool
  | ⟨.announceCompletion _, _⟩ | ⟨.deletePending _, _⟩ => true
  | _ => false

/-- The id of the operation that the call deleted, if it did. -/
def deleted? : Answered → Option String
  | ⟨.deletePending id, .ok ()⟩ => some id
  | _ => none

/-- The id of the operation that the call took off the queue. -/
def dequeued? : Answered → Option String
  | ⟨.dequeue id, _⟩ => some id
  | _ => none

/-- The operations that the call queues. -/
def enqueued : Answered → List Operation
  | ⟨.enqueue operation, _⟩ => [operation]
  | ⟨.enqueueAll operations, _⟩ => operations
  | _ => []

/-- The group whose authorization the call launched. -/
def launched? : Answered → Option String
  | ⟨.launchAuthorization group, _⟩ => some group
  | _ => none

/-- The group whose formation the call announced. -/
def formed? : Answered → Option String
  | ⟨.announceCompletion ⟨entity, .groupFormation⟩, _⟩ => some entity
  | _ => none

/-- The name under which the call started an authorization. -/
def started? : Answered → Option String
  | ⟨.startAuthorization name, _⟩ => some name
  | _ => none

theorem enqueued_eq_nil {answered : Answered} (removes : answered.adds = false) :
    answered.enqueued = [] := by
  obtain ⟨c, answer⟩ := answered
  cases c with
  | enqueue | enqueueAll => cases removes
  | _ => rfl

theorem mem_filterMap_deleted {calls : List Answered} {id : String} :
    id ∈ calls.filterMap deleted? ↔ ⟨.deletePending id, .ok ()⟩ ∈ calls := by
  constructor
  · intro h
    obtain ⟨answered, made, h⟩ := List.mem_filterMap.1 h
    unfold deleted? at h
    split at h
    · cases h
      exact made
    · cases h
  · exact fun made => List.mem_filterMap.2 ⟨_, made, rfl⟩

theorem mem_filterMap_launched {calls : List Answered} {group : String} :
    group ∈ calls.filterMap launched? ↔ ⟨.launchAuthorization group, ()⟩ ∈ calls := by
  constructor
  · intro h
    obtain ⟨answered, made, h⟩ := List.mem_filterMap.1 h
    unfold launched? at h
    split at h
    · cases h
      exact made
    · cases h
  · exact fun made => List.mem_filterMap.2 ⟨_, made, rfl⟩

theorem mem_filterMap_dequeued {calls : List Answered} {id : String} :
    id ∈ calls.filterMap dequeued? ↔ ∃ removed, ⟨.dequeue id, removed⟩ ∈ calls := by
  constructor
  · intro h
    obtain ⟨answered, made, h⟩ := List.mem_filterMap.1 h
    unfold dequeued? at h
    split at h
    · cases h
      exact ⟨_, made⟩
    · cases h
  · exact fun ⟨_, made⟩ => List.mem_filterMap.2 ⟨_, made, rfl⟩

/-- The call has none of the effects that are looked for in a pass. -/
structure IsEffectless (answered : Answered) : Prop where
  adds : answered.adds = false
  settles : answered.settles = false
  deleted : answered.deleted? = none
  dequeued : answered.dequeued? = none
  launched : answered.launched? = none
  formed : answered.formed? = none
  started : answered.started? = none

theorem IsIdle.effectless {answered : Answered} (h : answered.IsIdle) : answered.IsEffectless := by
  unfold IsIdle at h
  split at h
  all_goals first | exact ⟨rfl, rfl, rfl, rfl, rfl, rfl, rfl⟩ | exact h.elim

end Answered

namespace Poll

open Script

/-- The launch of the authorization of a formed group. -/
def launching (operation : Operation) : List Answered :=
  if operation.kind = .groupFormation then [⟨.launchAuthorization operation.entity, ()⟩] else []

/-- The operation is reported to be finished, its identifier cleared, and its completion
announced. -/
def announcing (operation : Operation) (status : Operation.Status) : List Answered :=
  ⟨.operationStatus operation.id, .ok status⟩ :: ⟨.setPending operation.entity false, .ok ()⟩ ::
    (launching operation ++ [⟨.announceCompletion operation.completion, ()⟩])

/-- The operation is announced to be finished, and its deletion fails. -/
def keeping (operation : Operation) (status : Operation.Status) (fault : Fault) : List Answered :=
  announcing operation status ++ [⟨.deletePending operation.id, .error fault⟩]

/-- The operation is announced to be finished, deleted and taken off the queue. -/
def completing (operation : Operation) (status : Operation.Status) (removed : Bool) :
    List Answered :=
  announcing operation status ++
    [⟨.deletePending operation.id, .ok ()⟩, ⟨.dequeue operation.id, removed⟩]

/-- The calls of a visit of which something comes. -/
inductive Visit (operation : Operation) : List Answered → Prop where
  | kept (status : Operation.Status) (done : status.done = true) (fault : Fault) :
      Visit operation (keeping operation status fault)
  | completed (status : Operation.Status) (done : status.done = true) (removed : Bool) :
      Visit operation (completing operation status removed)

/-- The calls that a pass makes while it goes through the operations, which it may leave at any
time. -/
inductive Passage : List Operation → List Answered → Prop where
  | ended (operations : List Operation) : Passage operations []
  | idle {operations : List Operation} {answered : Answered} {calls : List Answered}
      (idle : answered.IsIdle) (rest : Passage operations calls) :
      Passage operations (answered :: calls)
  /-- Nothing comes of the visit to the operation. -/
  | spared {operation : Operation} {operations : List Operation} {calls : List Answered}
      (rest : Passage operations calls) : Passage (operation :: operations) calls
  | visited {operation : Operation} {operations : List Operation} {calls calls' : List Answered}
      (visit : Visit operation calls) (rest : Passage operations calls') :
      Passage (operation :: operations) (calls ++ calls')

/-- The calls of a pass. -/
inductive Passes : List Answered → Prop where
  | offline : Passes [⟨.isOnline, false⟩]
  | online (operations : List Operation) {calls : List Answered}
      (passage : Passage operations calls) :
      Passes (⟨.isOnline, true⟩ :: ⟨.queued, operations⟩ :: calls)

/-- The calls of a pass that visits one operation, up to the end of the visit. -/
def visiting (operation : Operation) (visit : List Answered) : List Answered :=
  ⟨.isOnline, true⟩ :: ⟨.queued, [operation]⟩ :: ⟨.isShutDown, false⟩ :: visit

/-! ## The calls of the poller -/

variable {operation : Operation} {operations : List Operation} {calls : List Answered}
  {status : Operation.Status} {id : String}

/-- A pass that completes an operation clears its identifier, or the visit comes to something. -/
theorem records_complete (operation : Operation) (status : Operation.Status)
    (done : status.done = true) :
    Records (complete operation).run fun _ calls =>
      (∃ fault, calls = [⟨.setPending operation.entity false, .error fault⟩]) ∨
        Visit operation (⟨.operationStatus operation.id, .ok status⟩ :: calls) := by
  refine records_call.2 ?_
  rintro (fault | _)
  · exact records_done.2 (Or.inl ⟨fault, rfl⟩)
  -- From the announcement on, formations and assignments go alike.
  have announced (launched : List Answered) (h : launched = launching operation) :
      Records (ExceptT.run do
          ExceptT.lift (ask (.announceCompletion operation.completion))
          within ("Failed to delete operation " ++ operation.id)
            (ask (.deletePending operation.id))
          let _ ← ExceptT.lift (ask (.dequeue operation.id)))
        fun (_ : Except Fault Unit) calls =>
          (∃ fault, ⟨.setPending operation.entity false, .ok ()⟩ :: (launched ++ calls) =
            [⟨.setPending operation.entity false, .error fault⟩]) ∨
          Visit operation (⟨.operationStatus operation.id, .ok status⟩ ::
            ⟨.setPending operation.entity false, .ok ()⟩ :: (launched ++ calls)) := by
    subst h
    refine records_call.2 fun _ => records_call.2 ?_
    rintro (fault | _)
    · have kept : Visit operation (keeping operation status fault) := .kept status done fault
      simp only [keeping, announcing, List.cons_append, List.append_assoc, List.nil_append] at kept
      exact records_done.2 (Or.inr kept)
    · refine records_call.2 fun removed => ?_
      have completed : Visit operation (completing operation status removed) :=
        .completed status done removed
      simp only [completing, announcing, List.cons_append, List.append_assoc,
        List.nil_append] at completed
      exact records_done.2 (Or.inr completed)
  dsimp only [Except.mapError]
  by_cases formation : operation.kind = .groupFormation
  · rw [if_pos formation]
    refine records_call.2 fun _ => ?_
    exact announced [⟨.launchAuthorization operation.entity, ()⟩] (if_pos formation).symm
  · rw [if_neg formation]
    exact announced [] (if_neg formation).symm

theorem records_passOver (operations : List Operation) (tally : Tally) :
    Records (passOver operations tally) fun _ calls => Passage operations calls := by
  induction operations generalizing tally with
  | nil => exact records_done.2 (.ended [])
  | cons operation rest ih =>
    refine records_call.2 ?_
    rintro (_ | _)
    swap
    · exact records_done.2 (.idle trivial (.ended _))
    refine records_call.2 ?_
    rintro (failure | status)
    · refine records_call.2 ?_
      rintro (_ | _)
      · exact (ih _).mono fun _ _ passage =>
          .idle trivial (.idle trivial (.idle trivial (.spared passage)))
      · refine records_call.2 ?_
        rintro (_ | _)
        · exact records_done.2
            (.idle trivial (.idle trivial (.idle trivial (.idle trivial (.ended _)))))
        · exact (ih _).mono fun _ _ passage =>
            .idle trivial (.idle trivial (.idle trivial (.idle trivial (.spared passage))))
    · dsimp only [Script.bind]
      split
      · rename_i done
        refine records_bind.2 ((records_complete operation status done).mono ?_)
        rintro (fault | _) calls (⟨fault, rfl⟩ | visit) <;>
          refine (ih _).mono fun _ _ passage => ?_
        · exact .idle trivial (.idle trivial (.idle trivial (.spared passage)))
        · exact .idle trivial (.visited visit passage)
        · exact .idle trivial (.idle trivial (.idle trivial (.spared passage)))
        · exact .idle trivial (.visited visit passage)
      · exact (ih _).mono fun _ _ passage => .idle trivial (.idle trivial (.spared passage))

/-- However its calls are answered, a pass visits queued operations. -/
theorem records_pass : Records pass fun _ calls => Passes calls := by
  refine records_call.2 ?_
  rintro (_ | _)
  · exact records_done.2 .offline
  · exact records_call.2 fun operations =>
      (records_passOver operations {}).mono fun _ _ passage => .online operations passage

/-- Tracking an operation stores it and queues it, or fails to store it. -/
theorem records_track (operation : Operation) :
    Records (track operation).run fun result calls =>
      (∃ fault error, calls = [⟨.savePending operation, .error fault⟩] ∧ result = .error error) ∨
        ∃ added, calls = [⟨.savePending operation, .ok ()⟩, ⟨.enqueue operation, added⟩] ∧
          result = .ok () := by
  refine records_call.2 ?_
  rintro (fault | _)
  · exact records_done.2 (Or.inl ⟨fault, _, rfl, rfl⟩)
  · exact records_call.2 fun added => records_done.2 (Or.inr ⟨added, rfl, rfl⟩)

theorem records_load : Records load.run fun _ calls =>
    (∃ fault, calls = [⟨.pendingOperations, .error fault⟩]) ∨
      ∃ stored count, calls = [⟨.pendingOperations, .ok stored⟩, ⟨.enqueueAll stored, count⟩] := by
  refine records_call.2 ?_
  rintro (fault | stored)
  · exact records_done.2 (Or.inl ⟨fault, rfl⟩)
  · exact records_call.2 fun count => records_done.2 (Or.inr ⟨stored, count, rfl⟩)

/-- Where the identifier of the group is found, its authorization is started under its name. -/
theorem records_authorize (group : String) : Records (authorize group) fun _ calls =>
    (∃ identifier result, calls = [⟨.findIdentifier group, .ok (some identifier)⟩,
      ⟨.startAuthorization identifier.name, result⟩]) ∨
      ∃ answer, (∀ identifier, answer ≠ .ok (some identifier)) ∧
        calls = [⟨.findIdentifier group, answer⟩] := by
  refine records_call.2 ?_
  rintro (fault | _ | identifier)
  · exact records_done.2 (Or.inr ⟨.error fault, nofun, rfl⟩)
  · exact records_done.2 (Or.inr ⟨.ok none, nofun, rfl⟩)
  · exact records_call.2 fun result => records_done.2 (Or.inl ⟨identifier, result, rfl⟩)

/-! ## What a pass does -/

theorem Passes.exists_passage (passes : Passes calls) : ∃ operations, Passage operations calls := by
  cases passes with
  | offline => exact ⟨[], .idle trivial (.ended [])⟩
  | online operations passage => exact ⟨operations, .idle trivial (.idle trivial passage)⟩

/-- A call of a pass that is not idle belongs to the visit of an operation. -/
theorem Passage.exists_visit (passage : Passage operations calls) {answered : Answered}
    (made : answered ∈ calls) (busy : ¬answered.IsIdle) :
    ∃ operation ∈ operations, ∃ calls', Visit operation calls' ∧ answered ∈ calls' ∧
      calls' <:+: calls := by
  induction passage with
  | ended => cases made
  | idle idle _ ih =>
    rcases List.mem_cons.1 made with rfl | made
    · exact absurd idle busy
    · obtain ⟨operation, mem, calls', visit, made', within⟩ := ih made
      exact ⟨operation, mem, calls', visit, made', within.trans (List.suffix_cons _ _).isInfix⟩
  | spared _ ih =>
    obtain ⟨operation, mem, h⟩ := ih made
    exact ⟨operation, List.mem_cons_of_mem _ mem, h⟩
  | @visited visiting _ first second visit _ ih =>
    rcases List.mem_append.1 made with made | made
    · exact ⟨visiting, List.mem_cons_self, first, visit, made,
        (List.prefix_append first second).isInfix⟩
    · obtain ⟨operation, mem, calls', visit', made', within⟩ := ih made
      exact ⟨operation, List.mem_cons_of_mem _ mem, calls', visit', made',
        within.trans (List.suffix_append first second).isInfix⟩

/-- What two readings of a call find alike in every visit they find alike in a pass. -/
theorem Passage.filterMap_eq {β : Type} {f g : Answered → Option β}
    (idle : ∀ {answered : Answered}, answered.IsIdle → f answered = none ∧ g answered = none)
    (visit : ∀ {operation calls}, Visit operation calls → calls.filterMap f = calls.filterMap g)
    (passage : Passage operations calls) : calls.filterMap f = calls.filterMap g := by
  induction passage with
  | ended => rfl
  | idle h _ ih =>
    rw [List.filterMap_cons_none (idle h).1, List.filterMap_cons_none (idle h).2, ih]
  | spared _ ih => exact ih
  | visited visited _ ih => rw [List.filterMap_append, List.filterMap_append, visit visited, ih]

/-- The operations that a pass takes off the queue are those that it deletes. -/
theorem Passage.dequeued_eq (passage : Passage operations calls) :
    calls.filterMap Answered.dequeued? = calls.filterMap Answered.deleted? := by
  refine passage.filterMap_eq (fun h => ⟨h.effectless.dequeued, h.effectless.deleted⟩) ?_
  rintro ⟨id, kind, entity⟩ calls (_ | _) <;> cases kind <;> rfl

/-- The groups whose authorization a pass launches are those whose formation it announces. -/
theorem Passage.launched_eq (passage : Passage operations calls) :
    calls.filterMap Answered.launched? = calls.filterMap Answered.formed? := by
  refine passage.filterMap_eq (fun h => ⟨h.effectless.launched, h.effectless.formed⟩) ?_
  rintro ⟨id, kind, entity⟩ calls (_ | _) <;> cases kind <;> rfl

/-- A pass does not wait for the authorizations that it launches. -/
theorem Passage.started_eq (passage : Passage operations calls) :
    calls.filterMap Answered.started? = [] := by
  rw [passage.filterMap_eq (g := fun _ => (none : Option String))
    (fun h => ⟨h.effectless.started, rfl⟩) ?_]
  · exact List.filterMap_eq_nil_iff.2 fun _ _ => rfl
  · rintro ⟨id, kind, entity⟩ calls (_ | _) <;> cases kind <;> rfl

/-- A pass stores and queues nothing. -/
theorem Passage.adds_eq_false (passage : Passage operations calls) :
    ∀ answered ∈ calls, answered.adds = false := by
  intro answered made
  by_cases idle : answered.IsIdle
  · exact idle.effectless.adds
  · obtain ⟨⟨id, kind, entity⟩, -, calls', visit, made', -⟩ := passage.exists_visit made idle
    have none : calls'.all (!·.adds) = true := by
      cases visit <;> cases kind <;> rfl
    simpa using List.all_eq_true.1 none answered made'

/-- The announcement of an operation, with the answer to the deletion that follows. -/
def settling (served : Operation × Except Fault Unit) : List Answered :=
  [⟨.announceCompletion served.1.completion, ()⟩, ⟨.deletePending served.1.id, served.2⟩]

/-- A visit announces the operation and deletes it, or tries to. -/
theorem Visit.exists_settling (visit : Visit operation calls) :
    ∃ answer, calls.filter Answered.settles = settling (operation, answer) := by
  obtain ⟨id, kind, entity⟩ := operation
  cases visit with
  | kept _ _ fault => exact ⟨.error fault, by cases kind <;> rfl⟩
  | completed => exact ⟨.ok (), by cases kind <;> rfl⟩

/-- A pass announces and deletes operations in pairs, in their order and each at most once. -/
theorem Passage.exists_served (passage : Passage operations calls) :
    ∃ served : List (Operation × Except Fault Unit), (served.map (·.1)).Sublist operations ∧
      calls.filter Answered.settles = served.flatMap settling := by
  induction passage with
  | ended => exact ⟨[], List.nil_sublist _, rfl⟩
  | idle idle _ ih =>
    obtain ⟨served, sublist, heq⟩ := ih
    refine ⟨served, sublist, ?_⟩
    rw [List.filter_cons_of_neg (by simp [idle.effectless.settles]), heq]
  | spared _ ih =>
    obtain ⟨served, sublist, heq⟩ := ih
    exact ⟨served, sublist.cons _, heq⟩
  | visited visit _ ih =>
    obtain ⟨served, sublist, heq⟩ := ih
    obtain ⟨answer, settled⟩ := visit.exists_settling
    refine ⟨(_, answer) :: served, sublist.cons_cons _, ?_⟩
    rw [List.filter_append, settled, heq, List.flatMap_cons]

/-- An operation that a pass deletes was one of those to visit, and the pass completed it. -/
theorem Passage.completing_of_deleted (passage : Passage operations calls)
    (deleted : ⟨.deletePending id, .ok ()⟩ ∈ calls) :
    ∃ operation ∈ operations, operation.id = id ∧ ∃ status removed, status.done = true ∧
      completing operation status removed <:+: calls := by
  obtain ⟨⟨own, kind, entity⟩, mem, calls', visit, made, within⟩ :=
    passage.exists_visit deleted fun idle => idle
  have found := Answered.mem_filterMap_deleted.2 made
  cases visit with
  | kept => cases kind <;> cases found
  | completed status done removed =>
    have same : id = own := by
      cases kind <;> exact List.mem_singleton.1 found
    exact ⟨_, mem, same.symm, status, removed, done, within⟩

/-- A pass clears the identifier of a group before it launches the authorization. -/
theorem Passage.cleared_of_launched {group : String} (passage : Passage operations calls)
    (launched : ⟨.launchAuthorization group, ()⟩ ∈ calls) :
    ⟨.setPending group false, .ok ()⟩ ∈ calls := by
  obtain ⟨⟨own, kind, entity⟩, -, calls', visit, made, within⟩ :=
    passage.exists_visit launched fun idle => idle
  refine within.subset ?_
  have found := Answered.mem_filterMap_launched.2 made
  cases kind with
  | witnessAssignment => cases visit <;> cases found
  | groupFormation =>
    have same : group = entity := by
      cases visit <;> exact List.mem_singleton.1 found
    subst same
    cases visit <;> exact List.mem_cons_of_mem _ List.mem_cons_self

end Poll

end Feedkeeper
