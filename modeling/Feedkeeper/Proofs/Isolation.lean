import Feedkeeper.Proofs.Outside
import Feedkeeper.Proofs.Ownership
import Feedkeeper.Proofs.Roster
import Mathlib.Data.List.Perm.Subperm

/-!
# Operations do not affect each other

A pass over the queue in which the agent and the stores answer each question by what it is about
(`Poll.Replies`), while the gate is online and nothing is shut down. It makes the same calls for an
operation wherever this stands in the queue and whatever is queued with it (`Replies.visit`), so
the pass is one visit after another (`Replies.ensures_passOver`), and its tally and what it leaves
behind can be read off the visits (`Poll.Accounts`, `Replies.accounts`).

Hence operations that are removed from the queue, or put in another order, make no difference to
the others (`Poll.Isolates`, `Poll.pass_isolates`).
-/

namespace Feedkeeper

open Script

namespace Answered

/-- Whether the agent or a store refused what was asked of it. -/
def isRefused : Answered → Bool
  | ⟨.operationStatus _, .error _⟩ | ⟨.setPending .., .error _⟩ | ⟨.deletePending _, .error _⟩ =>
    true
  | _ => false

/-- Whether the agent was asked for the status of an operation. -/
def asksStatus : Answered → Bool
  | ⟨.operationStatus _, _⟩ => true
  | _ => false

/-- The identifier that the call cleared, if it did. -/
def cleared? : Answered → Option String
  | ⟨.setPending id false, .ok ()⟩ => some id
  | _ => none

/-- Whether the call marked an identifier as pending. -/
def marks : Answered → Bool
  | ⟨.setPending _ true, .ok ()⟩ => true
  | _ => false

end Answered

/-! ## Cleared identifiers -/

namespace Roster

variable {made : List Answered}

theorem get?_mark (r : Roster) (id other : String) :
    (r.mark id false).identifiers.get? other =
      if id = other then (r.identifiers.get? other).map .cleared else r.identifiers.get? other := by
  unfold mark
  by_cases h : id = other
  · subst h
    rw [if_pos rfl]
    split
    · rename_i none
      rw [none]
      rfl
    · rename_i identifier found
      rw [found]
      exact Table.get?_put_self _ _ _
  · rw [if_neg h]
    split
    · rfl
    · exact Table.get?_put_of_ne (Ne.symm h) _ _

/-- A call that marks nothing clears one identifier or none. -/
theorem get?_after {answered : Answered} (unmarked : answered.marks = false) (r : Roster)
    (id : String) : (calls.after r answered.call answered.answer).identifiers.get? id =
      if answered.cleared? = some id then (r.identifiers.get? id).map .cleared
      else r.identifiers.get? id := by
  obtain ⟨c, answer⟩ := answered
  change (r.changed c answer).identifiers.get? id = _
  cases c with
  | setPending other pending =>
    cases pending with
    | true =>
      cases answer with
      | error fault => rfl
      | ok _ => cases unmarked
    | false =>
      cases answer with
      | error fault => rfl
      | ok _ =>
        refine (r.get?_mark other id).trans ?_
        simp only [Answered.cleared?, Option.some.injEq]
  | savePending operation =>
    cases answer with
    | error fault => rfl
    | ok _ =>
      have same : (r.save operation).identifiers = r.identifiers := by
        unfold save
        split <;> rfl
      exact congrArg (·.get? id) same
  | deletePending other => cases answer <;> rfl
  | _ => rfl

/-- Calls that mark nothing clear the identifiers that they say. -/
theorem get?_replay (unmarked : ∀ answered ∈ made, Answered.marks answered = false) (r : Roster)
    (id : String) : (calls.replay r made).identifiers.get? id =
      if id ∈ made.filterMap Answered.cleared? then (r.identifiers.get? id).map .cleared
      else r.identifiers.get? id := by
  induction made generalizing r with
  | nil => rfl
  | cons answered made ih =>
    refine (ih (fun a h => unmarked a (List.mem_cons_of_mem _ h)) _).trans ?_
    rw [get?_after (unmarked answered List.mem_cons_self)]
    by_cases clears : answered.cleared? = some id
    · -- Clearing an identifier twice is clearing it once.
      rw [List.filterMap_cons_some clears, if_pos clears, if_pos List.mem_cons_self,
        Option.map_map]
      exact ite_self _
    · have same : id ∈ (answered :: made).filterMap Answered.cleared? ↔
          id ∈ made.filterMap Answered.cleared? := by
        simp only [List.mem_filterMap, List.mem_cons, exists_eq_or_imp, clears, false_or]
      rw [if_neg clears, if_congr same rfl rfl]

end Roster

namespace Poll

/-- The answers of the agent and the stores, each by what is asked about. -/
structure Replies where
  status : String → Except TransportFailure Operation.Status
  /-- The answer to clearing an identifier. -/
  cleared : String → Except Fault Unit
  /-- The answer to deleting an operation. -/
  deleted : String → Except Fault Unit

/-- The identifier of the operation is cleared, and its completion announced. -/
def clearing (operation : Operation) : List Answered :=
  ⟨.setPending operation.entity false, .ok ()⟩ ::
    (launching operation ++ [⟨.announceCompletion operation.completion, ()⟩])

/-- The tally after a visit with these calls. -/
def Tally.visited (tally : Tally) (calls : List Answered) : Tally :=
  { tally with
    checked := tally.checked + 1
    completed := tally.completed + if calls.any (·.dequeued?.isSome) then 1 else 0
    failed := tally.failed + if calls.any (·.isRefused) then 1 else 0 }

/-- Visits are counted, and so are those that complete and those that fail. -/
theorem Tally.foldl_visited (visits : List (List Answered)) (tally : Tally) :
    visits.foldl Tally.visited tally = { tally with
      checked := tally.checked + visits.length
      completed := tally.completed + visits.countP (·.any (·.dequeued?.isSome))
      failed := tally.failed + visits.countP (·.any (·.isRefused)) } := by
  induction visits generalizing tally with
  | nil => rfl
  | cons calls visits ih =>
    rw [List.foldl_cons, ih, visited, List.countP_cons, List.countP_cons, List.length_cons]
    simp only [Nat.add_assoc, Nat.add_comm, Nat.add_left_comm]

theorem Tally.visited_keeping (tally : Tally) (operation : Operation) (status : Operation.Status)
    (fault : Fault) : tally.visited (⟨.isShutDown, false⟩ :: keeping operation status fault) =
      { tally with checked := tally.checked + 1, failed := tally.failed + 1 } := by
  obtain ⟨id, kind, entity⟩ := operation
  cases kind <;> rfl

theorem Tally.visited_completing (tally : Tally) (operation : Operation)
    (status : Operation.Status) :
    tally.visited (⟨.isShutDown, false⟩ :: completing operation status true) =
      { tally with checked := tally.checked + 1, completed := tally.completed + 1 } := by
  obtain ⟨id, kind, entity⟩ := operation
  cases kind <;> rfl

/-- How a pass fares with an operation, by the calls that it makes for it. -/
inductive Fares (operation : Operation) : List Answered → Prop where
  | unreached (failure : TransportFailure) : Fares operation [⟨.isShutDown, false⟩,
      ⟨.operationStatus operation.id, .error failure⟩, ⟨.isOnline, true⟩, ⟨.reconnect, true⟩]
  | unfinished (status : Operation.Status) :
      Fares operation [⟨.isShutDown, false⟩, ⟨.operationStatus operation.id, .ok status⟩]
  | uncleared (status : Operation.Status) (fault : Fault) : Fares operation [⟨.isShutDown, false⟩,
      ⟨.operationStatus operation.id, .ok status⟩,
      ⟨.setPending operation.entity false, .error fault⟩]
  | kept (status : Operation.Status) (fault : Fault) :
      Fares operation (⟨.isShutDown, false⟩ :: keeping operation status fault)
  | completed (status : Operation.Status) :
      Fares operation (⟨.isShutDown, false⟩ :: completing operation status true)

namespace Fares

variable {operation : Operation} {calls : List Answered}

/-- An operation is completed if it was taken off the queue, and then it was deleted. -/
theorem dequeued_eq (fares : Fares operation calls) : calls.filterMap Answered.dequeued? =
    if calls.any (·.dequeued?.isSome) then [operation.id] else [] := by
  obtain ⟨id, kind, entity⟩ := operation
  cases fares <;> cases kind <;> rfl

theorem deleted_eq (fares : Fares operation calls) : calls.filterMap Answered.deleted? =
    if calls.any (·.dequeued?.isSome) then [operation.id] else [] := by
  obtain ⟨id, kind, entity⟩ := operation
  cases fares <;> cases kind <;> rfl

/-- No identifier is cleared but the operation's. -/
theorem cleared_subset (fares : Fares operation calls) :
    calls.filterMap Answered.cleared? ⊆ [operation.entity] := by
  obtain ⟨id, kind, entity⟩ := operation
  cases fares <;> cases kind <;> first | exact List.Subset.refl _ | exact List.nil_subset _

/-- Nothing is stored, queued or marked. -/
theorem removes (fares : Fares operation calls) :
    ∀ answered ∈ calls, answered.adds = false ∧ answered.marks = false := by
  have none : calls.all (fun answered => !answered.adds && !answered.marks) = true := by
    obtain ⟨id, kind, entity⟩ := operation
    cases fares <;> cases kind <;> rfl
  simpa using none

theorem countP_asksStatus (fares : Fares operation calls) :
    calls.countP Answered.asksStatus = 1 := by
  obtain ⟨id, kind, entity⟩ := operation
  cases fares <;> cases kind <;> rfl

/-- Where something is refused the operation is not completed. -/
theorem not_refused (fares : Fares operation calls)
    (completed : calls.any (·.dequeued?.isSome) = true) : calls.any (·.isRefused) = false := by
  obtain ⟨id, kind, entity⟩ := operation
  cases fares <;> cases kind <;> first | rfl | cases completed

end Fares

namespace Replies

/-- The answer to a call while the gate is online and nothing is shut down. -/
def answer (replies : Replies) (c : Call) (r : Roster) : c.Answer :=
  match c with
  | .operationStatus id => replies.status id
  | .setPending entity _ => replies.cleared entity
  | .deletePending id => replies.deleted id
  | .queued => r.queue.entries
  | .dequeue id => (r.queue.remove id).1
  | .isOnline => true
  | .isShutDown => false
  | .reconnect => true
  | c => ({} : Outside).obliging c

/-- Calls are answered by the replies. -/
def calls (replies : Replies) : Behavior Roster :=
  ⟨fun r c answer => answer = replies.answer c r, Roster.after⟩

/-- A pass in which calls are answered by the replies. -/
def pass (replies : Replies) (r : Roster) : Tally × Roster :=
  Poll.pass.run (fun c r => (replies.answer c r, r.after c (replies.answer c r))) r

/-- The calls that a pass makes for an operation. -/
def visit (replies : Replies) (operation : Operation) : List Answered :=
  ⟨.isShutDown, false⟩ ::
    match replies.status operation.id with
    | .error failure =>
      [⟨.operationStatus operation.id, .error failure⟩, ⟨.isOnline, true⟩, ⟨.reconnect, true⟩]
    | .ok status =>
      if status.done then
        match replies.cleared operation.entity, replies.deleted operation.id with
        | .error fault, _ => [⟨.operationStatus operation.id, .ok status⟩,
            ⟨.setPending operation.entity false, .error fault⟩]
        | .ok (), .error fault => keeping operation status fault
        | .ok (), .ok () => completing operation status true
      else [⟨.operationStatus operation.id, .ok status⟩]

/-- Whether a pass takes the operation off the queue. -/
def completes (replies : Replies) (operation : Operation) : Bool :=
  (replies.visit operation).any (·.dequeued?.isSome)

/-- Whether something that a pass asks for the operation is refused. -/
def fails (replies : Replies) (operation : Operation) : Bool :=
  (replies.visit operation).any (·.isRefused)

variable {replies : Replies} {r : Roster} {operation : Operation} {operations : List Operation}
  {tally : Tally}

theorem fares_visit (replies : Replies) (operation : Operation) :
    Fares operation (replies.visit operation) := by
  unfold visit
  split
  · exact .unreached _
  · split
    · split
      · exact .uncleared _ _
      · exact .kept _ _
      · exact .completed _
    · exact .unfinished _

/-! ## One visit after another -/

/-- From the announcement on, an operation is deleted and taken off the queue, or kept. -/
theorem ensures_announce (operation : Operation) (before : List Answered)
    {Q : Except Fault Unit → Roster → Prop}
    (queued : operation.id ∈ (Roster.calls.replay r before).queue.ids)
    (kept : ∀ fault error, replies.deleted operation.id = .error fault → Q (.error error)
      (Roster.calls.replay r (before ++ [⟨.announceCompletion operation.completion, ()⟩,
        ⟨.deletePending operation.id, .error fault⟩])))
    (removed : replies.deleted operation.id = .ok () → Q (.ok ())
      (Roster.calls.replay r (before ++ [⟨.announceCompletion operation.completion, ()⟩,
        ⟨.deletePending operation.id, .ok ()⟩, ⟨.dequeue operation.id, true⟩]))) :
    Ensures replies.calls (ExceptT.run do
      ExceptT.lift (ask (.announceCompletion operation.completion))
      within ("Failed to delete operation " ++ operation.id) (ask (.deletePending operation.id))
      let _ ← ExceptT.lift (ask (.dequeue operation.id))) Q (Roster.calls.replay r before) := by
  simp only [Behavior.replay_append] at kept removed
  generalize Roster.calls.replay r before = r' at *
  rintro _ rfl
  rintro (fault | ⟨⟩) deleted
  · exact kept fault _ deleted.symm
  · rintro _ rfl
    have found : r'.queue.contains operation.id = true :=
      Operation.Queue.contains_iff.2 queued
    have h := removed deleted.symm
    rw [← found] at h
    exact h

/-- Completing an operation fails to clear its identifier, or goes on to announce it. -/
theorem ensures_complete {Q : Except Fault Unit → Roster → Prop}
    (queued : operation.id ∈ r.queue.ids)
    (uncleared : ∀ fault error, replies.cleared operation.entity = .error fault →
      Q (.error error)
        (Roster.calls.replay r [⟨.setPending operation.entity false, .error fault⟩]))
    (kept : ∀ fault error, replies.cleared operation.entity = .ok () →
      replies.deleted operation.id = .error fault → Q (.error error)
        (Roster.calls.replay r (clearing operation ++
          [⟨.deletePending operation.id, .error fault⟩])))
    (removed : replies.cleared operation.entity = .ok () →
      replies.deleted operation.id = .ok () → Q (.ok ())
        (Roster.calls.replay r (clearing operation ++
          [⟨.deletePending operation.id, .ok ()⟩, ⟨.dequeue operation.id, true⟩]))) :
    Ensures replies.calls (complete operation).run Q r := by
  obtain ⟨id, kind, entity⟩ := operation
  rintro (fault | ⟨⟩) cleared
  · exact uncleared fault _ cleared.symm
  have still : id ∈ (r.mark entity false).queue.ids := by
    rwa [Roster.queue_mark]
  cases kind with
  | groupFormation =>
    rintro _ rfl
    exact ensures_announce ⟨id, .groupFormation, entity⟩
      [⟨.setPending entity false, .ok ()⟩, ⟨.launchAuthorization entity, ()⟩] still
      (fun fault error => kept fault error cleared.symm) (removed cleared.symm)
  | witnessAssignment =>
    exact ensures_announce ⟨id, .witnessAssignment, entity⟩ [⟨.setPending entity false, .ok ()⟩]
      still (fun fault error => kept fault error cleared.symm) (removed cleared.symm)

/-- A pass visits an operation, and then the rest of them. -/
theorem ensures_visit {rest : List Operation} {Q : Tally → Roster → Prop}
    (queued : operation.id ∈ r.queue.ids)
    (h : Ensures replies.calls (passOver rest (tally.visited (replies.visit operation))) Q
      (Roster.calls.replay r (replies.visit operation))) :
    Ensures replies.calls (passOver (operation :: rest) tally) Q r := by
  rw [passOver, ensures_ask_bind]
  rintro _ rfl
  change Ensures replies.calls (ask (.operationStatus operation.id) >>= _) Q _
  rw [ensures_ask_bind]
  rintro (failure | status) reported
  · replace reported : replies.status operation.id = .error failure := reported.symm
    rw [visit, reported] at h
    rintro _ rfl
    rintro _ rfl
    exact h
  · replace reported : replies.status operation.id = .ok status := reported.symm
    rw [visit, reported] at h
    dsimp only at h ⊢
    split
    · rename_i done
      rw [if_pos done] at h
      rw [ensures_bind]
      refine ensures_complete queued ?_ ?_ ?_
      · intro fault error cleared
        rw [cleared] at h
        exact h
      · intro fault error cleared deleted
        rw [cleared, deleted] at h
        dsimp only at h
        rw [Tally.visited_keeping] at h
        exact h
      · intro cleared deleted
        rw [cleared, deleted] at h
        dsimp only at h
        rw [Tally.visited_completing] at h
        exact h
    · rename_i unfinished
      rw [if_neg unfinished] at h
      exact h

/-- A pass over queued operations of different ids is one visit after another. -/
theorem ensures_passOver (queued : ∀ operation ∈ operations, operation.id ∈ r.queue.ids)
    (nodup : (operations.map (·.id)).Nodup) :
    Ensures replies.calls (passOver operations tally) (fun tally' r' =>
      tally' = (operations.map replies.visit).foldl Tally.visited tally ∧
        r' = Roster.calls.replay r (operations.flatMap replies.visit)) r := by
  induction operations generalizing r tally with
  | nil => exact ⟨rfl, rfl⟩
  | cons operation rest ih =>
    rw [List.map_cons, List.nodup_cons] at nodup
    refine ensures_visit (queued _ List.mem_cons_self) ?_
    refine (ih (fun other mem => ?_) nodup.2).mono fun tally' r' ⟨tallied, replayed⟩ => ?_
    · -- The visit takes no operation with another id off the queue.
      obtain ⟨entry, there, same⟩ := List.mem_map.1 (queued other (List.mem_cons_of_mem _ mem))
      have others : other.id ≠ operation.id := fun h => nodup.1 (h ▸ List.mem_map_of_mem mem)
      refine List.mem_map.2 ⟨entry, ?_, same⟩
      rw [Roster.entries_replay (fun a h => ((fares_visit replies operation).removes a h).1),
        (fares_visit replies operation).dequeued_eq, List.mem_filter, same]
      refine ⟨there, ?_⟩
      split
      · simpa using others
      · rfl
    · rw [List.flatMap_cons, Roster.calls.replay_append]
      exact ⟨tallied, replayed⟩

/-- The calls of a pass over a queue with these operations. -/
def made (replies : Replies) (operations : List Operation) : List Answered :=
  ⟨.isOnline, true⟩ :: ⟨.queued, operations⟩ :: operations.flatMap replies.visit

theorem ensures_pass (nodup : r.queue.ids.Nodup) : Ensures replies.calls Poll.pass (fun tally r' =>
    tally = (r.queue.entries.map replies.visit).foldl Tally.visited {} ∧
      r' = Roster.calls.replay r (replies.made r.queue.entries)) r := by
  rintro _ rfl
  rintro _ rfl
  exact ensures_passOver (fun operation mem => List.mem_map_of_mem mem) nodup

/-- The pass makes the calls of the visits, and counts them. -/
theorem pass_eq (nodup : r.queue.ids.Nodup) : replies.pass r =
    ((r.queue.entries.map replies.visit).foldl Tally.visited {},
      Roster.calls.replay r (replies.made r.queue.entries)) := by
  have ends := ends_run (b := replies.calls) replies.answer (fun _ _ => rfl) Poll.pass r
  obtain ⟨tallied, replayed⟩ := (ensures_pass nodup).ends ends
  exact Prod.ext tallied replayed

/-! ## What the visits change -/

theorem removes_made : ∀ answered ∈ replies.made operations,
    answered.adds = false ∧ answered.marks = false := by
  refine List.forall_mem_cons.2 ⟨⟨rfl, rfl⟩, List.forall_mem_cons.2 ⟨⟨rfl, rfl⟩, ?_⟩⟩
  intro answered mem
  obtain ⟨operation, -, mem⟩ := List.mem_flatMap.1 mem
  exact (fares_visit replies operation).removes answered mem

/-- What every visit shows of a completed operation, the pass shows of all of them. -/
theorem filterMap_made {g : Answered → Option String}
    (idle : g ⟨.isOnline, true⟩ = none ∧ g ⟨.queued, operations⟩ = none)
    (visit : ∀ operation, (replies.visit operation).filterMap g =
      if replies.completes operation then [operation.id] else []) :
    (replies.made operations).filterMap g = (operations.filter replies.completes).map (·.id) := by
  rw [made, List.filterMap_cons_none idle.1, List.filterMap_cons_none idle.2]
  clear idle
  induction operations with
  | nil => rfl
  | cons operation rest ih =>
    rw [List.flatMap_cons, List.filterMap_append, ih, visit, List.filter_cons]
    split <;> rfl

theorem dequeued_made : (replies.made operations).filterMap Answered.dequeued? =
    (operations.filter replies.completes).map (·.id) :=
  filterMap_made ⟨rfl, rfl⟩ fun operation => (fares_visit replies operation).dequeued_eq

theorem deleted_made : (replies.made operations).filterMap Answered.deleted? =
    (operations.filter replies.completes).map (·.id) :=
  filterMap_made ⟨rfl, rfl⟩ fun operation => (fares_visit replies operation).deleted_eq

/-- The agent is asked for the status of each operation once. -/
theorem countP_asksStatus_made :
    (replies.made operations).countP Answered.asksStatus = operations.length := by
  change (operations.flatMap replies.visit).countP Answered.asksStatus = operations.length
  induction operations with
  | nil => rfl
  | cons operation rest ih =>
    rw [List.flatMap_cons, List.countP_append, ih,
      (fares_visit replies operation).countP_asksStatus, List.length_cons, Nat.add_comm]

/-- An identifier that is cleared is cleared for one of the operations, which is about it. -/
theorem mem_cleared_made {id : String} :
    id ∈ (replies.made operations).filterMap Answered.cleared? ↔
      ∃ operation ∈ operations, operation.entity = id ∧
        id ∈ (replies.visit operation).filterMap Answered.cleared? := by
  rw [made, List.filterMap_cons_none rfl, List.filterMap_cons_none rfl, List.filterMap_flatMap,
    List.mem_flatMap]
  refine exists_congr fun operation => and_congr_right fun _ => ?_
  refine ⟨fun mem => ⟨?_, mem⟩, And.right⟩
  exact (List.mem_singleton.1 ((fares_visit replies operation).cleared_subset mem)).symm

end Replies

/-! ## Isolation -/

/-- What a pass comes to, and what it leaves of the queue. -/
structure Accounts (replies : Replies) (r : Roster) (tally : Tally) (r' : Roster) : Prop where
  /-- The pass is one visit after another, in the order of the queue. -/
  trail : r'.trail = r.trail ++ replies.made r.queue.entries
  online : tally.offline = false
  checked : tally.checked = r.queue.entries.length
  asked : r'.trail.countP Answered.asksStatus =
    r.trail.countP Answered.asksStatus + tally.checked
  completed : tally.completed = r.queue.entries.countP replies.completes
  failed : tally.failed = r.queue.entries.countP replies.fails
  within : tally.completed + tally.failed ≤ tally.checked
  /-- What is completed is taken off the queue, and the others keep their order. -/
  queued : r'.queue.entries = r.queue.entries.filter fun operation => !replies.completes operation
  left : tally.completed + r'.queue.entries.length = r.queue.entries.length

/-- After a pass over the whole queue and one over a part of its operations only, these are alike,
and so is all that the operations left out are not about. -/
structure Isolates (replies : Replies) (r : Roster) (part : List Operation) (r₁ r₂ : Roster) :
    Prop where
  /-- The same calls are made for each of them, which tell whether it is completed or failed on. -/
  visited : ∀ operation ∈ part,
    replies.visit operation <:+: r₁.trail ∧ replies.visit operation <:+: r₂.trail
  queued : ∀ operation ∈ part, operation ∈ r₁.queue.entries ↔ operation ∈ r₂.queue.entries
  stored : ∀ id, (∀ operation ∈ r.queue.entries, operation.id = id → operation ∈ part) →
    r₁.pending.filter (·.id == id) = r₂.pending.filter (·.id == id)
  identifiers : ∀ id, (∀ operation ∈ r.queue.entries, operation.entity = id → operation ∈ part) →
    r₁.identifiers.get? id = r₂.identifiers.get? id

variable {replies : Replies} {r : Roster}

namespace Replies

/-- Of a queue without repeated ids the completed operations are taken off. -/
theorem entries_replay_made (replies : Replies) (nodup : r.queue.ids.Nodup) :
    (Roster.calls.replay r (replies.made r.queue.entries)).queue.entries =
      r.queue.entries.filter fun operation => !replies.completes operation := by
  rw [Roster.entries_replay fun answered mem => (removes_made answered mem).1, dequeued_made]
  refine List.filter_congr fun operation mem => congrArg Bool.not (Bool.eq_iff_iff.2 ?_)
  rw [List.contains_iff_mem, List.mem_map]
  constructor
  · rintro ⟨other, completed, same⟩
    rw [List.mem_filter] at completed
    obtain rfl := List.inj_on_of_nodup_map nodup completed.1 mem same
    exact completed.2
  · exact fun completes => ⟨operation, List.mem_filter.2 ⟨mem, completes⟩, rfl⟩

/-- No operation is both completed and failed on. -/
theorem countP_fails_le (replies : Replies) (operations : List Operation) :
    operations.countP replies.fails ≤
      operations.countP fun operation => !replies.completes operation := by
  refine List.countP_mono_left fun operation _ fails => ?_
  cases completes : replies.completes operation with
  | false => rfl
  | true =>
    have unrefused : replies.fails operation = false :=
      (fares_visit replies operation).not_refused completes
    rw [unrefused] at fails
    cases fails

theorem accounts (nodup : r.queue.ids.Nodup) :
    Accounts replies r (replies.pass r).1 (replies.pass r).2 := by
  have total : r.queue.entries.length = r.queue.entries.countP replies.completes +
      r.queue.entries.countP fun operation => !replies.completes operation := by
    simpa using List.length_eq_countP_add_countP replies.completes (l := r.queue.entries)
  have exclusive := countP_fails_le replies r.queue.entries
  have trail := Roster.trail_replay r (replies.made r.queue.entries)
  have queued := entries_replay_made replies nodup
  rw [pass_eq nodup, Tally.foldl_visited, List.length_map, List.countP_map, List.countP_map,
    Nat.zero_add, Nat.zero_add, Nat.zero_add]
  change Accounts replies r ⟨false, r.queue.entries.length,
    r.queue.entries.countP replies.completes, r.queue.entries.countP replies.fails⟩ _
  refine ⟨trail, rfl, rfl, ?_, rfl, rfl, by dsimp only; omega, queued, ?_⟩
  · rw [trail, List.countP_append, countP_asksStatus_made]
  · rw [queued, ← List.countP_eq_length_filter]
    exact total.symm

theorem visit_infix_made {operation : Operation} {operations : List Operation}
    (mem : operation ∈ operations) (before : List Answered) :
    replies.visit operation <:+: before ++ replies.made operations := by
  obtain ⟨first, last, rfl⟩ := List.append_of_mem mem
  have within : replies.visit operation <:+:
      (first ++ operation :: last).flatMap replies.visit := by
    rw [List.flatMap_append, List.flatMap_cons, ← List.append_assoc]
    exact List.infix_append _ _ _
  calc replies.visit operation
    _ <:+: (first ++ operation :: last).flatMap replies.visit := within
    _ <:+: replies.made (first ++ operation :: last) := (List.suffix_append [_, _] _).isInfix
    _ <:+: before ++ replies.made (first ++ operation :: last) :=
      (List.suffix_append before _).isInfix

/-- An operation with the id is deleted if and only if one that is queued is completed. -/
theorem mem_deleted_made {operations : List Operation} {id : String} :
    id ∈ (replies.made operations).filterMap Answered.deleted? ↔
      ∃ operation ∈ operations, operation.id = id ∧ replies.completes operation = true := by
  rw [deleted_made, List.mem_map]
  exact exists_congr fun operation => by rw [List.mem_filter, and_assoc, and_comm (b := _ = id)]

/-- What holds for one of the operations holds for one of a part that has all those with `p`. -/
theorem exists_mem_congr {p q : Operation → Prop} {all part : List Operation} (fewer : part ⊆ all)
    (whole : ∀ operation ∈ all, p operation → operation ∈ part) :
    (∃ operation ∈ all, p operation ∧ q operation) ↔
      ∃ operation ∈ part, p operation ∧ q operation := by
  constructor
  · rintro ⟨operation, mem, hp, hq⟩
    exact ⟨operation, whole operation mem hp, hp, hq⟩
  · rintro ⟨operation, mem, h⟩
    exact ⟨operation, fewer mem, h⟩

/-- The operations left out make no difference. -/
theorem isolates {part : List Operation} (nodup : r.queue.ids.Nodup)
    (nodup' : (part.map (·.id)).Nodup) (fewer : part ⊆ r.queue.entries) :
    Isolates replies r part (replies.pass r).2 (replies.pass { r with queue := ⟨part⟩ }).2 := by
  rw [pass_eq nodup, pass_eq (r := { r with queue := ⟨part⟩ }) nodup']
  refine ⟨fun operation mem => ?_, fun operation mem => ?_, fun id all => ?_, fun id all => ?_⟩
  · rw [Roster.trail_replay, Roster.trail_replay]
    exact ⟨visit_infix_made (fewer mem) _, visit_infix_made mem _⟩
  · rw [entries_replay_made replies nodup,
      entries_replay_made (r := { r with queue := ⟨part⟩ }) replies nodup',
      List.mem_filter, List.mem_filter]
    exact and_congr_left fun _ => iff_of_true (fewer mem) mem
  · have same : id ∈ (replies.made r.queue.entries).filterMap Answered.deleted? ↔
        id ∈ (replies.made part).filterMap Answered.deleted? :=
      mem_deleted_made.trans ((exists_mem_congr fewer all).trans mem_deleted_made.symm)
    rw [Roster.pending_replay fun answered mem => (removes_made answered mem).1,
      Roster.pending_replay fun answered mem => (removes_made answered mem).1,
      List.filter_filter, List.filter_filter]
    refine List.filter_congr fun operation _ => ?_
    by_cases named : operation.id = id
    · have alike : ((replies.made r.queue.entries).filterMap Answered.deleted?).contains
          operation.id = ((replies.made part).filterMap Answered.deleted?).contains
            operation.id := by
        rw [Bool.eq_iff_iff, List.contains_iff_mem, List.contains_iff_mem, named]
        exact same
      rw [alike]
    · rw [beq_eq_false_iff_ne.2 named, Bool.false_and, Bool.false_and]
  · have same : id ∈ (replies.made r.queue.entries).filterMap Answered.cleared? ↔
        id ∈ (replies.made part).filterMap Answered.cleared? :=
      mem_cleared_made.trans ((exists_mem_congr fewer all).trans mem_cleared_made.symm)
    rw [Roster.get?_replay fun answered mem => (removes_made answered mem).2,
      Roster.get?_replay fun answered mem => (removes_made answered mem).2]
    exact if_congr same rfl rfl

end Replies

/-- **A pass isolates operations from each other.** Its tally and what is left of the queue are
those of the operations one by one, and a pass over a part of the operations only, in any order,
comes to the same for these, and for all that the others are not about. -/
theorem pass_isolates (replies : Replies) (r : Roster) (nodup : r.queue.ids.Nodup) :
    Accounts replies r (replies.pass r).1 (replies.pass r).2 ∧
    ∀ part, part.Subperm r.queue.entries →
      Accounts replies { r with queue := ⟨part⟩ } (replies.pass { r with queue := ⟨part⟩ }).1
        (replies.pass { r with queue := ⟨part⟩ }).2 ∧
      Isolates replies r part (replies.pass r).2 (replies.pass { r with queue := ⟨part⟩ }).2 := by
  refine ⟨Replies.accounts nodup, fun part fewer => ?_⟩
  have nodup' : (part.map (·.id)).Nodup := by
    obtain ⟨ordered, perm, sublist⟩ := fewer
    exact (perm.map _).nodup_iff.1 (nodup.sublist (sublist.map _))
  exact ⟨Replies.accounts (r := { r with queue := ⟨part⟩ }) nodup',
    Replies.isolates nodup nodup' fewer.subset⟩

/-! ### Two operations on one identifier -/

/-- A group that is formed while witnesses are assigned to it, and an assignment elsewhere. -/
def shared : List Operation :=
  [.ofEntity .groupFormation "E", .ofEntity .witnessAssignment "E",
    .ofEntity .witnessAssignment "F"]

/-- The operations on `E` are finished, but the assignment cannot be deleted, and the agent cannot
be asked about `F`. -/
def sharedReplies : Replies where
  status id := if id = "witness.F" then .error ⟨"unreachable"⟩ else .ok ⟨id, true⟩
  cleared _ := .ok ()
  deleted id := if id = "witness.E" then .error ⟨"locked", []⟩ else .ok ()

/-- The stores and the queue with these operations. -/
def sharedRoster : Roster :=
  { pending := shared, queue := ⟨shared⟩,
    identifiers := ⟨[("E", ⟨"E", "team", true, []⟩), ("F", ⟨"F", "alice", true, []⟩)]⟩ }

/-- Without the group, and in the opposite order, the assignments fare as they do with it. -/
theorem pass_isolates_shared :
    sharedRoster.queue.ids.Nodup ∧
    (sharedReplies.pass sharedRoster).1 = ⟨false, 3, 1, 2⟩ ∧
    Isolates sharedReplies sharedRoster (shared.drop 1) (sharedReplies.pass sharedRoster).2
      (sharedReplies.pass { sharedRoster with queue := ⟨shared.drop 1⟩ }).2 ∧
    Isolates sharedReplies sharedRoster shared.reverse (sharedReplies.pass sharedRoster).2
      (sharedReplies.pass { sharedRoster with queue := ⟨shared.reverse⟩ }).2 := by
  have nodup : sharedRoster.queue.ids.Nodup := by decide
  have isolates := (pass_isolates sharedReplies sharedRoster nodup).2
  exact ⟨nodup, rfl, (isolates _ (List.drop_sublist 1 shared).subperm).2,
    (isolates _ (List.reverse_perm shared).subperm).2⟩

end Poll

end Feedkeeper
