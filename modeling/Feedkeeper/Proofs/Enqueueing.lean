import Feedkeeper.Proofs.Roster

/-!
# Enqueueing during a pass

While a pass is running, others may queue and track operations. What happens then is an interleaving
of the calls of the pass with those of the others (`Meanwhile`) : what the application asks for from
within an announcement stands right behind it. The others only add to the queue, and the pass only
takes off it what it completed, so the rest stays in front (`Roster.prefix_replay`).

The pass takes an operation off the queue by its id, some calls after it announced it. In between
(`Poll.Leaves`) the id is still queued, so that nothing comes of queueing an operation with it, and
is taken off nevertheless. An operation that is queued at any other point of the pass is still
queued at its end, or is announced after that point (`queued_meanwhile`). What is queued while its
id leaves is lost : `lost_while_leaving` is a pass that loses an operation which its own
announcement made the application queue again.
-/

namespace Feedkeeper

namespace Poll

variable {operation : Operation} {operations : List Operation} {before after calls : List Answered}
  {id : String} {removed : Bool}

/-! ## The points of a pass -/

/-- What a pass has left to do at a point : the visits that are still to come, and if the point is
within a visit, the rest of that. -/
inductive Point (operations : List Operation) (before : List Answered) : List Answered → Prop where
  | between {later : List Operation} {after : List Answered} (some : later ⊆ operations)
      (passage : Passage later after) : Point operations before after
  | within {operation : Operation} {later : List Operation} {first second rest : List Answered}
      (mem : operation ∈ operations) (visit : Visit operation (first ++ second))
      (suffix : first <:+ before) (some : later ⊆ operations) (passage : Passage later rest) :
      Point operations before (second ++ rest)

theorem Point.mono {operations' : List Operation} {before' : List Answered}
    (point : Point operations before after) (some : operations ⊆ operations')
    (suffix : before <:+ before') : Point operations' before' after := by
  cases point with
  | between few passage => exact .between (List.Subset.trans few some) passage
  | within mem visit within few passage =>
    exact .within (some mem) visit (within.trans suffix) (List.Subset.trans few some) passage

/-- Wherever the calls of a pass are parted, there is a point of it. -/
theorem Passage.point (passage : Passage operations (before ++ after)) :
    Point operations before after := by
  generalize heq : before ++ after = calls at passage
  induction passage generalizing before with
  | ended operations =>
    obtain ⟨-, rfl⟩ := List.append_eq_nil_iff.1 heq
    exact .between (List.Subset.refl _) (.ended operations)
  | idle idle passage ih =>
    rcases before with _ | ⟨answered, before⟩
    · obtain rfl : after = _ := heq
      exact .between (List.Subset.refl _) (.idle idle passage)
    · have point := ih (List.cons.inj heq).2
      exact point.mono (List.Subset.refl _) (List.suffix_cons _ _)
  | spared _ ih => exact (ih heq).mono (List.subset_cons_self _ _) (List.suffix_refl _)
  | visited visit passage ih =>
    rcases List.append_eq_append_iff.1 heq with ⟨second, rfl, rfl⟩ | ⟨middle, rfl, split⟩
    · exact .within List.mem_cons_self visit (List.suffix_refl _) (List.subset_cons_self _ _)
        passage
    · exact (ih split.symm).mono (List.subset_cons_self _ _) (List.suffix_append _ _)

/-- A visit that takes an operation off the queue completes it. -/
theorem Visit.eq_completing (visit : Visit operation calls)
    (dequeued : ⟨.dequeue id, removed⟩ ∈ calls) :
    operation.id = id ∧ ∃ status, status.done = true ∧
      calls = completing operation status removed := by
  obtain ⟨own, kind, entity⟩ := operation
  cases visit with
  | kept => cases kind <;> simp [keeping, announcing, launching] at dequeued
  | completed status done removed' =>
    obtain ⟨rfl, rfl⟩ : id = own ∧ removed = removed' := by
      cases kind <;> simpa [completing, announcing, launching] using dequeued
    exact ⟨rfl, status, done, rfl⟩

/-- The operation is announced after the point, in a visit that completes it. The visit may have
begun before. -/
def Announces (operation : Operation) (before after : List Answered) : Prop :=
  ∃ status removed first second, status.done = true ∧
    completing operation status removed = first ++ second ∧ first <:+ before ∧ second <:+: after ∧
    ⟨.announceCompletion operation.completion, ()⟩ ∈ second

/-- The point is within a visit that has announced the operation, and is yet to take it off the
queue. -/
def Leaves (operation : Operation) (before after : List Answered) : Prop :=
  ∃ status removed first second, status.done = true ∧
    completing operation status removed = first ++ second ∧ first <:+ before ∧ second <+: after ∧
    ⟨.announceCompletion operation.completion, ()⟩ ∈ first ∧
    ⟨.dequeue operation.id, removed⟩ ∈ second

theorem announcement_mem_completing (operation : Operation) (status : Operation.Status)
    (removed : Bool) : ⟨.announceCompletion operation.completion, ()⟩ ∈
      completing operation status removed := by
  simp [completing, announcing]

/-- An operation that a pass takes off the queue it announces. -/
theorem Passage.exists_announces (passage : Passage operations calls)
    (dequeued : ⟨.dequeue id, removed⟩ ∈ calls) (before : List Answered) :
    ∃ operation ∈ operations, operation.id = id ∧ Announces operation before calls := by
  obtain ⟨operation, mem, calls', visit, made, within⟩ :=
    passage.exists_visit dequeued fun idle => idle
  obtain ⟨same, status, done, rfl⟩ := visit.eq_completing made
  exact ⟨operation, mem, same, status, removed, [], _, done, rfl, List.nil_suffix, within,
    announcement_mem_completing operation status removed⟩

/-- An operation that is yet to be taken off the queue is yet to be announced, or leaves. -/
theorem Point.announces_or_leaves (point : Point operations before after)
    (dequeued : ⟨.dequeue id, removed⟩ ∈ after) :
    ∃ operation ∈ operations, operation.id = id ∧
      (Announces operation before after ∨ Leaves operation before after) := by
  cases point with
  | between some passage =>
    obtain ⟨operation, mem, same, announces⟩ := passage.exists_announces dequeued before
    exact ⟨operation, some mem, same, Or.inl announces⟩
  | @within operation later first second rest mem visit suffix some passage =>
    rcases List.mem_append.1 dequeued with made | made
    · obtain ⟨rfl, status, done, block⟩ := visit.eq_completing (List.mem_append_right _ made)
      have announced := announcement_mem_completing operation status removed
      rw [← block] at announced
      refine ⟨operation, mem, rfl, ?_⟩
      rcases List.mem_append.1 announced with announced | announced
      · exact Or.inr ⟨status, removed, first, second, done, block.symm, suffix,
          List.prefix_append _ _, announced, made⟩
      · exact Or.inl ⟨status, removed, first, second, done, block.symm, suffix,
          (List.prefix_append _ _).isInfix, announced⟩
    · obtain ⟨operation, mem, same, status, removed, first, others, done, block, within, later,
        announced⟩ := passage.exists_announces made before
      exact ⟨operation, some mem, same, Or.inl ⟨status, removed, first, others, done, block,
        within, later.trans (List.suffix_append _ _).isInfix, announced⟩⟩

end Poll

/-! ## What others do meanwhile -/

/-- Who makes a call while a pass is running. -/
inductive Party where
  | pass
  | request (n : Nat)
  deriving DecidableEq, Repr

/-- What others may ask of a poller while a pass is running. -/
inductive Request where
  | enqueue (operation : Operation)
  | track (operation : Operation)
  deriving DecidableEq, Repr

namespace Request

open Script (ask)

/-- The operation that is to be watched. -/
def operation : Request → Operation
  | enqueue operation | track operation => operation

/-- What is done on the request. -/
def script : Request → Script (Except Fault Unit)
  | enqueue operation => do
    let _ ← ask (.enqueue operation)
    return .ok ()
  | track operation => (Poll.track operation).run

end Request

/-- The calls of a party among those of all. -/
def callsOf (party : Party) (all : List (Party × Answered)) : List Answered :=
  (all.filter (·.1 == party)).map (·.2)

/-- The calls lead from the first state to the second. They are those of a pass from its beginning
to its end, and calls made on requests, which may have begun before the pass and may go on after
it. -/
structure Meanwhile (requests : Nat → Request) (r : Roster) (all : List (Party × Answered))
    (r' : Roster) : Prop where
  pass : ∃ tally, Script.Traces Poll.pass (callsOf .pass all) (.done tally)
  requests : ∀ n, ∃ earlier rest,
    Script.Traces (requests n).script (earlier ++ callsOf (.request n) all) rest
  allowed : Roster.calls.AllowsAll r (all.map (·.2))
  replay : Roster.calls.replay r (all.map (·.2)) = r'

/-- The operation was queued before, or is that of a request. -/
def Watched (requests : Nat → Request) (r : Roster) (operation : Operation) : Prop :=
  operation ∈ r.queue.entries ∨ ∃ n, operation = (requests n).operation

section

open Script

variable {requests : Nat → Request} {r r' : Roster} {all before after : List (Party × Answered)}
  {answered : Answered} {n : Nat} {id : String}

theorem callsOf_append (party : Party) (first second : List (Party × Answered)) :
    callsOf party (first ++ second) = callsOf party first ++ callsOf party second := by
  rw [callsOf, List.filter_append, List.map_append]
  rfl

theorem mem_callsOf {party : Party} : answered ∈ callsOf party all ↔ (party, answered) ∈ all := by
  simp [callsOf]

/-- On a request its operation is stored, if at all, and then queued. -/
theorem Request.confined_script (request : Request) : request.script.Confined fun answered =>
    (∃ answer, answered = ⟨.savePending request.operation, answer⟩) ∨
      ∃ added, answered = ⟨.enqueue request.operation, added⟩ := by
  cases request with
  | enqueue operation => exact fun added => ⟨Or.inr ⟨added, rfl⟩, trivial⟩
  | track operation =>
    refine fun answer => ⟨Or.inl ⟨answer, rfl⟩, ?_⟩
    cases answer with
    | error fault => trivial
    | ok _ => exact fun added => ⟨Or.inr ⟨added, rfl⟩, trivial⟩

/-- A request that succeeded has queued its operation last. -/
theorem Request.exists_last {request : Request} {calls : List Answered}
    (traces : Traces request.script calls (.done (.ok ()))) :
    ∃ first added, calls = first ++ [⟨.enqueue request.operation, added⟩] := by
  cases request with
  | enqueue operation =>
    obtain ⟨-, heq⟩ | ⟨added, calls, rfl, left⟩ := traces_call.1 traces
    · cases heq
    · obtain ⟨rfl, -⟩ := traces_done.1 left
      exact ⟨[], added, rfl⟩
  | track operation =>
    obtain ⟨fault, error, -, heq⟩ | ⟨added, rfl, -⟩ := Poll.records_track operation _ _ traces
    · cases heq
    · exact ⟨[_], added, rfl⟩

/-- The calls of others store and queue their operations. -/
theorem Meanwhile.of_request (meanwhile : Meanwhile requests r all r')
    (made : (.request n, answered) ∈ all) :
    (∃ answer, answered = ⟨.savePending (requests n).operation, answer⟩) ∨
      ∃ added, answered = ⟨.enqueue (requests n).operation, added⟩ := by
  obtain ⟨earlier, rest, traces⟩ := meanwhile.requests n
  exact traces.confined (requests n).confined_script answered
    (List.mem_append_right _ (mem_callsOf.2 made))

/-- Calls that add nothing are calls of the pass. -/
theorem Meanwhile.mem_pass (meanwhile : Meanwhile requests r all r') (late : after <:+ all)
    (made : answered ∈ after.map (·.2)) (removes : answered.adds = false) :
    answered ∈ callsOf .pass after := by
  obtain ⟨⟨party, _⟩, mem, rfl⟩ := List.mem_map.1 made
  cases party with
  | pass => exact mem_callsOf.2 mem
  | request n =>
    obtain ⟨_, rfl⟩ | ⟨_, rfl⟩ := meanwhile.of_request (late.subset mem) <;> cases removes

/-- What is queued at a point was queued before, or is the operation of a request. -/
theorem Meanwhile.watched {operation : Operation} (meanwhile : Meanwhile requests r all r')
    (early : before <+: all)
    (queued : operation ∈ (Roster.calls.replay r (before.map (·.2))).queue.entries) :
    Watched requests r operation := by
  refine (List.mem_append.1 (Roster.entries_replay_subset _ _ queued)).imp_right fun added => ?_
  obtain ⟨answered, made, added⟩ := List.mem_flatMap.1 added
  obtain ⟨⟨party, _⟩, mem, rfl⟩ := List.mem_map.1 made
  cases party with
  | pass =>
    obtain ⟨tally, traces⟩ := meanwhile.pass
    obtain ⟨operations, passage⟩ := (Poll.records_pass _ _ traces).exists_passage
    have removes := passage.adds_eq_false _ (mem_callsOf.2 (early.subset mem))
    rw [Answered.enqueued_eq_nil removes] at added
    cases added
  | request n =>
    obtain ⟨_, rfl⟩ | ⟨_, rfl⟩ := meanwhile.of_request (early.subset mem)
    · cases added
    · exact ⟨n, List.mem_singleton.1 added⟩

/-- The pass visits operations that were queued before, or are those of requests. -/
theorem Meanwhile.exists_passage (meanwhile : Meanwhile requests r all r') :
    ∃ operations, (∀ operation ∈ operations, Watched requests r operation) ∧
      Poll.Passage operations (callsOf .pass all) := by
  obtain ⟨tally, traces⟩ := meanwhile.pass
  have passes := Poll.records_pass _ _ traces
  generalize hown : callsOf .pass all = own at passes
  cases passes with
  | offline => exact ⟨[], by simp, .idle trivial (.ended [])⟩
  | online operations passage =>
    refine ⟨operations, fun operation mem => ?_, .idle trivial (.idle trivial passage)⟩
    have asked : (.pass, ⟨.queued, operations⟩) ∈ all :=
      mem_callsOf.1 (hown ▸ List.mem_cons_of_mem _ List.mem_cons_self)
    obtain ⟨before, after, rfl⟩ := List.append_of_mem asked
    have allowed := meanwhile.allowed
    rw [List.map_append, Behavior.allowsAll_append] at allowed
    obtain rfl : operations = _ := allowed.2.1
    exact meanwhile.watched (List.prefix_append _ _) mem

/-- A request that returns without an error during the pass has queued its operation. -/
theorem exists_enqueue {earlier : List Answered}
    (traces : Traces (requests n).script (earlier ++ callsOf (.request n) all) (.done (.ok ())))
    (during : callsOf (.request n) all ≠ []) :
    ∃ added, (.request n, ⟨.enqueue (requests n).operation, added⟩) ∈ all := by
  obtain ⟨first, added, heq⟩ := Request.exists_last traces
  obtain ⟨own, last, hown⟩ := (List.eq_nil_or_concat _).resolve_left during
  rw [hown, List.concat_eq_append, ← List.append_assoc] at heq
  obtain ⟨-, heq⟩ := List.append_inj' heq rfl
  refine ⟨added, mem_callsOf.1 ?_⟩
  rw [hown, List.concat_eq_append, heq]
  exact List.mem_append_right _ List.mem_cons_self

/-- An operation stays queued once it is, unless the pass takes it off the queue. -/
theorem Meanwhile.mem_ids_or_dequeue {operation : Operation}
    (meanwhile : Meanwhile requests r (before ++ (.request n, answered) :: after) r')
    (queued : operation ∈ answered.enqueued) : operation.id ∈ r'.queue.ids ∨
      ∃ removed, ⟨.dequeue operation.id, removed⟩ ∈ callsOf .pass after := by
  obtain ⟨_, rfl⟩ | ⟨added, rfl⟩ :=
    meanwhile.of_request (List.mem_append_right _ List.mem_cons_self)
  · cases queued
  obtain rfl := List.mem_singleton.1 queued
  by_cases dequeued : (requests n).operation.id ∈ (after.map (·.2)).filterMap Answered.dequeued?
  · obtain ⟨removed, made⟩ := Answered.mem_filterMap_dequeued.1 dequeued
    exact Or.inr ⟨removed, meanwhile.mem_pass
      ((List.suffix_cons _ _).trans (List.suffix_append _ _)) made rfl⟩
  · have replay := meanwhile.replay
    rw [List.map_append, Behavior.replay_append, List.map_cons, ← List.singleton_append,
      Behavior.replay_append] at replay
    have pushed := Operation.Queue.mem_ids_push
      (Roster.calls.replay r (before.map (·.2))).queue (requests n).operation
    obtain ⟨operation, mem, same⟩ := List.mem_map.1 pushed
    refine Or.inl (List.mem_map.2 ⟨operation, ?_, same⟩)
    rw [← replay]
    refine (Roster.prefix_replay _ _).subset (List.mem_filter.2 ⟨mem, ?_⟩)
    simpa [same] using dequeued

/-- What the pass takes off the queue and nobody queues any more is not queued at the end. -/
theorem Meanwhile.not_mem_ids_of_dequeue (meanwhile : Meanwhile requests r (before ++ after) r')
    {removed : Bool} (dequeued : ⟨.dequeue id, removed⟩ ∈ callsOf .pass after)
    (last : ∀ entry ∈ after, ∀ operation ∈ entry.2.enqueued, operation.id ≠ id) :
    id ∉ r'.queue.ids := by
  obtain ⟨middle, rest, rfl⟩ := List.append_of_mem (mem_callsOf.1 dequeued)
  have replay := meanwhile.replay
  rw [← List.append_assoc, List.map_append, Behavior.replay_append, List.map_cons,
    ← List.singleton_append, Behavior.replay_append] at replay
  intro queued
  obtain ⟨operation, mem, rfl⟩ := List.mem_map.1 queued
  rw [← replay] at mem
  rcases List.mem_append.1 (Roster.entries_replay_subset _ _ mem) with kept | added
  · simpa using List.mem_filter.1 kept
  · obtain ⟨answered, made, added⟩ := List.mem_flatMap.1 added
    obtain ⟨entry, mem, rfl⟩ := List.mem_map.1 made
    exact last entry (List.mem_append_right _ (List.mem_cons_of_mem _ mem)) operation added rfl

/-- The pass completes what is taken off the queue. -/
theorem Meanwhile.exists_completing (meanwhile : Meanwhile requests r all r')
    (dequeued : id ∈ (all.map (·.2)).filterMap Answered.dequeued?) :
    ∃ operation status removed, operation.id = id ∧ status.done = true ∧
      Poll.completing operation status removed <:+: callsOf .pass all := by
  obtain ⟨operations, -, passage⟩ := meanwhile.exists_passage
  obtain ⟨removed, made⟩ := Answered.mem_filterMap_dequeued.1 dequeued
  have own := meanwhile.mem_pass (List.suffix_refl all) made rfl
  have deleted := Answered.mem_filterMap_dequeued.2 ⟨removed, own⟩
  rw [passage.dequeued_eq, Answered.mem_filterMap_deleted] at deleted
  obtain ⟨operation, -, same, status, removed, done, block⟩ :=
    passage.completing_of_deleted deleted
  exact ⟨operation, status, removed, same, done, block⟩

/-- An operation that is queued at a point is queued at the end, unless one with its id is announced
after the point or leaves there. -/
theorem Meanwhile.announces_or_leaves {operation : Operation}
    (meanwhile : Meanwhile requests r (before ++ (.request n, answered) :: after) r')
    (queued : operation ∈ answered.enqueued) (gone : operation.id ∉ r'.queue.ids) :
    ∃ other, Watched requests r other ∧ other.id = operation.id ∧
      (Poll.Announces other (callsOf .pass before) (callsOf .pass after) ∨
        Poll.Leaves other (callsOf .pass before) (callsOf .pass after)) := by
  obtain ⟨operations, watched, passage⟩ := meanwhile.exists_passage
  obtain ⟨removed, dequeued⟩ := (meanwhile.mem_ids_or_dequeue queued).resolve_left gone
  rw [callsOf_append] at passage
  obtain ⟨other, mem, same, goes⟩ := passage.point.announces_or_leaves dequeued
  exact ⟨other, watched other mem, same, goes⟩

end

/-- Whatever others queue and track while a pass is running :

* the queue repeats no id;
* the operations that were queued before stay in front and in order, but for those that the pass
  completed;
* a request that returns without an error during the pass has queued its operation at a point of it;
* an operation that is queued at a point where none with its id leaves is queued at the end, or is
  announced after the point. Where one with its id leaves, and nobody queues one again, it is not
  queued at the end.

Operations count as the same here if they have the same id. -/
theorem queued_meanwhile {requests : Nat → Request} {r r' : Roster}
    {all : List (Party × Answered)} (meanwhile : Meanwhile requests r all r')
    (nodup : r.queue.ids.Nodup) :
    r'.queue.ids.Nodup ∧
    (∃ completed : List String,
      (∀ id ∈ completed, ∃ operation status removed, operation.id = id ∧ status.done = true ∧
        Poll.completing operation status removed <:+: callsOf .pass all) ∧
      (r.queue.entries.filter fun operation => !completed.contains operation.id) <+:
        r'.queue.entries) ∧
    (∀ n earlier,
      Script.Traces (requests n).script (earlier ++ callsOf (.request n) all) (.done (.ok ())) →
      callsOf (.request n) all ≠ [] →
      ∃ added, (.request n, ⟨.enqueue (requests n).operation, added⟩) ∈ all) ∧
    ∀ n operation added before after,
      all = before ++ (.request n, ⟨.enqueue operation, added⟩) :: after →
      ((∀ other, other.id = operation.id →
          ¬Poll.Leaves other (callsOf .pass before) (callsOf .pass after)) →
        operation.id ∈ r'.queue.ids ∨ ∃ other, Watched requests r other ∧
          other.id = operation.id ∧
          Poll.Announces other (callsOf .pass before) (callsOf .pass after)) ∧
      ((∃ other, other.id = operation.id ∧
          Poll.Leaves other (callsOf .pass before) (callsOf .pass after)) →
        (∀ entry ∈ after, ∀ again ∈ entry.2.enqueued, again.id ≠ operation.id) →
        operation.id ∉ r'.queue.ids) := by
  refine ⟨?_, ⟨(all.map (·.2)).filterMap Answered.dequeued?, ?_, ?_⟩, ?_, ?_⟩
  · rw [← meanwhile.replay]
    exact Roster.nodup_ids_replay nodup _
  · exact fun id dequeued => meanwhile.exists_completing dequeued
  · rw [← meanwhile.replay]
    exact Roster.prefix_replay r _
  · exact fun n earlier traces during => exists_enqueue traces during
  · rintro n operation added before after rfl
    constructor
    · intro stays
      by_cases queued : operation.id ∈ r'.queue.ids
      · exact Or.inl queued
      · obtain ⟨other, watched, same, announces | leaves⟩ :=
          meanwhile.announces_or_leaves List.mem_cons_self queued
        · exact Or.inr ⟨other, watched, same, announces⟩
        · exact absurd leaves (stays other same)
    · rintro ⟨other, same, status, removed, first, second, -, -, -, within, -, dequeued⟩ last
      rw [List.append_cons] at meanwhile
      rw [same] at dequeued
      exact meanwhile.not_mem_ids_of_dequeue (within.subset dequeued) last

/-! ## An announcement that queues an operation -/

/-- An assignment that is waited for. -/
def Operation.waiting : Operation :=
  .ofEntity .witnessAssignment "E"

/-- The surroundings in which the assignment is waited for. -/
def Roster.waiting : Roster :=
  { pending := [.waiting]
    queue := ⟨[.waiting]⟩
    identifiers := ⟨[("E", ⟨"E", "name", true, []⟩)]⟩ }

/-- The calls of the pass up to the announcement of the assignment. -/
def beforeReply : List (Party × Answered) :=
  (Poll.visiting .waiting (Poll.announcing .waiting ⟨"witness.E", true⟩)).map (.pass, ·)

/-- The calls of the pass after the announcement. -/
def afterReply : List (Party × Answered) :=
  [(.pass, ⟨.deletePending "witness.E", .ok ()⟩), (.pass, ⟨.dequeue "witness.E", true⟩)]

/-- The calls of a pass whose announcement makes the application queue an operation. -/
def replying (operation : Operation) (added : Bool) : List (Party × Answered) :=
  beforeReply ++ (.request 0, ⟨.enqueue operation, added⟩) :: afterReply

theorem meanwhile_replying {operation : Operation} {added : Bool}
    (answer : added = (Roster.waiting.queue.push operation).1) :
    Meanwhile (fun _ => .enqueue operation) .waiting (replying operation added)
      (Roster.calls.replay .waiting ((replying operation added).map (·.2))) := by
  have stays : (Roster.waiting.queue.push operation).2.contains "witness.E" = true :=
    Operation.Queue.contains_iff.2
      (List.map_subset _ (Operation.Queue.entries_prefix_push _ _).subset (by decide))
  refine ⟨?_, ?_, ?_, rfl⟩
  · exact ⟨{ checked := 1, completed := 1 }, .next (.next (.next (.next (.next (.next (.next
      (.next (.here _))))))))⟩
  · intro n
    cases n with
    | zero => exact ⟨[], _, .next (.here _)⟩
    | succ n => exact ⟨[], _, .here _⟩
  · exact ⟨trivial, rfl, trivial, trivial, rfl, trivial, answer, trivial, stays.symm, trivial⟩

/-- A new operation that the application queues during the announcement stays queued. -/
theorem queued_meanwhile_new :
    let operation : Operation := .ofEntity .witnessAssignment "F"
    let r' := Roster.calls.replay .waiting ((replying operation true).map (·.2))
    Meanwhile (fun _ => .enqueue operation) .waiting (replying operation true) r' ∧
      Roster.waiting.queue.ids.Nodup ∧ r'.queue.ids.Nodup ∧ operation.id ∈ r'.queue.ids := by
  intro operation r'
  have meanwhile : Meanwhile (fun _ => .enqueue operation) .waiting (replying operation true) r' :=
    meanwhile_replying rfl
  have nodup : Roster.waiting.queue.ids.Nodup := by decide
  obtain ⟨nodup', -, -, points⟩ := queued_meanwhile meanwhile nodup
  refine ⟨meanwhile, nodup, nodup', ?_⟩
  obtain ⟨queued, -⟩ := points 0 operation true beforeReply afterReply rfl
  refine (queued ?_).resolve_right ?_
  · rintro other same ⟨status, removed, first, second, -, -, -, within, -, dequeued⟩
    have mem := Answered.mem_filterMap_dequeued.2 ⟨removed, within.subset dequeued⟩
    have only : (callsOf .pass afterReply).filterMap Answered.dequeued? = ["witness.E"] := rfl
    rw [only, same] at mem
    exact absurd mem (by decide)
  · rintro ⟨other, -, -, status, removed, first, second, -, -, -, within, announced⟩
    simpa [callsOf, afterReply] using within.subset announced

/-- The same assignment is lost if the application queues it again during its announcement : nobody
has taken note of it, its id is taken off the queue, and it is not announced any more. -/
theorem lost_while_leaving :
    let all := replying .waiting false
    let r' := Roster.calls.replay .waiting (all.map (·.2))
    Meanwhile (fun _ => .enqueue .waiting) .waiting all r' ∧ Roster.waiting.queue.ids.Nodup ∧
      Script.Traces (Request.enqueue .waiting).script (callsOf (.request 0) all) (.done (.ok ())) ∧
      all = beforeReply ++ (.request 0, ⟨.enqueue .waiting, false⟩) :: afterReply ∧
      Operation.waiting.id ∉ r'.queue.ids ∧
      ∀ completion, ⟨.announceCompletion completion, ()⟩ ∉ callsOf .pass afterReply := by
  refine ⟨meanwhile_replying rfl, by decide, .next (.here _), rfl, by decide, ?_⟩
  intro completion announced
  simp [callsOf, afterReply] at announced

end Feedkeeper
