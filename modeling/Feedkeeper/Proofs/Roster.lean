import Feedkeeper.Proofs.Visits
import Feedkeeper.Table

/-!
# The surroundings of the poller

The stored operations, the queue of those that are watched, the local identifiers and the groups
whose authorization is launched but not started, together with every call made so far
(`Roster.trail`). A call that can fail may fail at any time, and changes nothing then; only local
identifiers can always be read. A call that succeeds answers what is there and does what it says
(`Roster.allows`, `Roster.after`). Nothing is assumed of what the agent reports, of the gate and of
the shutdown signal.

What calls have changed can be read off them (`Roster.pending_replay` and its kin).
-/

namespace Feedkeeper

/-- The surroundings of a poller. -/
structure Roster where
  /-- The stored operations. -/
  pending : List Operation := []
  queue : Operation.Queue := {}
  identifiers : Table Identifier := {}
  /-- The groups whose authorization is still to be started. -/
  launched : List String := []
  /-- All calls so far. -/
  trail : List Answered := []

namespace Roster

open Script

/-- The ids of the stored operations. -/
def stored (r : Roster) : List String :=
  r.pending.map (·.id)

/-- The name of an identifier, if there is a record of it. -/
def name? (r : Roster) (id : String) : Option String :=
  (r.identifiers.get? id).map (·.name)

/-- Whether a call may be answered so. -/
def allows (r : Roster) : (c : Call) → c.Answer → Prop
  | .setPending id _, .ok () => (r.identifiers.get? id).isSome = true
  | .findIdentifier id, answer => answer = .ok (r.identifiers.get? id)
  | .pendingOperations, .ok operations => operations = r.pending
  | .queued, operations => operations = r.queue.entries
  | .enqueue operation, added => added = (r.queue.push operation).1
  | .enqueueAll operations, count => count = (r.queue.extend operations).1
  | .dequeue id, removed => removed = (r.queue.remove id).1
  | _, _ => True

/-- Adds the operation at the end, unless its id is stored. -/
def save (r : Roster) (operation : Operation) : Roster :=
  if r.stored.contains operation.id then r else { r with pending := r.pending ++ [operation] }

/-- Sets whether the identifier is pending, if there is a record of it. -/
def mark (r : Roster) (id : String) (pending : Bool) : Roster :=
  match r.identifiers.get? id with
  | none => r
  | some identifier =>
    { r with identifiers := r.identifiers.put id { identifier with pending } }

/-- What a call that succeeded has changed. -/
def changed (r : Roster) : (c : Call) → c.Answer → Roster
  | .savePending operation, .ok () => r.save operation
  | .deletePending id, .ok () => { r with pending := r.pending.filter (·.id != id) }
  | .setPending id pending, .ok () => r.mark id pending
  | .launchAuthorization group, () => { r with launched := r.launched ++ [group] }
  | .enqueue operation, _ => { r with queue := (r.queue.push operation).2 }
  | .enqueueAll operations, _ => { r with queue := (r.queue.extend operations).2 }
  | .dequeue id, _ => { r with queue := (r.queue.remove id).2 }
  | _, _ => r

/-- The state once a call was answered. -/
def after (r : Roster) (c : Call) (answer : c.Answer) : Roster :=
  { r.changed c answer with trail := r.trail ++ [⟨c, answer⟩] }

/-- Calls turn out as they can. -/
def calls : Behavior Roster :=
  ⟨allows, after⟩

variable {r r' : Roster} {made : List Answered}

/-! ## What calls change -/

/-- The trail grows by the calls. -/
theorem trail_replay (r : Roster) (made : List Answered) :
    (calls.replay r made).trail = r.trail ++ made := by
  induction made generalizing r with
  | nil => exact (List.append_nil _).symm
  | cons answered made ih =>
    refine (ih _).trans ?_
    rw [show (calls.after r answered.call answered.answer).trail = r.trail ++ [answered] from rfl,
      List.append_assoc, List.singleton_append]

@[simp] theorem pending_mark (r : Roster) (id : String) (pending : Bool) :
    (r.mark id pending).pending = r.pending := by
  unfold mark
  split <;> rfl

@[simp] theorem queue_mark (r : Roster) (id : String) (pending : Bool) :
    (r.mark id pending).queue = r.queue := by
  unfold mark
  split <;> rfl

@[simp] theorem launched_mark (r : Roster) (id : String) (pending : Bool) :
    (r.mark id pending).launched = r.launched := by
  unfold mark
  split <;> rfl

@[simp] theorem name?_mark (r : Roster) (id : String) (pending : Bool) (other : String) :
    (r.mark id pending).name? other = r.name? other := by
  unfold mark
  split
  · rfl
  · rename_i identifier found
    by_cases h : other = id
    · rw [name?, name?, h, Table.get?_put_self, found]
      rfl
    · rw [name?, Table.get?_put_of_ne h]
      rfl

@[simp] theorem queue_save (r : Roster) (operation : Operation) :
    (r.save operation).queue = r.queue := by
  unfold save
  split <;> rfl

@[simp] theorem launched_save (r : Roster) (operation : Operation) :
    (r.save operation).launched = r.launched := by
  unfold save
  split <;> rfl

@[simp] theorem name?_save (r : Roster) (operation : Operation) (id : String) :
    (r.save operation).name? id = r.name? id := by
  unfold save
  split <;> rfl

theorem pending_after {answered : Answered} (removes : answered.adds = false) (r : Roster) :
    (calls.after r answered.call answered.answer).pending =
      r.pending.filter fun operation => answered.deleted? != some operation.id := by
  have all (keeps : ∀ id, (answered.deleted? != some id) = true) :
      r.pending.filter (fun operation => answered.deleted? != some operation.id) = r.pending :=
    List.filter_eq_self.2 fun operation _ => keeps operation.id
  obtain ⟨c, answer⟩ := answered
  change (r.changed c answer).pending = _
  cases c with
  | savePending | enqueue | enqueueAll => cases removes
  | deletePending id =>
    cases answer with
    | error fault => exact (all fun _ => rfl).symm
    | ok _ =>
      refine List.filter_congr fun operation _ => ?_
      rw [bne_comm]
      rfl
  | setPending id pending =>
    rw [all fun _ => rfl]
    cases answer with
    | error fault => rfl
    | ok _ => exact r.pending_mark id pending
  | _ => exact (all fun _ => rfl).symm

theorem entries_after {answered : Answered} (removes : answered.adds = false) (r : Roster) :
    (calls.after r answered.call answered.answer).queue.entries =
      r.queue.entries.filter fun operation => answered.dequeued? != some operation.id := by
  have all (keeps : ∀ id, (answered.dequeued? != some id) = true) :
      r.queue.entries.filter (fun operation => answered.dequeued? != some operation.id) =
        r.queue.entries :=
    List.filter_eq_self.2 fun operation _ => keeps operation.id
  obtain ⟨c, answer⟩ := answered
  change (r.changed c answer).queue.entries = _
  cases c with
  | savePending | enqueue | enqueueAll => cases removes
  | dequeue id =>
    refine List.filter_congr fun operation _ => ?_
    rw [bne_comm]
    rfl
  | setPending id pending =>
    rw [all fun _ => rfl]
    cases answer with
    | error fault => rfl
    | ok _ => rw [← r.queue_mark id pending]; rfl
  | deletePending id =>
    rw [all fun _ => rfl]
    cases answer <;> rfl
  | _ => exact (all fun _ => rfl).symm

theorem launched_after (r : Roster) (answered : Answered) :
    (calls.after r answered.call answered.answer).launched =
      r.launched ++ answered.launched?.toList := by
  obtain ⟨c, answer⟩ := answered
  change (r.changed c answer).launched = _
  cases c with
  | launchAuthorization group => rfl
  | savePending operation =>
    cases answer with
    | error fault => exact (List.append_nil _).symm
    | ok _ => exact (r.launched_save operation).trans (List.append_nil _).symm
  | setPending id pending =>
    cases answer with
    | error fault => exact (List.append_nil _).symm
    | ok _ => exact (r.launched_mark id pending).trans (List.append_nil _).symm
  | deletePending id => cases answer <;> exact (List.append_nil _).symm
  | _ => exact (List.append_nil _).symm

theorem name?_after (r : Roster) (answered : Answered) (id : String) :
    (calls.after r answered.call answered.answer).name? id = r.name? id := by
  obtain ⟨c, answer⟩ := answered
  change (r.changed c answer).name? id = _
  cases c with
  | savePending operation =>
    cases answer with
    | error fault => rfl
    | ok _ => exact r.name?_save operation id
  | setPending other pending =>
    cases answer with
    | error fault => rfl
    | ok _ => exact r.name?_mark other pending id
  | deletePending other => cases answer <;> rfl
  | _ => rfl

/-- Operations that neither the first call nor the others find. -/
theorem filter_not_contains_cons (g : Answered → Option String) (answered : Answered)
    (made : List Answered) (operations : List Operation) :
    (operations.filter fun operation =>
        !((answered :: made).filterMap g).contains operation.id) =
      (operations.filter fun operation => g answered != some operation.id).filter
        fun operation => !(made.filterMap g).contains operation.id := by
  rw [List.filter_filter]
  refine List.filter_congr fun operation _ => ?_
  cases h : g answered with
  | none =>
    rw [List.filterMap_cons_none h]
    exact (Bool.and_true _).symm
  | some id =>
    rw [List.filterMap_cons_some h, List.contains_cons, Bool.not_or, Bool.and_comm, bne_comm]
    rfl

/-- What each call takes out of a list of operations is missing from it at the end. -/
theorem replay_filter {f : Roster → List Operation} {g : Answered → Option String}
    (step : ∀ answered ∈ made, ∀ r, f (calls.after r answered.call answered.answer) =
      (f r).filter fun operation => g answered != some operation.id) (r : Roster) :
    f (calls.replay r made) =
      (f r).filter fun operation => !(made.filterMap g).contains operation.id := by
  induction made generalizing r with
  | nil => exact (List.filter_eq_self.2 fun _ _ => rfl).symm
  | cons answered made ih =>
    refine (ih (fun a h => step a (List.mem_cons_of_mem _ h)) _).trans ?_
    rw [step answered List.mem_cons_self, filter_not_contains_cons]

/-- Calls that add nothing leave those stored operations that they do not delete. -/
theorem pending_replay (removes : ∀ answered ∈ made, Answered.adds answered = false)
    (r : Roster) : (calls.replay r made).pending =
      r.pending.filter fun operation =>
        !(made.filterMap Answered.deleted?).contains operation.id :=
  replay_filter (fun answered h => pending_after (removes answered h)) r

/-- Calls that add nothing leave those queued operations that they do not take off the queue. -/
theorem entries_replay (removes : ∀ answered ∈ made, Answered.adds answered = false)
    (r : Roster) : (calls.replay r made).queue.entries =
      r.queue.entries.filter fun operation =>
        !(made.filterMap Answered.dequeued?).contains operation.id :=
  replay_filter (f := fun r => r.queue.entries)
    (fun answered h => entries_after (removes answered h)) r

/-- A call that adds something adds to the queue what it says, at the end and no id twice. -/
theorem queue_after {answered : Answered} (adds : answered.adds = true) (r : Roster) :
    r.queue.entries <+: (calls.after r answered.call answered.answer).queue.entries ∧
      (calls.after r answered.call answered.answer).queue.entries ⊆
        r.queue.entries ++ answered.enqueued ∧
      (r.queue.ids.Nodup → (calls.after r answered.call answered.answer).queue.ids.Nodup) := by
  obtain ⟨c, answer⟩ := answered
  change r.queue.entries <+: (r.changed c answer).queue.entries ∧
    (r.changed c answer).queue.entries ⊆ _ ∧ (_ → (r.changed c answer).queue.ids.Nodup)
  cases c with
  | enqueue operation =>
    refine ⟨Operation.Queue.entries_prefix_push _ _, fun other mem => ?_,
      fun nodup => Operation.Queue.nodup_ids_push nodup _⟩
    rcases Operation.Queue.mem_entries_push mem with mem | rfl
    · exact List.mem_append_left _ mem
    · exact List.mem_append_right _ (List.mem_singleton.2 rfl)
  | enqueueAll operations =>
    exact ⟨Operation.Queue.entries_prefix_extend _ _,
      fun other mem => List.mem_append.2 (Operation.Queue.mem_entries_extend mem),
      fun nodup => Operation.Queue.nodup_ids_extend nodup _⟩
  | savePending operation =>
    have same : (r.changed (.savePending operation) answer).queue = r.queue := by
      cases answer with
      | error => rfl
      | ok => exact r.queue_save operation
    rw [same]
    exact ⟨List.prefix_refl _, List.subset_append_left _ _, fun nodup => nodup⟩
  | _ => cases adds

/-- Whatever is called, what it does not take off the queue stays in front. -/
theorem prefix_after (r : Roster) (answered : Answered) :
    (r.queue.entries.filter fun operation => answered.dequeued? != some operation.id) <+:
      (calls.after r answered.call answered.answer).queue.entries := by
  cases adds : answered.adds with
  | false => rw [entries_after adds]
  | true =>
    have all : r.queue.entries.filter (fun operation => answered.dequeued? != some operation.id) =
        r.queue.entries := by
      refine List.filter_eq_self.2 fun operation _ => ?_
      obtain ⟨c, answer⟩ := answered
      cases c with
      | dequeue => cases adds
      | _ => rfl
    rw [all]
    exact (queue_after adds r).1

theorem prefix_replay (r : Roster) (made : List Answered) :
    (r.queue.entries.filter fun operation =>
        !(made.filterMap Answered.dequeued?).contains operation.id) <+:
      (calls.replay r made).queue.entries := by
  induction made generalizing r with
  | nil =>
    have all : r.queue.entries.filter (fun operation =>
        !(([] : List Answered).filterMap Answered.dequeued?).contains operation.id) =
          r.queue.entries := List.filter_eq_self.2 fun _ _ => rfl
    rw [all]
    exact List.prefix_refl _
  | cons answered made ih =>
    rw [filter_not_contains_cons]
    exact ((prefix_after r answered).filter _).trans (ih _)

theorem entries_after_subset (r : Roster) (answered : Answered) :
    (calls.after r answered.call answered.answer).queue.entries ⊆
      r.queue.entries ++ answered.enqueued := by
  cases adds : answered.adds with
  | false =>
    rw [entries_after adds]
    exact List.Subset.trans List.filter_sublist.subset (List.subset_append_left _ _)
  | true => exact (queue_after adds r).2.1

/-- What is queued at the end was queued before, or by a call. -/
theorem entries_replay_subset (r : Roster) (made : List Answered) :
    (calls.replay r made).queue.entries ⊆
      r.queue.entries ++ made.flatMap Answered.enqueued := by
  induction made generalizing r with
  | nil => exact List.subset_append_left _ _
  | cons answered made ih =>
    refine List.Subset.trans (ih _) ?_
    rw [List.flatMap_cons, ← List.append_assoc]
    exact List.append_subset.2
      ⟨List.Subset.trans (entries_after_subset r answered) (List.subset_append_left _ _),
        List.subset_append_right _ _⟩

/-- Whatever is called, no id is queued twice. -/
theorem nodup_ids_replay (nodup : r.queue.ids.Nodup) (made : List Answered) :
    (calls.replay r made).queue.ids.Nodup := by
  induction made generalizing r with
  | nil => exact nodup
  | cons answered made ih =>
    refine ih ?_
    cases adds : answered.adds with
    | false =>
      rw [Operation.Queue.ids, entries_after adds]
      exact nodup.sublist (List.filter_sublist.map _)
    | true => exact (queue_after adds r).2.2 nodup

/-- The launched authorizations become more. -/
theorem launched_replay (r : Roster) (made : List Answered) :
    (calls.replay r made).launched = r.launched ++ made.filterMap Answered.launched? := by
  induction made generalizing r with
  | nil => exact (List.append_nil _).symm
  | cons answered made ih =>
    refine (ih _).trans ?_
    rw [launched_after, List.append_assoc, List.filterMap_cons]
    cases answered.launched? <;> rfl

/-- No call changes a name. -/
theorem name?_replay (r : Roster) (made : List Answered) (id : String) :
    (calls.replay r made).name? id = r.name? id := by
  induction made generalizing r with
  | nil => rfl
  | cons answered made ih => exact (ih _).trans (name?_after r answered id)

/-! ## Moves -/

/-- What may happen around the poller. -/
inductive Move where
  | track (operation : Operation) (result : Except Fault Unit)
  /-- The stored operations are queued. -/
  | load
  | pass
  /-- A new poller begins, with nothing queued. -/
  | restart
  /-- A task that a pass launched starts the authorization of its group. -/
  | authorize
  /-- An identifier is recorded that was missing. -/
  | record

/-- The move leads from the first state to the second. -/
inductive Moves : Move → Roster → Roster → Prop where
  | track {operation : Operation} {result : Except Fault Unit} {r r' : Roster}
      (ends : Ends calls (Poll.track operation).run r result r') :
      Moves (.track operation result) r r'
  | load {result : Except Fault Nat} {r r' : Roster}
      (ends : Ends calls Poll.load.run r result r') : Moves .load r r'
  | pass {tally : Poll.Tally} {r r' : Roster} (ends : Ends calls Poll.pass r tally r') :
      Moves .pass r r'
  | restart {r : Roster} : Moves .restart r { r with queue := {} }
  | authorize {group : String} {r r' : Roster} (due : group ∈ r.launched)
      (ends : Ends calls (Poll.authorize group) r () r') :
      Moves .authorize r { r' with launched := r'.launched.erase group }
  | record {r : Roster} (identifier : Identifier)
      (missing : r.identifiers.get? identifier.id = none) :
      Moves .record r { r with identifiers := r.identifiers.put identifier.id identifier }

/-- The state may be reached from `start` by moves from states of which `P` holds. -/
inductive Run (P : Roster → Prop) (start : Roster) : Roster → Prop where
  | here : Run P start start
  | next {move : Move} {r r' : Roster} (run : Run P start r) (holds : P r)
      (moves : Moves move r r') : Run P start r'

/-- The ways in which a move can go, with the calls that are made. -/
inductive Steps (r : Roster) : Move → List Answered → Roster → Prop where
  | untracked {operation : Operation} {fault error : Fault} :
      Steps r (.track operation (.error error)) [⟨.savePending operation, .error fault⟩]
        { r with trail := r.trail ++ [⟨.savePending operation, .error fault⟩] }
  | tracked {operation : Operation} {added : Bool} :
      Steps r (.track operation (.ok ()))
        [⟨.savePending operation, .ok ()⟩, ⟨.enqueue operation, added⟩]
        { r.save operation with
          queue := (r.queue.push operation).2,
          trail := r.trail ++ [⟨.savePending operation, .ok ()⟩, ⟨.enqueue operation, added⟩] }
  | unloaded {fault : Fault} :
      Steps r .load [⟨.pendingOperations, .error fault⟩]
        { r with trail := r.trail ++ [⟨.pendingOperations, .error fault⟩] }
  | loaded {count : Nat} :
      Steps r .load [⟨.pendingOperations, .ok r.pending⟩, ⟨.enqueueAll r.pending, count⟩]
        { r with
          queue := (r.queue.extend r.pending).2,
          trail := r.trail ++
            [⟨.pendingOperations, .ok r.pending⟩, ⟨.enqueueAll r.pending, count⟩] }
  | passed {made : List Answered} (passage : Poll.Passage r.queue.entries made)
      (allowed : calls.AllowsAll r made) : Steps r .pass made (calls.replay r made)
  | restarted : Steps r .restart [] { r with queue := {} }
  | authorized {group : String} {identifier : Identifier} {result : Except Fault Unit}
      (due : group ∈ r.launched) (found : r.identifiers.get? group = some identifier) :
      Steps r .authorize [⟨.findIdentifier group, .ok (some identifier)⟩,
          ⟨.startAuthorization identifier.name, result⟩]
        { r with
          launched := r.launched.erase group,
          trail := r.trail ++ [⟨.findIdentifier group, .ok (some identifier)⟩,
            ⟨.startAuthorization identifier.name, result⟩] }
  | unnamed {group : String} (due : group ∈ r.launched)
      (missing : r.identifiers.get? group = none) :
      Steps r .authorize [⟨.findIdentifier group, .ok none⟩]
        { r with
          launched := r.launched.erase group,
          trail := r.trail ++ [⟨.findIdentifier group, .ok none⟩] }
  | recorded {identifier : Identifier} (missing : r.identifiers.get? identifier.id = none) :
      Steps r .record [] { r with identifiers := r.identifiers.put identifier.id identifier }

/-- The calls of a pass are visits to what was queued when it began. -/
theorem passage_of_allowsAll (passes : Poll.Passes made) (allowed : calls.AllowsAll r made) :
    Poll.Passage r.queue.entries made := by
  cases passes with
  | offline => exact .idle trivial (.ended _)
  | online operations passage =>
    obtain rfl : operations = r.queue.entries := allowed.2.1
    exact .idle trivial (.idle trivial passage)

theorem replay_tracked (r : Roster) (operation : Operation) (added : Bool) :
    calls.replay r [⟨.savePending operation, .ok ()⟩, ⟨.enqueue operation, added⟩] =
      { r.save operation with
        queue := (r.queue.push operation).2,
        trail := r.trail ++ [⟨.savePending operation, .ok ()⟩, ⟨.enqueue operation, added⟩] } := by
  simp [Behavior.replay, calls, after, changed]

theorem replay_loaded (r : Roster) (count : Nat) :
    calls.replay r [⟨.pendingOperations, .ok r.pending⟩, ⟨.enqueueAll r.pending, count⟩] =
      { r with
        queue := (r.queue.extend r.pending).2,
        trail := r.trail ++
          [⟨.pendingOperations, .ok r.pending⟩, ⟨.enqueueAll r.pending, count⟩] } := by
  simp [Behavior.replay, calls, after, changed]

theorem replay_authorized (r : Roster) (group : String) (identifier : Identifier)
    (result : Except Fault Unit) :
    calls.replay r [⟨.findIdentifier group, .ok (some identifier)⟩,
        ⟨.startAuthorization identifier.name, result⟩] =
      { r with trail := r.trail ++ [⟨.findIdentifier group, .ok (some identifier)⟩,
        ⟨.startAuthorization identifier.name, result⟩] } := by
  simp [Behavior.replay, calls, after, changed]

/-- Every move goes one of the ways listed. -/
theorem Moves.exists_steps {move : Move} (moves : Moves move r r') :
    ∃ made, Steps r move made r' := by
  cases moves with
  | track ends =>
    obtain ⟨made, traces, allowed, rfl⟩ := reaches_iff.1 ends
    obtain ⟨fault, error, rfl, rfl⟩ | ⟨added, rfl, rfl⟩ := Poll.records_track _ _ _ traces
    · exact ⟨_, .untracked⟩
    · rw [replay_tracked]
      exact ⟨_, .tracked⟩
  | load ends =>
    obtain ⟨made, traces, allowed, rfl⟩ := reaches_iff.1 ends
    obtain ⟨fault, rfl⟩ | ⟨stored, count, rfl⟩ := Poll.records_load _ _ traces
    · exact ⟨_, .unloaded⟩
    · obtain rfl : stored = r.pending := allowed.1
      rw [replay_loaded]
      exact ⟨_, .loaded⟩
  | pass ends =>
    obtain ⟨made, traces, allowed, rfl⟩ := reaches_iff.1 ends
    exact ⟨made, .passed (passage_of_allowsAll (Poll.records_pass _ _ traces) allowed) allowed⟩
  | restart => exact ⟨_, .restarted⟩
  | authorize due ends =>
    obtain ⟨made, traces, allowed, rfl⟩ := reaches_iff.1 ends
    obtain ⟨identifier, result, rfl⟩ | ⟨answer, missing, rfl⟩ := Poll.records_authorize _ _ _ traces
    · have found : r.identifiers.get? _ = some identifier := (Except.ok.inj allowed.1).symm
      rw [replay_authorized]
      exact ⟨_, .authorized due found⟩
    · obtain rfl : answer = .ok (r.identifiers.get? _) := allowed.1
      have none : r.identifiers.get? _ = none :=
        Option.eq_none_iff_forall_ne_some.2 fun identifier h => missing identifier (h ▸ rfl)
      rw [none]
      exact ⟨_, .unnamed due none⟩
  | record identifier missing => exact ⟨_, .recorded missing⟩

end Roster

end Feedkeeper
