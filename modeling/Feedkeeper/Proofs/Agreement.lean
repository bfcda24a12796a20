import Feedkeeper.Proofs.Roster

/-!
# The queue agrees with the store

The queue of watched operations and the store of pending ones are changed one after the other : what
is stored is queued next, what is deleted is taken off the queue next, and what is read from the
store is queued next. Between the two calls the second is *owed* (`Answered.owed?`), and a script
*pays* if it makes it at once and changes the queue in no other way (`Script.Pays`). So the queue as
it is once that call is made never holds an id twice or one that is not stored, and holds all that
is stored once the store was loaded (`Roster.Agrees`), whatever fails and wherever a pass is
cancelled. Nothing but the call that is owed comes in between, so this is how things stand whenever
the poller waits for an answer (`queue_agrees_with_store`).
-/

namespace Feedkeeper

/-- Whether the call is one that changes the queue. -/
def Call.changesQueue : Call → Bool
  | .enqueue _ | .enqueueAll _ | .dequeue _ => true
  | _ => false

/-- The call on the queue that has to follow. -/
def Answered.owed? : Answered → Option Call
  | ⟨.savePending operation, .ok ()⟩ => some (.enqueue operation)
  | ⟨.pendingOperations, .ok operations⟩ => some (.enqueueAll operations)
  | ⟨.deletePending id, .ok ()⟩ => some (.dequeue id)
  | _ => none

namespace Script

variable {α β : Type}

/-- The script makes the call that is owed, if one is, and changes the queue only by calls that are
owed. -/
def Pays : Script α → Option Call → Prop
  | done _, owed => owed = none
  | call c next, owed =>
    owed = (if c.changesQueue then some c else none) ∧
      ∀ answer, Pays (next answer) (Answered.owed? ⟨c, answer⟩)

/-- Whether the script begins with a call that changes the queue. -/
def queues : Script α → Bool
  | done _ => false
  | call c _ => c.changesQueue

/-- Nothing is owed unless the next call changes the queue. -/
theorem Pays.owed_eq {script : Script α} {owed : Option Call} (pays : script.Pays owed)
    (settled : script.queues = false) : owed = none := by
  cases script with
  | done value => exact pays
  | call c next =>
    have unchanged : c.changesQueue = false := settled
    rw [pays.1, unchanged]
    rfl

theorem Pays.bind {script : Script α} {f : α → Script β} {owed : Option Call}
    (pays : script.Pays owed) (rest : ∀ value, (f value).Pays none) :
    (script >>= f).Pays owed := by
  change (Script.bind script f).Pays owed
  induction script generalizing owed with
  | done value =>
    obtain rfl : owed = none := pays
    exact rest value
  | call c next ih => exact ⟨pays.1, fun answer => ih answer (pays.2 answer)⟩

end Script

open Script

/-! ## The poller pays what it owes -/

namespace Poll

theorem pays_track (operation : Operation) : (track operation).run.Pays none := by
  refine ⟨rfl, ?_⟩
  rintro (fault | _)
  · rfl
  · exact ⟨rfl, fun _ => rfl⟩

theorem pays_load : load.run.Pays none := by
  refine ⟨rfl, ?_⟩
  rintro (fault | stored)
  · rfl
  · exact ⟨rfl, fun _ => rfl⟩

theorem pays_complete (operation : Operation) : (complete operation).run.Pays none := by
  obtain ⟨id, kind, entity⟩ := operation
  refine ⟨rfl, ?_⟩
  rintro (fault | _)
  · rfl
  cases kind with
  | groupFormation =>
    refine ⟨rfl, fun _ => ⟨rfl, fun _ => ⟨rfl, ?_⟩⟩⟩
    rintro (fault | _)
    · rfl
    · exact ⟨rfl, fun _ => rfl⟩
  | witnessAssignment =>
    refine ⟨rfl, fun _ => ⟨rfl, ?_⟩⟩
    rintro (fault | _)
    · rfl
    · exact ⟨rfl, fun _ => rfl⟩

theorem pays_passOver (operations : List Operation) (tally : Tally) :
    (passOver operations tally).Pays none := by
  induction operations generalizing tally with
  | nil => rfl
  | cons operation rest ih =>
    refine ⟨rfl, ?_⟩
    rintro (_ | _)
    swap
    · rfl
    refine ⟨rfl, ?_⟩
    rintro (failure | ⟨name, _ | _⟩)
    · refine ⟨rfl, ?_⟩
      rintro (_ | _)
      · exact ih _
      refine ⟨rfl, ?_⟩
      rintro (_ | _)
      · rfl
      · exact ih _
    · exact ih _
    · refine (pays_complete operation).bind ?_
      rintro (fault | _) <;> exact ih _

theorem pays_pass : pass.Pays none := by
  refine ⟨rfl, ?_⟩
  rintro (_ | _)
  · rfl
  · exact ⟨rfl, fun operations => pays_passOver operations {}⟩

/-- What is done with a poller from outside. -/
inductive Task where
  | track (operation : Operation)
  | load
  | pass

/-- The script of a task, which ends with whether all that was stored is queued by it. -/
def Task.script : Task → Script Bool
  | .track operation => do
    let _ ← (Poll.track operation).run
    return false
  | .load => return (← Poll.load.run).isOk
  | .pass => do
    let _ ← Poll.pass
    return false

/-- No task but a load says that it has queued all. -/
theorem Task.eq_load {task : Task} {made : List Answered}
    (traces : Traces task.script made (.done true)) : task = .load := by
  have unloaded {α : Type} (script : Script α) :
      Records (do let _ ← script; return false) fun loads _ => loads = false :=
    records_bind.2 fun _ _ _ => records_done.2 rfl
  cases task with
  | track operation => cases unloaded _ _ _ traces
  | load => rfl
  | pass => cases unloaded _ _ _ traces

theorem Task.pays_script (task : Task) : task.script.Pays none := by
  cases task with
  | track operation => exact (pays_track operation).bind fun _ => rfl
  | load => exact pays_load.bind fun _ => rfl
  | pass => exact pays_pass.bind fun _ => rfl

end Poll

/-! ## Ids -/

namespace Operation.Queue

theorem mem_ids_push_iff {queue : Operation.Queue} {operation : Operation} {id : String} :
    id ∈ (queue.push operation).2.ids ↔ id ∈ queue.ids ∨ id = operation.id := by
  constructor
  · intro h
    obtain ⟨other, mem, rfl⟩ := List.mem_map.1 h
    rcases mem_entries_push mem with mem | rfl
    · exact Or.inl (List.mem_map_of_mem mem)
    · exact Or.inr rfl
  · rintro (h | rfl)
    · exact ((entries_prefix_push queue operation).map _).subset h
    · exact mem_ids_push queue operation

theorem mem_ids_extend_iff {queue : Operation.Queue} {operations : List Operation} {id : String} :
    id ∈ (queue.extend operations).2.ids ↔ id ∈ queue.ids ∨ id ∈ operations.map (·.id) := by
  induction operations generalizing queue with
  | nil => exact (or_iff_left List.not_mem_nil).symm
  | cons operation rest ih =>
    change id ∈ ((queue.push operation).2.extend rest).2.ids ↔ _
    rw [ih, mem_ids_push_iff, List.map_cons, List.mem_cons, or_assoc]

theorem mem_ids_remove_iff {queue : Operation.Queue} {id other : String} :
    other ∈ (queue.remove id).2.ids ↔ other ∈ queue.ids ∧ other ≠ id := by
  simp only [remove, ids, List.mem_map, List.mem_filter, bne_iff_ne]
  constructor
  · rintro ⟨operation, ⟨mem, ne⟩, rfl⟩
    exact ⟨⟨operation, mem, rfl⟩, ne⟩
  · rintro ⟨⟨operation, mem, rfl⟩, ne⟩
    exact ⟨operation, ⟨mem, ne⟩, rfl⟩

end Operation.Queue

namespace Roster

theorem mem_stored_save_iff {r : Roster} {operation : Operation} {id : String} :
    id ∈ (r.save operation).stored ↔ id ∈ r.stored ∨ id = operation.id := by
  unfold save
  split
  · rename_i present
    refine ⟨Or.inl, fun h => h.elim (fun h => h) fun h => ?_⟩
    exact h ▸ List.contains_iff_mem.1 present
  · simp [stored]

/-! ## Agreement -/

/-- No id is queued twice or without being stored, and once the store was loaded every stored id is
queued. -/
structure Agrees (loaded : Bool) (r : Roster) : Prop where
  distinct : r.queue.ids.Nodup
  stored : r.queue.ids ⊆ r.stored
  queued : loaded = true → r.stored ⊆ r.queue.ids

/-- The state once the call that is owed was made. -/
def settled (r : Roster) : Option Call → Roster
  | some (.enqueue operation) => { r with queue := (r.queue.push operation).2 }
  | some (.enqueueAll operations) => { r with queue := (r.queue.extend operations).2 }
  | some (.dequeue id) => { r with queue := (r.queue.remove id).2 }
  | _ => r

variable {r r' start : Roster} {loaded : Bool}

theorem Agrees.congr (h : r.Agrees loaded) (queue : r'.queue = r.queue)
    (pending : r'.pending = r.pending) : r'.Agrees loaded where
  distinct := queue ▸ h.distinct
  stored := by
    rw [Roster.stored, queue, pending]
    exact h.stored
  queued hl := by
    rw [Roster.stored, queue, pending]
    exact h.queued hl

/-- What is stored and then queued leaves the two in agreement. -/
theorem Agrees.saved (h : r.Agrees loaded) (operation : Operation) (r' : Roster)
    (queue : r'.queue = (r.queue.push operation).2)
    (pending : r'.pending = (r.save operation).pending) : r'.Agrees loaded := by
  have stored : r'.stored = (r.save operation).stored := by
    rw [Roster.stored, Roster.stored, pending]
  refine ⟨queue ▸ Operation.Queue.nodup_ids_push h.distinct operation, fun id mem => ?_,
    fun hl id mem => ?_⟩
  · rw [queue, Operation.Queue.mem_ids_push_iff] at mem
    rw [stored, mem_stored_save_iff]
    exact mem.imp_left fun mem => h.stored mem
  · rw [stored, mem_stored_save_iff] at mem
    rw [queue, Operation.Queue.mem_ids_push_iff]
    exact mem.imp_left fun mem => h.queued hl mem

/-- What is deleted and then taken off the queue leaves the two in agreement. -/
theorem Agrees.deleted (h : r.Agrees loaded) (id : String) (r' : Roster)
    (queue : r'.queue = (r.queue.remove id).2)
    (pending : r'.pending = r.pending.filter (·.id != id)) : r'.Agrees loaded := by
  have mem_stored {other : String} : other ∈ r'.stored ↔ other ∈ r.stored ∧ other ≠ id := by
    rw [Roster.stored, pending]
    exact @Operation.Queue.mem_ids_remove_iff ⟨r.pending⟩ id other
  refine ⟨queue ▸ Operation.Queue.nodup_ids_remove h.distinct id, fun other mem => ?_,
    fun hl other mem => ?_⟩
  · rw [queue, Operation.Queue.mem_ids_remove_iff] at mem
    exact mem_stored.2 (mem.imp_left fun mem => h.stored mem)
  · rw [queue, Operation.Queue.mem_ids_remove_iff]
    exact (mem_stored.1 mem).imp_left fun mem => h.queued hl mem

/-- Once all that is stored was queued, the store was loaded. -/
theorem Agrees.extended (h : r.Agrees loaded) (r' : Roster)
    (queue : r'.queue = (r.queue.extend r.pending).2) (pending : r'.pending = r.pending) :
    r'.Agrees true := by
  have stored : r'.stored = r.stored := by rw [Roster.stored, Roster.stored, pending]
  refine ⟨queue ▸ Operation.Queue.nodup_ids_extend h.distinct _, fun id mem => ?_,
    fun _ id mem => ?_⟩
  · rw [queue, Operation.Queue.mem_ids_extend_iff] at mem
    rw [stored]
    exact mem.elim (fun mem => h.stored mem) fun mem => mem
  · rw [stored] at mem
    rw [queue, Operation.Queue.mem_ids_extend_iff]
    exact Or.inr mem

theorem Agrees.of_loaded (h : r.Agrees true) : r.Agrees loaded :=
  ⟨h.distinct, h.stored, fun _ => h.queued rfl⟩

/-- Whatever a call is answered, the two agree once the call that is owed then was made. -/
theorem Agrees.after (h : r.Agrees loaded) {c : Call} {answer : c.Answer}
    (unchanged : c.changesQueue = false) (allowed : r.allows c answer) :
    ((r.after c answer).settled (Answered.owed? ⟨c, answer⟩)).Agrees loaded := by
  cases c with
  | enqueue | enqueueAll | dequeue => cases unchanged
  | savePending operation =>
    rcases answer with fault | _
    · exact h.congr rfl rfl
    · refine h.saved operation _ ?_ rfl
      change ((r.save operation).queue.push operation).2 = _
      rw [queue_save]
  | deletePending id =>
    rcases answer with fault | _
    · exact h.congr rfl rfl
    · exact h.deleted id _ rfl rfl
  | pendingOperations =>
    rcases answer with fault | operations
    · exact h.congr rfl rfl
    · obtain rfl : operations = r.pending := allowed
      exact (h.extended { r.after .pendingOperations (.ok r.pending) with
        queue := (r.queue.extend r.pending).2 } rfl rfl).of_loaded
  | setPending id pending =>
    rcases answer with fault | _
    · exact h.congr rfl rfl
    · exact h.congr (queue_mark r id pending) (pending_mark r id pending)
  | _ => exact h.congr rfl rfl

/-- The call that is owed settles what it is owed for. -/
theorem Agrees.paid {c : Call} (h : (r.settled (some c)).Agrees loaded)
    (changes : c.changesQueue = true) (answer : c.Answer) :
    ((r.after c answer).settled (Answered.owed? ⟨c, answer⟩)).Agrees loaded := by
  cases c with
  | enqueue | enqueueAll | dequeue => exact h.congr rfl rfl
  | _ => cases changes

/-- A script that pays keeps the two in agreement, but for the call that is owed. -/
theorem Agrees.reaches {α : Type} {script rest : Script α} {owed : Option Call}
    (reaches : Reaches calls script r rest r') (pays : script.Pays owed)
    (h : (r.settled owed).Agrees loaded) :
    ∃ owed, rest.Pays owed ∧ (r'.settled owed).Agrees loaded := by
  induction reaches generalizing owed with
  | here => exact ⟨owed, pays, h⟩
  | @next c next r r' answer rest allowed _ ih =>
    obtain ⟨rfl, pays⟩ := pays
    refine ih (pays answer) ?_
    cases changes : c.changesQueue with
    | false =>
      rw [changes, if_neg Bool.false_ne_true] at h
      exact Agrees.after h changes allowed
    | true =>
      rw [changes, if_pos rfl] at h
      exact h.paid changes answer

/-! ## Runs -/

/-- From the start, tasks lead to the state one after another. The flag says whether the store was
loaded by then. -/
inductive Works (start : Roster) : Bool → Roster → Prop where
  | here : Works start false start
  | next {loaded loads : Bool} {task : Poll.Task} {r r' : Roster} (works : Works start loaded r)
      (ends : Ends calls task.script r loads r') : Works start (loaded || loads) r'

/-- A task that says so has queued all that is stored. -/
theorem Agrees.loads {task : Poll.Task} (h : r.Agrees loaded)
    (ends : Ends calls task.script r true r') : r'.Agrees true := by
  obtain ⟨made, traces, -, -⟩ := reaches_iff.1 ends
  obtain rfl := Poll.Task.eq_load traces
  cases ends with
  | @next _ _ _ _ answer _ allowed rest =>
    rcases answer with fault | operations
    · cases rest
    · obtain rfl : operations = r.pending := allowed
      cases rest with
      | next _ rest =>
        cases rest
        exact h.extended _ rfl rfl

theorem Works.agrees (works : Works start loaded r) (empty : start.queue = {}) :
    r.Agrees loaded := by
  induction works with
  | here =>
    refine ⟨?_, ?_, Bool.noConfusion⟩
    · rw [empty]
      exact List.nodup_nil
    · rw [empty]
      exact List.nil_subset _
  | @next loaded loads task r r' _ ends ih =>
    obtain ⟨owed, pays, agrees⟩ := Agrees.reaches ends task.pays_script ih
    obtain rfl : owed = none := pays
    cases loads with
    | false => exact (Bool.or_false loaded).symm ▸ agrees
    | true => exact (Bool.or_true loaded).symm ▸ ih.loads ends

end Roster

/-- However tasks follow one another, whatever fails and wherever a pass is cancelled : whenever the
next call is none that changes the queue, no id is queued twice and every queued id is stored, and
from the first load that succeeded on every stored id is queued. A track that fails to store its
operation leaves the store and the queue as they are. -/
theorem queue_agrees_with_store {start r r' : Roster} {loaded : Bool} {task : Poll.Task}
    {rest : Script Bool} (empty : start.queue = {}) (works : Roster.Works start loaded r)
    (reaches : Reaches Roster.calls task.script r rest r') (settled : rest.queues = false) :
    (r'.queue.ids.Nodup ∧ r'.queue.ids ⊆ r'.stored ∧
      (loaded = true → ∀ id, id ∈ r'.queue.ids ↔ id ∈ r'.stored)) ∧
    ∀ operation fault result r'', Ends Roster.calls (Poll.track operation).run r' result r'' →
      ⟨.savePending operation, .error fault⟩ ∈ r''.trail.drop r'.trail.length →
      r''.pending = r'.pending ∧ r''.queue = r'.queue := by
  obtain ⟨owed, pays, agrees⟩ := Roster.Agrees.reaches reaches task.pays_script (works.agrees empty)
  obtain rfl := pays.owed_eq settled
  refine ⟨⟨agrees.distinct, agrees.stored, fun hl id => ⟨fun h => agrees.stored h, fun h =>
    agrees.queued hl h⟩⟩, fun operation fault result r'' ends failed => ?_⟩
  obtain ⟨made, steps⟩ := (Roster.Moves.track ends).exists_steps
  cases steps with
  | untracked => exact ⟨rfl, rfl⟩
  | tracked => simp at failed

/-- Stores with two witness assignments and the identifiers that these are for. -/
def Roster.assigned : Roster :=
  { pending := [.ofEntity .witnessAssignment "E", .ofEntity .witnessAssignment "F"]
    identifiers := ⟨[("E", ⟨"E", "first", true, []⟩), ("F", ⟨"F", "second", true, []⟩)]⟩ }

/-- The same after a load. -/
def Roster.watching : Roster :=
  calls.replay assigned
    [⟨.pendingOperations, .ok assigned.pending⟩, ⟨.enqueueAll assigned.pending, 2⟩]

/-- After a load, a pass has completed the first of two operations and goes on to the second. -/
theorem queue_agrees_with_store_midway : ∃ rest r',
    Roster.assigned.queue = {} ∧ Roster.Works .assigned true .watching ∧
    Reaches Roster.calls Poll.Task.pass.script .watching rest r' ∧ rest.queues = false ∧
    r'.queue.ids = ["witness.F"] ∧
    (r'.queue.ids.Nodup ∧ r'.queue.ids ⊆ r'.stored ∧
      ∀ id, id ∈ r'.queue.ids ↔ id ∈ r'.stored) ∧
    ∀ operation fault result r'', Ends Roster.calls (Poll.track operation).run r' result r'' →
      ⟨.savePending operation, .error fault⟩ ∈ r''.trail.drop r'.trail.length →
      r''.pending = r'.pending ∧ r''.queue = r'.queue := by
  have loads : Ends Roster.calls (Poll.Task.script .load) .assigned true .watching :=
    .call (.ok Roster.assigned.pending) rfl (.call 2 rfl (.here _ _))
  have loaded : Roster.Works .assigned true .watching := .next .here loads
  have reaches : Reaches Roster.calls Poll.Task.pass.script .watching _ _ :=
    .call true trivial (.call Roster.assigned.pending rfl (.call false trivial
      (.call (.ok ⟨"witness.E", true⟩) trivial (.call (.ok ()) rfl (.call () trivial
        (.call (.ok ()) trivial (.call true rfl (.here _ _))))))))
  obtain ⟨⟨distinct, stored, equal⟩, failed⟩ := queue_agrees_with_store rfl loaded reaches rfl
  exact ⟨_, _, rfl, loaded, reaches, rfl, by decide, ⟨distinct, stored, equal rfl⟩, failed⟩

end Feedkeeper
