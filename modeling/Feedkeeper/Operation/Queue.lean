import Feedkeeper.Operation

/-!
# The queue of watched operations

The operations that the poller asks about, in the order in which they were added. The queue holds
an id at most once: `push` adds an operation only if its id is new, and `extend` pushes one after
another. `nodup_ids_push` and `nodup_ids_remove` say that this is kept.
-/

namespace Feedkeeper

/-- Operations being watched, oldest first. -/
structure Operation.Queue where
  entries : List Operation := []
  deriving DecidableEq, Repr

namespace Operation.Queue

/-- The ids of the queued operations. -/
def ids (queue : Operation.Queue) : List String :=
  queue.entries.map (·.id)

/-- Whether an operation with the id is queued. -/
def contains (queue : Operation.Queue) (id : String) : Bool :=
  queue.entries.any (·.id == id)

/-- Adds the operation unless its id is queued, and says whether it did. -/
def push (queue : Operation.Queue) (operation : Operation) : Bool × Operation.Queue :=
  if queue.contains operation.id then (false, queue)
  else (true, ⟨queue.entries ++ [operation]⟩)

/-- Pushes the operations one after another, and says how many were added. -/
def extend (queue : Operation.Queue) : List Operation → Nat × Operation.Queue
  | [] => (0, queue)
  | operation :: rest =>
    let (added, queue) := queue.push operation
    let (count, queue) := extend queue rest
    ((if added then count + 1 else count), queue)

/-- Removes the operation with the id, and says whether there was one. -/
def remove (queue : Operation.Queue) (id : String) : Bool × Operation.Queue :=
  (queue.contains id, ⟨queue.entries.filter (·.id != id)⟩)

/-- How many operations are queued. -/
def size (queue : Operation.Queue) : Nat :=
  queue.entries.length

/-- Whether no operation is queued. -/
def isEmpty (queue : Operation.Queue) : Bool :=
  queue.entries.isEmpty

/-! ## Commands -/

/-- A use of the queue. -/
inductive Command where
  | push (operation : Operation)
  | extend (operations : List Operation)
  | remove (id : String)
  | contains (id : String)
  | list
  deriving DecidableEq, Repr

/-- What a use of the queue answers. -/
inductive Reply where
  | flag (value : Bool)
  | count (n : Nat)
  | listing (queue : Operation.Queue)
  deriving DecidableEq, Repr

/-- The answer to a use of the queue, and the queue after it. -/
def command (queue : Operation.Queue) : Command → Reply × Operation.Queue
  | .push operation =>
    let (added, queue) := queue.push operation
    (.flag added, queue)
  | .extend operations =>
    let (added, queue) := queue.extend operations
    (.count added, queue)
  | .remove id =>
    let (removed, queue) := queue.remove id
    (.flag removed, queue)
  | .contains id => (.flag (queue.contains id), queue)
  | .list => (.listing queue, queue)

/-! ## Ids are not repeated -/

/-- The queue contains an id exactly if it is among its ids. -/
theorem contains_iff {queue : Operation.Queue} {id : String} :
    queue.contains id = true ↔ id ∈ queue.ids := by
  simp [contains, ids]

/-- Adding an operation repeats no id. -/
theorem nodup_ids_push {queue : Operation.Queue} (h : queue.ids.Nodup) (operation : Operation) :
    (queue.push operation).2.ids.Nodup := by
  unfold push
  split
  · exact h
  · rename_i hc
    have hn : operation.id ∉ queue.ids := fun hm => hc (contains_iff.2 hm)
    simp only [ids, List.map_append, List.map_cons, List.map_nil]
    refine List.nodup_append.2 ⟨h, by simp, ?_⟩
    rintro a ha b hb rfl
    simp only [List.mem_singleton] at hb
    exact hn (hb ▸ ha)

/-- What is queued after an operation was added was queued before, or is the operation. -/
theorem mem_entries_push {queue : Operation.Queue} {operation other : Operation}
    (h : other ∈ (queue.push operation).2.entries) : other ∈ queue.entries ∨ other = operation := by
  unfold push at h
  split at h
  · exact Or.inl h
  · simpa using h

/-- The operations that are queued stay in front when one is added. -/
theorem entries_prefix_push (queue : Operation.Queue) (operation : Operation) :
    queue.entries <+: (queue.push operation).2.entries := by
  unfold push
  split
  · exact List.prefix_refl _
  · exact List.prefix_append _ _

/-- The id of an operation is queued after it was added. -/
theorem mem_ids_push (queue : Operation.Queue) (operation : Operation) :
    operation.id ∈ (queue.push operation).2.ids := by
  unfold push
  split
  · exact contains_iff.1 ‹_›
  · simp [ids]

theorem mem_entries_extend {queue : Operation.Queue} {operations : List Operation}
    {other : Operation} (h : other ∈ (queue.extend operations).2.entries) :
    other ∈ queue.entries ∨ other ∈ operations := by
  induction operations generalizing queue with
  | nil => exact Or.inl h
  | cons operation rest ih =>
    rcases ih h with h | h
    · rcases mem_entries_push h with h | rfl
      · exact Or.inl h
      · exact Or.inr List.mem_cons_self
    · exact Or.inr (List.mem_cons_of_mem _ h)

theorem entries_prefix_extend (queue : Operation.Queue) (operations : List Operation) :
    queue.entries <+: (queue.extend operations).2.entries := by
  induction operations generalizing queue with
  | nil => exact List.prefix_refl _
  | cons operation rest ih => exact (entries_prefix_push queue operation).trans (ih _)

/-- Adding operations repeats no id. -/
theorem nodup_ids_extend {queue : Operation.Queue} (h : queue.ids.Nodup)
    (operations : List Operation) : (queue.extend operations).2.ids.Nodup := by
  induction operations generalizing queue with
  | nil => exact h
  | cons operation rest ih => exact ih (nodup_ids_push h operation)

/-- Removing an operation repeats no id. -/
theorem nodup_ids_remove {queue : Operation.Queue} (h : queue.ids.Nodup) (id : String) :
    (queue.remove id).2.ids.Nodup := by
  simp only [remove, ids]
  exact h.sublist (List.filter_sublist.map _)

end Operation.Queue

end Feedkeeper
