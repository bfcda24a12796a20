import Feedkeeper.Operation.Queue
import Mathlib.Algebra.Ring.Nat
import Mathlib.Data.List.Nodup

/-!
# The order of arrival

The queue is a map from ids to operations that keeps the order of arrival. Whatever is done with a
fresh queue comes down to operations that are added and ids that are dropped, one at a time
(`Operation.Queue.Command.changes`). Two views are told by these changes alone : the *line*, in
which an operation takes its place at the end unless its id has one already, and from which a
dropped id takes its one place away (`Operation.lineup`); and for every id its *holder*, the first
operation that was added with it since it was last dropped (`Operation.holder?`).

The queue looks for an id in all of its entries when it takes one away, the line only up to the
first. That they agree rests on ids being distinct (`Operation.Queue.entries_remove`). What a use of
the queue answers can be read off the line (`Operation.Queue.reply_command`).
-/

namespace Feedkeeper

namespace Operation

/-! ## Changes and what they come to -/

/-- What is done to a queue, one operation or id at a time. -/
inductive Change where
  | add (operation : Operation)
  | drop (id : String)

/-- The changes that a use of the queue asks for. -/
def Queue.Command.changes : Queue.Command → List Change
  | .push operation => [.add operation]
  | .extend operations => operations.map .add
  | .remove id => [.drop id]
  | .contains _ | .list => []

/-- Whether an operation of the line has the id. -/
def HasPlace (id : String) (line : List Operation) : Prop :=
  ∃ operation ∈ line, operation.id = id

instance (id : String) (line : List Operation) : Decidable (HasPlace id line) :=
  inferInstanceAs (Decidable (∃ operation ∈ line, operation.id = id))

/-- The line after a change : an operation takes the last place unless its id has one, and an id
that is dropped loses its first place. -/
def Change.next (line : List Operation) : Change → List Operation
  | .add operation => if HasPlace operation.id line then line else line ++ [operation]
  | .drop id => line.eraseP (·.id == id)

/-- The line after changes to an empty one. -/
def lineup (changes : List Change) : List Operation :=
  changes.foldl Change.next []

/-- The holder of the id after a change, given the one before. -/
def Change.holder (id : String) (held : Option Operation) : Change → Option Operation
  | .add operation => if operation.id = id then held.or (some operation) else held
  | .drop other => if other = id then none else held

/-- The first operation that was added with the id since the id was last dropped. -/
def holder? (changes : List Change) (id : String) : Option Operation :=
  changes.foldl (Change.holder id) none

namespace Queue

/-- What a use of a queue with this line is to answer. -/
def answerOn (line : List Operation) : Command → Reply
  | .push operation => .flag (¬HasPlace operation.id line)
  | .extend operations =>
    .count (((operations.map .add).foldl Change.next line).length - line.length)
  | .remove id | .contains id => .flag (HasPlace id line)
  | .list => .listing ⟨line⟩

/-- The queue after it was used. -/
def afterAll (queue : Operation.Queue) (commands : List Command) : Operation.Queue :=
  commands.foldl (fun queue command => (queue.command command).2) queue

/-- The uses of a queue with what they answer. -/
def replies (queue : Operation.Queue) : List Command → List (Command × Reply)
  | [] => []
  | command :: rest =>
    (command, (queue.command command).1) :: replies (queue.command command).2 rest

/-- How many operations were added, as far as the answer to one use tells. -/
def additions : Command × Reply → Nat
  | (.push _, .flag true) => 1
  | (.extend _, .count n) => n
  | _ => 0

/-- How many operations were removed, as far as the answer to one use tells. -/
def removals : Command × Reply → Nat
  | (.remove _, .flag true) => 1
  | _ => 0

variable {queue : Operation.Queue} {id : String} {operation : Operation}

/-! ## Single uses -/

theorem contains_iff_hasPlace : queue.contains id = true ↔ HasPlace id queue.entries := by
  simp [contains, HasPlace]

theorem contains_eq : queue.contains id = decide (HasPlace id queue.entries) :=
  Bool.eq_iff_iff.2 (contains_iff_hasPlace.trans decide_eq_true_iff.symm)

theorem push_fst : (queue.push operation).1 = decide (¬HasPlace operation.id queue.entries) := by
  rw [decide_not, ← contains_eq, push]
  cases queue.contains operation.id <;> rfl

theorem entries_push :
    (queue.push operation).2.entries = Change.next queue.entries (.add operation) := by
  rw [Change.next, push]
  split
  · rw [if_pos (contains_iff_hasPlace.1 ‹_›)]
  · rw [if_neg (mt contains_iff_hasPlace.2 ‹_›)]

/-- Taking away all entries with an id is taking away the first : there is no other. -/
theorem entries_remove (nodup : queue.ids.Nodup) :
    (queue.remove id).2.entries = Change.next queue.entries (.drop id) := by
  obtain ⟨entries⟩ := queue
  change entries.filter (·.id != id) = entries.eraseP (·.id == id)
  change (entries.map (·.id)).Nodup at nodup
  induction entries with
  | nil => rfl
  | cons first rest ih =>
    obtain ⟨alone, nodup⟩ := List.nodup_cons.1 nodup
    by_cases same : first.id = id
    · have others : rest.filter (·.id != id) = rest := by
        refine List.filter_eq_self.2 fun other mem => ?_
        have differs : other.id ≠ id := fun h =>
          alone (List.mem_map.2 ⟨other, mem, h.trans same.symm⟩)
        simpa using differs
      rw [List.filter_cons_of_neg (by simp [same]), List.eraseP_cons_of_pos (by simp [same]),
        others]
    · rw [List.filter_cons_of_pos (by simpa using same),
        List.eraseP_cons_of_neg (by simpa using same), ih nodup]

theorem entries_extend (operations : List Operation) :
    (queue.extend operations).2.entries =
      (operations.map .add).foldl Change.next queue.entries := by
  induction operations generalizing queue with
  | nil => rfl
  | cons operation rest ih =>
    rw [List.map_cons, List.foldl_cons, ← entries_push]
    exact ih

/-- An operation that is added makes the queue longer by one. -/
theorem size_push (queue : Operation.Queue) (operation : Operation) :
    (queue.push operation).2.size = queue.size + if (queue.push operation).1 then 1 else 0 := by
  unfold push
  split <;> simp [size]

/-- Extending a queue counts what it adds. -/
theorem size_extend (queue : Operation.Queue) (operations : List Operation) :
    (queue.extend operations).2.size = queue.size + (queue.extend operations).1 := by
  induction operations generalizing queue with
  | nil => rfl
  | cons operation rest ih =>
    have first := size_push queue operation
    have others := ih (queue.push operation).2
    change ((queue.push operation).2.extend rest).2.size = queue.size +
      if (queue.push operation).1 then ((queue.push operation).2.extend rest).1 + 1
      else ((queue.push operation).2.extend rest).1
    split at first
    · rw [if_pos ‹_›]
      omega
    · rw [if_neg ‹_›]
      omega

/-- An id that is removed makes the queue shorter by one. -/
theorem size_remove (nodup : queue.ids.Nodup) (id : String) :
    (queue.remove id).2.size + (if (queue.remove id).1 then 1 else 0) = queue.size := by
  rw [size, entries_remove nodup]
  change (queue.entries.eraseP (·.id == id)).length + (if queue.contains id then 1 else 0) = _
  split
  · rename_i found
    obtain ⟨operation, mem, same⟩ := contains_iff_hasPlace.1 found
    have := List.length_pos_of_mem mem
    rw [List.length_eraseP_of_mem mem (by simpa using same), size]
    omega
  · rename_i missing
    rw [List.eraseP_of_forall_not, size]
    · rfl
    · exact fun operation mem same =>
        missing (contains_iff_hasPlace.2 ⟨operation, mem, by simpa using same⟩)

/-- Extending by two lists is extending by one and then by the other. -/
theorem extend_append (first second : List Operation) :
    queue.extend (first ++ second) =
      ((queue.extend first).1 + ((queue.extend first).2.extend second).1,
        ((queue.extend first).2.extend second).2) := by
  induction first generalizing queue with
  | nil => simp [extend]
  | cons operation rest ih =>
    simp only [List.cons_append, extend, ih]
    split
    · exact Prod.ext (by simp only; omega) rfl
    · rfl

/-! ## Uses of all kinds -/

/-- No use of the queue repeats an id. -/
theorem nodup_ids_command (nodup : queue.ids.Nodup) (command : Command) :
    (queue.command command).2.ids.Nodup := by
  cases command with
  | push operation => exact nodup_ids_push nodup operation
  | extend operations => exact nodup_ids_extend nodup operations
  | remove id => exact nodup_ids_remove nodup id
  | contains | list => exact nodup

/-- A use of the queue changes its entries like a line. -/
theorem entries_command (nodup : queue.ids.Nodup) (command : Command) :
    (queue.command command).2.entries = command.changes.foldl Change.next queue.entries := by
  cases command with
  | push operation => exact entries_push
  | extend operations => exact entries_extend operations
  | remove id => exact entries_remove nodup
  | contains | list => rfl

/-- A use of the queue answers what its line says. -/
theorem reply_command (command : Command) :
    (queue.command command).1 = answerOn queue.entries command := by
  cases command with
  | push operation => exact congrArg Reply.flag push_fst
  | extend operations =>
    have grown := size_extend queue operations
    rw [size, size, entries_extend] at grown
    refine congrArg Reply.count ?_
    omega
  | remove id | contains id => exact congrArg Reply.flag contains_eq
  | list => rfl

theorem size_command (nodup : queue.ids.Nodup) (command : Command) :
    (queue.command command).2.size + removals (command, (queue.command command).1) =
      queue.size + additions (command, (queue.command command).1) := by
  cases command with
  | push operation =>
    have := size_push queue operation
    cases added : (queue.push operation).1 <;>
      simp_all [command, additions, removals]
  | extend operations => exact size_extend queue operations
  | remove id =>
    have := size_remove nodup id
    cases removed : (queue.remove id).1 <;> simp_all [command, additions, removals]
  | contains | list => rfl

/-! ## Holders -/

/-- The operation that is queued under the id. -/
def find? (queue : Operation.Queue) (id : String) : Option Operation :=
  queue.entries.find? (·.id == id)

theorem isSome_find? : (queue.find? id).isSome = queue.contains id := by
  rw [find?, List.isSome_find?, contains]

/-- An operation that is added holds its id if nobody did before. -/
theorem find?_push :
    (queue.push operation).2.find? id = Change.holder id (queue.find? id) (.add operation) := by
  rw [Change.holder, push]
  split
  · rename_i found
    split
    · rename_i same
      rw [same, ← isSome_find?] at found
      obtain ⟨holder, held⟩ := Option.isSome_iff_exists.1 found
      rw [held, Option.some_or]
    · rfl
  · change (queue.entries ++ [operation]).find? (·.id == id) = _
    rw [List.find?_append, List.find?_singleton]
    split <;> split <;> simp_all [find?]

/-- An id that is removed has no holder, and the others keep theirs. -/
theorem find?_remove (other : String) :
    (queue.remove other).2.find? id = Change.holder id (queue.find? id) (.drop other) := by
  change (queue.entries.filter (·.id != other)).find? (·.id == id) = _
  rw [Change.holder, List.find?_filter]
  split
  · rename_i same
    subst same
    exact List.find?_eq_none.2 fun operation _ => by simp
  · rename_i differs
    have same (operation : Operation) :
        decide ((operation.id != other) = true ∧ (operation.id == id) = true) =
          (operation.id == id) := by
      by_cases h : operation.id = id <;> simp [h, Ne.symm differs]
    simp only [same]
    rfl

theorem find?_extend (operations : List Operation) :
    (queue.extend operations).2.find? id =
      (operations.map .add).foldl (Change.holder id) (queue.find? id) := by
  induction operations generalizing queue with
  | nil => rfl
  | cons operation rest ih =>
    rw [List.map_cons, List.foldl_cons, ← find?_push]
    exact ih

/-- A use of the queue changes the holder of an id as told by its changes. -/
theorem find?_command (command : Command) :
    (queue.command command).2.find? id =
      command.changes.foldl (Change.holder id) (queue.find? id) := by
  cases command with
  | push operation => exact find?_push
  | extend operations => exact find?_extend operations
  | remove other => exact find?_remove other
  | contains | list => rfl

/-! ## Runs -/

theorem nodup_ids_afterAll (nodup : queue.ids.Nodup) (commands : List Command) :
    (queue.afterAll commands).ids.Nodup := by
  induction commands generalizing queue with
  | nil => exact nodup
  | cons command rest ih => exact ih (nodup_ids_command nodup command)

theorem entries_afterAll (nodup : queue.ids.Nodup) (commands : List Command) :
    (queue.afterAll commands).entries =
      (commands.flatMap Command.changes).foldl Change.next queue.entries := by
  induction commands generalizing queue with
  | nil => rfl
  | cons command rest ih =>
    rw [List.flatMap_cons, List.foldl_append, ← entries_command nodup]
    exact ih (nodup_ids_command nodup command)

theorem size_afterAll (nodup : queue.ids.Nodup) (commands : List Command) :
    (queue.afterAll commands).size + ((queue.replies commands).map removals).sum =
      queue.size + ((queue.replies commands).map additions).sum := by
  induction commands generalizing queue with
  | nil => rfl
  | cons command rest ih =>
    have first := size_command nodup command
    have others := ih (nodup_ids_command nodup command)
    rw [replies, List.map_cons, List.map_cons, List.sum_cons, List.sum_cons]
    change ((queue.command command).2.afterAll rest).size + _ = _
    omega

theorem find?_afterAll (commands : List Command) :
    (queue.afterAll commands).find? id =
      (commands.flatMap Command.changes).foldl (Change.holder id) (queue.find? id) := by
  induction commands generalizing queue with
  | nil => rfl
  | cons command rest ih =>
    rw [List.flatMap_cons, List.foldl_append, ← find?_command]
    exact ih

end Queue

open Queue in
/-- However a fresh queue was used :

* its ids are distinct, and its entries are the line of those who arrived : an operation whose id
  has a place is passed over, and an id that is dropped gives up its place to nobody;
* under every id stands the first operation that was added with it since it was dropped;
* every further use answers what the line says;
* it is as long as the answers have told of additions, less those that told of removals.

Any queue is extended by two lists as by one and then by the other, whatever ids they repeat. -/
theorem order_of_arrival :
    (∀ commands : List Queue.Command,
      let queue := afterAll {} commands
      let changes := commands.flatMap Command.changes
      queue.ids.Nodup ∧ queue.entries = lineup changes ∧
        (∀ id, queue.find? id = holder? changes id) ∧
        (∀ command, (queue.command command).1 = answerOn (lineup changes) command) ∧
        queue.size + ((replies {} commands).map removals).sum =
          ((replies {} commands).map additions).sum) ∧
    ∀ (queue : Operation.Queue) (first second : List Operation),
      queue.extend (first ++ second) =
        ((queue.extend first).1 + ((queue.extend first).2.extend second).1,
          ((queue.extend first).2.extend second).2) := by
  refine ⟨fun commands => ?_, fun _ => extend_append⟩
  have fresh : ({} : Operation.Queue).ids.Nodup := List.nodup_nil
  have entries := entries_afterAll fresh commands
  have size := size_afterAll fresh commands
  refine ⟨nodup_ids_afterAll fresh commands, entries, fun _ => find?_afterAll commands,
    fun command => ?_, size.trans (Nat.zero_add _)⟩
  rw [reply_command, entries]
  rfl

/-- An id that is repeated in one go, dropped and added again stands at the end. -/
example : (Queue.afterAll {} [.extend [⟨"a", .groupFormation, "A"⟩, ⟨"b", .groupFormation, "B"⟩,
    ⟨"a", .witnessAssignment, "C"⟩], .remove "a", .push ⟨"a", .witnessAssignment, "C"⟩]).entries =
    [⟨"b", .groupFormation, "B"⟩, ⟨"a", .witnessAssignment, "C"⟩] := by
  decide

end Operation

end Feedkeeper
