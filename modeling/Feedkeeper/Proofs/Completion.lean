import Feedkeeper.Proofs.Roster
import Mathlib.Data.List.Nodup

/-!
# Completed operations

No operation is lost between its tracking and its completion. An id leaves the store, and but for a
restart the queue, only in a pass that completes an operation with it (`Roster.Steps.completes`), so
what was tracked is stored or was announced since. Announcements and deletions come in pairs
(`Roster.Run.exists_serves`) : an operation is announced once for every deletion that fails, and
once for the one that succeeds (`Roster.Run.exists_answersTo_eq`). Every announcement of a formed
group has launched one authorization, which is started once under the name of the group
(`Roster.Matched`). `operations_accounted` puts these together.
-/

namespace Feedkeeper

namespace Operation

/-- Operations that are named after their kinds and entities are told apart by their ids. -/
theorem ofEntity_inj {kind kind' : Kind} {entity entity' : String}
    (h : (ofEntity kind entity).id = (ofEntity kind' entity').id) :
    ofEntity kind entity = ofEntity kind' entity' := by
  have chars := congrArg String.toList h
  simp only [ofEntity, String.toList_append] at chars
  obtain rfl : kind = kind' := by
    cases kind <;> cases kind'
    · rfl
    · simp [Kind.label] at chars
    · simp [Kind.label] at chars
    · rfl
  obtain rfl := String.toList_inj.1 (List.append_cancel_left chars)
  rfl

end Operation

namespace Roster

open Script

/-- Nothing has been done yet : no call was made, and nothing is queued or launched. -/
structure Begins (r : Roster) : Prop where
  queue : r.queue = {}
  launched : r.launched = []
  trail : r.trail = []

/-- The operation was stored at the outset, or tracked since. -/
def Known (start r : Roster) (operation : Operation) : Prop :=
  operation ∈ start.pending ∨ ⟨.savePending operation, .ok ()⟩ ∈ r.trail

/-- Between the two states these operations were announced and deleted, in this order, each with
the answer to its deletion. -/
def Serves (r : Roster) (served : List (Operation × Except Fault Unit)) (r' : Roster) : Prop :=
  ∃ made, r'.trail = r.trail ++ made ∧
    made.filter Answered.settles = served.flatMap Poll.settling

/-- The answers to the deletions of operations with the id. -/
def answersTo (id : String) (served : List (Operation × Except Fault Unit)) :
    List (Except Fault Unit) :=
  (served.filter (·.1.id == id)).map (·.2)

variable {start r r' r'' : Roster} {move : Move} {made : List Answered} {id : String}
  {P : Roster → Prop} {served served' : List (Operation × Except Fault Unit)}

/-! ## Single moves -/

theorem Steps.trail_eq (steps : Steps r move made r') : r'.trail = r.trail ++ made := by
  cases steps with
  | passed => exact trail_replay r made
  | restarted | recorded => exact (List.append_nil _).symm
  | _ => rfl

theorem stored_subset_save (r : Roster) (operation : Operation) :
    r.stored ⊆ (r.save operation).stored := by
  unfold save
  split
  · exact List.Subset.refl _
  · exact List.map_subset _ (List.subset_append_left _ _)

theorem mem_stored_save (r : Roster) (operation : Operation) :
    operation.id ∈ (r.save operation).stored := by
  unfold save
  split
  · exact List.contains_iff_mem.1 ‹_›
  · simp [stored]

theorem mem_pending_save {operation other : Operation} (h : other ∈ (r.save operation).pending) :
    other ∈ r.pending ∨ other = operation := by
  unfold save at h
  split at h
  · exact Or.inl h
  · simpa using h

/-- An id leaves the store only by a deletion in a pass. -/
theorem Steps.mem_stored (steps : Steps r move made r') (stored : id ∈ r.stored) :
    id ∈ r'.stored ∨ move = .pass ∧ ⟨.deletePending id, .ok ()⟩ ∈ made := by
  cases steps with
  | tracked => exact Or.inl (stored_subset_save r _ stored)
  | passed passage =>
    by_cases deleted : id ∈ made.filterMap Answered.deleted?
    · exact Or.inr ⟨rfl, Answered.mem_filterMap_deleted.1 deleted⟩
    · obtain ⟨operation, mem, rfl⟩ := List.mem_map.1 stored
      refine Or.inl (List.mem_map.2 ⟨operation, ?_, rfl⟩)
      rw [pending_replay passage.adds_eq_false]
      exact List.mem_filter.2 ⟨mem, by simpa using deleted⟩
  | _ => exact Or.inl stored

/-- An id leaves the queue only in a restart, or by a deletion in a pass. -/
theorem Steps.mem_queue (steps : Steps r move made r') (queued : id ∈ r.queue.ids)
    (stays : move ≠ .restart) :
    id ∈ r'.queue.ids ∨ move = .pass ∧ ⟨.deletePending id, .ok ()⟩ ∈ made := by
  cases steps with
  | tracked =>
    exact Or.inl (List.map_subset _ (Operation.Queue.entries_prefix_push _ _).subset queued)
  | loaded =>
    exact Or.inl (List.map_subset _ (Operation.Queue.entries_prefix_extend _ _).subset queued)
  | restarted => exact absurd rfl stays
  | passed passage =>
    by_cases deleted : id ∈ made.filterMap Answered.deleted?
    · exact Or.inr ⟨rfl, Answered.mem_filterMap_deleted.1 deleted⟩
    · obtain ⟨operation, mem, rfl⟩ := List.mem_map.1 queued
      refine Or.inl (List.mem_map.2 ⟨operation, ?_, rfl⟩)
      rw [entries_replay passage.adds_eq_false, passage.dequeued_eq]
      exact List.mem_filter.2 ⟨mem, by simpa using deleted⟩
  | _ => exact Or.inl queued

/-- A deletion completes an operation that was queued. -/
theorem Steps.completes (steps : Steps r move made r')
    (deleted : ⟨.deletePending id, .ok ()⟩ ∈ made) :
    ∃ operation ∈ r.queue.entries, operation.id = id ∧ ∃ status removed, status.done = true ∧
      Poll.completing operation status removed <:+: made := by
  cases steps with
  | passed passage => exact passage.completing_of_deleted deleted
  | _ => simp at deleted

/-- A move announces and deletes operations in pairs, and only such as were queued. -/
theorem Steps.exists_served (steps : Steps r move made r') :
    ∃ served : List (Operation × Except Fault Unit), (served.map (·.1)).Sublist r.queue.entries ∧
      made.filter Answered.settles = served.flatMap Poll.settling := by
  cases steps with
  | passed passage => exact passage.exists_served
  | _ => exact ⟨[], List.nil_sublist _, rfl⟩

/-! ## What is stored and queued -/

/-- The queue repeats no id and holds what is stored, and what is stored or queued is known. -/
structure Tidy (start r : Roster) : Prop where
  nodup : r.queue.ids.Nodup
  backed : r.queue.ids ⊆ r.stored
  pending : ∀ operation ∈ r.pending, start.Known r operation
  queue : ∀ operation ∈ r.queue.entries, start.Known r operation

theorem Begins.tidy (begins : start.Begins) : Tidy start start where
  nodup := by rw [begins.queue]; exact List.nodup_nil
  backed := by rw [begins.queue]; exact List.nil_subset _
  pending _ h := Or.inl h
  queue := by rw [begins.queue]; simp

theorem Known.steps {operation : Operation} (known : start.Known r operation)
    (steps : Steps r move made r') : start.Known r' operation := by
  rw [Known, steps.trail_eq]
  exact known.imp_right (List.mem_append_left made)

theorem Tidy.steps (tidy : Tidy start r) (steps : Steps r move made r') : Tidy start r' := by
  have pending : ∀ operation ∈ r.pending, start.Known r' operation := fun operation h =>
    (tidy.pending operation h).steps steps
  have queue : ∀ operation ∈ r.queue.entries, start.Known r' operation := fun operation h =>
    (tidy.queue operation h).steps steps
  have fresh {operation : Operation} (h : ⟨.savePending operation, .ok ()⟩ ∈ made) :
      start.Known r' operation := by
    rw [Known, steps.trail_eq]
    exact Or.inr (List.mem_append_right _ h)
  cases steps with
  | untracked | unloaded | authorized | unnamed | recorded =>
    exact ⟨tidy.nodup, tidy.backed, pending, queue⟩
  | restarted => exact ⟨List.nodup_nil, List.nil_subset _, pending, by simp⟩
  | loaded =>
    refine ⟨Operation.Queue.nodup_ids_extend tidy.nodup _, ?_, pending, ?_⟩
    · intro id h
      obtain ⟨operation, mem, rfl⟩ := List.mem_map.1 h
      rcases Operation.Queue.mem_entries_extend mem with mem | mem
      · exact tidy.backed (List.mem_map_of_mem mem)
      · exact List.mem_map_of_mem mem
    · intro operation mem
      exact (Operation.Queue.mem_entries_extend mem).elim (queue operation) (pending operation)
  | @tracked tracked added =>
    refine ⟨Operation.Queue.nodup_ids_push tidy.nodup _, ?_, ?_, ?_⟩
    · intro id h
      obtain ⟨operation, mem, rfl⟩ := List.mem_map.1 h
      rcases Operation.Queue.mem_entries_push mem with mem | rfl
      · exact stored_subset_save r _ (tidy.backed (List.mem_map_of_mem mem))
      · exact mem_stored_save r _
    · intro operation mem
      rcases mem_pending_save mem with mem | rfl
      · exact pending operation mem
      · exact fresh List.mem_cons_self
    · intro operation mem
      rcases Operation.Queue.mem_entries_push mem with mem | rfl
      · exact queue operation mem
      · exact fresh List.mem_cons_self
  | passed passage =>
    have entries := entries_replay passage.adds_eq_false r
    have stays := pending_replay passage.adds_eq_false r
    rw [passage.dequeued_eq] at entries
    refine ⟨?_, ?_, ?_, ?_⟩
    · rw [Operation.Queue.ids, entries]
      exact tidy.nodup.sublist (List.filter_sublist.map _)
    · intro id h
      obtain ⟨operation, mem, rfl⟩ := List.mem_map.1 h
      rw [entries, List.mem_filter] at mem
      obtain ⟨other, mem', same⟩ := List.mem_map.1 (tidy.backed (List.mem_map_of_mem mem.1))
      refine List.mem_map.2 ⟨other, ?_, same⟩
      rw [stays, List.mem_filter]
      exact ⟨mem', by rw [same]; exact mem.2⟩
    · intro operation mem
      rw [stays] at mem
      exact pending operation (List.mem_of_mem_filter mem)
    · intro operation mem
      rw [entries] at mem
      exact queue operation (List.mem_of_mem_filter mem)

/-- What the moves keep holds at the end of a run. -/
theorem Run.keeps {I : Roster → Prop} (run : Run P r r') (begins : I r)
    (step : ∀ {move made r r'}, I r → Steps r move made r' → I r') : I r' := by
  induction run with
  | here => exact begins
  | next _ _ moves ih =>
    obtain ⟨made, steps⟩ := moves.exists_steps
    exact step ih steps

theorem Run.tidy (run : Run P r r') (tidy : Tidy start r) : Tidy start r' :=
  run.keeps tidy fun tidy steps => tidy.steps steps

/-! ## What is announced and deleted -/

theorem Serves.refl (r : Roster) : r.Serves [] r :=
  ⟨[], (List.append_nil _).symm, rfl⟩

theorem Serves.trans (h : r.Serves served r') (h' : r'.Serves served' r'') :
    r.Serves (served ++ served') r'' := by
  obtain ⟨made, trail, settled⟩ := h
  obtain ⟨made', trail', settled'⟩ := h'
  refine ⟨made ++ made', by rw [trail', trail, List.append_assoc], ?_⟩
  rw [List.filter_append, settled, settled', List.flatMap_append]

theorem answersTo_append (id : String) (served served' : List (Operation × Except Fault Unit)) :
    answersTo id (served ++ served') = answersTo id served ++ answersTo id served' := by
  rw [answersTo, List.filter_append, List.map_append]
  rfl

theorem mem_answersTo {answer : Except Fault Unit} :
    answer ∈ answersTo id served ↔
      ∃ operation, (operation, answer) ∈ served ∧ operation.id = id := by
  simp [answersTo]

theorem ok_mem_answersTo (settled : made.filter Answered.settles = served.flatMap Poll.settling) :
    .ok () ∈ answersTo id served ↔ ⟨.deletePending id, .ok ()⟩ ∈ made := by
  have deletion : (⟨.deletePending id, .ok ()⟩ : Answered) ∈ made.filter Answered.settles ↔
      ⟨.deletePending id, .ok ()⟩ ∈ made :=
    List.mem_filter.trans (and_iff_left rfl)
  rw [← deletion, settled, List.mem_flatMap, mem_answersTo]
  constructor
  · rintro ⟨operation, mem, rfl⟩
    exact ⟨_, mem, List.mem_cons_of_mem _ List.mem_cons_self⟩
  · rintro ⟨⟨operation, answer⟩, mem, h⟩
    rcases List.mem_cons.1 h with h | h
    · cases h
    · cases List.mem_singleton.1 h
      exact ⟨operation, mem, rfl⟩

/-- A move asks for the deletion of each operation at most once. -/
theorem length_answersTo_le (sublist : (served.map (·.1)).Sublist r.queue.entries)
    (nodup : r.queue.ids.Nodup) (id : String) : (answersTo id served).length ≤ 1 := by
  have ids : ((served.map (·.1)).map (·.id)).Nodup := nodup.sublist (sublist.map _)
  rw [List.map_map] at ids
  have count := List.nodup_iff_count_le_one.1 ids id
  rw [List.count, List.countP_map, List.countP_eq_length_filter] at count
  rwa [answersTo, List.length_map]

/-- What is deleted is not stored. -/
theorem Steps.not_mem_stored (steps : Steps r move made r')
    (deleted : ⟨.deletePending id, .ok ()⟩ ∈ made) : id ∉ r'.stored := by
  cases steps with
  | passed passage =>
    intro stored
    obtain ⟨operation, mem, rfl⟩ := List.mem_map.1 stored
    rw [pending_replay passage.adds_eq_false, List.mem_filter] at mem
    have kept : operation.id ∉ made.filterMap Answered.deleted? := by simpa using mem.2
    exact kept (Answered.mem_filterMap_deleted.2 deleted)
  | _ => simp at deleted

/-- If a move asks for the deletion of a stored operation, the deletion fails, or the operation is
not stored any more. -/
theorem Steps.answersTo_eq (steps : Steps r move made r') (nodup : r.queue.ids.Nodup)
    (sublist : (served.map (·.1)).Sublist r.queue.entries)
    (settled : made.filter Answered.settles = served.flatMap Poll.settling)
    (stored : id ∈ r.stored) :
    ∃ faults : List Fault, answersTo id served =
      faults.map .error ++ if id ∈ r'.stored then [] else [.ok ()] := by
  have once := length_answersTo_le sublist nodup id
  have deletion : .ok () ∈ answersTo id served ↔ ⟨.deletePending id, .ok ()⟩ ∈ made :=
    ok_mem_answersTo settled
  generalize answersTo id served = answers at once deletion ⊢
  split
  · rename_i stays
    have failed : .ok () ∉ answers := fun h => steps.not_mem_stored (deletion.1 h) stays
    match answers, once with
    | [], _ => exact ⟨[], rfl⟩
    | [.error fault], _ => exact ⟨[fault], rfl⟩
    | [.ok ()], _ => exact absurd List.mem_cons_self failed
  · rename_i gone
    have succeeded : .ok () ∈ answers :=
      deletion.2 ((steps.mem_stored stored).resolve_left gone).2
    obtain ⟨answer, rfl⟩ := List.length_eq_one_iff.1
      (Nat.le_antisymm once (List.length_pos_of_mem succeeded))
    rw [← List.mem_singleton.1 succeeded]
    exact ⟨[], rfl⟩

/-- Whatever happens, operations are announced and deleted in pairs, and only known ones. What was
stored is stored, or announced. -/
theorem Run.exists_serves (run : Run P r r') (tidy : Tidy start r) :
    ∃ served, r.Serves served r' ∧ (∀ entry ∈ served, start.Known r' entry.1) ∧
      ∀ id ∈ r.stored, id ∈ r'.stored ∨ ∃ entry ∈ served, entry.1.id = id := by
  induction run with
  | here => exact ⟨[], .refl r, by simp, fun _ stored => Or.inl stored⟩
  | @next move r₁ r₂ run _ moves ih =>
    obtain ⟨served, serves, known, accounted⟩ := ih
    obtain ⟨made, steps⟩ := moves.exists_steps
    obtain ⟨served', sublist, settled⟩ := steps.exists_served
    refine ⟨served ++ served', serves.trans ⟨made, steps.trail_eq, settled⟩, ?_, ?_⟩
    · intro entry mem
      refine Known.steps ?_ steps
      rcases List.mem_append.1 mem with mem | mem
      · exact known entry mem
      · exact (run.tidy tidy).queue _ (sublist.subset (List.mem_map_of_mem mem))
    · intro id stored
      rcases accounted id stored with stored | ⟨entry, mem, same⟩
      · refine (steps.mem_stored stored).imp_right fun ⟨_, deleted⟩ => ?_
        obtain ⟨operation, mem, same⟩ := mem_answersTo.1 ((ok_mem_answersTo settled).2 deleted)
        exact ⟨_, List.mem_append_right _ mem, same⟩
      · exact Or.inr ⟨entry, List.mem_append_left _ mem, same⟩

/-- While an operation stays stored all its deletions fail, and the one that succeeds removes it. -/
theorem Run.exists_answersTo_eq (run : Run (fun q => id ∈ q.stored) r r') (tidy : Tidy start r)
    (stored : id ∈ r.stored) :
    ∃ served, r.Serves served r' ∧ ∃ faults : List Fault, answersTo id served =
      faults.map .error ++ if id ∈ r'.stored then [] else [.ok ()] := by
  induction run with
  | here => exact ⟨[], .refl r, [], by rw [if_pos stored]; rfl⟩
  | @next move r₁ r₂ run holds moves ih =>
    obtain ⟨served, serves, faults, answers⟩ := ih
    obtain ⟨made, steps⟩ := moves.exists_steps
    obtain ⟨served', sublist, settled⟩ := steps.exists_served
    obtain ⟨faults', answers'⟩ :=
      steps.answersTo_eq (run.tidy tidy).nodup sublist settled holds
    refine ⟨served ++ served', serves.trans ⟨made, steps.trail_eq, settled⟩,
      faults ++ faults', ?_⟩
    rw [answersTo_append, answers, answers', if_pos holds, List.append_nil, List.map_append,
      List.append_assoc]

/-! ## Authorizations -/

/-- Every formation that was announced has launched one authorization, and those that are not due
any more were started under the names of their groups. -/
structure Matched (r : Roster) : Prop where
  launches : r.trail.filterMap Answered.launched? = r.trail.filterMap Answered.formed?
  due : r.launched ⊆ r.trail.filterMap Answered.formed?
  named : ∀ group ∈ r.trail.filterMap Answered.formed?, (r.name? group).isSome = true
  starts : ((r.trail.filterMap Answered.started?).map some ++ r.launched.map r.name?).Perm
    ((r.trail.filterMap Answered.formed?).map r.name?)

theorem Begins.matched (begins : start.Begins) : start.Matched where
  launches := by rw [begins.trail]; rfl
  due := by rw [begins.launched]; exact List.nil_subset _
  named := by rw [begins.trail]; simp
  starts := by rw [begins.trail, begins.launched]; exact .refl _

/-- An identifier that calls have cleared has a name. -/
theorem isSome_name?_of_cleared {group : String} {pending : Bool} (allowed : calls.AllowsAll r made)
    (cleared : ⟨.setPending group pending, .ok ()⟩ ∈ made) : (r.name? group).isSome = true := by
  obtain ⟨before, after, rfl⟩ := List.append_of_mem cleared
  have found := (Behavior.allowsAll_append.1 allowed).2.1
  rw [← name?_replay r before, name?, Option.isSome_map]
  exact found

/-- Calls keep what was matched if they launch what they announce, keep the names, and start what
is not due any more. -/
theorem Matched.extend (matched : r.Matched) (trail : r'.trail = r.trail ++ made)
    (launches : made.filterMap Answered.launched? = made.filterMap Answered.formed?)
    (names : ∀ group ∈ r.trail.filterMap Answered.formed?, r'.name? group = r.name? group)
    (named : ∀ group ∈ made.filterMap Answered.launched?, (r'.name? group).isSome = true)
    (due : r'.launched ⊆ r.launched ++ made.filterMap Answered.launched?)
    (starts : ((made.filterMap Answered.started?).map some ++ r'.launched.map r'.name?).Perm
      ((r.launched ++ made.filterMap Answered.launched?).map r'.name?)) : r'.Matched := by
  have formed : r'.trail.filterMap Answered.formed? =
      r.trail.filterMap Answered.formed? ++ made.filterMap Answered.launched? := by
    rw [trail, List.filterMap_append, launches]
  refine ⟨?_, ?_, ?_, ?_⟩
  · rw [formed, trail, List.filterMap_append, matched.launches]
  · rw [formed]
    exact List.Subset.trans due (List.append_subset.2
      ⟨List.Subset.trans matched.due (List.subset_append_left _ _), List.subset_append_right _ _⟩)
  · rw [formed]
    intro group h
    rcases List.mem_append.1 h with h | h
    · rw [names group h]
      exact matched.named group h
    · exact named group h
  · have before : ((r.trail.filterMap Answered.started?).map some ++
        r.launched.map r'.name?).Perm ((r.trail.filterMap Answered.formed?).map r'.name?) := by
      rw [List.map_congr_left names, List.map_congr_left fun g h => names g (matched.due h)]
      exact matched.starts
    rw [formed, trail, List.filterMap_append, List.map_append, List.map_append, List.append_assoc]
    refine (starts.append_left _).trans ?_
    rw [List.map_append, ← List.append_assoc]
    exact before.append_right _

/-- Moves that launch and start nothing keep what was matched, if they keep the names. -/
theorem Matched.quiet (matched : r.Matched) (trail : r'.trail = r.trail ++ made)
    (quiet : made.filterMap Answered.launched? = [] ∧ made.filterMap Answered.formed? = [] ∧
      made.filterMap Answered.started? = [])
    (launched : r'.launched = r.launched)
    (names : ∀ group ∈ r.trail.filterMap Answered.formed?, r'.name? group = r.name? group) :
    r'.Matched := by
  obtain ⟨nothing, unformed, unstarted⟩ := quiet
  refine matched.extend trail (nothing.trans unformed.symm) names ?_ ?_ ?_
  · rw [nothing]
    exact fun _ h => by cases h
  · rw [launched]
    exact List.subset_append_left _ _
  · rw [launched, nothing, unstarted, List.append_nil]
    exact .refl _

theorem Matched.steps (matched : r.Matched) (steps : Steps r move made r') : r'.Matched := by
  have trail := steps.trail_eq
  cases steps with
  | untracked | unloaded | loaded | restarted =>
    exact matched.quiet trail ⟨rfl, rfl, rfl⟩ rfl fun _ _ => rfl
  | tracked =>
    refine matched.quiet trail ⟨rfl, rfl, rfl⟩ (launched_save r _) fun group _ => ?_
    exact name?_save r _ group
  | passed passage allowed =>
    refine matched.extend trail passage.launched_eq (fun group _ => name?_replay r made group)
      (fun group h => ?_) ?_ ?_
    · rw [name?_replay]
      exact isSome_name?_of_cleared allowed
        (passage.cleared_of_launched (Answered.mem_filterMap_launched.1 h))
    · rw [launched_replay]
      exact List.Subset.refl _
    · rw [launched_replay, passage.started_eq]
      exact .refl _
  | unnamed due missing =>
    have named := matched.named _ (matched.due due)
    rw [name?, missing] at named
    cases named
  | @authorized group identifier result due found =>
    have named : some identifier.name = r.name? group := by rw [name?, found]; rfl
    refine matched.extend trail rfl (fun _ _ => rfl) (fun _ h => by cases h) ?_ ?_
    · exact List.Subset.trans List.erase_subset (List.subset_append_left _ _)
    · change ([some identifier.name] ++ (r.launched.erase group).map r.name?).Perm
        ((r.launched ++ []).map r.name?)
      rw [named, List.append_nil]
      exact ((List.perm_cons_erase due).map r.name?).symm
  | @recorded identifier missing =>
    refine matched.quiet trail ⟨rfl, rfl, rfl⟩ rfl fun group formed => ?_
    have named := matched.named group formed
    have other : group ≠ identifier.id := by
      rintro rfl
      rw [name?, missing] at named
      cases named
    rw [name?, name?, Table.get?_put_of_ne other]

theorem Run.matched (run : Run P r r') (matched : r.Matched) : r'.Matched :=
  run.keeps matched fun matched steps => matched.steps steps

/-! ## Tracking -/

theorem Steps.mem_stored_of_tracked (steps : Steps r move made r') {operation : Operation}
    (tracked : move = .track operation (.ok ())) : operation.id ∈ r'.stored := by
  cases steps with
  | tracked =>
    cases tracked
    exact mem_stored_save r operation
  | _ => cases tracked

theorem Steps.mem_trail_of_tracked (steps : Steps r move made r') {operation : Operation}
    (tracked : move = .track operation (.ok ())) :
    ⟨.savePending operation, .ok ()⟩ ∈ r'.trail := by
  rw [steps.trail_eq]
  cases steps with
  | tracked =>
    cases tracked
    exact List.mem_append_right _ List.mem_cons_self
  | _ => cases tracked

theorem Run.trail_prefix (run : Run P r r') : r.trail <+: r'.trail :=
  run.keeps (I := fun q => r.trail <+: q.trail) (List.prefix_refl _) fun h steps =>
    h.trans (steps.trail_eq ▸ List.prefix_append _ _)

/-- A move by which an id leaves the store or the queue is a restart, or a pass that completes an
operation with the id. -/
theorem Moves.exists_completing (moves : Moves move r r')
    (left : id ∈ r.stored ∧ id ∉ r'.stored ∨
      id ∈ r.queue.ids ∧ id ∉ r'.queue.ids ∧ move ≠ .restart) :
    move = .pass ∧ ∃ operation ∈ r.queue.entries, operation.id = id ∧
      ∃ made status removed, r'.trail = r.trail ++ made ∧ status.done = true ∧
        Poll.completing operation status removed <:+: made := by
  obtain ⟨made, steps⟩ := moves.exists_steps
  have deleted : move = .pass ∧ ⟨.deletePending id, .ok ()⟩ ∈ made := by
    rcases left with ⟨stored, gone⟩ | ⟨queued, gone, stays⟩
    · exact (steps.mem_stored stored).resolve_left gone
    · exact (steps.mem_queue queued stays).resolve_left gone
  obtain ⟨operation, mem, same, status, removed, done, completed⟩ := steps.completes deleted.2
  exact ⟨deleted.1, operation, mem, same, made, status, removed, steps.trail_eq, done, completed⟩

/-- After an operation was tracked, one with its id is stored or was announced since. If ids are
made from kinds and entities, it is the operation itself. -/
theorem Run.tracked_accounted {operation : Operation} (run : Run P r' r'') (tidy : Tidy start r)
    (moves : Moves (.track operation (.ok ())) r r') :
    ∃ other, other.id = operation.id ∧ start.Known r'' other ∧
      (other ∈ r''.pending ∨ ∃ served, r'.Serves served r'' ∧ other ∈ served.map (·.1)) ∧
      ((∀ known, start.Known r'' known → ∃ kind entity, known = .ofEntity kind entity) →
        other = operation) := by
  obtain ⟨made, steps⟩ := moves.exists_steps
  have tidy' := tidy.steps steps
  have tracked : start.Known r'' operation :=
    Or.inr (run.trail_prefix.subset (steps.mem_trail_of_tracked rfl))
  have named {other : Operation} (known : start.Known r'' other) (same : other.id = operation.id)
      (entities : ∀ known, start.Known r'' known → ∃ kind entity, known = .ofEntity kind entity) :
      other = operation := by
    obtain ⟨kind, entity, rfl⟩ := entities other known
    obtain ⟨kind', entity', rfl⟩ := entities operation tracked
    exact Operation.ofEntity_inj same
  obtain ⟨served, serves, known, accounted⟩ := run.exists_serves tidy'
  rcases accounted operation.id (steps.mem_stored_of_tracked rfl) with stored | ⟨entry, mem, same⟩
  · obtain ⟨other, mem, same⟩ := List.mem_map.1 stored
    have known := (run.tidy tidy').pending other mem
    exact ⟨other, same, known, Or.inl mem, named known same⟩
  · exact ⟨entry.1, same, known entry mem, Or.inr ⟨served, serves, List.mem_map_of_mem mem⟩,
      named (known entry mem) same⟩

end Roster

open Roster in
/-- From any state that a poller with its stores may reach :

* an id leaves the store, or the queue other than in a restart, only in a pass that was told that an
  operation with it is finished, cleared its identifier, announced it, and deleted it after that;
* an operation that was tracked is stored or was announced since, under its id and, if ids are those
  that kinds and entities make, as itself;
* announcements and deletions come in pairs about one operation; while an operation is stored its
  deletions fail, and one that succeeds ends that;
* the authorizations that are launched are those of the groups whose formation is announced, and
  each that is not still due was started once, under the name of its group. -/
theorem operations_accounted {start r : Roster} (begins : start.Begins)
    (run : Roster.Run (fun _ => True) start r) :
    (∀ move r' id, Roster.Moves move r r' →
      id ∈ r.stored ∧ id ∉ r'.stored ∨
        id ∈ r.queue.ids ∧ id ∉ r'.queue.ids ∧ move ≠ .restart →
      move = .pass ∧ ∃ operation ∈ r.queue.entries, operation.id = id ∧
        ∃ made status removed, r'.trail = r.trail ++ made ∧ status.done = true ∧
          Poll.completing operation status removed <:+: made) ∧
    (∀ operation r₁ r₂, Roster.Moves (.track operation (.ok ())) r r₁ →
      Roster.Run (fun _ => True) r₁ r₂ →
      ∃ other, other.id = operation.id ∧ start.Known r₂ other ∧
        (other ∈ r₂.pending ∨
          ∃ served, r₁.Serves served r₂ ∧ other ∈ served.map (·.1)) ∧
        ((∀ known, start.Known r₂ known → ∃ kind entity, known = .ofEntity kind entity) →
          other = operation)) ∧
    (∀ r', Roster.Run (fun _ => True) r r' →
      ∃ served, r.Serves served r' ∧ ∀ entry ∈ served, start.Known r' entry.1) ∧
    (∀ id r', id ∈ r.stored → Roster.Run (fun q => id ∈ q.stored) r r' →
      ∃ served, r.Serves served r' ∧ ∃ faults : List Fault, answersTo id served =
        faults.map .error ++ if id ∈ r'.stored then [] else [.ok ()]) ∧
    r.trail.filterMap Answered.launched? = r.trail.filterMap Answered.formed? ∧
    ((r.trail.filterMap Answered.started?).map some ++ r.launched.map r.name?).Perm
      ((r.trail.filterMap Answered.formed?).map r.name?) := by
  have tidy : Tidy start r := run.tidy begins.tidy
  have matched : r.Matched := run.matched begins.matched
  refine ⟨?_, ?_, ?_, ?_, matched.launches, matched.starts⟩
  · exact fun move r' id moves left => moves.exists_completing left
  · exact fun operation r₁ r₂ moves run' => run'.tracked_accounted tidy moves
  · intro r' run'
    obtain ⟨served, serves, known, -⟩ := run'.exists_serves tidy
    exact ⟨served, serves, known⟩
  · intro id r' stored run'
    exact run'.exists_answersTo_eq tidy stored

/-! ## A deletion that fails once -/

/-- A group whose formation is waited for. -/
def Operation.fresh : Operation :=
  .ofEntity .groupFormation "G"

/-- The stores with a record of a group, before anything is done. -/
def Roster.fresh : Roster :=
  { identifiers := ⟨[("G", ⟨"G", "group", true, []⟩)]⟩ }

namespace Roster

open Script

/-- The state once the formation is tracked. -/
def tracked : Roster :=
  calls.replay fresh [⟨.savePending .fresh, .ok ()⟩, ⟨.enqueue .fresh, true⟩]

/-- The state after a pass that failed to delete the formation. -/
def kept : Roster :=
  calls.replay tracked
    (Poll.visiting .fresh (Poll.keeping .fresh ⟨"group.G", true⟩ ⟨"store unavailable", []⟩))

/-- The state after another pass, which deleted it. -/
def deleted : Roster :=
  calls.replay kept (Poll.visiting .fresh (Poll.completing .fresh ⟨"group.G", true⟩ true))

theorem moves_tracked : Moves (.track .fresh (.ok ())) fresh tracked := by
  refine .track (reaches_iff.2 ⟨_, ?_, ?_, rfl⟩)
  · exact .next (.next (.here _))
  · exact ⟨trivial, rfl, trivial⟩

theorem moves_kept : Moves .pass tracked kept := by
  have ends : Ends calls Poll.pass tracked { checked := 1, failed := 1 } kept := by
    refine reaches_iff.2 ⟨_, ?_, ?_, rfl⟩
    · exact .next (.next (.next (.next (.next (.next (.next (.next (.here _))))))))
    · exact ⟨trivial, rfl, trivial, trivial, rfl, trivial, trivial, trivial, trivial⟩
  exact .pass ends

theorem moves_deleted : Moves .pass kept deleted := by
  have ends : Ends calls Poll.pass kept { checked := 1, completed := 1 } deleted := by
    refine reaches_iff.2 ⟨_, ?_, ?_, rfl⟩
    · exact .next (.next (.next (.next (.next (.next (.next (.next (.next (.here _)))))))))
    · exact ⟨trivial, rfl, trivial, trivial, rfl, trivial, trivial, trivial, rfl, trivial⟩
  exact .pass ends

end Roster

open Roster in
/-- A formation whose deletion fails once is announced twice. -/
theorem operations_accounted_kept :
    fresh.Begins ∧ Run (fun _ => True) fresh tracked ∧
      Run (fun q => Operation.fresh.id ∈ q.stored) tracked deleted ∧
      Operation.fresh.id ∈ tracked.stored ∧ Operation.fresh.id ∉ deleted.stored ∧
      ∃ served, tracked.Serves served deleted ∧ ∃ faults : List Fault,
        answersTo Operation.fresh.id served = faults.map .error ++ [.ok ()] := by
  have begins : fresh.Begins := ⟨rfl, rfl, rfl⟩
  have run : Run (fun _ => True) fresh tracked := .next .here trivial moves_tracked
  have stays : Run (fun q => Operation.fresh.id ∈ q.stored) tracked deleted :=
    .next (.next .here (by decide) moves_kept) (by decide) moves_deleted
  have gone : Operation.fresh.id ∉ deleted.stored := by decide
  obtain ⟨-, -, -, answers, -⟩ := operations_accounted begins run
  obtain ⟨served, serves, faults, heq⟩ := answers _ _ (by decide) stays
  rw [if_neg gone] at heq
  exact ⟨begins, run, stays, by decide, gone, served, serves, faults, heq⟩

end Feedkeeper
