import Feedkeeper.Proofs.Batch
import Feedkeeper.Proofs.Interleaving
import Feedkeeper.Proofs.Run

/-!
# A restart loses no position

Whatever cursor is stored at the outset, absent or broken, the cursor in memory is the stored one as
loading repairs it (`Outside.Aligned`). A broken cursor is repaired in memory only, and a step
stores the cursor exactly when it changes it (`Sync.Rounds.stored`). So a loop that is started again
goes on from where the last one was (`restart_loses_no_position`), as long as cursor writes succeed.
Events must have an id that is not empty, since a cursor without an anchor counts as the start. All
else may fail, and events come and go at any time.

The position changes in two ways only : an advance moves it on by the number of events processed,
within the feed that was read, and a reset takes it back to the start (`Sync.Progresses`).
-/

namespace Feedkeeper

open Outside Script

/-! ## The stored cursors -/

/-- The cursor that a call has stored, with its key, if it did. -/
def Answered.stored? : Answered → Option (String × Cursor)
  | ⟨.storeCursor key cursor, .ok ()⟩ => some (key, cursor)
  | _ => none

namespace Outside

/-- Cursor writes succeed. -/
def Stores : Outside → (c : Call) → c.Answer → Prop
  | _, .storeCursor .., answer => answer = .ok ()
  | _, _, _ => True

/-- The event has an id that is not empty. -/
def Named (_ : Outside) (event : Event) : Prop :=
  event.id ≠ ""

/-- The script is run while named events are appended and any events are withdrawn, and all its
cursor writes succeed. -/
abbrev Proceeds {α : Type} (script : Script α) (o : Outside) (rest : Script α) (o' : Outside) :
    Prop :=
  Interleaves (limited Stores) (Changes Named 0) script o rest o'

variable {α : Type} {p : Outside → (c : Call) → c.Answer → Prop}
  {new : Outside → Event → Prop} {upto : Nat} {script rest : Script α} {o o' : Outside}
  {calls : List Answered}

theorem cursors_after (o : Outside) (c : Call) (answer : c.Answer) :
    (o.after c answer).cursors = (Answered.stored? ⟨c, answer⟩).toList.foldl
      (fun cursors entry => cursors.put entry.1 entry.2) o.cursors := by
  cases c with
  | storeCursor key cursor => cases answer <;> rfl
  | acknowledge | saveNotice | updateNotice | deleteNotice => cases answer <;> rfl
  | _ => rfl

/-- Cursors change by what the calls store. -/
theorem cursors_of_interleaves (h : Interleaves (limited p) (Changes new upto) script o rest o')
    (trail : o'.trail = o.trail ++ calls) :
    o'.cursors = (calls.filterMap Answered.stored?).foldl
      (fun cursors entry => cursors.put entry.1 entry.2) o.cursors := by
  have told : ∃ calls, o'.trail = o.trail ++ calls ∧
      o'.cursors = (calls.filterMap Answered.stored?).foldl
        (fun cursors entry => cursors.put entry.1 entry.2) o.cursors := by
    refine h.keeps (I := fun o' => ∃ calls, o'.trail = o.trail ++ calls ∧
      o'.cursors = (calls.filterMap Answered.stored?).foldl
        (fun cursors entry => cursors.put entry.1 entry.2) o.cursors)
      ⟨[], (List.append_nil _).symm, rfl⟩ ?_ ?_
    · rintro o₁ c answer ⟨calls, trail, cursors⟩ -
      refine ⟨calls ++ [⟨c, answer⟩], ?_, ?_⟩
      · rw [limited_after, trail_after, trail, List.append_assoc]
      · rw [limited_after, cursors_after, cursors, List.filterMap_append, List.foldl_append,
          List.filterMap_cons, List.filterMap_nil]
        cases Answered.stored? ⟨c, answer⟩ <;> rfl
    · rintro o₁ o₂ ⟨calls, trail, cursors⟩ changes
      exact ⟨calls, changes.trail_eq.trans trail, changes.cursors_eq.trans cursors⟩
  obtain ⟨calls', trail', cursors⟩ := told
  rw [trail', List.append_cancel_left_eq] at trail
  exact trail ▸ cursors

theorem Changes.named (changes : Changes Named upto o o')
    (named : ∀ event ∈ o.feed, event.id ≠ "") : ∀ event ∈ o'.feed, event.id ≠ "" := by
  intro event he
  cases changes with
  | append other unknown =>
    rcases List.mem_append.1 he with he | he
    · exact named event he
    · exact List.mem_singleton.1 he ▸ unknown
  | withdraw kept sublist =>
    rcases List.mem_append.1 he with he | he
    · exact named event (List.mem_of_mem_take he)
    · exact named event (List.mem_of_mem_drop (sublist.subset he))

theorem named_of_interleaves (h : Interleaves (limited p) (Changes Named upto) script o rest o')
    (named : ∀ event ∈ o.feed, event.id ≠ "") : ∀ event ∈ o'.feed, event.id ≠ "" := by
  refine h.keeps (I := fun o => ∀ event ∈ o.feed, event.id ≠ "") named
    (fun {o₁ c answer} named _ event he => ?_) fun named changes => changes.named named
  obtain ⟨first, hf, becomes⟩ := (later_after o₁ c answer).origin event he
  rw [becomes.id_eq]
  exact named first hf

end Outside

/-- Nothing is stored by the routing of an event. -/
theorem Routing.Effects.stored?_eq_none {event : Event} {outcome : Except RoutingError Verdict}
    {effects : List Answered} (h : Routing.Effects event outcome effects) :
    ∀ answered ∈ effects, answered.stored? = none := by
  cases h <;> simp [Answered.stored?]

namespace Sync

/-! ## Steps and the cursor -/

variable {settings : Settings} {state : State} {result : Except Crash (Outcome × State)}
  {calls : List Answered} {o o' : Outside} {key : String}

theorem Handling.stored?_eq_none (handling : Handling) :
    ∀ answered ∈ handling.trail, answered.stored? = none := by
  intro answered made
  rcases List.mem_append.1 made with made | made
  · cases he : answered.isEffect with
    | false =>
      unfold Answered.stored?
      split
      · cases he
      · rfl
    | true =>
      exact handling.shows.stored?_eq_none answered (List.mem_filter.2 ⟨made, he⟩)
  · rw [List.mem_singleton.1 made]
    rfl

theorem filterMap_stored_walk (window : List Event) (handled : List Handling) :
    (fetching settings state window ++ handled.flatMap Handling.trail).filterMap
      Answered.stored? = [] := by
  refine List.filterMap_eq_nil_iff.2 fun answered made => ?_
  rcases List.mem_append.1 made with made | made
  · simp only [fetching, List.mem_cons, List.not_mem_nil, or_false] at made
    rcases made with rfl | rfl | rfl <;> rfl
  · obtain ⟨handling, -, made⟩ := List.mem_flatMap.1 made
    exact handling.stored?_eq_none answered made

/-- A step stores the cursor if it changes it, and nothing else. -/
theorem Rounds.stored (rounds : Rounds settings state result calls)
    (stores : ∀ key cursor answer, ⟨.storeCursor key cursor, answer⟩ ∈ calls → answer = .ok ())
    (named : ∀ offset limit window, ⟨.fetch offset limit, .ok window⟩ ∈ calls →
      ∀ event ∈ window, event.id ≠ "") :
    calls.filterMap Answered.stored? = [] ∧ (state.next result).cursor = state.cursor ∨
      calls.filterMap Answered.stored? = [(settings.cursorKey, (state.next result).cursor)] ∧
        (state.next result).cursor.normalized = (state.next result).cursor := by
  cases rounds with
  | stopped _ waiting =>
    refine Or.inl ⟨List.filterMap_eq_nil_iff.2 fun answered made => ?_, rfl⟩
    have waits := waiting answered made
    unfold Answered.stored?
    split
    · exact waits.elim
    · rfl
  | crashed => exact Or.inl ⟨rfl, rfl⟩
  | overrun => exact Or.inl ⟨filterMap_stored_walk _ _, rfl⟩
  | @reset window answer =>
    obtain rfl := stores settings.cursorKey .start answer
      (List.mem_append_right _ (List.mem_singleton.2 rfl))
    exact Or.inr ⟨rfl, rfl⟩
  | @idle window => exact Or.inl ⟨rfl, rfl⟩
  | held => exact Or.inl ⟨filterMap_stored_walk _ _, rfl⟩
  | @advanced window processed last handled pass answer matched walks taken ended =>
    obtain rfl := stores _ _ answer (List.mem_append_right _ (List.mem_append_right _
      (List.mem_singleton.2 rfl)))
    have mem : last ∈ processed := List.mem_of_getLast? ended
    have anchor : last.id ≠ "" := by
      refine named _ _ window (List.mem_append_left _ (fetch_mem_fetching _ _ _)) last ?_
      exact mem_of_mem_unseen (List.mem_of_mem_take (taken ▸ mem))
    have moved : 0 < processed.length := List.length_pos_of_mem mem
    refine Or.inr ⟨?_, if_neg ?_⟩
    · rw [← List.append_assoc, List.filterMap_append, filterMap_stored_walk]
      rfl
    · rintro (zero | empty)
      · exact Nat.ne_of_gt moved (Nat.add_eq_zero_iff.1 zero).2
      · exact anchor empty

/-- The position moves on by what was processed, within a feed that was `read`, goes back to the
start at a reset, and does not change otherwise. -/
def Progresses (read : List Event → Prop) (state : State) :
    Except Crash (Outcome × State) → Prop
  | .ok (.advanced processed _, state') => 1 ≤ processed ∧
      state'.cursor.nextIndex = state.cursor.nextIndex + processed ∧
      ∃ feed, read feed ∧ state'.cursor.nextIndex ≤ feed.length
  | .ok (.cursorReset, state') => state'.cursor.nextIndex = 0
  | result => (state.next result).cursor = state.cursor

theorem Rounds.progresses {read : List Event → Prop} (rounds : Rounds settings state result calls)
    (fetched : ∀ offset limit window, ⟨.fetch offset limit, .ok window⟩ ∈ calls →
      ∃ feed, read feed ∧ window = (feed.drop offset).take (limit - offset)) :
    Progresses read state result := by
  cases rounds with
  | stopped stops =>
    simp only [Outcome.stops, List.mem_cons, List.not_mem_nil, or_false] at stops
    rcases stops with rfl | rfl | rfl | rfl <;> rfl
  | crashed | overrun | idle | held => rfl
  | reset => rfl
  | @advanced window processed last handled pass answer matched walks taken ended =>
    obtain ⟨feed, hread, hw⟩ := fetched _ _ window
      (List.mem_append_left _ (fetch_mem_fetching settings state window))
    rw [Nat.add_sub_cancel_left] at hw
    have moved : 0 < processed.length := List.length_pos_of_mem (List.mem_of_getLast? ended)
    have within : processed.length ≤ (feed.drop state.cursor.nextIndex).length :=
      ((taken ▸ List.take_prefix _ _ : processed <+: state.unseen window).trans
        (prefix_unseen hw matched)).length_le
    rw [List.length_drop] at within
    exact ⟨moved, rfl, feed, hread, by dsimp only; omega⟩

/-! ## Lifetimes -/

/-- From the start, where nothing is in memory, the loop is loaded, makes steps and may end in the
middle of one, any number of times. Its cursor is stored under the key. -/
inductive Lifetime (key : String) (start : Outside) : Option State → Outside → Prop where
  | begun : Lifetime key start none start
  | loaded {memory : Option State} {settings : Settings} {o o' : Outside}
      {result : Except Fault State} (lifetime : Lifetime key start memory o)
      (same : settings.cursorKey = key)
      (proceeds : Proceeds (load settings) o (.done result) o') :
      Lifetime key start (result.toOption.or memory) o'
  | stepped {state : State} {settings : Settings} {o o' : Outside}
      {result : Except Crash (Outcome × State)} (lifetime : Lifetime key start (some state) o)
      (same : settings.cursorKey = key)
      (proceeds : Proceeds (step settings state) o (.done result) o') :
      Lifetime key start (some (state.next result)) o'
  | ended {state : State} {settings : Settings} {o o' : Outside}
      {rest : Script (Except Crash (Outcome × State))}
      (lifetime : Lifetime key start (some state) o)
      (proceeds : Proceeds (step settings state) o rest o') : Lifetime key start none o'
  | changed {memory : Option State} {o o' : Outside} (lifetime : Lifetime key start memory o)
      (changes : Changes Named 0 o o') : Lifetime key start memory o'

/-- The cursor in memory is the stored one, as loading repairs it. -/
structure Aligned (key : String) (memory : Option State) (o : Outside) : Prop where
  named : ∀ event ∈ o.feed, event.id ≠ ""
  stored : ∀ state ∈ memory, ∃ cursor, o.cursors.get? key = some cursor ∧
    cursor.normalized = state.cursor

/-- What holds of a step that proceeds holds of its calls. -/
theorem exists_rounds (proceeds : Proceeds (step settings state) o (.done result) o')
    (named : ∀ event ∈ o.feed, event.id ≠ "") :
    ∃ calls, Rounds settings state result calls ∧ o'.trail = o.trail ++ calls ∧
      (∀ key cursor answer, ⟨.storeCursor key cursor, answer⟩ ∈ calls → answer = .ok ()) ∧
      ∀ offset limit window, ⟨.fetch offset limit, .ok window⟩ ∈ calls →
        ∀ event ∈ window, event.id ≠ "" := by
  obtain ⟨calls, traces, trail, made⟩ := exists_calls proceeds
  refine ⟨calls, records_step settings state _ _ traces, trail, fun key cursor answer h => ?_,
    fun offset limit window h event he => ?_⟩
  · obtain ⟨next, o₁, -, allowed, -⟩ := made _ h
    exact allowed.2
  · obtain ⟨next, o₁, before, allowed, -⟩ := made _ h
    have hw : window = _ := allowed.1
    subst hw
    exact named_of_interleaves before named event (List.mem_of_mem_drop (List.mem_of_mem_take he))

theorem Aligned.step (aligned : Aligned settings.cursorKey (some state) o)
    (proceeds : Proceeds (step settings state) o (.done result) o') :
    Aligned settings.cursorKey (some (state.next result)) o' := by
  refine ⟨named_of_interleaves proceeds aligned.named, ?_⟩
  rintro _ ⟨⟩
  obtain ⟨calls, rounds, trail, stores, named⟩ := exists_rounds proceeds aligned.named
  have cursors := cursors_of_interleaves proceeds trail
  rcases rounds.stored stores named with ⟨none, same⟩ | ⟨one, whole⟩
  · rw [none] at cursors
    rw [cursors, same]
    exact aligned.stored state rfl
  · rw [one] at cursors
    rw [cursors]
    exact ⟨_, Table.get?_put_self _ _ _, whole⟩

/-- The ways in which loading can go, from what is stored to what is then. -/
theorem loads_of_proceeds {result : Except Fault State}
    (proceeds : Proceeds (load settings) o (.done result) o') :
    (∃ fault, result = .error fault ∧ o'.cursors = o.cursors) ∨
      (∃ cursor, o.cursors.get? settings.cursorKey = some cursor ∧ o'.cursors = o.cursors ∧
        result = .ok (.at cursor.normalized)) ∨
      o'.cursors = o.cursors.put settings.cursorKey .start ∧ result = .ok (.at .start) := by
  have changed {cursors : Table Cursor} {o₁ o₂ : Outside} (h : o₁.cursors = cursors)
      (changes : Changes Named 0 o₁ o₂) : o₂.cursors = cursors := changes.cursors_eq.trans h
  obtain ⟨o₁, answer, kept, allowed, rest⟩ :=
    proceeds.exists_called (I := fun o₁ => o₁.cursors = o.cursors) rfl changed
  rcases answer with fault | _ | cursor
  · obtain ⟨rfl, kept⟩ := rest.of_done kept changed
    exact Or.inl ⟨fault, rfl, kept⟩
  · obtain ⟨o₂, answer, kept, allowed', rest⟩ := rest.exists_called kept changed
    obtain rfl : answer = .ok () := allowed'.2
    obtain ⟨rfl, kept⟩ := rest.of_done (congrArg (·.put settings.cursorKey .start) kept) changed
    exact Or.inr (Or.inr ⟨kept, rfl⟩)
  · obtain ⟨rfl, kept'⟩ := rest.of_done kept changed
    exact Or.inr (Or.inl ⟨cursor, kept ▸ allowed.1.symm, kept', rfl⟩)

theorem Aligned.load {memory : Option State} {result : Except Fault State}
    (aligned : Aligned settings.cursorKey memory o)
    (proceeds : Proceeds (load settings) o (.done result) o') :
    Aligned settings.cursorKey (result.toOption.or memory) o' := by
  refine ⟨named_of_interleaves proceeds aligned.named, ?_⟩
  rcases loads_of_proceeds proceeds with ⟨fault, rfl, same⟩ | ⟨cursor, found, same, rfl⟩ |
    ⟨put, rfl⟩
  · rw [same]
    exact aligned.stored
  · rintro _ ⟨⟩
    exact ⟨cursor, same ▸ found, rfl⟩
  · rintro _ ⟨⟩
    exact ⟨.start, put ▸ Table.get?_put_self _ _ _, rfl⟩

theorem Lifetime.aligned {memory : Option State} {start : Outside}
    (lifetime : Lifetime key start memory o) (named : ∀ event ∈ start.feed, event.id ≠ "") :
    Aligned key memory o := by
  induction lifetime with
  | begun => exact ⟨named, fun _ h => by cases h⟩
  | loaded _ same proceeds ih => exact same ▸ (same ▸ ih : Aligned _ _ _).load proceeds
  | stepped _ same proceeds ih => exact same ▸ (same ▸ ih : Aligned _ _ _).step proceeds
  | ended _ proceeds ih =>
    exact ⟨named_of_interleaves proceeds ih.named, fun _ h => by cases h⟩
  | changed _ changes ih =>
    refine ⟨changes.named ih.named, ?_⟩
    rw [changes.cursors_eq]
    exact ih.stored

/-- Loading finds the cursor in memory, unless the stored one cannot be read. -/
theorem Aligned.loads (aligned : Aligned settings.cursorKey (some state) o)
    {result : Except Fault State} (ends : Ends free (Sync.load settings) o result o') :
    result = .ok (.at state.cursor) ∨ ∃ fault, result = .error fault ∧
      o' = o.after (.loadCursor settings.cursorKey) (.error fault) := by
  obtain ⟨cursor, found, same⟩ := aligned.stored state rfl
  refine (ensures_ask_bind.2 ?_ : Ensures free (Sync.load settings) (fun result o' =>
    result = .ok (.at state.cursor) ∨ ∃ fault, result = .error fault ∧
      o' = o.after (.loadCursor settings.cursorKey) (.error fault)) o).ends ends
  rintro (fault | _ | other) allowed
  · exact Or.inr ⟨fault, rfl, rfl⟩
  · cases found.symm.trans allowed.1.symm
  · cases found.symm.trans allowed.1.symm
    exact Or.inl (same ▸ rfl)

theorem Aligned.loads_oblige (aligned : Aligned settings.cursorKey (some state) o) :
    (oblige (Sync.load settings) o).1 = .ok (.at state.cursor) := by
  obtain ⟨cursor, found, same⟩ := aligned.stored state rfl
  have answer : o.obliging (.loadCursor settings.cursorKey) = .ok (some cursor) :=
    congrArg Except.ok found
  change (Script.run _ (Script.bind (Script.ask _) _) o).1 = _
  rw [Script.run_bind, Script.run_ask, answer, ← same]
  rfl

/-- The script has read its window from the feed, as it stood then. -/
def ReadFrom {α : Type} (script : Script α) (o : Outside) (value : α) (o' : Outside)
    (feed : List Event) : Prop :=
  ∃ offset limit next o₁, o₁.feed = feed ∧
    Proceeds script o (.call (.fetch offset limit) next) o₁ ∧
    Proceeds (next (.ok ((feed.drop offset).take (limit - offset))))
      (o₁.after (.fetch offset limit) (.ok ((feed.drop offset).take (limit - offset))))
      (.done value) o'

theorem progresses_of_proceeds (proceeds : Proceeds (step settings state) o (.done result) o') :
    Progresses (ReadFrom (step settings state) o result o') state result := by
  obtain ⟨calls, traces, -, made⟩ := exists_calls proceeds
  refine (records_step settings state _ _ traces).progresses fun offset limit window h => ?_
  obtain ⟨next, o₁, before, allowed, after⟩ := made _ h
  have hw : window = _ := allowed.1
  subst hw
  exact ⟨o₁.feed, ⟨offset, limit, next, o₁, rfl, before, after⟩, rfl⟩

end Sync

/-- Whatever cursor is stored at the outset, whatever fails but cursor writes, and whatever happens
to the feed : after every load and every step, the two parts of the cursor in memory agree on
whether it is at the start, and loading it again gives exactly that cursor. A step moves the
position by an advance, within the feed that it read, or by a reset, and in no other way. -/
theorem restart_loses_no_position {key : String} {start o : Outside} {state : Sync.State}
    (named : ∀ event ∈ start.feed, event.id ≠ "")
    (lifetime : Sync.Lifetime key start (some state) o) :
    state.cursor.Coherent ∧
      ∀ settings : Settings, settings.cursorKey = key →
        (oblige (Sync.load settings) o).1 = .ok (.at state.cursor) ∧
        (∀ result o', Ends free (Sync.load settings) o result o' →
          result = .ok (.at state.cursor) ∨ ∃ fault, result = .error fault ∧
            o' = o.after (.loadCursor key) (.error fault)) ∧
        ∀ result o', Proceeds (Sync.step settings state) o (.done result) o' →
          Sync.Progresses (Sync.ReadFrom (Sync.step settings state) o result o') state result := by
  have aligned := lifetime.aligned named
  obtain ⟨cursor, -, same⟩ := aligned.stored state rfl
  refine ⟨same ▸ cursor.coherent_normalized, ?_⟩
  rintro settings rfl
  exact ⟨aligned.loads_oblige, fun result o' ends => aligned.loads ends, fun result o' proceeds =>
    Sync.progresses_of_proceeds proceeds⟩

/-- A broken cursor is stored in front of a feed of two events. -/
def Outside.misplaced : Outside :=
  { appended := [.fresh "A", .fresh "B"], feed := [.fresh "A", .fresh "B"],
    cursors := ({} : Table Cursor).put (Settings.cursorKey {}) ⟨4, ""⟩ }

theorem Outside.proceeds_oblige {α : Type} (script : Script α) (o : Outside) :
    Proceeds script o (.done (oblige script o).1) (oblige script o).2 := by
  refine (ends_oblige (fun o c => ?_) script o).interleaves
  cases c with
  | storeCursor => rfl
  | _ => trivial

/-- The broken cursor is repaired in memory, where the stored one stays as it is until the loop has
advanced past both events. -/
theorem restart_loses_no_position_broken : ∃ o o' : Outside,
    (∀ event ∈ Outside.misplaced.feed, event.id ≠ "") ∧
    Sync.Lifetime (Settings.cursorKey {}) .misplaced (some (.at .start)) o ∧
    o.cursors.get? (Settings.cursorKey {}) = some ⟨4, ""⟩ ∧
    Sync.Lifetime (Settings.cursorKey {}) .misplaced (some ⟨⟨2, "B"⟩, []⟩) o' ∧
    o'.cursors.get? (Settings.cursorKey {}) = some ⟨2, "B"⟩ ∧
    (Cursor.Coherent ⟨2, "B"⟩ ∧
      ∀ settings : Settings, settings.cursorKey = Settings.cursorKey {} →
        (oblige (Sync.load settings) o').1 = .ok (.at ⟨2, "B"⟩) ∧
        (∀ result o'', Ends free (Sync.load settings) o' result o'' →
          result = .ok (.at ⟨2, "B"⟩) ∨ ∃ fault, result = .error fault ∧
            o'' = o'.after (.loadCursor (Settings.cursorKey {})) (.error fault)) ∧
        ∀ result o'', Proceeds (Sync.step settings ⟨⟨2, "B"⟩, []⟩) o' (.done result) o'' →
          Sync.Progresses (Sync.ReadFrom (Sync.step settings ⟨⟨2, "B"⟩, []⟩) o' result o'')
            ⟨⟨2, "B"⟩, []⟩ result) := by
  let loaded := oblige (Sync.load {}) .misplaced
  let read := oblige (Sync.step {} (.at .start)) loaded.2
  have named : ∀ event ∈ Outside.misplaced.feed, event.id ≠ "" := by decide
  have repaired : loaded.1.toOption.or none = some (.at .start) := by decide +kernel
  have unstored : loaded.2.cursors.get? (Settings.cursorKey {}) = some ⟨4, ""⟩ := by
    decide +kernel
  have advanced : (Sync.State.at .start).next read.1 = ⟨⟨2, "B"⟩, []⟩ := by decide +kernel
  have stored : read.2.cursors.get? (Settings.cursorKey {}) = some ⟨2, "B"⟩ := by decide +kernel
  have first : Sync.Lifetime (Settings.cursorKey {}) .misplaced (some (.at .start)) loaded.2 :=
    repaired ▸ Sync.Lifetime.begun.loaded rfl (proceeds_oblige _ _)
  have second : Sync.Lifetime (Settings.cursorKey {}) .misplaced (some ⟨⟨2, "B"⟩, []⟩) read.2 :=
    advanced ▸ first.stepped rfl (proceeds_oblige _ _)
  exact ⟨loaded.2, read.2, named, first, unstored, second, stored,
    restart_loses_no_position named second⟩

end Feedkeeper
