import Feedkeeper.Proofs.Batch
import Feedkeeper.Proofs.Interleaving
import Feedkeeper.Proofs.Run
import Mathlib.Data.List.Infix

/-!
# An event that routed cleanly is not routed again

Along steps that do not reset the cursor (`Sync.Stretch`), an event is past once it is settled or
stands before the cursor (`Sync.State.Past`). A step hands every event that routed cleanly over to
one or the other, keeps past what was past, and routes nothing that is past
(`Sync.Rounds.hands_over`). So it is routed no more (`not_routed_again`), however long an event
before it stays held. Ids need only be distinct at a time : an event may be withdrawn and another
one appended under its id.

What is appended or withdrawn while a step is running does not matter either, as long as it is
behind the cursor before and after the step.
-/

namespace Feedkeeper

open Outside Script

/-! ## A feed that stays in front -/

namespace Outside

/-- No event of the feed has the id of the new one. -/
def Unused (o : Outside) (event : Event) : Prop :=
  event.id ∉ o.feed.map (·.id)

/-- The first `upto` events stay in front, and ids stay distinct. -/
structure Steady (upto : Nat) (o o' : Outside) : Prop where
  front : (o.feed.map (·.id)).take upto <+: o'.feed.map (·.id)
  distinct : (o.feed.map (·.id)).Nodup → (o'.feed.map (·.id)).Nodup

variable {upto n : Nat} {o o' o'' : Outside}

theorem Steady.of_ids (h : o'.feed.map (·.id) = o.feed.map (·.id)) : Steady upto o o' where
  front := h ▸ List.take_prefix _ _
  distinct := h ▸ id

theorem Steady.take (h : Steady upto o o') (le : n ≤ upto) :
    (o.feed.map (·.id)).take n <+: (o'.feed.map (·.id)).take n := by
  have front := h.front.take n
  rwa [List.take_take, Nat.min_eq_left le] at front

theorem Steady.trans (h : Steady upto o o') (h' : Steady upto o' o'') : Steady upto o o'' where
  front := (h.take (Nat.le_refl upto)).trans h'.front
  distinct := h'.distinct ∘ h.distinct

theorem Changes.steady (changes : Changes Unused upto o o') : Steady upto o o' := by
  cases changes with
  | append event unused =>
    refine ⟨?_, fun distinct => ?_⟩
    · rw [List.map_append]
      exact (List.take_prefix _ _).trans (List.prefix_append _ _)
    · rw [List.map_append, List.map_singleton, ← List.concat_eq_append]
      exact distinct.concat unused
  | withdraw kept sublist =>
    refine ⟨?_, fun distinct => ?_⟩
    · rw [List.map_append, List.map_take]
      exact List.prefix_append _ _
    · have left : (o.feed.take upto ++ kept).Sublist o.feed := by
        conv_rhs => rw [← List.take_append_drop upto o.feed]
        exact sublist.append_left _
      exact (left.map _).nodup distinct

theorem steady_of_interleaves {α : Type} {p : Outside → (c : Call) → c.Answer → Prop}
    {script rest : Script α} (h : Interleaves (limited p) (Changes Unused upto) script o rest o') :
    Steady upto o o' :=
  h.keeps (I := Steady upto o) (.of_ids rfl)
    (fun steady _ => steady.trans (.of_ids (later_after _ _ _).ids))
    fun steady changes => steady.trans changes.steady

end Outside

namespace Sync

/-! ## The steps of a loop -/

/-- From the first state, steps that do not reset the cursor lead to the second. Between two calls
events are appended and withdrawn, the latter behind the cursor : while a step is running, behind
the cursor that it starts from and the one that it comes to. -/
inductive Stretch (state : State) (o : Outside) : State → Outside → Prop where
  | here : Stretch state o state o
  | step {settings : Settings} {state₁ : State} {o₁ o' : Outside} {upto : Nat}
      {result : Except Crash (Outcome × State)} (stretch : Stretch state o state₁ o₁)
      (interleaves : Interleaves free (Changes Unused upto) (Sync.step settings state₁) o₁
        (.done result) o')
      (unreset : ∀ state', result ≠ .ok (.cursorReset, state'))
      (before : state₁.cursor.nextIndex ≤ upto)
      (behind : (state₁.next result).cursor.nextIndex ≤ upto) :
      Stretch state o (state₁.next result) o'
  | change {state₁ : State} {o₁ o' : Outside} (stretch : Stretch state o state₁ o₁)
      (changes : Changes Unused state₁.cursor.nextIndex o₁ o') : Stretch state o state₁ o'

/-- The calls are those of the feed loop itself, and in between those of the handlings, whole and in
order. -/
inductive Handles : List Answered → List Handling → Prop where
  | done : Handles [] []
  | own {answered : Answered} {calls : List Answered} {handled : List Handling}
      (own : answered.IsOwn) (handles : Handles calls handled) : Handles (answered :: calls) handled
  | routed {calls : List Answered} {handled : List Handling} (handling : Handling)
      (handles : Handles calls handled) : Handles (handling.trail ++ calls) (handling :: handled)

namespace Handles

variable {first second : List Answered} {handled handled' : List Handling}

theorem append (h : Handles first handled) (h' : Handles second handled') :
    Handles (first ++ second) (handled ++ handled') := by
  induction h with
  | done => exact h'
  | own own _ ih => exact .own own ih
  | routed handling _ ih =>
    rw [List.append_assoc]
    exact .routed handling ih

theorem of_own (own : ∀ answered ∈ first, answered.IsOwn) : Handles first [] := by
  induction first with
  | nil => exact .done
  | cons answered first ih =>
    exact .own (own answered List.mem_cons_self) (ih fun a h => own a (List.mem_cons_of_mem _ h))

theorem of_flatMap (handled : List Handling) :
    Handles (handled.flatMap Handling.trail) handled := by
  induction handled with
  | nil => exact .done
  | cons handling handled ih => exact .routed handling ih

theorem append_own (h : Handles first handled) (own : ∀ answered ∈ second, answered.IsOwn) :
    Handles (first ++ second) handled := by
  have handles := h.append (of_own own)
  rwa [List.append_nil] at handles

theorem of_fetching (settings : Settings) (state : State) (window : List Event) :
    Handles (fetching settings state window) [] :=
  of_own (by simp [fetching, Answered.IsOwn])

/-- The calls of a step that got its window and handled the events. -/
theorem of_walk (settings : Settings) (state : State) (window : List Event)
    (handled : List Handling) :
    Handles (fetching settings state window ++ handled.flatMap Handling.trail) handled :=
  (of_fetching settings state window).append (of_flatMap handled)

end Handles

/-! ## What is past -/

/-- The event with the id is settled, or stands before the cursor. -/
def State.Past (state : State) (feed : List Event) (id : String) : Prop :=
  id ∈ state.settled ∨ id ∈ (feed.map (·.id)).take state.cursor.nextIndex

variable {settings : Settings} {state : State} {o o' : Outside} {upto : Nat}
  {events window feed : List Event} {handled : List Handling} {pass : Pass} {id : String}

theorem State.Past.steady (h : state.Past o.feed id) (steady : Steady upto o o')
    (le : state.cursor.nextIndex ≤ upto) : state.Past o'.feed id :=
  h.imp_right fun mem => (steady.take le).subset mem

/-- What was settled or processed, or stood before the cursor, is past once the cursor has moved
beyond what was processed. -/
theorem past_advanced {processed : List Event} {n : Nat} {last : String} {settled : List String}
    (next : processed <+: feed.drop n)
    (h : id ∈ settled ∨ id ∈ processed.map (·.id) ∨ id ∈ (feed.map (·.id)).take n) :
    State.Past ⟨⟨n + processed.length, last⟩,
      settled.filter fun id => !processed.any (·.id == id)⟩ feed id := by
  have front : (feed.map (·.id)).take (n + processed.length) =
      (feed.map (·.id)).take n ++ processed.map (·.id) := by
    conv_rhs => rw [List.prefix_iff_eq_take.1 next, List.map_take, List.map_drop]
    exact List.take_add
  unfold State.Past
  rw [front, List.mem_append, List.mem_filter]
  by_cases hp : id ∈ processed.map (·.id)
  · exact Or.inr (Or.inr hp)
  · have kept : (!processed.any (·.id == id)) = true := by simpa using hp
    rcases h with hs | hp' | hn
    · exact Or.inl ⟨hs, kept⟩
    · exact absurd hp' hp
    · exact Or.inr (Or.inl hn)

/-- A walk over events behind the cursor handles none that is past, and none twice. -/
theorem Walks.not_past (walks : Walks events 0 { settled := state.settled } handled pass)
    (ahead : events <+: feed.drop state.cursor.nextIndex) (distinct : (feed.map (·.id)).Nodup) :
    (∀ handling ∈ handled, ¬state.Past feed handling.event.id) ∧
      (handled.map (·.event.id)).Nodup := by
  have sublist : (handled.map (·.event.id)).Sublist ((feed.map (·.id)).drop
      state.cursor.nextIndex) := by
    have := (walks.sublist.trans ahead.sublist).map (·.id)
    rwa [List.map_map, List.map_drop] at this
  refine ⟨fun handling hh past => ?_, sublist.nodup (distinct.sublist (List.drop_sublist _ _))⟩
  rcases past with settled | before
  · exact walks.unsettled handling hh settled
  · rw [← List.take_append_drop state.cursor.nextIndex (feed.map (·.id))] at distinct
    exact List.disjoint_of_nodup_append distinct before
      (sublist.subset (List.mem_map_of_mem (f := (·.event.id)) hh))

/-- What a step has done with the events that it handled. -/
structure HandsOver (state : State) (feed : List Event) (handled : List Handling) (state' : State)
    (feed' : List Event) : Prop where
  kept : ∀ id, state.Past feed id → state'.Past feed' id
  ahead : ∀ handling ∈ handled, ¬state.Past feed handling.event.id
  once : (handled.map (·.event.id)).Nodup
  past : ∀ handling ∈ handled, handling.result.isOk = true → state'.Past feed' handling.event.id

/-- A step that handles nothing keeps past what was past. -/
theorem handsOver_nil (steady : Steady upto o o') (le : state.cursor.nextIndex ≤ upto) :
    HandsOver state o.feed [] state o'.feed where
  kept _ h := h.steady steady le
  ahead _ h := by cases h
  once := List.nodup_nil
  past _ h := by cases h

/-- What was handed over for the feed as it was read is handed over for good. -/
theorem HandsOver.steady {o₁ : Outside} {state' : State}
    (h : HandsOver state o₁.feed handled state' o₁.feed) (before : Steady upto o o₁)
    (le : state.cursor.nextIndex ≤ upto) (after : Steady upto o₁ o')
    (le' : state'.cursor.nextIndex ≤ upto) : HandsOver state o.feed handled state' o'.feed where
  kept id past := (h.kept id (past.steady before le)).steady after le'
  ahead handling hh past := h.ahead handling hh (past.steady before le)
  once := h.once
  past handling hh clean := (h.past handling hh clean).steady after le'

/-- A step that holds the first event settles what routed cleanly. -/
theorem Walks.handsOver_of_held (walks : Walks events 0 { settled := state.settled } handled pass)
    (ahead : events <+: feed.drop state.cursor.nextIndex) (distinct : (feed.map (·.id)).Nodup)
    (held : pass.held = some 0) :
    HandsOver state feed handled { state with settled := pass.settled } feed where
  kept _ h := h.imp_left fun settled => walks.settled_subset settled
  ahead := (walks.not_past ahead distinct).1
  once := (walks.not_past ahead distinct).2
  past handling hh clean := by
    obtain ⟨processed, rest, -, length, handed⟩ := walks.handed_over rfl
    rw [held, Option.getD_some, Nat.zero_add] at length
    obtain rfl := List.eq_nil_of_length_eq_zero length.symm
    exact Or.inl ((handed handling hh clean).resolve_left List.not_mem_nil)

/-- A step that advances the cursor moves it past what it does not settle. -/
theorem Walks.handsOver_of_advanced {processed : List Event}
    (walks : Walks events 0 { settled := state.settled } handled pass) (last : String)
    (ahead : events <+: feed.drop state.cursor.nextIndex) (distinct : (feed.map (·.id)).Nodup)
    (taken : processed = events.take (pass.held.getD events.length)) :
    HandsOver state feed handled ⟨⟨state.cursor.nextIndex + processed.length, last⟩,
      pass.settled.filter fun id => !processed.any (·.id == id)⟩ feed := by
  obtain ⟨before, rest, rfl, length, handed⟩ := walks.handed_over rfl
  rw [Nat.zero_add, Nat.zero_add] at length
  obtain rfl : processed = before := by rw [taken, length, List.take_left' rfl]
  have next : processed <+: feed.drop state.cursor.nextIndex :=
    (List.prefix_append _ _).trans ahead
  refine ⟨fun id h => past_advanced next ?_, (walks.not_past ahead distinct).1,
    (walks.not_past ahead distinct).2, fun handling hh clean => past_advanced next ?_⟩
  · exact h.imp (fun settled => walks.settled_subset settled) Or.inr
  · rcases handed handling hh clean with mem | settled
    · exact Or.inr (Or.inl (List.mem_map_of_mem mem))
    · exact Or.inl settled

/-- The window of a step is what stands in the feed at some time in the meantime. -/
def Reads (upto : Nat) (o : Outside) (calls : List Answered) (o' : Outside) : Prop :=
  ∀ offset limit window, ⟨.fetch offset limit, .ok window⟩ ∈ calls → ∃ o₁, Steady upto o o₁ ∧
    window = (o₁.feed.drop offset).take (limit - offset) ∧ Steady upto o₁ o'

/-- A step that does not reset the cursor hands what it routed cleanly over to the cursor or to the
settled events, and handles nothing that is past. -/
theorem Rounds.hands_over {calls : List Answered} {result : Except Crash (Outcome × State)}
    (rounds : Rounds settings state result calls) (distinct : (o.feed.map (·.id)).Nodup)
    (steady : Steady upto o o') (reads : Reads upto o calls o')
    (unreset : ∀ state', result ≠ .ok (.cursorReset, state'))
    (before : state.cursor.nextIndex ≤ upto)
    (behind : (state.next result).cursor.nextIndex ≤ upto) :
    ∃ handled, Handles calls handled ∧
      HandsOver state o.feed handled (state.next result) o'.feed := by
  -- Every step that routes events has read them behind the cursor.
  have read : ∀ {window calls'}, calls = fetching settings state window ++ calls' →
      ∃ o₁, Steady upto o o₁ ∧ Steady upto o₁ o' ∧ window.length ≤ settings.windowSize ∧
        (state.cursor.matchesAnchor (window.head?.map (·.id)) = true →
          state.unseen window <+: o₁.feed.drop state.cursor.nextIndex) := by
    rintro window calls' rfl
    obtain ⟨o₁, before, hw, after⟩ := reads _ _ window
      (List.mem_append_left _ (fetch_mem_fetching settings state window))
    rw [Nat.add_sub_cancel_left] at hw
    exact ⟨o₁, before, after, hw ▸ List.length_take_le _ _, prefix_unseen hw⟩
  cases rounds with
  | stopped _ waiting =>
    exact ⟨[], .of_own fun a h => (waiting a h).isOwn, handsOver_nil steady before⟩
  | crashed =>
    exact ⟨[], .of_own (by simp [Answered.IsOwn]), handsOver_nil steady before⟩
  | overrun long =>
    obtain ⟨o₁, -, -, short, -⟩ := read rfl
    omega
  | reset => exact absurd rfl (unreset _)
  | @idle window =>
    exact ⟨[], .of_fetching settings state window, handsOver_nil steady before⟩
  | @held window rest first handled pass matched unseen walks held =>
    obtain ⟨o₁, early, late, -, ahead⟩ := read rfl
    have hands := walks.handsOver_of_held (ahead matched) (early.distinct distinct) held
    exact ⟨handled, .of_walk settings state window handled, hands.steady early before late behind⟩
  | @advanced window processed last handled pass answer matched walks taken ended =>
    obtain ⟨o₁, early, late, -, ahead⟩ := read rfl
    have hands :=
      walks.handsOver_of_advanced last.id (ahead matched) (early.distinct distinct) taken
    rw [← List.append_assoc]
    exact ⟨handled, (Handles.of_walk settings state window handled).append_own
      (by simp [Answered.IsOwn]), hands.steady early before late behind⟩

/-! ## Stretches -/

/-- The calls of a step that is interleaved with changes of the feed. -/
theorem reads_of_interleaves {p : Outside → (c : Call) → c.Answer → Prop} {α : Type}
    {script rest : Script α}
    (h : Interleaves (limited p) (Changes Unused upto) script o rest o') :
    ∃ calls, Traces script calls rest ∧ o'.trail = o.trail ++ calls ∧ Reads upto o calls o' := by
  obtain ⟨calls, traces, trail, made⟩ := exists_calls h
  refine ⟨calls, traces, trail, fun offset limit window hw => ?_⟩
  obtain ⟨next, o₁, before, allowed, after⟩ := made _ hw
  exact ⟨o₁, steady_of_interleaves before, allowed.1,
    (Steady.of_ids (later_after _ _ _).ids).trans (steady_of_interleaves after)⟩

/-- Handlings in order, none of an event that routed cleanly before. -/
def RoutedOnce (handled : List Handling) : Prop :=
  handled.Pairwise fun earlier later =>
    earlier.result.isOk = true → later.event.id ≠ earlier.event.id

theorem HandsOver.routedOnce {handled' : List Handling} {state' : State} {feed' : List Event}
    (h : HandsOver state feed handled' state' feed') (once : RoutedOnce handled)
    (past : ∀ handling ∈ handled, handling.result.isOk = true →
      state.Past feed handling.event.id) : RoutedOnce (handled ++ handled') := by
  refine List.pairwise_append.2 ⟨once, ?_, fun earlier he later hl clean heq => ?_⟩
  · exact (List.pairwise_map.1 h.once).imp fun ne _ heq => ne heq.symm
  · exact h.ahead later hl (heq ▸ past earlier he clean)

/-- What was routed along a stretch, and where that stands. -/
theorem Stretch.handles {state' : State} (stretch : Stretch state o state' o')
    (distinct : (o.feed.map (·.id)).Nodup) : (o'.feed.map (·.id)).Nodup ∧
      ∃ calls handled, o'.trail = o.trail ++ calls ∧ Handles calls handled ∧ RoutedOnce handled ∧
        ∀ handling ∈ handled, handling.result.isOk = true →
          state'.Past o'.feed handling.event.id := by
  induction stretch with
  | here =>
    exact ⟨distinct, [], [], (List.append_nil _).symm, .done, List.Pairwise.nil, fun _ h => by
      cases h⟩
  | @step settings state₁ o₁ o' upto result _ interleaves unreset before behind ih =>
    obtain ⟨distinct₁, calls, handled, trail, handles, once, past⟩ := ih
    obtain ⟨calls', traces, trail', reads⟩ := reads_of_interleaves interleaves
    have steady := steady_of_interleaves interleaves
    obtain ⟨handled', handles', hands⟩ := (records_step _ _ _ _ traces).hands_over distinct₁ steady
      reads unreset before behind
    refine ⟨steady.distinct distinct₁, calls ++ calls', handled ++ handled',
      by rw [trail', trail, List.append_assoc], handles.append handles',
      hands.routedOnce once past, fun handling hh clean => ?_⟩
    rcases List.mem_append.1 hh with hh | hh
    · exact hands.kept _ (past handling hh clean)
    · exact hands.past handling hh clean
  | change _ changes ih =>
    obtain ⟨distinct₁, calls, handled, trail, handles, once, past⟩ := ih
    exact ⟨changes.steady.distinct distinct₁, calls, handled, changes.trail_eq ▸ trail, handles,
      once, fun handling hh clean => (past handling hh clean).steady changes.steady (Nat.le_refl _)⟩

/-- What is routed once joins once. -/
theorem RoutedOnce.joins_le (once : RoutedOnce handled) (id : String) :
    ((handled.filter (·.event.id == id)).flatMap Handling.joins).length ≤ 1 := by
  induction handled with
  | nil => exact Nat.zero_le 1
  | cons handling handled ih =>
    obtain ⟨ahead, once⟩ := List.pairwise_cons.1 once
    by_cases hid : handling.event.id = id
    · rw [List.filter_cons_of_pos (by simpa using hid), List.flatMap_cons]
      rcases handling.joins_eq with none | ⟨clean, request, one⟩
      · rw [none]
        exact ih once
      · have last : handled.filter (·.event.id == id) = [] :=
          List.filter_eq_nil_iff.2 fun later hl heq =>
            ahead later hl clean ((by simpa using heq : later.event.id = id).trans hid.symm)
        rw [one, last]
        exact Nat.le_refl 1
    · rw [List.filter_cons_of_neg (by simpa using hid)]
      exact ih once

end Sync

/-- Along steps that do not reset the cursor, whatever fails and whatever is appended and withdrawn
behind the cursor, an event is not routed any more once its routing has come out well, and at most
one authorization is joined for it. -/
theorem not_routed_again {state state' : Sync.State} {o o' : Outside}
    (distinct : (o.feed.map (·.id)).Nodup) (stretch : Sync.Stretch state o state' o') :
    ∃ calls handled, o'.trail = o.trail ++ calls ∧ Sync.Handles calls handled ∧
      (handled.Pairwise fun earlier later =>
        earlier.result.isOk = true → later.event.id ≠ earlier.event.id) ∧
      ∀ id, ((handled.filter (·.event.id == id)).flatMap Sync.Handling.joins).length ≤ 1 := by
  obtain ⟨-, calls, handled, trail, handles, once, -⟩ := stretch.handles distinct
  exact ⟨calls, handled, trail, handles, once, once.joins_le⟩

/-- A feed with a group reply behind another event. -/
def Outside.awaited : Outside :=
  { feed := [.fresh "A", { Event.fresh "B" with action := ⟨Route.groupReply.wire, "", []⟩ },
      .fresh "C"] }

/-- Every group request grants a role for a known group, and all succeeds but what `fails`. -/
def Outside.granting (fails : String → Bool) (o : Outside) : (c : Call) → c.Answer
  | .groupRequest _ => .ok ⟨some "G", some ⟨Group.grantRoute, "E"⟩, .null⟩
  | .findIdentifier _ => .ok (some ⟨"G", "group", false, []⟩)
  | .acknowledge id => if fails id then .error ⟨"unreachable"⟩ else .ok ()
  | c => o.obliging c

theorem Outside.allows_granting (fails : String → Bool) (c : Call) (o : Outside) :
    free.allows o c (o.granting fails c) := by
  refine ⟨?_, trivial⟩
  cases c with
  | groupRequest | findIdentifier | acknowledge => trivial
  | _ => exact allows_obliging o _

/-- A step with these answers. -/
def Outside.granted (fails : String → Bool) (state : Sync.State) (o : Outside) :
    Except Crash (Sync.Outcome × Sync.State) × Outside :=
  (Sync.step {} state).run
    (fun c o => (o.granting fails c, free.after o c (o.granting fails c))) o

theorem Sync.Stretch.granted {state state₁ : Sync.State} {o o₁ : Outside}
    (stretch : Sync.Stretch state o state₁ o₁) (fails : String → Bool) (outcome : Sync.Outcome)
    (result : (o₁.granted fails state₁).1.toOption.map (·.1) = some outcome)
    (unreset : outcome ≠ .cursorReset) : Sync.Stretch state o
      (state₁.next (o₁.granted fails state₁).1) (o₁.granted fails state₁).2 := by
  refine stretch.step (ends_run _ (allows_granting fails) _ _).interleaves (fun state' h => ?_)
    (Nat.le_max_left _ _) (Nat.le_max_right _ _)
  rw [h] at result
  exact unreset (Option.some.inj result).symm

/-- The first event is held while the reply behind it is joined. Then the last event is withdrawn
and another one appended, and the next step advances past all of them. -/
theorem not_routed_again_held : ∃ o',
    (Outside.awaited.feed.map (·.id)).Nodup ∧
    Sync.Stretch (.at .start) .awaited ⟨⟨3, "D"⟩, ["C"]⟩ o' ∧
    o'.trail.filterMap (fun answered => answered.joined?.bind (·.group)) = ["G"] ∧
    ∃ calls handled, o'.trail = Outside.awaited.trail ++ calls ∧ Sync.Handles calls handled ∧
      (handled.Pairwise fun earlier later =>
        earlier.result.isOk = true → later.event.id ≠ earlier.event.id) ∧
      ∀ id, ((handled.filter (·.event.id == id)).flatMap Sync.Handling.joins).length ≤ 1 := by
  let first := Outside.awaited.granted (· == "A") (.at .start)
  let withdrawn : Outside := { first.2 with feed := first.2.feed.take 0 ++ first.2.feed.take 2 }
  let appended : Outside :=
    { withdrawn with
      appended := withdrawn.appended ++ [.fresh "D"], feed := withdrawn.feed ++ [.fresh "D"] }
  have distinct : (Outside.awaited.feed.map (·.id)).Nodup := by decide
  have held : (Sync.State.at .start).next first.1 = ⟨.start, ["B", "C"]⟩ := by decide +kernel
  have unused : (Event.fresh "D").id ∉ withdrawn.feed.map (·.id) := by decide +kernel
  have advanced : Sync.State.next ⟨.start, ["B", "C"]⟩
      (appended.granted (fun _ => false) ⟨.start, ["B", "C"]⟩).1 = ⟨⟨3, "D"⟩, ["C"]⟩ := by
    decide +kernel
  have stretch : Sync.Stretch (.at .start) .awaited ⟨.start, ["B", "C"]⟩ first.2 :=
    held ▸ Sync.Stretch.here.granted (· == "A") (.held "A" 1) (by decide +kernel)
      Sync.Outcome.noConfusion
  have changed : Sync.Stretch (.at .start) .awaited ⟨.start, ["B", "C"]⟩ appended :=
    (stretch.change (.withdraw (first.2.feed.take 2) (List.take_sublist _ _))).change
      (.append (.fresh "D") unused)
  have whole := changed.granted (fun _ => false) (.advanced 3 0) (by decide +kernel)
    Sync.Outcome.noConfusion
  rw [advanced] at whole
  exact ⟨_, distinct, whole, by decide +kernel, not_routed_again distinct whole⟩

end Feedkeeper
