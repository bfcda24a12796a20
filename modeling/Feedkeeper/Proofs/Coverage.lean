import Feedkeeper.Proofs.Run

/-!
# No event is left behind

An event is *done* if it is consumed and its routing came out well. A cursor *covers* the feed if
all events up to its anchor are done, wherever in the feed the anchor is by now. That does not
speak of positions, so it is kept when events are withdrawn in front of the cursor. Every cursor
that is in memory or stored covers the feed, and what is settled is done (`Site.Covered`). A step
keeps that for what is in memory (`Sync.Steps.keeps`) and stores no other cursor than that
(`Sync.Steps.stored`), and every other move keeps it too.
-/

namespace Feedkeeper

open Outside Script

/-- The event was routed to the verdict : the trail has the calls of a routing of it that came to
the verdict, and then the report. -/
def Outside.Routed (o : Outside) (event : Event) (verdict : Verdict) : Prop :=
  ∃ before calls behind, Traces (Routing.route event).run calls (.done (.ok verdict)) ∧
    o.trail = before ++ calls ++ ⟨.reportRouting event.id (.ok verdict), ()⟩ :: behind

/-- The event with the id is consumed or gone, and was routed to a verdict. -/
structure Outside.Done (o : Outside) (id : String) : Prop where
  handled : o.Handled id
  routed : ∃ first ∈ o.appended, ∃ event verdict, first.id = id ∧ first.Becomes event ∧
    o.Routed event verdict

/-- The cursor is at the start, or all events up to its anchor are done. -/
def Outside.Covers (o : Outside) (cursor : Cursor) : Prop :=
  cursor = .start ∨ 0 < cursor.nextIndex ∧ o.Done cursor.lastEventId ∧
    ∃ before behind, o.feed.map (·.id) = before ++ behind ∧ cursor.lastEventId ∉ behind ∧
      ∀ id ∈ before, o.Done id

/-- The cursor of the state covers the feed, and what is settled is done. -/
structure Outside.Keeps (o : Outside) (state : Sync.State) : Prop where
  cursor : o.Covers state.cursor
  settled : ∀ id ∈ state.settled, o.Done id

/-- Every cursor covers the feed, and what is settled is done. -/
structure Site.Covered (key : String) (site : Site) : Prop where
  stored : ∀ cursor, site.outside.cursors.get? key = some cursor → site.outside.Covers cursor
  memory : ∀ state ∈ site.memory, site.outside.Keeps state

variable {key : String} {start site site' : Site} {move : Move} {o o' : Outside} {id : String}
  {cursor : Cursor} {state : Sync.State}

/-! ## What keeps events done -/

theorem Outside.Done.known (h : o.Done id) : id ∈ o.appended.map (·.id) := by
  obtain ⟨first, hf, -, -, rfl, -⟩ := h.routed
  exact List.mem_map_of_mem hf

theorem Outside.Routed.later {event : Event} {verdict : Verdict} (h : o.Routed event verdict)
    (later : Later o o') : o'.Routed event verdict := by
  obtain ⟨before, calls, behind, traces, heq⟩ := h
  obtain ⟨more, hmore⟩ := later.trail
  exact ⟨before, calls, behind ++ more, traces, by rw [← hmore, heq]; simp⟩

theorem Outside.Done.later (h : o.Done id) (later : Later o o') : o'.Done id where
  handled := h.handled.later later
  routed := by
    obtain ⟨first, hf, event, verdict, hid, hb, routed⟩ := h.routed
    exact ⟨first, later.appended ▸ hf, event, verdict, hid, hb, routed.later later⟩

theorem Outside.Done.append (h : o.Done id) {event : Event}
    (new : event.id ∉ o.appended.map (·.id)) :
    Done { o with appended := o.appended ++ [event], feed := o.feed ++ [event] } id where
  handled := h.handled.append h.known new
  routed := by
    obtain ⟨first, hf, rest⟩ := h.routed
    exact ⟨first, List.mem_append_left _ hf, rest⟩

theorem Outside.Done.withdraw (h : o.Done id) {kept : List Event} (sublist : kept.Sublist o.feed) :
    Done { o with feed := kept } id :=
  ⟨h.handled.withdraw sublist, h.routed⟩

theorem Outside.Covers.later (h : o.Covers cursor) (later : Later o o') : o'.Covers cursor := by
  rcases h with rfl | ⟨moved, last, before, behind, split, behindLast, done⟩
  · exact Or.inl rfl
  · exact Or.inr ⟨moved, last.later later, before, behind, later.ids.trans split, behindLast,
      fun id hid => (done id hid).later later⟩

theorem Outside.Covers.append (h : o.Covers cursor) {event : Event}
    (new : event.id ∉ o.appended.map (·.id)) :
    Covers { o with appended := o.appended ++ [event], feed := o.feed ++ [event] } cursor := by
  rcases h with rfl | ⟨moved, last, before, behind, split, behindLast, done⟩
  · exact Or.inl rfl
  refine Or.inr ⟨moved, last.append new, before, behind ++ [event.id], ?_, ?_,
    fun id hid => (done id hid).append new⟩
  · simp [split]
  · rw [List.mem_append, List.mem_singleton]
    rintro (hl | hl)
    · exact behindLast hl
    · exact new (hl ▸ last.known)

theorem Outside.Covers.withdraw (h : o.Covers cursor) {kept : List Event}
    (sublist : kept.Sublist o.feed) : Covers { o with feed := kept } cursor := by
  rcases h with rfl | ⟨moved, last, before, behind, split, behindLast, done⟩
  · exact Or.inl rfl
  have hids : (kept.map (·.id)).Sublist (before ++ behind) := split ▸ sublist.map _
  obtain ⟨before', behind', split', hbefore, hbehind⟩ := List.sublist_append_iff.1 hids
  exact Or.inr ⟨moved, last.withdraw sublist, before', behind', split',
    fun hl => behindLast (hbehind.subset hl),
    fun id hid => (done id (hbefore.subset hid)).withdraw sublist⟩

/-- A repaired cursor covers what the stored one covers. -/
theorem Outside.Covers.normalized (h : o.Covers cursor) : o.Covers cursor.normalized := by
  rw [Cursor.normalized]
  split
  · exact Or.inl rfl
  · exact h

/-- At the start nothing is settled and nothing is before the cursor. -/
theorem Outside.keeps_start : o.Keeps (.at .start) :=
  ⟨Or.inl rfl, fun _ h => by cases h⟩

theorem Outside.Keeps.later (h : o.Keeps state) (later : Later o o') : o'.Keeps state :=
  ⟨h.cursor.later later, fun id hid => (h.settled id hid).later later⟩

theorem Outside.Keeps.append (h : o.Keeps state) {event : Event}
    (new : event.id ∉ o.appended.map (·.id)) :
    Keeps { o with appended := o.appended ++ [event], feed := o.feed ++ [event] } state :=
  ⟨h.cursor.append new, fun id hid => (h.settled id hid).append new⟩

theorem Outside.Keeps.withdraw (h : o.Keeps state) {kept : List Event}
    (sublist : kept.Sublist o.feed) : Keeps { o with feed := kept } state :=
  ⟨h.cursor.withdraw sublist, fun id hid => (h.settled id hid).withdraw sublist⟩

/-- A stored cursor is the one that was stored last, or was there before. -/
theorem Outside.get?_after_storeCursor {stored : Cursor} {answer : Except Fault Unit}
    (h : (o.after (.storeCursor key cursor) answer).cursors.get? key = some stored) :
    stored = cursor ∨ o.cursors.get? key = some stored := by
  cases answer with
  | error fault => exact Or.inr h
  | ok =>
    have hput : (o.cursors.put key cursor).get? key = some stored := h
    rw [Table.get?_put_self] at hput
    exact Or.inl (Option.some.inj hput).symm

namespace Sync

variable {p : Outside → (c : Call) → c.Answer → Prop}

/-- An event whose routing came out well is done once that is reported. -/
theorem done_of_ends (sound : o.Sound) {event : Event} {verdict : Verdict}
    (current : event ∈ o.feed)
    (ends : Ends (limited p) (Routing.route event).run o (.ok verdict) o') :
    (o'.after (.reportRouting event.id (.ok verdict)) ()).Done event.id where
  handled := by
    obtain ⟨deeds, course, does⟩ := comes_of_ends ends
    exact (course.handled sound current does).later (later_after _ _ _)
  routed := by
    obtain ⟨calls, traces, htrail⟩ := exists_traces ends
    obtain ⟨first, hf, hb⟩ := sound.origin event current
    refine ⟨first, ?_, event, verdict, hb.id_eq.symm, hb, o.trail, calls, [], traces, ?_⟩
    · rwa [appended_after, (Later.of_reaches rfl ends).appended]
    · rw [trail_after, htrail]

/-- The pass keeps what is settled done. -/
theorem Passes.settled_done {events : List Event} {index : Nat} {pass pass' : Pass}
    (passes : Passes p events index pass o pass' o') (sound : o.Sound)
    (done : ∀ id ∈ pass.settled, o.Done id) : ∀ id ∈ pass'.settled, o'.Done id := by
  induction passes with
  | ended => exact done
  | settled _ _ ih => exact ih sound done
  | @routed event _ _ pass _ o o₁ _ result _ current ends _ _ ih =>
    have later : Later o (o₁.after (.reportRouting event.id result) ()) :=
      (Later.of_reaches rfl ends).trans (later_after _ _ _)
    refine ih (sound.later later) ?_
    cases result with
    | error error => exact fun id hid => (done id hid).later later
    | ok verdict =>
      rw [Pass.record]
      split
      · intro id hid
        rcases List.mem_append.1 hid with hid | hid
        · exact (done id hid).later later
        · obtain rfl := List.mem_singleton.1 hid
          exact done_of_ends sound current ends
      · exact fun id hid => (done id hid).later later

/-- The events before the first held one are done. -/
theorem Passes.split {events : List Event} {index : Nat} {pass pass' : Pass}
    (passes : Passes p events index pass o pass' o') (sound : o.Sound)
    (done : ∀ id ∈ pass.settled, o.Done id) (unheld : pass.held = none) :
    ∃ processed rest, events = processed ++ rest ∧
      pass'.held.getD (index + events.length) = index + processed.length ∧
      ∀ event ∈ processed, o'.Done event.id := by
  induction passes with
  | ended => exact ⟨[], [], rfl, by simp [unheld], fun _ h => by cases h⟩
  | @settled event rest index _ pass' _ _ settled passes ih =>
    obtain ⟨processed, others, rfl, heq, hdone⟩ := ih sound done unheld
    refine ⟨event :: processed, others, rfl, ?_, fun e he => ?_⟩
    · rw [List.length_cons, List.length_cons, ← Nat.add_assoc, Nat.add_right_comm, heq]
      omega
    · rcases List.mem_cons.1 he with rfl | he
      · exact (done _ settled).later passes.later
      · exact hdone e he
  | @routed event rest index pass pass' o o₁ _ result unsettled current ends _ passes ih =>
    have later : Later o (o₁.after (.reportRouting event.id result) ()) :=
      (Later.of_reaches rfl ends).trans (later_after _ _ _)
    cases result with
    | error error =>
      -- Every error of a routing is transient, so the event is held.
      obtain ⟨deeds, course, -⟩ := comes_of_ends ends
      have held : (pass.record index event.id (.error error)).held = some index := by
        simp [Pass.record, course.isTransient, unheld]
      exact ⟨[], event :: rest, rfl, by simp [passes.held_eq held], fun _ h => by cases h⟩
    | ok verdict =>
      rw [Pass.record_ok unheld] at ih
      obtain ⟨processed, others, rfl, heq, hdone⟩ :=
        ih (sound.later later) (fun id hid => (done id hid).later later) unheld
      refine ⟨event :: processed, others, rfl, ?_, fun e he => ?_⟩
      · rw [List.length_cons, List.length_cons, ← Nat.add_assoc, Nat.add_right_comm, heq]
        omega
      · rcases List.mem_cons.1 he with rfl | he
        · exact (done_of_ends sound current ends).later passes.later
        · exact hdone e he

end Sync

/-! ## Cursors among the events -/

/-- Where the anchor stands just before the cursor, all events before the cursor are done. -/
theorem Outside.Covers.done_of_anchored (h : o.Covers state.cursor)
    (anchored : state.Anchored o.feed) :
    ∀ id ∈ (o.feed.map (·.id)).take state.cursor.nextIndex, o.Done id := by
  rcases anchored with hs | anchor
  · have hn : state.cursor.nextIndex = 0 := by simpa [Cursor.isStart] using hs
    simp [hn]
  rcases h with hstart | ⟨-, -, before, behind, split, behindLast, done⟩
  · simp [hstart, Cursor.start]
  rw [← List.getElem?_map, split] at anchor
  have hlt : state.cursor.nextIndex - 1 < before.length := by
    by_contra hge
    rw [List.getElem?_append_right (by omega)] at anchor
    exact behindLast (List.mem_of_getElem? anchor)
  intro id hid
  rw [split, List.take_append_of_le_length (by omega)] at hid
  exact done id (List.mem_of_mem_take hid)

/-- A cursor that has moved past done events covers the feed. -/
theorem Outside.Sound.covers_advanced (sound : o.Sound) {n : Nat} {processed : List Event}
    {last : Event} (before : ∀ id ∈ (o.feed.map (·.id)).take n, o.Done id)
    (hp : processed.map (·.id) <+: (o.feed.map (·.id)).drop n)
    (done : ∀ event ∈ processed, o.Done event.id) (hlast : last ∈ processed) :
    o.Covers ⟨n + processed.length, last.id⟩ := by
  have htake : (o.feed.map (·.id)).take (n + processed.length) =
      (o.feed.map (·.id)).take n ++ processed.map (·.id) := by
    rw [List.take_add, List.prefix_iff_eq_take.1 hp, List.length_map]
  have moved : 0 < n + processed.length := Nat.add_pos_right n (List.length_pos_of_mem hlast)
  refine Or.inr ⟨moved, done last hlast, _, _,
    (List.take_append_drop (n + processed.length) _).symm, ?_, ?_⟩
  · have nodup := sound.feed_nodup
    rw [← List.take_append_drop (n + processed.length) (o.feed.map (·.id))] at nodup
    refine List.disjoint_of_nodup_append nodup ?_
    rw [htake]
    exact List.mem_append_right _ (List.mem_map_of_mem hlast)
  · rw [htake]
    intro id hid
    rcases List.mem_append.1 hid with hid | hid
    · exact before id hid
    · obtain ⟨event, he, rfl⟩ := List.mem_map.1 hid
      exact done event he

/-! ## Moves -/

section

variable {p : Outside → (c : Call) → c.Answer → Prop} {settings : Settings}
  {result : Except Crash (Sync.Outcome × Sync.State)}

/-- After a pass the cursor has moved past done events only. -/
theorem Sync.Passes.covers_advanced {pass : Sync.Pass} {processed : List Event} {last : Event}
    (passes : Sync.Passes p (state.ahead settings.windowSize o.feed) 0
      { settled := state.settled } o pass o')
    (taken : processed = (state.ahead settings.windowSize o.feed).take
      (pass.held.getD (state.ahead settings.windowSize o.feed).length))
    (ended : processed.getLast? = some last) (sound : o.Sound) (keeps : o.Keeps state)
    (anchored : state.Anchored o.feed) :
    o'.Covers ⟨state.cursor.nextIndex + processed.length, last.id⟩ := by
  obtain ⟨part, rest, hsplit, heq, hdone⟩ := passes.split sound keeps.settled rfl
  have hpart : processed = part := by
    rw [taken, ← Nat.zero_add (state.ahead settings.windowSize o.feed).length, heq, hsplit,
      Nat.zero_add, List.take_left]
  subst hpart
  have hprefix : processed <+: o.feed.drop state.cursor.nextIndex :=
    (hsplit ▸ List.prefix_append _ _ :
      processed <+: state.ahead settings.windowSize o.feed).trans (List.take_prefix _ _)
  refine (sound.later passes.later).covers_advanced ?_ ?_ hdone (List.mem_of_getLast? ended)
  · rw [passes.later.ids]
    exact fun id hid => (keeps.cursor.done_of_anchored anchored id hid).later passes.later
  · rw [passes.later.ids, ← List.map_drop]
    exact hprefix.map _

/-- What a step leaves in memory covers the feed. -/
theorem Sync.Steps.keeps (steps : Sync.Steps p settings state o result o') (sound : o.Sound)
    (keeps : o.Keeps state) : ∀ state' ∈ result.toOption.map (·.2), o'.Keeps state' := by
  intro state' h
  cases steps with
  | stopped _ does _ | idle does _ _ =>
    obtain rfl := Option.mem_some_iff.1 h
    exact keeps.later does.later
  | crashed => cases h
  | reset =>
    obtain rfl := Option.mem_some_iff.1 h
    exact keeps_start
  | held does _ passes _ =>
    obtain rfl := Option.mem_some_iff.1 h
    have keeps₁ := keeps.later does.later
    exact ⟨keeps₁.cursor.later passes.later,
      passes.settled_done (sound.later does.later) keeps₁.settled⟩
  | @advanced processed last pass o₁ o₂ answer does anchored passes taken ended =>
    obtain rfl := Option.mem_some_iff.1 h
    have hfeed : o₁.feed = o.feed := does.feed
    have sound₁ := sound.later does.later
    have keeps₁ := keeps.later does.later
    rw [← hfeed] at passes taken anchored
    have covers := passes.covers_advanced taken ended sound₁ keeps₁ anchored
    refine ⟨covers.later (later_after _ _ _), fun id hid => ?_⟩
    have done := passes.settled_done sound₁ keeps₁.settled id (List.mem_of_mem_filter hid)
    exact done.later (later_after _ _ _)

/-- A cursor that is stored after a step was stored before, or is the one in memory. -/
theorem Sync.Steps.stored (steps : Sync.Steps p settings state o result o')
    (h : o'.cursors.get? settings.cursorKey = some cursor) :
    o.cursors.get? settings.cursorKey = some cursor ∨
      ∃ state' ∈ result.toOption.map (·.2), state'.cursor = cursor := by
  cases steps with
  | stopped _ does _ | idle does _ _ | crashed does _ => exact Or.inl (does.cursors ▸ h)
  | reset does _ =>
    rcases get?_after_storeCursor h with rfl | h
    · exact Or.inr ⟨_, rfl, rfl⟩
    · exact Or.inl (does.cursors ▸ h)
  | held does _ passes _ => exact Or.inl (does.cursors ▸ passes.cursors_eq ▸ h)
  | advanced does _ passes _ _ =>
    rcases get?_after_storeCursor h with rfl | h
    · exact Or.inr ⟨_, rfl, rfl⟩
    · exact Or.inl (does.cursors ▸ passes.cursors_eq ▸ h)

end

/-- What a site keeps when nothing is stored. -/
theorem Site.Covered.later {memory : Option Sync.State} (covered : Covered key ⟨memory, o⟩)
    (later : Later o o') (cursors : o'.cursors = o.cursors) : Covered key ⟨memory, o'⟩ where
  stored cursor h := by
    change o'.cursors.get? key = some cursor at h
    rw [cursors] at h
    exact (covered.stored cursor h).later later
  memory state hs := (covered.memory state hs).later later

/-- No move but a crash leaves anything behind. -/
theorem Moves.covered (moves : Moves key move site site') (whole : move ≠ .crash)
    (sound : site.outside.Sound) (covered : site.Covered key) : site'.Covered key := by
  cases moves with
  | step same ends =>
    subst same
    have steps := (Sync.ensures_step _ _ sound).ends ends
    have keeps := steps.keeps sound (covered.memory _ rfl)
    refine ⟨fun cursor h => ?_, keeps⟩
    rcases steps.stored h with old | ⟨state', hs, rfl⟩
    · exact (covered.stored cursor old).later (.of_reaches rfl ends)
    · exact (keeps state' hs).cursor
  | restart same ends =>
    subst same
    cases (Sync.ensures_load _ _).ends ends with
    | failed does =>
      exact ⟨(covered.later does.later does.cursors).stored, fun _ h => by cases h⟩
    | found does stored =>
      refine ⟨(covered.later does.later does.cursors).stored, fun state' h => ?_⟩
      obtain rfl := Option.mem_some_iff.1 h
      exact ⟨((covered.stored _ stored).later does.later).normalized, fun _ h => by cases h⟩
    | created does answer =>
      refine ⟨fun cursor h => ?_, fun state' h => ?_⟩
      · rcases get?_after_storeCursor h with rfl | h
        · exact Or.inl rfl
        · exact ((covered.later does.later does.cursors).stored cursor h).later (later_after _ _ _)
      · rcases answer with fault | _
        · cases h
        · obtain rfl := Option.mem_some_iff.1 h
          exact keeps_start
  | crash => exact absurd rfl whole
  | rescan =>
    refine ⟨covered.stored, fun state' h => ?_⟩
    obtain rfl := Option.mem_some_iff.1 h
    exact keeps_start
  | append event new =>
    exact ⟨fun c h => (covered.stored c h).append new, fun s h => (covered.memory s h).append new⟩
  | withdraw kept sublist =>
    exact ⟨fun c h => (covered.stored c h).withdraw sublist,
      fun s h => (covered.memory s h).withdraw sublist⟩
  | mark ends =>
    obtain ⟨spares, -⟩ := (Inbox.ensures_setRead _ _ _).ends ends
    exact covered.later spares.later spares.cursors
  | discard _ ends =>
    obtain ⟨spares, -⟩ := (Inbox.ensures_delete _ _).ends ends
    exact covered.later spares.later spares.cursors

/-- Along every run that begins without a stored cursor, all cursors cover the feed. -/
theorem Run.covered {allowed : Move → Prop} (run : Run key allowed start site)
    (whole : ¬allowed .crash) (begins : start.Begins)
    (fresh : start.outside.cursors.get? key = none) : site.Covered key := by
  have both : site.outside.Sound ∧ site.Covered key := by
    refine run.keeps (I := fun site => site.outside.Sound ∧ site.Covered key)
      ⟨begins.sound, ⟨?_, ?_⟩⟩ fun ih permitted moves =>
        ⟨moves.sound ih.1, moves.covered (fun h => whole (h ▸ permitted)) ih.1 ih.2⟩
    · intro cursor h
      rw [fresh] at h
      cases h
    · intro state h
      rw [begins.memory] at h
      cases h
  exact both.2

/-- No event is ever left behind a cursor, in memory or stored : where the anchor stands just before
the cursor, all events before the cursor are consumed and were routed to a verdict, with whatever
that took. -/
theorem no_event_left_behind (begins : start.Begins)
    (fresh : start.outside.cursors.get? key = none) (run : Run key (· ≠ .crash) start site)
    (cursor : Cursor) (kept : (∃ state ∈ site.memory, state.cursor = cursor) ∨
      site.outside.cursors.get? key = some cursor) (moved : 0 < cursor.nextIndex)
    (anchor : site.outside.feed[cursor.nextIndex - 1]?.map (·.id) = some cursor.lastEventId) :
    ∀ event ∈ site.outside.feed.take cursor.nextIndex, event.consumed = true ∧
      ∃ routed verdict, routed.Becomes event ∧ site.outside.Routed routed verdict := by
  have covered := run.covered (fun h => h rfl) begins fresh
  have covers : site.outside.Covers cursor := by
    rcases kept with ⟨state, hs, rfl⟩ | stored
    · exact (covered.memory state hs).cursor
    · exact covered.stored cursor stored
  intro event he
  have done : site.outside.Done event.id := by
    have anchored : (Sync.State.at cursor).Anchored site.outside.feed := Or.inr anchor
    refine Covers.done_of_anchored covers anchored event.id ?_
    rw [← List.map_take]
    exact List.mem_map_of_mem he
  have hmem : event ∈ site.outside.feed := List.mem_of_mem_take he
  have sound := run.sound begins
  have hc : event.consumed = true := done.handled event hmem rfl
  obtain ⟨first, hf, routed, verdict, hid, hb, h⟩ := done.routed
  obtain ⟨origin, ho, hb'⟩ := sound.origin event hmem
  obtain rfl : first = origin :=
    List.inj_on_of_nodup_map sound.nodup hf ho (hid.trans hb'.id_eq)
  exact ⟨hc, routed, verdict, hb.of_consumed hb' hc, h⟩

/-- After a restart and a step both events of the feed are before the cursor. -/
theorem no_event_left_behind_fresh :
    (((Site.fresh.restarted {}).stepped {}).memory.map (·.cursor)) = some ⟨2, "B"⟩ ∧
    ∀ event ∈ ((Site.fresh.restarted {}).stepped {}).outside.feed.take 2, event.consumed = true ∧
      ∃ routed verdict, routed.Becomes event ∧
        ((Site.fresh.restarted {}).stepped {}).outside.Routed routed verdict := by
  have moved : ((Site.fresh.restarted {}).stepped {}).memory.map (·.cursor) = some ⟨2, "B"⟩ := by
    decide +kernel
  have run : Run (Settings.cursorKey {}) (· ≠ .crash) .fresh
      ((Site.fresh.restarted {}).stepped {}) :=
    (Run.here.restarted Move.noConfusion).stepped Move.noConfusion
  exact ⟨moved, no_event_left_behind Site.begins_fresh rfl run ⟨2, "B"⟩
    (Or.inl (Option.map_eq_some_iff.1 moved)) (by decide) (by decide +kernel)⟩

end Feedkeeper
