import Feedkeeper.Proofs.Calm
import Mathlib.Data.List.Perm.Subperm

/-!
# A reset tells of a withdrawal

A step resets the cursor exactly if an event before the cursor was withdrawn from the feed since a
step moved the cursor to where it is. The cursor remembers one id only, so this needs the history of
the feed. A run is told here together with its *milestones* (`Travels`) : each cursor that a step
advanced to, with the feed at that time. Whatever was appended and withdrawn since, the feed holds
what is left of the feed at a milestone, and behind that new events only (`Follows`). So the anchor
stands where it stood exactly if no event in front of it is missing (`Follows.anchor_iff`).

A cursor that is in memory or stored is the start or that of a milestone (`Site.Charted`), however
stale the stored one is.
-/

namespace Feedkeeper

open Outside Script

/-! ## Feeds that follow others -/

/-- The later list holds what is left of the earlier one, and then new elements. -/
def Follows (earlier later : List String) : Prop :=
  ∃ kept new, later = kept ++ new ∧ kept.Sublist earlier ∧ ∀ id ∈ new, id ∉ earlier

namespace Follows

variable {earlier later : List String}

theorem refl (earlier : List String) : Follows earlier earlier :=
  ⟨earlier, [], (List.append_nil _).symm, .refl _, fun _ h => by cases h⟩

theorem append (h : Follows earlier later) {id : String} (new : id ∉ earlier) :
    Follows earlier (later ++ [id]) := by
  obtain ⟨kept, others, rfl, sublist, unknown⟩ := h
  refine ⟨kept, others ++ [id], List.append_assoc _ _ _, sublist, fun other ho => ?_⟩
  rcases List.mem_append.1 ho with ho | ho
  · exact unknown other ho
  · exact List.mem_singleton.1 ho ▸ new

theorem withdraw (h : Follows earlier later) {left : List String} (sublist : left.Sublist later) :
    Follows earlier left := by
  obtain ⟨kept, new, rfl, hkept, unknown⟩ := h
  obtain ⟨kept', new', rfl, hkept', hnew'⟩ := List.sublist_append_iff.1 sublist
  exact ⟨kept', new', rfl, hkept'.trans hkept, fun id hid => unknown id (hnew'.subset hid)⟩

/-- An element stands where it stood exactly if nothing in front of it is missing. -/
theorem anchor_iff (h : Follows earlier later) (nodup : earlier.Nodup) {n : Nat} {last : String}
    (moved : 0 < n) (anchor : earlier[n - 1]? = some last) :
    later[n - 1]? = some last ↔ ∀ id ∈ earlier.take n, id ∈ later := by
  obtain ⟨kept, new, rfl, sublist, unknown⟩ := h
  -- What is left of the first `n` is what matters : it is all of them in either case.
  obtain ⟨front, back, rfl, hfront, hback⟩ :=
    List.sublist_append_iff.1 ((List.take_append_drop n earlier).symm ▸ sublist)
  have apart : ∀ id ∈ earlier.take n, id ∉ back ++ new := by
    intro id hid hmem
    rcases List.mem_append.1 hmem with hmem | hmem
    · rw [← List.take_append_drop n earlier] at nodup
      exact List.disjoint_of_nodup_append nodup hid (hback.subset hmem)
    · exact unknown id hmem (List.mem_of_mem_take hid)
  have hlen : (earlier.take n).length = n := by
    have := (List.getElem?_eq_some_iff.1 anchor).1
    rw [List.length_take]
    omega
  have hlast : (earlier.take n)[n - 1]? = some last := by
    rw [List.getElem?_take_of_lt (by omega), anchor]
  rw [List.append_assoc]
  constructor
  · intro hat
    have hlt : n - 1 < front.length := by
      by_contra hge
      rw [List.getElem?_append_right (by omega)] at hat
      exact apart last (List.mem_of_getElem? hlast) (List.mem_of_getElem? hat)
    obtain rfl := hfront.eq_of_length_le (by omega)
    exact fun id hid => List.mem_append_left _ hid
  · intro all
    have hsub : earlier.take n ⊆ front := fun id hid =>
      (List.mem_append.1 (all id hid)).resolve_right (apart id hid)
    obtain rfl := hfront.eq_of_length_le
      ((nodup.sublist (List.take_sublist n earlier)).subperm hsub).length_le
    rw [List.getElem?_append_left (by omega), hlast]

end Follows

/-! ## Milestones -/

/-- A cursor that a step advanced to, with the feed at that time. -/
structure Milestone where
  cursor : Cursor
  feed : List Event

/-- The milestone that a step has passed, if it advanced the cursor. -/
def Milestone.passed (feed : List Event) : Except Crash (Sync.Outcome × Sync.State) →
    List Milestone
  | .ok (.advanced _ _, state) => [⟨state.cursor, feed⟩]
  | _ => []

/-- A step that is stopped passes no milestone. -/
theorem Milestone.passed_of_stops {outcome : Sync.Outcome} (stops : outcome ∈ Sync.Outcome.stops)
    (feed : List Event) (state : Sync.State) : passed feed (.ok (outcome, state)) = [] := by
  cases outcome <;> first | rfl | simp [Sync.Outcome.stops] at stops

/-- The site may be reached from `start` by moves that are allowed, past the milestones, the latest
of them first. -/
inductive Travels (key : String) (allowed : Move → Prop) (start : Site) :
    List Milestone → Site → Prop where
  | here : Travels key allowed start [] start
  | step {milestones : List Milestone} {settings : Settings} {state : Sync.State} {o o' : Outside}
      {result : Except Crash (Sync.Outcome × Sync.State)}
      (travels : Travels key allowed start milestones ⟨some state, o⟩) (permitted : allowed .step)
      (same : settings.cursorKey = key) (ends : Ends free (Sync.step settings state) o result o') :
      Travels key allowed start (Milestone.passed o'.feed result ++ milestones)
        ⟨result.toOption.map (·.2), o'⟩
  | other {milestones : List Milestone} {move : Move} {site site' : Site}
      (travels : Travels key allowed start milestones site) (permitted : allowed move)
      (between : move ≠ .step) (moves : Moves key move site site') :
      Travels key allowed start milestones site'

variable {key : String} {allowed : Move → Prop} {start site site' : Site} {move : Move}
  {milestones : List Milestone} {milestone : Milestone} {o o' : Outside} {state : Sync.State}
  {cursor : Cursor}

theorem Travels.run (travels : Travels key allowed start milestones site) :
    Run key allowed start site := by
  induction travels with
  | here => exact .here
  | step _ permitted same ends ih => exact ih.next permitted (.step same ends)
  | other _ permitted _ moves ih => exact ih.next permitted moves

/-- Every run passes milestones. -/
theorem Run.travels (run : Run key allowed start site) :
    ∃ milestones, Travels key allowed start milestones site := by
  induction run with
  | here => exact ⟨[], .here⟩
  | @next move _ _ _ permitted moves ih =>
    obtain ⟨milestones, travels⟩ := ih
    by_cases between : move = .step
    · subst between
      cases moves with
      | step same ends => exact ⟨_, travels.step permitted same ends⟩
    · exact ⟨milestones, travels.other permitted between moves⟩

/-- The feed follows that at the milestone, where the anchor stood just before the cursor. -/
structure Outside.Remembers (o : Outside) (milestone : Milestone) : Prop where
  anchor : milestone.feed[milestone.cursor.nextIndex - 1]?.map (·.id) =
    some milestone.cursor.lastEventId
  nodup : (milestone.feed.map (·.id)).Nodup
  known : ∀ id ∈ milestone.feed.map (·.id), id ∈ o.appended.map (·.id)
  follows : Follows (milestone.feed.map (·.id)) (o.feed.map (·.id))

/-- The cursor is at the start or is that of a milestone. -/
def Cursor.MarkedBy (cursor : Cursor) (milestones : List Milestone) : Prop :=
  cursor.nextIndex = 0 ∨ cursor ∈ milestones.map (·.cursor)

/-- Every cursor is the start or that of a milestone, and the feed follows those at milestones. -/
structure Site.Charted (key : String) (milestones : List Milestone) (site : Site) : Prop where
  sound : site.outside.Sound
  passed : ∀ milestone ∈ milestones, site.outside.Remembers milestone
  memory : ∀ state ∈ site.memory, state.cursor.MarkedBy milestones
  stored : ∀ cursor, site.outside.cursors.get? key = some cursor → cursor.MarkedBy milestones

/-! ## What keeps milestones -/

theorem Outside.Remembers.later (h : o.Remembers milestone) (later : Later o o') :
    o'.Remembers milestone where
  anchor := h.anchor
  nodup := h.nodup
  known := later.appended ▸ h.known
  follows := later.ids ▸ h.follows

theorem Outside.Remembers.append (h : o.Remembers milestone) {event : Event}
    (new : event.id ∉ o.appended.map (·.id)) :
    Remembers { o with appended := o.appended ++ [event], feed := o.feed ++ [event] }
      milestone where
  anchor := h.anchor
  nodup := h.nodup
  known id hid := List.map_append ▸ List.mem_append_left _ (h.known id hid)
  follows := by
    rw [List.map_append, List.map_singleton]
    exact h.follows.append fun hid => new (h.known _ hid)

theorem Outside.Remembers.withdraw (h : o.Remembers milestone) {kept : List Event}
    (sublist : kept.Sublist o.feed) : Remembers { o with feed := kept } milestone where
  anchor := h.anchor
  nodup := h.nodup
  known := h.known
  follows := h.follows.withdraw (sublist.map _)

theorem Cursor.markedBy_start : Cursor.start.MarkedBy milestones :=
  Or.inl rfl

theorem Cursor.MarkedBy.normalized (h : cursor.MarkedBy milestones) :
    cursor.normalized.MarkedBy milestones := by
  rw [Cursor.normalized]
  split
  · exact markedBy_start
  · exact h

theorem Cursor.MarkedBy.append (h : cursor.MarkedBy milestones) (more : List Milestone) :
    cursor.MarkedBy (more ++ milestones) :=
  h.imp_right fun hm => List.map_append ▸ List.mem_append_right _ hm

/-- A site is as charted as before if nothing but calls was made and no cursor stored. -/
theorem Site.Charted.later {memory : Option Sync.State}
    (charted : Charted key milestones ⟨memory, o⟩) (later : Later o o')
    (cursors : o'.cursors = o.cursors) : Charted key milestones ⟨memory, o'⟩ where
  sound := charted.sound.later later
  passed milestone hm := (charted.passed milestone hm).later later
  memory := charted.memory
  stored cursor h := charted.stored cursor (cursors ▸ h)

section

variable {p : Outside → (c : Call) → c.Answer → Prop} {settings : Settings}
  {result : Except Crash (Sync.Outcome × Sync.State)}

/-- The milestone that a step has passed, if any, has the anchor of its cursor. -/
theorem Sync.Steps.remembers (steps : Sync.Steps p settings state o result o') (sound : o.Sound)
    (later : Later o o') : ∀ milestone ∈ Milestone.passed o'.feed result,
      o'.Remembers milestone := by
  intro milestone hm
  cases steps with
  | stopped _ _ stops =>
    rw [Milestone.passed_of_stops stops] at hm
    cases hm
  | crashed | reset | idle | held => cases hm
  | @advanced processed last pass o₁ o₂ answer does anchored passes taken ended =>
    obtain rfl := List.mem_singleton.1 hm
    have next : processed <+: o.feed.drop state.cursor.nextIndex :=
      taken ▸ (List.take_prefix _ _).trans (List.take_prefix _ _)
    have anchor := congrArg (Option.map (·.id)) (getElem?_of_prefix_drop next ended).2
    refine ⟨?_, (sound.later later).feed_nodup,
      fun id hid => (sound.later later).sublist.subset hid, .refl _⟩
    rw [← List.getElem?_map, later.ids, List.getElem?_map]
    exact anchor

/-- The cursor that a step leaves in memory is the start, or that of a milestone. -/
theorem Sync.Steps.markedBy (steps : Sync.Steps p settings state o result o')
    (marked : state.cursor.MarkedBy milestones) : ∀ state' ∈ result.toOption.map (·.2),
      state'.cursor.MarkedBy (Milestone.passed o'.feed result ++ milestones) := by
  intro state' h
  cases steps with
  | stopped | idle | held =>
    obtain rfl := Option.mem_some_iff.1 h
    exact marked.append _
  | crashed => cases h
  | reset =>
    obtain rfl := Option.mem_some_iff.1 h
    exact Cursor.markedBy_start
  | advanced =>
    obtain rfl := Option.mem_some_iff.1 h
    exact Or.inr List.mem_cons_self

end

/-! ## Travels -/

theorem Site.Charted.step {settings : Settings} {result : Except Crash (Sync.Outcome × Sync.State)}
    (charted : Charted settings.cursorKey milestones ⟨some state, o⟩)
    (ends : Ends free (Sync.step settings state) o result o') :
    Charted settings.cursorKey (Milestone.passed o'.feed result ++ milestones)
      ⟨result.toOption.map (·.2), o'⟩ := by
  have steps := (Sync.ensures_step settings state charted.sound).ends ends
  have later : Later o o' := .of_reaches rfl ends
  have memory := steps.markedBy (charted.memory state rfl)
  refine ⟨charted.sound.later later, fun milestone hm => ?_, memory, fun cursor h => ?_⟩
  · rcases List.mem_append.1 hm with hm | hm
    · exact steps.remembers charted.sound later milestone hm
    · exact (charted.passed milestone hm).later later
  · rcases steps.stored h with old | ⟨state', hs, rfl⟩
    · exact (charted.stored cursor old).append _
    · exact memory state' hs

/-- No move but a step and a crash leads past a milestone. -/
theorem Moves.charted (moves : Moves key move site site') (between : move ≠ .step)
    (whole : move ≠ .crash) (charted : site.Charted key milestones) :
    site'.Charted key milestones := by
  have sound := moves.sound charted.sound
  cases moves with
  | step => exact absurd rfl between
  | crash => exact absurd rfl whole
  | restart same ends =>
    subst same
    cases (Sync.ensures_load _ _).ends ends with
    | failed does =>
      have kept := charted.later does.later does.cursors
      exact ⟨sound, kept.passed, fun _ h => (by cases h), kept.stored⟩
    | found does stored =>
      have kept := charted.later does.later does.cursors
      refine ⟨sound, kept.passed, fun state' h => ?_, kept.stored⟩
      obtain rfl := Option.mem_some_iff.1 h
      exact (charted.stored _ stored).normalized
    | created does answer =>
      have kept := charted.later does.later does.cursors
      refine ⟨sound, fun m hm => (kept.passed m hm).later (later_after _ _ _), fun state' h => ?_,
        fun cursor h => ?_⟩
      · rcases answer with fault | _
        · cases h
        · obtain rfl := Option.mem_some_iff.1 h
          exact Cursor.markedBy_start
      · rcases get?_after_storeCursor h with rfl | h
        · exact Cursor.markedBy_start
        · exact kept.stored cursor h
  | rescan =>
    refine ⟨sound, charted.passed, fun state' h => ?_, charted.stored⟩
    obtain rfl := Option.mem_some_iff.1 h
    exact Cursor.markedBy_start
  | append event new =>
    exact ⟨sound, fun m hm => (charted.passed m hm).append new, charted.memory, charted.stored⟩
  | withdraw kept sublist =>
    exact ⟨sound, fun m hm => (charted.passed m hm).withdraw sublist, charted.memory,
      charted.stored⟩
  | mark ends =>
    obtain ⟨spares, -⟩ := (Inbox.ensures_setRead _ _ _).ends ends
    exact charted.later spares.later spares.cursors
  | discard _ ends =>
    obtain ⟨spares, -⟩ := (Inbox.ensures_delete _ _).ends ends
    exact charted.later spares.later spares.cursors

/-- Along every run that begins without a stored cursor, the milestones passed account for all
cursors. -/
theorem Travels.charted (travels : Travels key allowed start milestones site)
    (whole : ¬allowed .crash) (begins : start.Begins)
    (fresh : start.outside.cursors.get? key = none) : site.Charted key milestones := by
  induction travels with
  | here =>
    refine ⟨begins.sound, fun _ h => (by cases h), fun state h => ?_, fun cursor h => ?_⟩
    · rw [begins.memory] at h
      cases h
    · rw [fresh] at h
      cases h
  | step _ _ same ends ih =>
    subst same
    exact ih.step ends
  | other _ permitted between moves ih =>
    exact moves.charted between (fun h => whole (h ▸ permitted)) ih

/-! ## Resets -/

/-- The gate is open, and the feed can be fetched. -/
def Outside.Online : (c : Call) → c.Answer → Prop
  | .isLoggedIn, answer => answer = true
  | .isOnline, answer => answer = true
  | .fetch .., answer => ∃ window, answer = .ok window
  | _, _ => True

theorem Outside.online_obliging (o : Outside) (c : Call) : Online c (o.obliging c) := by
  cases c with
  | isLoggedIn | isOnline => rfl
  | fetch => exact ⟨_, rfl⟩
  | _ => trivial

/-- A step that fetches its window resets the cursor exactly if the anchor is not in its place. -/
theorem Sync.Steps.reset_iff {settings : Settings} {outcome : Sync.Outcome} {state' : Sync.State}
    (steps : Sync.Steps (fun _ => Online) settings state o (.ok (outcome, state')) o')
    (size : settings.windowSize ≠ 0) : outcome = .cursorReset ↔ ¬state.Anchored o.feed := by
  generalize hresult : (Except.ok (outcome, state') : Except Crash (Sync.Outcome × Sync.State)) =
    result at steps
  cases steps with
  | stopped hindered =>
    exfalso
    obtain ⟨o, h | h | ⟨offset, limit, failure, h⟩⟩ := hindered
    · exact Bool.noConfusion (show false = true from h)
    · exact Bool.noConfusion (show false = true from h)
    · obtain ⟨window, hw⟩ : ∃ window, Except.error failure = Except.ok window := h
      cases hw
  | crashed => cases hresult
  | reset does unanchored =>
    cases hresult
    exact iff_of_true rfl (unanchored size)
  | idle does anchored | held does anchored | advanced does anchored =>
    cases hresult
    exact iff_of_false Sync.Outcome.noConfusion (not_not_intro anchored)

/-- A step that goes on with a window that lines up does not reset the cursor. -/
theorem Sync.ensures_consume_not_reset {p : Outside → (c : Call) → c.Answer → Prop}
    (settings : Settings) (state : Sync.State) (events : List Event) (o : Outside) :
    Ensures (limited p) (Sync.consume settings state events)
      (fun result _ => ∀ state', result ≠ .ok (.cursorReset, state')) o := by
  rw [Sync.consume, ensures_bind]
  refine ensures_iff.2 fun pass o₁ _ => ?_
  split
  · exact fun _ h => by cases h
  dsimp only
  split
  · exact fun _ h => by cases h
  split
  · exact fun _ h => by cases h
  · rw [ensures_bind]
    exact Sync.ensures_persist fun _ _ h => by cases h

/-- What a step that resets the cursor has done : after the window was fetched, nothing but store
the start. -/
theorem Sync.ensures_reset (settings : Settings) (state : Sync.State) (o : Outside) :
    Ensures (limited fun _ => Online) (Sync.step settings state) (fun result o' =>
      ∀ state', result = .ok (.cursorReset, state') → state' = .at .start ∧
        ∃ limit window answer, o'.trail = o.trail ++
          [⟨.isLoggedIn, true⟩, ⟨.isOnline, true⟩,
            ⟨.fetch state.cursor.windowStart limit, .ok window⟩,
            ⟨.storeCursor settings.cursorKey .start, answer⟩] ∧
          (answer = .ok () → o'.cursors.get? settings.cursorKey = some .start)) o := by
  rw [Sync.step, ensures_ask_bind]
  rintro loggedIn ⟨-, rfl⟩
  rw [if_pos rfl, ensures_ask_bind]
  rintro online ⟨-, rfl⟩
  rw [if_pos rfl]
  dsimp only
  split
  · exact fun _ h => by cases h
  rename_i limit _
  rw [ensures_ask_bind]
  rintro answer ⟨-, window, rfl⟩
  dsimp only
  rw [Sync.receive]
  split
  · exact (Sync.ensures_consume_not_reset _ _ _ _).mono fun result _ h state' heq =>
      absurd heq (h state')
  · rw [ensures_bind]
    refine Sync.ensures_persist fun stored state' h => ?_
    cases h
    refine ⟨rfl, limit, window, stored, by simp, ?_⟩
    rintro rfl
    exact Table.get?_put_self _ _ _

/-- A cursor of a milestone is anchored exactly if no event that was before it then is missing. -/
theorem Outside.Remembers.anchored_iff (remembers : o.Remembers milestone)
    (same : milestone.cursor = state.cursor) (moved : 0 < state.cursor.nextIndex) :
    state.Anchored o.feed ↔
      ∀ event ∈ milestone.feed.take state.cursor.nextIndex, event.id ∈ o.feed.map (·.id) := by
  have anchor := remembers.anchor
  rw [same, ← List.getElem?_map] at anchor
  have unstarted : ¬state.cursor.isStart = true := by
    rw [Cursor.isStart, beq_iff_eq]
    omega
  rw [Sync.State.Anchored, or_iff_right unstarted, ← List.getElem?_map,
    remembers.follows.anchor_iff remembers.nodup moved anchor, ← List.map_take,
    List.forall_mem_map]

theorem Site.Charted.exists_milestone (charted : Charted key milestones ⟨some state, o⟩)
    (moved : 0 < state.cursor.nextIndex) : ∃ milestone,
      milestones.find? (·.cursor == state.cursor) = some milestone ∧
        milestone.cursor = state.cursor ∧ o.Remembers milestone := by
  have marked := (charted.memory state rfl).resolve_left (by omega)
  obtain ⟨earlier, hm, heq⟩ := List.mem_map.1 marked
  have present : (milestones.find? (·.cursor == state.cursor)).isSome :=
    List.find?_isSome.2 ⟨earlier, hm, by simpa using heq⟩
  obtain ⟨milestone, found⟩ := Option.isSome_iff_exists.1 present
  exact ⟨milestone, found, by simpa using List.find?_some found,
    charted.passed milestone (List.mem_of_find?_eq_some found)⟩

/-- Whatever was appended and withdrawn, wherever the cursor was loaded from and whatever failed on
the way, a step that fetches its window resets the cursor exactly if one of the events that were
before the cursor when a step last advanced to it was withdrawn since. So no event behind the cursor
matters. A step that resets the cursor routes nothing : it asks to store the start, and goes on from
there with nothing settled. A step crashes only if the end of its window is no position, and then
it fetches nothing. -/
theorem reset_iff_withdrawn (begins : start.Begins)
    (fresh : start.outside.cursors.get? key = none)
    (travels : Travels key (· ≠ .crash) start milestones ⟨some state, o⟩)
    (moved : 0 < state.cursor.nextIndex) :
    ∃ milestone, milestones.find? (·.cursor == state.cursor) = some milestone ∧
      ∀ settings : Settings, 0 < settings.windowSize → ∀ result o',
        Ends (limited fun _ => Online) (Sync.step settings state) o result o' →
        result = .error .addOverflow ∧
            Position.bound ≤ state.cursor.windowStart + settings.windowSize ∨
          ∃ outcome state', result = .ok (outcome, state') ∧
            (outcome = .cursorReset ↔ ∃ event ∈ milestone.feed.take state.cursor.nextIndex,
              event.id ∉ o.feed.map (·.id)) ∧
            (outcome = .cursorReset → state' = .at .start ∧
              ∃ limit window answer, o'.trail = o.trail ++
                [⟨.isLoggedIn, true⟩, ⟨.isOnline, true⟩,
                  ⟨.fetch state.cursor.windowStart limit, .ok window⟩,
                  ⟨.storeCursor settings.cursorKey .start, answer⟩] ∧
                (answer = .ok () → o'.cursors.get? settings.cursorKey = some .start)) := by
  have charted := travels.charted (fun h => h rfl) begins fresh
  obtain ⟨milestone, found, same, remembers⟩ := charted.exists_milestone moved
  refine ⟨milestone, found, fun settings size result o' ends => ?_⟩
  have steps := (Sync.ensures_step settings state charted.sound).ends ends
  rcases result with crash | ⟨outcome, state'⟩
  · cases steps with
    | crashed _ overflow => exact Or.inl ⟨rfl, overflow⟩
  · refine Or.inr ⟨outcome, state', rfl, ?_, fun h => ?_⟩
    · rw [steps.reset_iff (by omega), remembers.anchored_iff same moved]
      simp
    · exact (Sync.ensures_reset settings state o).ends ends state' (h ▸ rfl)

/-- The first of two events is withdrawn after a step has advanced past both. The next step resets
the cursor, and so tells of the withdrawal. -/
theorem reset_iff_withdrawn_first : ∃ milestones o,
    Travels (Settings.cursorKey {}) (· ≠ .crash) .fresh milestones ⟨some ⟨⟨2, "B"⟩, []⟩, o⟩ ∧
    o.feed.map (·.id) = ["B"] ∧
    (oblige (Sync.step {} ⟨⟨2, "B"⟩, []⟩) o).1.toOption = some (.cursorReset, .at .start) ∧
    ∃ milestone, milestones.find? (·.cursor == ⟨2, "B"⟩) = some milestone ∧
      ∃ event ∈ milestone.feed.take 2, event.id ∉ o.feed.map (·.id) := by
  let loaded := oblige (Sync.load {}) Site.fresh.outside
  let read := oblige (Sync.step {} (.at .start)) loaded.2
  let left : Outside := { read.2 with feed := read.2.feed.drop 1 }
  have memory : loaded.1.toOption = some (.at .start) := by decide +kernel
  have advanced : read.1.toOption.map (·.2) = some ⟨⟨2, "B"⟩, []⟩ := by decide +kernel
  have ids : left.feed.map (·.id) = ["B"] := by decide +kernel
  have reset : (oblige (Sync.step {} ⟨⟨2, "B"⟩, []⟩) left).1.toOption =
      some (.cursorReset, .at .start) := by decide +kernel
  have restarted : Travels (Settings.cursorKey {}) (· ≠ .crash) .fresh []
      ⟨some (.at .start), loaded.2⟩ :=
    memory ▸ Travels.here.other Move.noConfusion Move.noConfusion
      (.restart rfl (ends_oblige (fun _ _ => trivial) _ _))
  have stepped : Travels (Settings.cursorKey {}) (· ≠ .crash) .fresh
      (Milestone.passed read.2.feed read.1 ++ []) ⟨some ⟨⟨2, "B"⟩, []⟩, read.2⟩ :=
    advanced ▸ restarted.step Move.noConfusion rfl (ends_oblige (fun _ _ => trivial) _ _)
  have withdrawn := stepped.other Move.noConfusion Move.noConfusion
    (.withdraw (read.2.feed.drop 1) (List.drop_sublist 1 _))
  obtain ⟨milestone, found, tells⟩ :=
    reset_iff_withdrawn Site.begins_fresh rfl withdrawn (by decide)
  refine ⟨_, left, withdrawn, ids, reset, milestone, found, ?_⟩
  rcases tells {} (by decide) _ _ (ends_oblige online_obliging _ _) with
    ⟨crash, -⟩ | ⟨outcome, state', result, iff, -⟩
  · rw [crash] at reset
    cases reset
  · rw [result] at reset
    cases reset
    exact iff.1 rfl

end Feedkeeper
