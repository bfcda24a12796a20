import Feedkeeper.Proofs.Calm

/-!
# Convergence

What a calm loop does until it comes to rest does not depend on the size of its windows. The events
that it has still to route are known from the outset (`Sync.State.agenda`) : a calm step routes the
first of them, as many as its window shows, and leaves the others (`Sync.CalmSteps.makes`). What
routing does for good is a function of the events and of what was done before (`Routing.rulings`,
`Sync.Passes.makes`), so from one state all calm loops do the same in the same order, and come to
rest with the same cursor (`Sync.Drains.makes`).
-/

namespace Feedkeeper

open Outside Script

namespace Outside

/-- The second state is the first after the deeds, whenever notices were made. -/
def Makes (o : Outside) (deeds : List Deed) (o' : Outside) : Prop :=
  ∃ made, o.Adds made o' ∧ made.map Deed.undated = deeds

variable {o o' o'' : Outside} {deeds : List Deed}

theorem savedNotices_undated (deeds : List Deed) :
    savedNotices (deeds.map Deed.undated) = (savedNotices deeds).map Notice.undated := by
  induction deeds with
  | nil => rfl
  | cons deed rest ih =>
    cases deed with
    | saved notice => exact congrArg (notice.undated :: ·) ih
    | announced | acknowledged | joined => exact ih

theorem acknowledgedIds_undated (deeds : List Deed) :
    acknowledgedIds (deeds.map Deed.undated) = acknowledgedIds deeds := by
  induction deeds with
  | nil => rfl
  | cons deed rest ih =>
    cases deed with
    | acknowledged id => exact congrArg (id :: ·) ih
    | saved | announced | joined => exact ih

theorem Adds.makes {made : List Deed} (adds : o.Adds made o') :
    o.Makes (made.map Deed.undated) o' :=
  ⟨made, adds, rfl⟩

theorem Makes.trans {first second : List Deed} (h : o.Makes first o') (h' : o'.Makes second o'') :
    o.Makes (first ++ second) o'' := by
  obtain ⟨made, adds, rfl⟩ := h
  obtain ⟨made', adds', rfl⟩ := h'
  exact ⟨made ++ made', adds.trans adds', List.map_append⟩

theorem Makes.past_eq (h : o.Makes deeds o') : o'.past = o.past ++ deeds := by
  obtain ⟨made, adds, rfl⟩ := h
  rw [past, past, adds.deeds, List.map_append]

theorem Makes.kept_eq (h : o.Makes deeds o') : o'.kept = o.kept ++ savedNotices deeds := by
  obtain ⟨made, adds, rfl⟩ := h
  rw [kept, kept, adds.notices, List.map_append, savedNotices_undated]

theorem Makes.feed_eq (h : o.Makes deeds o') : o'.feed =
    (acknowledgedIds deeds).foldl (fun events id => Testbed.consumeFirst id events) o.feed := by
  obtain ⟨made, adds, rfl⟩ := h
  rw [adds.feed, acknowledgedIds_undated]

end Outside

/-! ## Routing in sequence -/

/-- What routing the events in order does for good, given what was done and stored before. -/
def Routing.rulings (lookups : List Deed → Lookups) :
    List Deed → List Notice → List Event → List Deed
  | _, _, [] => []
  | past, notices, event :: rest =>
    let deeds := ruling (lookups past) notices event
    deeds ++ rulings lookups (past ++ deeds) (notices ++ savedNotices deeds) rest

/-- Routing may stop after some events and go on later. -/
theorem Routing.rulings_append (lookups : List Deed → Lookups) (past : List Deed)
    (notices : List Notice) (first second : List Event) :
    rulings lookups past notices (first ++ second) =
      rulings lookups past notices first ++
        rulings lookups (past ++ rulings lookups past notices first)
          (notices ++ savedNotices (rulings lookups past notices first)) second := by
  induction first generalizing past notices with
  | nil => simp [rulings, savedNotices]
  | cons event rest ih =>
    simp only [List.cons_append, rulings]
    rw [ih]
    simp only [savedNotices_append, List.append_assoc]

namespace Sync

variable {p : Outside → (c : Call) → c.Answer → Prop} {lookups : List Deed → Lookups}
  {settings : Settings} {state state' : State} {windowSize : Nat} {o o' : Outside}

/-- A calm routing does what the table says, and acknowledges no event but its own. -/
theorem makes_of_ends {event : Event} {verdict : Verdict}
    (ends : Ends (limited (steady Calm lookups)) (Routing.route event).run o (.ok verdict) o') :
    ∃ made, o.Adds made o' ∧
      made.map Deed.undated = Routing.ruling (lookups o.past) o.kept event ∧
      ∀ id ∈ acknowledgedIds made, id = event.id := by
  obtain ⟨made, does, heq⟩ := (Routing.ensures_ruling event o).ends ends verdict rfl
  obtain ⟨deeds, course, does'⟩ := comes_of_ends ends
  obtain rfl : made = deeds :=
    List.append_cancel_left (does.deeds.symm.trans does'.deeds)
  refine ⟨made, does.toAdds, heq, fun id hid => ?_⟩
  rcases course.acknowledgedIds_eq with hnil | ⟨-, hone⟩
  · rw [hnil] at hid
    cases hid
  · rw [hone] at hid
    exact List.mem_singleton.1 hid

/-- A calm pass does what the table says of the events that are not settled. -/
theorem Passes.makes {events : List Event} {index : Nat} {pass pass' : Pass}
    (passes : Passes (steady Calm lookups) events index pass o pass' o')
    (unheld : pass.held = none) :
    o.Makes (Routing.rulings lookups o.past o.kept
        (events.filter fun event => !pass.settled.contains event.id)) o' ∧
      ∀ id ∈ acknowledgedIds (Routing.rulings lookups o.past o.kept
        (events.filter fun event => !pass.settled.contains event.id)), id ∈ events.map (·.id) := by
  induction passes with
  | ended => exact ⟨(Adds.refl _).makes, fun _ h => by cases h⟩
  | settled settled _ ih =>
    obtain ⟨makes, own⟩ := ih unheld
    rw [List.filter_cons_of_neg (by simpa using settled)]
    exact ⟨makes, fun id hid => List.mem_cons_of_mem _ (own id hid)⟩
  | @routed event rest index pass pass' o o₁ o' result unsettled _ ends reported _ ih =>
    obtain ⟨verdict, rfl⟩ := reported.1
    obtain ⟨made, adds, heq, one⟩ := makes_of_ends ends
    have makes : o.Makes (Routing.ruling (lookups o.past) o.kept event)
        (o₁.after (.reportRouting event.id (.ok verdict)) ()) := by
      rw [← heq, ← List.append_nil (made.map _)]
      exact adds.makes.trans (adds_reportRouting o₁ event.id (.ok verdict)).makes
    rw [Pass.record_ok unheld] at ih
    obtain ⟨makes', own⟩ := ih unheld
    rw [makes.past_eq, makes.kept_eq] at makes' own
    rw [List.filter_cons_of_pos (by simpa using unsettled), Routing.rulings]
    refine ⟨makes.trans makes', fun id hid => ?_⟩
    rw [acknowledgedIds_append, List.mem_append] at hid
    rcases hid with hid | hid
    · rw [← heq, acknowledgedIds_undated] at hid
      exact List.mem_cons.2 (Or.inl (one id hid))
    · exact List.mem_cons_of_mem _ (own id hid)

/-! ## What is left to route -/

/-- The events that are still to be routed. -/
def State.agenda (state : State) (feed : List Event) : List Event :=
  if state.Anchored feed then
    (feed.drop state.cursor.nextIndex).filter fun event => !state.settled.contains event.id
  else feed

theorem State.agenda_start (feed : List Event) : (State.at .start).agenda feed = feed := by
  have anchored : (State.at .start).Anchored feed := Or.inl rfl
  rw [agenda, if_pos anchored]
  exact List.filter_eq_self.2 fun _ _ => rfl

/-- The new events of a window come first among those behind the cursor. -/
theorem State.ahead_append (state : State) (windowSize : Nat) (feed : List Event) :
    state.ahead windowSize feed ++
        feed.drop (state.cursor.nextIndex + (state.ahead windowSize feed).length) =
      feed.drop state.cursor.nextIndex := by
  obtain ⟨more, hmore⟩ : state.ahead windowSize feed <+: feed.drop state.cursor.nextIndex :=
    List.take_prefix _ _
  rw [← List.drop_drop, ← hmore, List.drop_left]

/-- The events behind the cursor and those of a window are all there is to route. -/
theorem State.agenda_advanced {feed feed' : List Event} {last : Event}
    (nodup : (feed.map (·.id)).Nodup) (anchored : state.Anchored feed)
    (ended : (state.ahead windowSize feed).getLast? = some last)
    (ids : feed'.map (·.id) = feed.map (·.id))
    (behind : feed'.drop (state.cursor.nextIndex + (state.ahead windowSize feed).length) =
      feed.drop (state.cursor.nextIndex + (state.ahead windowSize feed).length)) :
    state.agenda feed =
      (state.ahead windowSize feed).filter (fun event => !state.settled.contains event.id) ++
        State.agenda ⟨⟨state.cursor.nextIndex + (state.ahead windowSize feed).length, last.id⟩,
            state.settled.filter fun id => !(state.ahead windowSize feed).any (·.id == id)⟩
          feed' := by
  have hsplit := state.ahead_append windowSize feed
  rw [agenda, if_pos anchored, ← hsplit, List.filter_append, agenda,
    if_pos ((anchored_iff ids).2 (anchored_advanced _ ended))]
  dsimp only
  rw [behind]
  congr 1
  refine List.filter_congr fun event he => ?_
  -- Ids are used once, so an event behind the window has none of the ids in it.
  have distinct : (state.ahead windowSize feed).any (·.id == event.id) = false := by
    rw [List.any_eq_false]
    intro other ho heq
    have hnodup := nodup.sublist ((List.drop_sublist state.cursor.nextIndex feed).map (·.id))
    rw [← hsplit, List.map_append, List.nodup_append] at hnodup
    exact hnodup.2.2 other.id (List.mem_map_of_mem ho) event.id (List.mem_map_of_mem he)
      (beq_iff_eq.1 heq)
  simp [distinct]

/-- A calm step routes the first events that are left to route, and leaves the others. -/
theorem CalmSteps.makes {outcome : Outcome}
    (steps : CalmSteps (steady Calm lookups) windowSize state o outcome state' o')
    (sound : o.Sound) :
    ∃ routed, o.Makes (Routing.rulings lookups o.past o.kept routed) o' ∧
      state.agenda o.feed = routed ++ state'.agenda o'.feed := by
  cases steps with
  | reset unanchored adds =>
    refine ⟨[], adds.makes, ?_⟩
    rw [State.agenda_start, List.nil_append, State.agenda, if_neg unanchored]
    exact adds.feed.symm
  | idle anchored seen adds =>
    refine ⟨[], adds.makes, ?_⟩
    rw [List.nil_append, show o'.feed = o.feed from adds.feed]
  | @advanced last failed o₁ o₂ _ anchored before passes ended behind =>
    have later : Later o o' := (before.later.trans passes.later).trans behind.later
    obtain ⟨makes, own⟩ := passes.makes rfl
    rw [before.past_eq, before.kept_eq] at makes own
    have all := (before.makes.trans makes).trans behind.makes
    rw [List.map_nil, List.nil_append, List.append_nil] at all
    refine ⟨_, all, State.agenda_advanced sound.feed_nodup anchored ended later.ids ?_⟩
    rw [all.feed_eq]
    refine Testbed.drop_foldl_consumeFirst fun id hid => ?_
    rw [List.take_add, List.mem_append, ← List.map_drop, ← state.ahead_append windowSize o.feed,
      List.map_append, List.take_left' (List.length_map _)]
    exact Or.inr (own id hid)

/-- Where a calm step finds nothing new there is nothing left to route, and nothing is done. -/
theorem CalmSteps.rests (steps : CalmSteps p windowSize state o .idle state' o')
    (keeps : o'.Keeps state') :
    o.Adds [] o' ∧ state.agenda o.feed = [] ∧ state'.cursor = .atEnd o'.feed := by
  cases steps with
  | idle anchored seen adds =>
    have hfeed : o'.feed = o.feed := adds.feed
    rw [State.agenda, if_pos anchored, List.drop_eq_nil_of_le seen]
    rw [← hfeed] at anchored seen
    exact ⟨adds, List.filter_nil, (State.at_rest keeps anchored seen).2⟩

/-! ## Loops that come to rest -/

/-- Repeating the step until there is nothing new may lead from the first state to the second. -/
inductive Drains (p : Outside → (c : Call) → c.Answer → Prop) (settings : Settings) :
    State → Outside → State → Outside → Prop where
  | last {state state' : State} {o o' : Outside}
      (ends : Ends (limited p) (step settings state) o (.ok (.idle, state')) o') :
      Drains p settings state o state' o'
  | next {outcome : Outcome} {state state₁ state' : State} {o o₁ o' : Outside}
      (ends : Ends (limited p) (step settings state) o (.ok (outcome, state₁)) o₁)
      (busy : outcome ≠ .idle) (drains : Drains p settings state₁ o₁ state' o') :
      Drains p settings state o state' o'

/-- A loop that comes to rest drains the feed on the way. -/
theorem RestsWithin.drains {Q : State → Outside → Prop} {count : Nat}
    (rests : RestsWithin p settings Q count state o) :
    ∃ state' o', Drains p settings state o state' o' ∧ Q state' o' := by
  induction count generalizing state o with
  | zero => exact rests.elim
  | succ count ih =>
    obtain ⟨⟨result, o₁, ends⟩, ensures⟩ := rests
    have h := ensures.ends ends
    rcases result with crash | ⟨outcome, state₁⟩
    · exact h.elim
    by_cases idle : outcome = .idle
    · subst idle
      exact ⟨state₁, o₁, .last ends, h⟩
    · have rests' : RestsWithin p settings Q count state₁ o₁ := by
        cases outcome <;> first | exact h | exact absurd rfl idle
      obtain ⟨state', o', drains, hQ⟩ := ih rests'
      exact ⟨state', o', .next ends idle drains, hQ⟩

/-- A calm loop does what the table says of all events that are left to route, and ends behind the
last event. -/
theorem Drains.makes (drains : Drains (steady Calm lookups) settings state o state' o')
    (size : 2 ≤ settings.windowSize) (sound : o.Sound) (keeps : o.Keeps state) :
    o.Makes (Routing.rulings lookups o.past o.kept (state.agenda o.feed)) o' ∧
      state'.cursor = .atEnd o'.feed := by
  have calm {o : Outside} {c : Call} {answer : c.Answer}
    (h : steady Calm lookups o c answer) : Calm c answer := h.1
  induction drains with
  | last ends =>
    have steps := (ensures_step _ _ sound).ends ends
    obtain ⟨adds, nothing, hend⟩ := (steps.calm calm size).rests (steps.keeps sound keeps _ rfl)
    rw [nothing]
    exact ⟨adds.makes, hend⟩
  | next ends busy _ ih =>
    have steps := (ensures_step _ _ sound).ends ends
    have later : Later _ _ := .of_reaches rfl ends
    obtain ⟨rest, hend⟩ := ih (sound.later later) (steps.keeps sound keeps _ rfl)
    obtain ⟨routed, makes, hagenda⟩ := (steps.calm calm size).makes sound
    rw [makes.past_eq, makes.kept_eq] at rest
    rw [hagenda, Routing.rulings_append]
    exact ⟨makes.trans rest, hend⟩

end Sync

variable {key : String} {start : Site} {state : Sync.State} {o : Outside}

/-- Wherever a run has led, and whatever failed on the way, a loop that is left alone comes to rest
as soon as nothing fails that matters : within two steps more than there are events, with all events
consumed and the cursor behind the last one. Loops with windows of different sizes come to rest with
the same cursor, the same flags and the same notices, their times apart, and have done the same in
the same order. -/
theorem comes_to_rest_alike (begins : start.Begins)
    (fresh : start.outside.cursors.get? key = none)
    (run : Run key (· ≠ .crash) start ⟨some state, o⟩) :
    (∀ settings : Settings, 2 ≤ settings.windowSize →
      state.cursor.windowStart + settings.windowSize < Position.bound →
      o.feed.length - 1 + settings.windowSize < Position.bound →
      Sync.RestsWithin (fun _ => Calm) settings (Sync.AtRest o) (o.feed.length + 2) state o) ∧
    ∀ (lookups : List Deed → Lookups) (first second : Settings),
      2 ≤ first.windowSize → 2 ≤ second.windowSize →
      ∀ state₁ o₁ state₂ o₂, Sync.Drains (steady Calm lookups) first state o state₁ o₁ →
        Sync.Drains (steady Calm lookups) second state o state₂ o₂ →
        state₁.cursor = state₂.cursor ∧ o₁.feed = o₂.feed ∧ o₁.kept = o₂.kept ∧
          o₁.past = o₂.past := by
  have sound : o.Sound := run.sound begins
  have keeps : o.Keeps state := (run.covered (fun h => h rfl) begins fresh).memory state rfl
  constructor
  · intro settings size fits room
    exact Sync.restsWithin id (Sync.canEnd_step settings) size _ state o (.refl o) sound keeps
      fits room (Nat.lt_succ_of_le (state.left_le o.feed))
  · intro lookups first second size₁ size₂ state₁ o₁ state₂ o₂ drains₁ drains₂
    obtain ⟨makes₁, hend₁⟩ := drains₁.makes size₁ sound keeps
    obtain ⟨makes₂, hend₂⟩ := drains₂.makes size₂ sound keeps
    have hfeed : o₁.feed = o₂.feed := makes₁.feed_eq.trans makes₂.feed_eq.symm
    refine ⟨?_, hfeed, makes₁.kept_eq.trans makes₂.kept_eq.symm,
      makes₁.past_eq.trans makes₂.past_eq.symm⟩
    rw [hend₁, hend₂, hfeed]

/-- After a restart, windows of two events and of the usual size do the same. -/
theorem comes_to_rest_alike_fresh :
    Sync.RestsWithin (fun _ => Calm) {} (Sync.AtRest (Site.fresh.restarted {}).outside) 4
      (.at .start) (Site.fresh.restarted {}).outside ∧
    ∃ state₁ o₁ state₂ o₂,
      Sync.Drains (steady Calm fun _ => .vacant) { windowSize := 2 } (.at .start)
        (Site.fresh.restarted {}).outside state₁ o₁ ∧
      Sync.Drains (steady Calm fun _ => .vacant) {} (.at .start)
        (Site.fresh.restarted {}).outside state₂ o₂ ∧
      state₁.cursor = state₂.cursor ∧ o₁.feed = o₂.feed ∧ o₁.kept = o₂.kept ∧
        o₁.past = o₂.past := by
  have memory : (Site.fresh.restarted {}).memory = some (.at .start) := by decide +kernel
  have length : (Site.fresh.restarted {}).outside.feed.length = 2 := by decide +kernel
  have run : Run (Settings.cursorKey {}) (· ≠ .crash) .fresh
      ⟨some (.at .start), (Site.fresh.restarted {}).outside⟩ := by
    rw [← memory]
    exact Run.here.restarted Move.noConfusion
  obtain ⟨rests, alike⟩ := comes_to_rest_alike Site.begins_fresh rfl run
  have drains (settings : Settings) (size : 2 ≤ settings.windowSize)
      (fits : 1 + settings.windowSize < Position.bound) : ∃ state' o',
        Sync.Drains (steady Calm fun _ => .vacant) settings (.at .start)
          (Site.fresh.restarted {}).outside state' o' := by
    have near :
        (Sync.State.at .start).cursor.windowStart + settings.windowSize < Position.bound := by
      rw [show (Sync.State.at .start).cursor.windowStart = 0 from rfl]
      omega
    have rests := Sync.restsWithin (p := steady Calm fun _ => .vacant) And.left
      (Sync.canEnd_step_vacantly settings) size 4 (.at .start) (Site.fresh.restarted {}).outside
      (.refl _) (run.sound Site.begins_fresh) Outside.keeps_start near (by rw [length]; omega)
      (by decide +kernel)
    obtain ⟨state', o', h, -⟩ := rests.drains
    exact ⟨state', o', h⟩
  obtain ⟨state₁, o₁, drains₁⟩ := drains { windowSize := 2 } (by decide) (by decide)
  obtain ⟨state₂, o₂, drains₂⟩ := drains {} (by decide) (by decide)
  refine ⟨?_, state₁, o₁, state₂, o₂, drains₁, drains₂, ?_⟩
  · have h := rests {} (by decide) (by decide) (by rw [length]; decide)
    rwa [length] at h
  · exact alike _ _ _ (by decide) (by decide) _ _ _ _ drains₁ drains₂

end Feedkeeper
