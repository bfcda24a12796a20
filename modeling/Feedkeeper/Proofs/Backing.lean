import Feedkeeper.Proofs.Grounds
import Feedkeeper.Proofs.Run

/-!
# An acknowledged event is stored

Before an event on a recognized route is acknowledged, a notice of it was saved, unless it is a
group inception or reply whose routing is about to end with a verdict that needs no notice
(`Outside.Backed`). That is said of the trail of all calls, so it holds between any two calls, and
whatever was withdrawn, deleted or forgotten since.

A notice that is found, rather than saved, was saved by an earlier routing. So the invariant has two
halves : what is in the stores and the feed was put there by a call on the trail
(`Outside.Traced`), which every single call keeps, and the saves and acknowledgements on the trail
are those of routings (`Outside.Backing`), which a whole routing keeps.
-/

namespace Feedkeeper

open Outside Script

/-- The calls give the event its notice, or end in a routing of it that needs none. -/
def Outside.Backed (event : Event) (calls : List Answered) : Prop :=
  (∃ notice : Notice, notice.Tells event ∧ ⟨.saveNotice notice, .ok ()⟩ ∈ calls) ∨
  (event.route? = some .groupInception ∨ event.route? = some .groupReply) ∧
    ∃ earlier made rest verdict, calls = earlier ++ made ∧
      Traces (Routing.route event).run (made ++ [⟨.acknowledge event.id, .ok ()⟩]) rest ∧
      Routing.Leads verdict rest ∧ verdict.Excused

/-- A notice that was found under an id had been saved under it before. -/
def Outside.Found (trail : List Answered) : Prop :=
  ∀ before id notice behind, trail = before ++ ⟨.findNotice id, .ok (some notice)⟩ :: behind →
    ∃ saved : Notice, ⟨.saveNotice saved, .ok ()⟩ ∈ before ∧ saved.id = id

/-- What is stored or was found in the store was saved by a call, and what is consumed was
acknowledged by one or appended so. -/
structure Outside.Traced (o : Outside) : Prop where
  stored : ∀ notice ∈ o.notices, ∃ saved : Notice, ⟨.saveNotice saved, .ok ()⟩ ∈ o.trail ∧
    saved.id = notice.id
  found : Found o.trail
  consumed : ∀ event ∈ o.feed, event ∈ o.appended ∨ ⟨.acknowledge event.id, .ok ()⟩ ∈ o.trail

/-- Only notices of events are saved, and only events that are backed are acknowledged. -/
structure Outside.Backing (o : Outside) : Prop where
  saved : ∀ notice : Notice, ⟨.saveNotice notice, .ok ()⟩ ∈ o.trail →
    ∃ event ∈ o.appended, notice.Tells event
  acknowledged : ∀ before id behind,
    o.trail = before ++ ⟨.acknowledge id, .ok ()⟩ :: behind →
      ∃ event ∈ o.appended, event.id = id ∧ event.consumed = false ∧
        (event.route? = none ∨ Backed event before)

variable {key : String} {start site site' : Site} {move : Move} {o o' : Outside}

/-- An element of two lists one after the other is in the first or in the second. -/
theorem append_eq_append_cons {α : Type} {xs ys before behind : List α} {x : α}
    (h : xs ++ ys = before ++ x :: behind) : (∃ behind', xs = before ++ x :: behind') ∨
      ∃ before', before = xs ++ before' ∧ ys = before' ++ x :: behind := by
  rcases List.append_eq_append_iff.1 h with ⟨more, rfl, hy⟩ | ⟨more, rfl, hx⟩
  · exact Or.inr ⟨more, rfl, hy⟩
  · cases more with
    | nil => exact Or.inr ⟨[], by simp, by simpa using hx.symm⟩
    | cons first more =>
      obtain ⟨rfl, -⟩ := List.cons.inj hx
      exact Or.inl ⟨more, rfl⟩

/-! ## What every call keeps -/

/-- A notice that is there after a call was there before under that id, or was saved. -/
theorem Outside.mem_notices_after {c : Call} {answer : c.Answer} {notice : Notice}
    (h : notice ∈ (o.after c answer).notices) : (∃ old ∈ o.notices, old.id = notice.id) ∨
      (⟨c, answer⟩ : Answered) = ⟨.saveNotice notice, .ok ()⟩ := by
  cases c with
  | saveNotice added =>
    rcases answer with fault | _
    · exact Or.inl ⟨notice, h, rfl⟩
    rcases List.mem_append.1 h with h | h
    · exact Or.inl ⟨notice, h, rfl⟩
    · obtain rfl := List.mem_singleton.1 h
      exact Or.inr rfl
  | updateNotice updated =>
    rcases answer with fault | _
    · exact Or.inl ⟨notice, h, rfl⟩
    change notice ∈ (Testbed.replaceFirst? updated o.notices).getD o.notices at h
    cases hr : Testbed.replaceFirst? updated o.notices with
    | none =>
      rw [hr] at h
      exact Or.inl ⟨notice, h, rfl⟩
    | some replaced =>
      rw [hr] at h
      have hid : notice.id ∈ replaced.map (·.id) := List.mem_map_of_mem h
      rw [Testbed.map_id_replaceFirst? hr] at hid
      exact Or.inl (List.mem_map.1 hid)
  | deleteNotice id =>
    rcases answer with fault | _
    · exact Or.inl ⟨notice, h, rfl⟩
    · exact Or.inl ⟨notice, (List.mem_filter.1 h).1, rfl⟩
  | acknowledge | storeCursor => cases answer <;> exact Or.inl ⟨notice, h, rfl⟩
  | _ => exact Or.inl ⟨notice, h, rfl⟩

/-- An event that is there after a call was there before, or was acknowledged. -/
theorem Outside.mem_feed_after {c : Call} {answer : c.Answer} {event : Event}
    (h : event ∈ (o.after c answer).feed) : event ∈ o.feed ∨
      (⟨c, answer⟩ : Answered) = ⟨.acknowledge event.id, .ok ()⟩ := by
  cases c with
  | acknowledge id =>
    rcases answer with failure | _
    · exact Or.inl h
    by_cases hid : event.id = id
    · exact Or.inr (hid ▸ rfl)
    · exact Or.inl (Testbed.mem_of_mem_consumeFirst h hid)
  | storeCursor | saveNotice | updateNotice | deleteNotice => cases answer <;> exact Or.inl h
  | _ => exact Or.inl h

theorem Outside.Traced.after (traced : o.Traced) {c : Call} {answer : c.Answer}
    (allowed : o.allows c answer) : (o.after c answer).Traced where
  stored notice hn := by
    rw [trail_after]
    rcases mem_notices_after hn with ⟨old, ho, hid⟩ | heq
    · obtain ⟨saved, hs, hsid⟩ := traced.stored old ho
      exact ⟨saved, List.mem_append_left _ hs, hsid.trans hid⟩
    · exact ⟨notice, List.mem_append_right _ (List.mem_singleton.2 heq.symm), rfl⟩
  found before id notice behind heq := by
    rw [trail_after] at heq
    rcases append_eq_append_cons heq with ⟨behind', htrail⟩ | ⟨before', rfl, hlast⟩
    · exact traced.found before id notice behind' htrail
    · obtain ⟨rfl, hfound⟩ : before' = [] ∧
          (⟨c, answer⟩ : Answered) = ⟨.findNotice id, .ok (some notice)⟩ := by
        cases before' with
        | nil => exact ⟨rfl, (List.cons.inj hlast).1⟩
        | cons => simp at hlast
      cases hfound
      have hfind : o.notices.find? (·.id == id) = some notice := allowed.symm
      have hid : notice.id = id := by simpa using List.find?_some hfind
      obtain ⟨saved, hs, hsid⟩ := traced.stored notice (List.mem_of_find?_eq_some hfind)
      exact ⟨saved, List.mem_append_left _ hs, hsid.trans hid⟩
  consumed event he := by
    rw [trail_after, appended_after]
    rcases mem_feed_after he with he | heq
    · exact (traced.consumed event he).imp_right (List.mem_append_left _ ·)
    · exact Or.inr (List.mem_append_right _ (List.mem_singleton.2 heq.symm))

theorem Outside.Traced.of_reaches {α : Type} {p : Outside → (c : Call) → c.Answer → Prop}
    {script rest : Script α} (traced : o.Traced) (h : script.Reaches (limited p) o rest o') :
    o'.Traced :=
  h.keeps (I := Traced) traced fun traced allowed => traced.after allowed.1

theorem Outside.Found.sooner {trail trail' : List Answered} (found : Found trail')
    (h : trail <+: trail') : Found trail := by
  obtain ⟨more, rfl⟩ := h
  intro before id notice behind heq
  exact found before id notice (behind ++ more) (by rw [heq]; simp)

/-! ## What a routing keeps -/

/-- What holds of a trail holds of all that came before. -/
theorem Outside.Backing.sooner (backing : o'.Backing) (appended : o'.appended = o.appended)
    (trail : o.trail <+: o'.trail) : o.Backing where
  saved notice hn := appended ▸ backing.saved notice (trail.subset hn)
  acknowledged before id behind heq := by
    obtain ⟨more, hmore⟩ := trail
    rw [← appended]
    exact backing.acknowledged before id (behind ++ more) (by rw [← hmore, heq]; simp)

/-- Calls that did nothing for good saved and acknowledged nothing. -/
theorem Outside.Backing.quiet (backing : o.Backing) (appended : o'.appended = o.appended)
    (trail : o.trail <+: o'.trail) (deeds : o'.deeds = o.deeds) : o'.Backing := by
  obtain ⟨more, hmore⟩ := trail
  have nothing : ∀ answered ∈ more, answered.deed? = none := by
    rw [Outside.deeds, Outside.deeds, ← hmore, List.filterMap_append, List.append_right_eq_self]
      at deeds
    exact List.filterMap_eq_nil_iff.1 deeds
  constructor
  · intro notice hn
    rw [← hmore, List.mem_append] at hn
    rcases hn with hn | hn
    · exact appended ▸ backing.saved notice hn
    · exact absurd (nothing _ hn) (Option.some_ne_none _)
  · intro before id behind heq
    rw [← hmore] at heq
    rcases append_eq_append_cons heq with ⟨behind', htrail⟩ | ⟨before', rfl, hlast⟩
    · exact appended ▸ backing.acknowledged before id behind' htrail
    · have hmem : ⟨.acknowledge id, .ok ()⟩ ∈ more := hlast ▸ by simp
      exact absurd (nothing _ hmem) (Option.some_ne_none _)

theorem Outside.Backing.adds (backing : o.Backing) (adds : o.Adds [] o') : o'.Backing :=
  backing.quiet adds.appended adds.trail adds.deeds_eq

theorem Notice.Tells.of_becomes {notice : Notice} {first event : Event}
    (tells : notice.Tells event) (becomes : first.Becomes event) : notice.Tells first where
  id := tells.id.trans becomes.id_eq
  route := by
    rw [Event.route?, ← becomes.action_eq]
    exact tells.route
  action := tells.action.trans becomes.action_eq
  unread := tells.unread

section

variable {p : Outside → (c : Call) → c.Answer → Prop} {event : Event}
  {result : Except RoutingError Verdict} {calls : List Answered}

/-- A routing saves only notices of its event. -/
theorem Outside.Backing.saves (backing : o.Backing) (sound : o.Sound) (current : event ∈ o.feed)
    (ends : Ends (limited p) (Routing.route event).run o result o') {notice : Notice}
    (hn : ⟨.saveNotice notice, .ok ()⟩ ∈ o'.trail) : ∃ event ∈ o'.appended, notice.Tells event := by
  obtain ⟨calls, -, htrail⟩ := exists_traces ends
  obtain ⟨deeds, course, does⟩ := Sync.comes_of_ends ends
  obtain ⟨first, hfirst, becomes⟩ := sound.origin event current
  rw [does.appended]
  rw [htrail, List.mem_append] at hn
  rcases hn with hn | hn
  · exact backing.saved notice hn
  have hdeeds : calls.filterMap Answered.deed? = deeds := by
    have h := does.deeds
    rw [Outside.deeds, Outside.deeds, htrail, List.filterMap_append] at h
    exact List.append_cancel_left h
  have hs : notice ∈ savedNotices deeds :=
    hdeeds ▸ List.mem_filterMap.2 ⟨_, List.mem_filterMap.2 ⟨_, hn, rfl⟩, rfl⟩
  rcases course.savedNotices_eq with hnil | ⟨told, tells, -, -, hone⟩
  · rw [hnil] at hs
    cases hs
  · rw [hone, List.mem_singleton] at hs
    exact ⟨first, hfirst, hs ▸ tells.of_becomes becomes⟩

/-- The notice that an event has when one was found was saved by an earlier routing, and tells of
the event, since ids are not used again. -/
theorem Outside.Found.exists_tells (found : Found o.trail) (sound : o.Sound)
    (saved : ∀ notice : Notice, ⟨.saveNotice notice, .ok ()⟩ ∈ o.trail →
      ∃ event ∈ o.appended, notice.Tells event) (appended : event ∈ o.appended)
    {notice : Notice} {behind : List Answered} (htrail : o.trail = calls ++ behind)
    (hfound : ⟨.findNotice event.id, .ok (some notice)⟩ ∈ calls) :
    ∃ told : Notice, told.Tells event ∧ ⟨.saveNotice told, .ok ()⟩ ∈ calls := by
  obtain ⟨earlier, later, rfl⟩ := List.append_of_mem hfound
  obtain ⟨told, htold, hid⟩ :=
    found earlier event.id notice (later ++ behind) (by rw [htrail]; simp)
  obtain ⟨origin, horigin, tells⟩ := saved told (by
    rw [htrail, List.append_assoc]
    exact List.mem_append_left _ htold)
  obtain rfl : origin = event :=
    List.inj_on_of_nodup_map sound.nodup horigin appended (tells.id.symm.trans hid)
  exact ⟨told, tells, List.mem_append_left _ htold⟩

/-- A routing saves only notices of its event, and acknowledges the event only if that is backed. -/
theorem Outside.Backing.routed (backing : o.Backing) (found : Found o'.trail) (sound : o.Sound)
    (current : event ∈ o.feed)
    (ends : Ends (limited p) (Routing.route event).run o result o') : o'.Backing := by
  obtain ⟨calls, traces, htrail⟩ := exists_traces ends
  obtain ⟨first, hfirst, becomes⟩ := sound.origin event current
  have later : Later o o' := .of_reaches rfl ends
  have saved : ∀ notice : Notice, ⟨.saveNotice notice, .ok ()⟩ ∈ o'.trail →
      ∃ event ∈ o'.appended, notice.Tells event := fun _ hn => backing.saves sound current ends hn
  refine ⟨saved, fun before id behind heq => ?_⟩
  have hsplit := htrail ▸ heq
  rcases append_eq_append_cons hsplit with ⟨behind', hold⟩ | ⟨made, rfl, hnew⟩
  · exact later.appended ▸ backing.acknowledged before id behind' hold
  have hmade : Traces (Routing.route event).run ((made ++ [⟨.acknowledge id, .ok ()⟩]) ++ behind)
      (.done result) := by
    simpa [← hnew] using traces
  obtain ⟨rest, hrest, -⟩ := hmade.split
  obtain ⟨rfl, unconsumed, grounds⟩ := Routing.grounded_route event [] made id rest hrest
  obtain rfl : event = first := becomes.eq_of_not_consumed unconsumed
  have happended : event ∈ o'.appended := later.appended ▸ hfirst
  refine ⟨event, happended, rfl, unconsumed, ?_⟩
  cases grounds with
  | saved notice tells made => exact Or.inr (Or.inl ⟨notice, tells, List.mem_append_right _ made⟩)
  | unrecognized none => exact Or.inl none
  | excused group leads excused =>
    exact Or.inr (Or.inr ⟨group, o.trail, made, rest, _, rfl, hrest, leads, excused⟩)
  | found notice hfound =>
    exact Or.inr (Or.inl (found.exists_tells (sound.later later) saved happended heq
      (List.mem_append_right _ hfound)))

end

/-! ## What every move keeps -/

section

variable {p : Outside → (c : Call) → c.Answer → Prop}

theorem Sync.Passes.backing {events : List Event} {index : Nat} {pass pass' : Sync.Pass}
    (passes : Sync.Passes p events index pass o pass' o') (found : Found o'.trail) (sound : o.Sound)
    (backing : o.Backing) : o'.Backing := by
  induction passes with
  | ended => exact backing
  | settled _ _ ih => exact ih found sound backing
  | @routed event _ _ _ _ _ o₁ _ result _ current ends _ passes ih =>
    have reported := adds_reportRouting o₁ event.id result
    have routed := backing.routed (found.sooner (reported.later.trans passes.later).trail) sound
      current ends
    exact ih found ((sound.later (.of_reaches rfl ends)).later reported.later)
      (routed.adds reported)

theorem Sync.Steps.backing {settings : Settings} {state : Sync.State}
    {result : Except Crash (Sync.Outcome × Sync.State)}
    (steps : Sync.Steps p settings state o result o') (found : Found o'.trail) (sound : o.Sound)
    (backing : o.Backing) : o'.Backing := by
  cases steps with
  | stopped _ does _ | crashed does _ | idle does _ _ => exact backing.adds does.toAdds
  | reset does _ => exact (backing.adds does.toAdds).adds (adds_storeCursor _ _ _ _)
  | held does _ passes _ =>
    exact passes.backing found (sound.later does.later) (backing.adds does.toAdds)
  | advanced does _ passes _ _ =>
    have found₂ := found.sooner (List.prefix_append _ _)
    have passed := passes.backing found₂ (sound.later does.later) (backing.adds does.toAdds)
    exact passed.adds (adds_storeCursor _ _ _ _)

end

theorem Outside.Traced.append (traced : o.Traced) (event : Event) :
    Traced { o with appended := o.appended ++ [event], feed := o.feed ++ [event] } where
  stored := traced.stored
  found := traced.found
  consumed e he := by
    rcases List.mem_append.1 he with he | he
    · exact (traced.consumed e he).imp_left (List.mem_append_left _ ·)
    · exact Or.inl (List.mem_append_right _ he)

theorem Outside.Backing.append (backing : o.Backing) (event : Event) :
    Backing { o with appended := o.appended ++ [event], feed := o.feed ++ [event] } where
  saved notice hn := by
    obtain ⟨e, he, tells⟩ := backing.saved notice hn
    exact ⟨e, List.mem_append_left _ he, tells⟩
  acknowledged before id behind heq := by
    obtain ⟨e, he, backed⟩ := backing.acknowledged before id behind heq
    exact ⟨e, List.mem_append_left _ he, backed⟩

theorem Moves.traced (moves : Moves key move site site') (traced : site.outside.Traced) :
    site'.outside.Traced := by
  cases moves with
  | step _ ends | restart _ ends | mark ends | discard _ ends => exact traced.of_reaches ends
  | crash _ reaches => exact traced.of_reaches reaches
  | rescan => exact traced
  | append event new => exact traced.append event
  | withdraw kept sublist =>
    exact { traced with consumed := fun event he => traced.consumed event (sublist.subset he) }

/-- Every move keeps the acknowledged events backed, also one that ends in the middle of a step. -/
theorem Moves.backing (moves : Moves key move site site') (sound : site.outside.Sound)
    (traced : site.outside.Traced) (backing : site.outside.Backing) : site'.outside.Backing := by
  cases moves with
  | step _ ends =>
    exact ((Sync.ensures_step _ _ sound).ends ends).backing (traced.of_reaches ends).found sound
      backing
  | restart _ ends =>
    cases (Sync.ensures_load _ _).ends ends with
    | failed does | found does _ => exact backing.adds does.toAdds
    | created does answer => exact (backing.adds does.toAdds).adds (adds_storeCursor _ _ _ _)
  | @crash _ _ _ o' rest _ reaches =>
    -- The step might have gone on, and what holds then holds of the calls it has made.
    have resumed := ends_oblige (p := fun _ _ _ => True) (fun _ _ => trivial) rest o'
    have ends := reaches.trans resumed
    have later := Later.of_reaches rfl resumed
    exact (((Sync.ensures_step _ _ sound).ends ends).backing (traced.of_reaches ends).found sound
      backing).sooner later.appended later.trail
  | rescan => exact backing
  | append event new => exact backing.append event
  | withdraw kept sublist => exact ⟨backing.saved, backing.acknowledged⟩
  | mark ends =>
    obtain ⟨spares, -⟩ := (Inbox.ensures_setRead _ _ _).ends ends
    exact backing.quiet spares.appended spares.trail spares.deeds
  | discard _ ends =>
    obtain ⟨spares, -⟩ := (Inbox.ensures_delete _ _).ends ends
    exact backing.quiet spares.appended spares.trail spares.deeds

theorem Run.backing {allowed : Move → Prop} (run : Run key allowed start site)
    (begins : start.Begins) (fresh : start.outside.notices = []) :
    site.outside.Traced ∧ site.outside.Backing := by
  have all : site.outside.Sound ∧ site.outside.Traced ∧ site.outside.Backing := by
    refine run.keeps (I := fun site =>
      site.outside.Sound ∧ site.outside.Traced ∧ site.outside.Backing)
      ⟨begins.sound, ⟨?_, ?_, ?_⟩, ⟨?_, ?_⟩⟩ fun ih _ moves =>
        ⟨moves.sound ih.1, moves.traced ih.2.1, moves.backing ih.1 ih.2.1 ih.2.2⟩
    · simp [fresh]
    · intro before id notice behind heq
      simp [begins.trail] at heq
    · exact fun event he => Or.inl (begins.feed ▸ he)
    · simp [begins.trail]
    · intro before id behind heq
      simp [begins.trail] at heq
  exact all.2

/-- At every point of every run that begins without notices, if the feed flags an event as consumed
that was not consumed when it was appended and is on a recognized route, it was acknowledged, and
before that a notice with its id, its route and its whole action was saved unread, or it is a group
inception or reply and the acknowledgement stands in a routing of it that needs no notice. -/
theorem acknowledged_events_backed (begins : start.Begins) (fresh : start.outside.notices = [])
    (run : Run key (fun _ => True) start site) {event flagged : Event} {route : Route}
    (appended : event ∈ site.outside.appended) (unconsumed : event.consumed = false)
    (hroute : event.route? = some route) (current : flagged ∈ site.outside.feed)
    (same : flagged.id = event.id) (consumed : flagged.consumed = true) :
    ⟨.acknowledge event.id, .ok ()⟩ ∈ site.outside.trail ∧
      ∀ before behind, site.outside.trail =
        before ++ ⟨.acknowledge event.id, .ok ()⟩ :: behind → Backed event before := by
  have sound := run.sound begins
  obtain ⟨traced, backing⟩ := run.backing begins fresh
  constructor
  · rcases traced.consumed flagged current with old | made
    · obtain rfl : flagged = event := List.inj_on_of_nodup_map sound.nodup old appended same
      rw [unconsumed] at consumed
      cases consumed
    · exact same ▸ made
  · intro before behind heq
    obtain ⟨origin, horigin, hid, -, backed⟩ := backing.acknowledged before event.id behind heq
    obtain rfl : origin = event := List.inj_on_of_nodup_map sound.nodup horigin appended hid
    rcases backed with none | backed
    · rw [none] at hroute
      cases hroute
    · exact backed

/-- The first event of the feed is acknowledged in the first step, once its notice is saved. -/
theorem acknowledged_events_backed_fresh : ∃ site,
    Run (Settings.cursorKey {}) (fun _ => True) .fresh site ∧
    ⟨.acknowledge "A", .ok ()⟩ ∈ site.outside.trail ∧
      ∀ before behind, site.outside.trail =
        before ++ ⟨.acknowledge "A", .ok ()⟩ :: behind → Backed (.fresh "A") before := by
  have run : Run (Settings.cursorKey {}) (fun _ => True) .fresh
      ((Site.fresh.restarted {}).stepped {}) :=
    (Run.here.restarted trivial).stepped trivial
  have flagged : ((Site.fresh.restarted {}).stepped {}).outside.feed.any
      (fun event => event.id == "A" && event.consumed) = true := by decide +kernel
  obtain ⟨event, current, h⟩ := List.any_eq_true.1 flagged
  rw [Bool.and_eq_true, beq_iff_eq] at h
  have appended : Event.fresh "A" ∈ ((Site.fresh.restarted {}).stepped {}).outside.appended := by
    rw [Site.appended_stepped, Site.appended_restarted]
    exact List.mem_cons_self
  exact ⟨_, run, acknowledged_events_backed Site.begins_fresh rfl run appended rfl
    (Route.parse?_wire .credentialGrant) current h.1 h.2⟩

end Feedkeeper
