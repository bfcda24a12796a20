import Feedkeeper.Proofs.Run

/-!
# Nothing is done twice

Along a run, no id is used for two saved notices, two announcements or two acknowledgements, and
what is announced is what is saved, in the same order. An event may be routed any number of times.
Two things keep that from doing anything twice : an event that was acknowledged is consumed from
then on, and an event whose notice was saved is consumed, gone, or still has its notice
(`Outside.Once`). A pass over the feed keeps that event by event (`Outside.Once.routed`), and so
does every move that does not end the loop in the middle of a step.
-/

namespace Feedkeeper

open Outside Script

/-- Nothing was done twice, and what was done is still to be seen. -/
structure Outside.Once (o : Outside) : Prop where
  stored_nodup : (o.notices.map (·.id)).Nodup
  saved_nodup : ((savedNotices o.deeds).map (·.id)).Nodup
  /-- An event with a saved notice still has it, unless it needs none any more. -/
  saved : ∀ id ∈ (savedNotices o.deeds).map (·.id), id ∈ o.appended.map (·.id) ∧
    (o.Stored id ∨ o.Handled id)
  acknowledged_nodup : (acknowledgedIds o.deeds).Nodup
  acknowledged : ∀ id ∈ acknowledgedIds o.deeds, id ∈ o.appended.map (·.id) ∧ o.Handled id
  announced : announcedNotices o.deeds = savedNotices o.deeds

variable {key : String} {start site site' : Site} {move : Move} {o o' : Outside}

theorem Outside.Stored.of_ids {id : String} (h : o.Stored id)
    (ids : o'.notices.map (·.id) = o.notices.map (·.id)) : o'.Stored id := by
  have hmem : id ∈ o.notices.map (·.id) := List.mem_map.2 h
  exact List.mem_map.1 (ids ▸ hmem)

/-- Nothing is done twice by what does nothing for good and takes no notice away. -/
theorem Outside.Once.later (once : o.Once) (later : Later o o') (deeds : o'.deeds = o.deeds)
    (ids : o'.notices.map (·.id) = o.notices.map (·.id)) : o'.Once where
  stored_nodup := ids ▸ once.stored_nodup
  saved_nodup := deeds ▸ once.saved_nodup
  saved id hid := by
    obtain ⟨known, kept⟩ := once.saved id (deeds ▸ hid)
    exact ⟨later.appended ▸ known, kept.imp (·.of_ids ids) (·.later later)⟩
  acknowledged_nodup := deeds ▸ once.acknowledged_nodup
  acknowledged id hid := by
    obtain ⟨known, handled⟩ := once.acknowledged id (deeds ▸ hid)
    exact ⟨later.appended ▸ known, handled.later later⟩
  announced := by rw [deeds, once.announced]

theorem Outside.Once.adds (once : o.Once) (adds : o.Adds [] o') : o'.Once :=
  once.later adds.later adds.deeds_eq (by rw [adds.notices_eq])

/-- An event that is not consumed has not been acknowledged, nor its notice saved, unless the notice
is there. -/
theorem Outside.Once.fresh (once : o.Once) {event : Event} (current : event ∈ o.feed)
    (unconsumed : event.consumed = false) : event.id ∉ acknowledgedIds o.deeds ∧
      (¬o.Stored event.id → event.id ∉ (savedNotices o.deeds).map (·.id)) := by
  have unhandled : ¬o.Handled event.id := fun handled => by
    rw [handled event current rfl] at unconsumed
    cases unconsumed
  refine ⟨fun hack => unhandled (once.acknowledged _ hack).2, fun new hsaved => ?_⟩
  rcases (once.saved _ hsaved).2 with stored | handled
  · exact new stored
  · exact unhandled handled

section

variable {event : Event} {result : Except RoutingError Verdict} {deeds : List Deed}

theorem Outside.Once.acknowledges (once : o.Once) (sound : o.Sound) (current : event ∈ o.feed)
    (course : Routing.Course event (o.Stored event.id) result deeds) (does : o.Does deeds o') :
    (acknowledgedIds o'.deeds).Nodup ∧
      ∀ id ∈ acknowledgedIds o'.deeds, id ∈ o'.appended.map (·.id) ∧ o'.Handled id := by
  have keeps : ∀ id ∈ acknowledgedIds o.deeds, id ∈ o'.appended.map (·.id) ∧ o'.Handled id := by
    intro id hid
    obtain ⟨known, handled⟩ := once.acknowledged id hid
    exact ⟨does.appended ▸ known, handled.later does.later⟩
  rw [does.deeds, acknowledgedIds_append]
  rcases course.acknowledgedIds_eq with hnil | ⟨unconsumed, hone⟩
  · rw [hnil, List.append_nil]
    exact ⟨once.acknowledged_nodup, keeps⟩
  · rw [hone]
    refine ⟨List.concat_eq_append ▸
      once.acknowledged_nodup.concat (once.fresh current unconsumed).1, fun id hid => ?_⟩
    rcases List.mem_append.1 hid with hid | hid
    · exact keeps id hid
    · obtain rfl := List.mem_singleton.1 hid
      exact ⟨does.appended ▸ sound.mem_appended current, Routing.handled_of_does sound does hone⟩

theorem Outside.Once.saves (once : o.Once) (sound : o.Sound) (current : event ∈ o.feed)
    (course : Routing.Course event (o.Stored event.id) result deeds) (does : o.Does deeds o') :
    ((o'.notices.map (·.id)).Nodup ∧ ((savedNotices o'.deeds).map (·.id)).Nodup) ∧
      ∀ id ∈ (savedNotices o'.deeds).map (·.id), id ∈ o'.appended.map (·.id) ∧
        (o'.Stored id ∨ o'.Handled id) := by
  have keeps : ∀ id ∈ (savedNotices o.deeds).map (·.id), id ∈ o'.appended.map (·.id) ∧
      (o'.Stored id ∨ o'.Handled id) := by
    intro id hid
    obtain ⟨known, ⟨notice, hn, hnid⟩ | handled⟩ := once.saved id hid
    · exact ⟨does.appended ▸ known,
        Or.inl ⟨notice, does.notices ▸ List.mem_append_left _ hn, hnid⟩⟩
    · exact ⟨does.appended ▸ known, Or.inr (handled.later does.later)⟩
  rw [does.deeds, savedNotices_append]
  rcases course.savedNotices_eq with hnil | ⟨notice, tells, unconsumed, new, hone⟩
  · rw [does.notices, hnil, List.append_nil, List.append_nil]
    exact ⟨⟨once.stored_nodup, once.saved_nodup⟩, keeps⟩
  have hnotices : o'.notices = o.notices ++ [notice] := by rw [does.notices, hone]
  rw [hnotices, hone, List.map_append, List.map_append, List.map_singleton, tells.id,
    ← List.concat_eq_append, ← List.concat_eq_append]
  refine ⟨⟨once.stored_nodup.concat fun h => new (List.mem_map.1 h),
    once.saved_nodup.concat ((once.fresh current unconsumed).2 new)⟩, fun id hid => ?_⟩
  rw [List.concat_eq_append] at hid
  rcases List.mem_append.1 hid with hid | hid
  · exact keeps id hid
  · obtain rfl := List.mem_singleton.1 hid
    refine ⟨does.appended ▸ sound.mem_appended current, Or.inl ⟨notice, ?_, tells.id⟩⟩
    exact hnotices ▸ List.mem_append_right _ (List.mem_singleton.2 rfl)

/-- Routing an event as it stands in the feed does nothing twice. -/
theorem Outside.Once.routed (once : o.Once) (sound : o.Sound) (current : event ∈ o.feed)
    (comes : Routing.Comes event o result o') : o'.Once := by
  obtain ⟨deeds, course, does⟩ := comes
  obtain ⟨⟨stored_nodup, saved_nodup⟩, saved⟩ := once.saves sound current course does
  obtain ⟨acknowledged_nodup, acknowledged⟩ := once.acknowledges sound current course does
  refine ⟨stored_nodup, saved_nodup, saved, acknowledged_nodup, acknowledged, ?_⟩
  rw [does.deeds, announcedNotices_append, savedNotices_append, once.announced,
    course.announcedNotices_eq]

end

/-! ## Moves -/

theorem Sync.Passes.once {p : Outside → (c : Call) → c.Answer → Prop} {events : List Event}
    {index : Nat} {pass pass' : Sync.Pass} (passes : Sync.Passes p events index pass o pass' o')
    (sound : o.Sound) (once : o.Once) : o'.Once := by
  induction passes with
  | ended => exact once
  | settled _ _ ih => exact ih sound once
  | @routed event _ _ _ _ _ o₁ _ result _ current ends _ _ ih =>
    have sound₁ := sound.later (Later.of_reaches rfl ends)
    have once₁ := once.routed sound current (Sync.comes_of_ends ends)
    have reported := adds_reportRouting o₁ event.id result
    exact ih (sound₁.later reported.later) (once₁.adds reported)

/-- A notice may be deleted once its event needs none any more. -/
theorem Outside.Once.discard (once : o.Once) (spares : o.Spares o') {id : String}
    (handled : o.Handled id) (filtered : o'.notices = o.notices.filter (·.id != id)) :
    o'.Once where
  stored_nodup := by
    rw [filtered]
    exact (List.filter_sublist.map _).nodup once.stored_nodup
  saved_nodup := spares.deeds ▸ once.saved_nodup
  saved other hother := by
    obtain ⟨known, kept⟩ := once.saved other (spares.deeds ▸ hother)
    refine ⟨spares.appended ▸ known, ?_⟩
    by_cases heq : other = id
    · exact Or.inr (heq ▸ handled.later spares.later)
    · refine kept.imp (fun ⟨notice, hn, hnid⟩ => ⟨notice, ?_, hnid⟩) (·.later spares.later)
      rw [filtered, List.mem_filter]
      exact ⟨hn, by simp [hnid, heq]⟩
  acknowledged_nodup := spares.deeds ▸ once.acknowledged_nodup
  acknowledged other hother := by
    obtain ⟨known, h⟩ := once.acknowledged other (spares.deeds ▸ hother)
    exact ⟨spares.appended ▸ known, h.later spares.later⟩
  announced := by rw [spares.deeds, once.announced]

theorem Sync.Steps.once {p : Outside → (c : Call) → c.Answer → Prop} {settings : Settings}
    {state : Sync.State} {result : Except Crash (Sync.Outcome × Sync.State)}
    (steps : Sync.Steps p settings state o result o') (sound : o.Sound) (once : o.Once) :
    o'.Once := by
  cases steps with
  | stopped _ does _ | crashed does _ | idle does _ _ => exact once.adds does.toAdds
  | reset does _ => exact (once.adds does.toAdds).adds (adds_storeCursor _ _ _ _)
  | held does _ passes _ => exact passes.once (sound.later does.later) (once.adds does.toAdds)
  | advanced does _ passes _ _ =>
    have passed := passes.once (sound.later does.later) (once.adds does.toAdds)
    exact passed.adds (adds_storeCursor _ _ _ _)

/-- No move but a crash does anything twice. -/
theorem Moves.once (moves : Moves key move site site') (whole : move ≠ .crash)
    (sound : site.outside.Sound) (once : site.outside.Once) : site'.outside.Once := by
  cases moves with
  | step _ ends => exact ((Sync.ensures_step _ _ sound).ends ends).once sound once
  | restart _ ends =>
    cases (Sync.ensures_load _ _).ends ends with
    | failed does | found does _ => exact once.adds does.toAdds
    | created does answer => exact (once.adds does.toAdds).adds (adds_storeCursor _ _ _ _)
  | crash => exact absurd rfl whole
  | rescan => exact once
  | append event new =>
    refine { once with saved := fun id hid => ?_, acknowledged := fun id hid => ?_ }
    · obtain ⟨known, h⟩ := once.saved id hid
      refine ⟨?_, h.imp_right (·.append known new)⟩
      exact List.map_append ▸ List.mem_append_left _ known
    · obtain ⟨known, h⟩ := once.acknowledged id hid
      exact ⟨List.map_append ▸ List.mem_append_left _ known, h.append known new⟩
  | withdraw kept sublist =>
    refine { once with saved := fun id hid => ?_, acknowledged := fun id hid => ?_ }
    · obtain ⟨known, h⟩ := once.saved id hid
      exact ⟨known, h.imp_right (·.withdraw sublist)⟩
    · obtain ⟨known, h⟩ := once.acknowledged id hid
      exact ⟨known, h.withdraw sublist⟩
  | mark ends =>
    obtain ⟨spares, ids⟩ := (Inbox.ensures_setRead _ _ _).ends ends
    exact once.later spares.later spares.deeds ids
  | discard handled ends =>
    obtain ⟨spares, heq | filtered⟩ := (Inbox.ensures_delete _ _).ends ends
    · exact once.later spares.later spares.deeds (by rw [heq])
    · exact once.discard spares handled filtered

theorem Run.once {allowed : Move → Prop} (run : Run key allowed start site)
    (whole : ¬allowed .crash) (begins : start.Begins) (fresh : start.outside.notices = []) :
    site.outside.Once := by
  have both : site.outside.Sound ∧ site.outside.Once := by
    refine run.keeps (I := fun site => site.outside.Sound ∧ site.outside.Once)
      ⟨begins.sound, ?_⟩ fun ih permitted moves =>
        ⟨moves.sound ih.1, moves.once (fun h => whole (h ▸ permitted)) ih.1 ih.2⟩
    have nothing : start.outside.deeds = [] := by rw [deeds, begins.trail, List.filterMap_nil]
    constructor <;> simp [nothing, fresh, savedNotices, announcedNotices, acknowledgedIds]
  exact both.2

/-- Along every run that begins without notices, no two notices are stored under one id, no id is
used for two saves, two announcements or two acknowledgements, and the notices announced are the
notices saved, in the same order. -/
theorem nothing_done_twice (begins : start.Begins) (fresh : start.outside.notices = [])
    (run : Run key (· ≠ .crash) start site) :
    (site.outside.notices.map (·.id)).Nodup ∧
      ((savedNotices site.outside.deeds).map (·.id)).Nodup ∧
      ((announcedNotices site.outside.deeds).map (·.id)).Nodup ∧
      (acknowledgedIds site.outside.deeds).Nodup ∧
      announcedNotices site.outside.deeds = savedNotices site.outside.deeds := by
  have once := run.once (fun h => h rfl) begins fresh
  exact ⟨once.stored_nodup, once.saved_nodup, once.announced ▸ once.saved_nodup,
    once.acknowledged_nodup, once.announced⟩

/-- Two events are stored and acknowledged once, though the feed is read again from its start. -/
theorem nothing_done_twice_rescanned : ∃ site,
    Run (Settings.cursorKey {}) (· ≠ .crash) .fresh site ∧
    site.memory = some ⟨⟨2, "B"⟩, []⟩ ∧ site.outside.notices.map (·.id) = ["A", "B"] ∧
    (site.outside.notices.map (·.id)).Nodup ∧
      ((savedNotices site.outside.deeds).map (·.id)).Nodup ∧
      ((announcedNotices site.outside.deeds).map (·.id)).Nodup ∧
      (acknowledgedIds site.outside.deeds).Nodup ∧
      announcedNotices site.outside.deeds = savedNotices site.outside.deeds := by
  have run : Run (Settings.cursorKey {}) (· ≠ .crash) .fresh
      (((Site.fresh.restarted {}).stepped {}).rescanned.stepped {}) :=
    (((Run.here.restarted Move.noConfusion).stepped Move.noConfusion).rescanned
      Move.noConfusion).stepped Move.noConfusion
  refine ⟨_, run, ?_, ?_, nothing_done_twice Site.begins_fresh rfl run⟩
  · decide +kernel
  · decide +kernel

end Feedkeeper
