import Feedkeeper.Proofs.Step

/-!
# What the feed loop files

The calls with which the feed loop touches the stored notices, each seen in the state in which it is
made (`Script.Respects`). A step never changes or deletes a notice. It saves one only under an id
that is not stored, for an event that it found unconsumed, and unread; a notice of a group inception
only about a group that is not known and that no stored notice concerns (`Outside.Files`). That
holds of every call on the way, so it does not matter where a step is left.
-/

namespace Feedkeeper

namespace Script

variable {α β W : Type} {b : Behavior W} {rule : W → Call → Prop}

/-- However its calls are answered, the script makes only calls that the rule admits in the state in
which they are made. -/
def Respects (b : Behavior W) (rule : W → Call → Prop) : Script α → W → Prop
  | done _, _ => True
  | call c next, w =>
    rule w c ∧ ∀ answer, b.allows w c answer → Respects b rule (next answer) (b.after w c answer)

/-- What is left of a script respects the rule too. -/
theorem Respects.reaches {s t : Script α} {w w' : W} (h : Respects b rule s w)
    (reaches : Reaches b s w t w') : Respects b rule t w' := by
  induction reaches with
  | here => exact h
  | next allowed _ ih => exact ih (h.2 _ allowed)

/-- A property that every call keeps which the rule admits is kept along the script. -/
theorem Respects.keeps {I : W → Prop} {s t : Script α} {w w' : W} (h : Respects b rule s w)
    (reaches : Reaches b s w t w') (start : I w)
    (step : ∀ {w c answer}, I w → rule w c → b.allows w c answer → I (b.after w c answer)) :
    I w' := by
  induction reaches with
  | here => exact start
  | next allowed _ ih => exact ih (h.2 _ allowed) (step start h.1 allowed)

theorem Respects.mono {rule' : W → Call → Prop} {s : Script α} {w : W}
    (h : Respects b rule s w) (imp : ∀ {w c}, rule w c → rule' w c) : Respects b rule' s w := by
  induction s generalizing w with
  | done value => trivial
  | call c next ih => exact ⟨imp h.1, fun answer allowed => ih answer (h.2 answer allowed)⟩

/-- A sequence respects the rule if its first part does, and then what follows. -/
theorem Respects.bind {s : Script α} {f : α → Script β} {w : W} (h : Respects b rule s w)
    (rest : ∀ value w', Ends b s w value w' → Respects b rule (f value) w') :
    Respects b rule (s >>= f) w := by
  change Respects b rule (Script.bind s f) w
  induction s generalizing w with
  | done value => exact rest value w (.here _ _)
  | call c next ih =>
    exact ⟨h.1, fun answer allowed => ih answer (h.2 answer allowed) fun value w' ends =>
      rest value w' (.next allowed ends)⟩

end Script

open Outside Script

namespace Outside

/-- An invitation to the group may be filed : a request asked for since then names the group, the
group is unknown, and no stored notice concerns it. -/
structure Invites (unknown : String → Prop) (before : List Answered) (digest : String)
    (o : Outside) (group : String) : Prop where
  asked : ∃ request calls, o.trail = before ++ calls ∧
    ⟨.groupRequest digest, .ok request⟩ ∈ calls ∧ request.group = some group
  unknown : unknown group
  unconcerned : ∀ notice ∈ o.notices, notice.correlation ≠ some group

/-- A notice of a group inception is an invitation, and one of a group reply concerns a group. -/
structure Warrants (unknown : String → Prop) (before : List Answered) (o : Outside)
    (route : Route) (digest : String) (correlation : Option String) : Prop where
  inception : route = .groupInception → ∃ group, correlation = some group ∧
    Invites unknown before digest o group
  reply : route = .groupReply → correlation.isSome = true

/-- What a call of the feed loop may do to the stored notices, given the events that the loop found
and the calls made before that. -/
def Files (unknown : String → Prop) (before : List Answered) (events : List Event)
    (o : Outside) : Call → Prop
  | .saveNotice notice =>
    (∃ event ∈ events, event.consumed = false ∧ notice.Tells event) ∧ ¬o.Stored notice.id ∧
      Warrants unknown before o notice.route notice.action.digest notice.correlation
  | .announceNotice notice => ∃ event ∈ events, event.consumed = false ∧ notice.Tells event
  | .updateNotice _ | .deleteNotice _ => False
  | _ => True

variable {unknown : String → Prop} {before : List Answered} {o o' : Outside}

theorem Invites.of_does {digest group : String} (h : Invites unknown before digest o group)
    (does : o.Does [] o') : Invites unknown before digest o' group where
  asked := by
    obtain ⟨request, calls, trail, asked, named⟩ := h.asked
    obtain ⟨more, later⟩ := does.trail
    exact ⟨request, calls ++ more, by rw [← later, trail, List.append_assoc],
      List.mem_append_left _ asked, named⟩
  unknown := h.unknown
  unconcerned := by
    rw [does.notices_eq]
    exact h.unconcerned

theorem Warrants.of_does {route : Route} {digest : String} {correlation : Option String}
    (h : Warrants unknown before o route digest correlation) (does : o.Does [] o') :
    Warrants unknown before o' route digest correlation where
  inception hroute := by
    obtain ⟨group, named, invites⟩ := h.inception hroute
    exact ⟨group, named, invites.of_does does⟩
  reply := h.reply

/-- Routes other than those of inceptions and replies need no warrant. -/
theorem warrants_of_other {route : Route} (inception : route ≠ .groupInception)
    (reply : route ≠ .groupReply) (digest : String) (correlation : Option String) :
    Warrants unknown before o route digest correlation :=
  ⟨fun h => absurd h inception, fun h => absurd h reply⟩

end Outside

variable {p : Outside → (c : Call) → c.Answer → Prop} {unknown : String → Prop}
  {before : List Answered} {events : List Event} {o : Outside}

/-! ## Routing -/

namespace Routing

variable {event : Event}

theorem respects_acknowledge (event : Event) (o : Outside) :
    Respects (limited p) (Files unknown before events) (acknowledge event).run o := by
  unfold acknowledge
  split
  · trivial
  · refine ⟨trivial, ?_⟩
    rintro (failure | _) _ <;> trivial

/-- An acknowledgement that decides the routing. -/
theorem respects_verdict (event : Event) (verdict : Verdict) (o : Outside) :
    Respects (limited p) (Files unknown before events)
      (do acknowledge event; return verdict : Attempt Verdict).run o := by
  rw [ExceptT.run_bind]
  refine (respects_acknowledge event o).bind ?_
  rintro (error | _) _ _ <;> trivial

/-- The generic rule files a notice of the event, unless there is one. -/
theorem respects_notice {route : Route} {group : Option String} (found : event ∈ events)
    (hroute : event.route? = some route)
    (warrants : Warrants unknown before o route event.action.digest group) :
    Respects (limited p) (Files unknown before events) (notice event route group).run o := by
  cases hc : event.consumed with
  | true =>
    rw [notice, if_pos hc]
    trivial
  | false =>
    rw [notice, if_neg (by simp [hc])]
    refine ⟨trivial, ?_⟩
    rintro (fault | _ | stored) allowed
    · trivial
    · have new : ¬o.Stored event.id := not_stored_of_find allowed.1.symm
      refine ⟨trivial, fun createdAt _ => ⟨trivial, fun sender _ => ?_⟩⟩
      let record := Notice.ofEvent event route createdAt group sender.toOption
      have tells : record.Tells event := ⟨rfl, hroute, rfl, rfl⟩
      have looked : o.Does [] (((o.after (.findNotice event.id) (.ok none)).after .now
          createdAt).after (.sender event.action.digest) sender) :=
        ((does_after (.findNotice _) trivial _ _).call .now trivial _).call (.sender _) trivial _
      refine ⟨⟨⟨event, found, hc, tells⟩, new, warrants.of_does looked⟩, ?_⟩
      rintro (fault | _) _
      · trivial
      · exact ⟨⟨event, found, hc, tells⟩, fun _ _ => respects_verdict event (.noticed record) _⟩
    · exact respects_verdict event .duplicate _

/-- The rule for group replies. -/
theorem respects_reply (found : event ∈ events) (hroute : event.route? = some .groupReply)
    (o : Outside) :
    Respects (limited p) (Files unknown before events) (reply event).run o := by
  refine ⟨trivial, ?_⟩
  rintro ((digest | failure) | ⟨_ | group, reply?, exchange⟩) _
  · exact respects_verdict event .groupGone _
  · trivial
  · exact respects_verdict event .groupGone _
  refine ⟨trivial, ?_⟩
  rintro (fault | _ | identifier) _
  · trivial
  · exact respects_verdict event (.unknownGroup group) _
  cases Group.Request.grantedEndpoint? ⟨some group, reply?, exchange⟩ with
  | none =>
    have warrants : Warrants unknown before
        ((o.after (.groupRequest event.action.digest) (.ok ⟨some group, reply?, exchange⟩)).after
          (.findIdentifier group) (.ok (some identifier))) .groupReply event.action.digest
        (some group) :=
      ⟨fun h => Route.noConfusion h, fun _ => rfl⟩
    exact respects_notice found hroute warrants
  | some endpoint =>
    change Respects _ _ (if identifier.authorizes endpoint then do
        acknowledge event
        return .duplicate
      else do
        acknowledge event
        Attempt.action (ask (.joinAuthorization ⟨some group, reply?, exchange⟩))
        return .joined group : Attempt Verdict).run _
    split
    · exact respects_verdict event .duplicate _
    rw [ExceptT.run_bind]
    refine (respects_acknowledge event _).bind ?_
    rintro (error | _) _ _
    · trivial
    refine ⟨trivial, ?_⟩
    rintro (fault | _) _ <;> trivial

/-- The rule for group inceptions files an invitation, after it has found the group unknown and no
notice about it. -/
theorem respects_inception
    (sure : ∀ {o group}, p o (.findIdentifier group) (.ok none) → unknown group)
    (found : event ∈ events) (hroute : event.route? = some .groupInception)
    (since : before <+: o.trail) :
    Respects (limited p) (Files unknown before events) (inception event).run o := by
  refine ⟨trivial, ?_⟩
  rintro ((digest | failure) | ⟨_ | group, reply?, exchange⟩) _
  · exact respects_verdict event .groupGone _
  · trivial
  · exact respects_verdict event .groupGone _
  refine ⟨trivial, ?_⟩
  rintro (fault | known) looked
  · trivial
  refine ⟨trivial, ?_⟩
  rintro (fault | correlated) searched
  · trivial
  change Respects _ _ (if known.isSome || !correlated.isEmpty then do
      acknowledge event
      return .duplicate
    else notice event .groupInception (some group) : Attempt Verdict).run _
  split
  · exact respects_verdict event .duplicate _
  rename_i vacant
  simp only [Bool.or_eq_true, Bool.not_eq_true', List.isEmpty_eq_false_iff, not_or, not_not,
    Bool.not_eq_true, Option.isSome_eq_false_iff, Option.isNone_iff_eq_none] at vacant
  obtain ⟨rfl, rfl⟩ := vacant
  refine respects_notice found hroute ⟨fun _ => ⟨group, rfl, ?_, sure looked.2, ?_⟩, fun _ => rfl⟩
  · obtain ⟨calls, trail⟩ := since
    let request : Group.Request := ⟨some group, reply?, exchange⟩
    let made : List Answered := [⟨.groupRequest event.action.digest, .ok request⟩,
      ⟨.findIdentifier group, .ok none⟩, ⟨.noticesAbout group, .ok []⟩]
    exact ⟨request, calls ++ made, by simp [← trail, made, request], by simp [made], rfl⟩
  · have none : [] = o.notices.filter (·.correlation == some group) := searched.1
    intro notice stored named
    have mem : notice ∈ o.notices.filter (·.correlation == some group) :=
      List.mem_filter.2 ⟨stored, by simp [named]⟩
    rw [← none] at mem
    cases mem

/-- Routing an event files at most a notice of that event. -/
theorem respects_route
    (sure : ∀ {o group}, p o (.findIdentifier group) (.ok none) → unknown group)
    (found : event ∈ events) (since : before <+: o.trail) :
    Respects (limited p) (Files unknown before events) (route event).run o := by
  unfold route
  split
  · split
    · trivial
    · exact respects_verdict event .ignored o
  · rename_i hroute
    exact respects_reply found hroute o
  · rename_i hroute
    exact respects_inception sure found hroute since
  · rename_i route _ _ hroute
    split
    · trivial
    have unwarranted (o : Outside) (group : Option String) :
        Warrants unknown before o route event.action.digest group :=
      warrants_of_other (by rintro rfl; contradiction) (by rintro rfl; contradiction) _ _
    split
    · refine ⟨trivial, ?_⟩
      rintro (failure | request) _ <;> exact respects_notice found hroute (unwarranted _ _)
    · exact respects_notice found hroute (unwarranted o none)

end Routing

/-! ## Steps -/

namespace Sync

theorem respects_routeAll
    (sure : ∀ {o group}, p o (.findIdentifier group) (.ok none) → unknown group)
    {window : List Event} (found : window ⊆ events) (index : Nat) (pass : Pass)
    (since : before <+: o.trail) :
    Respects (limited p) (Files unknown before events) (routeAll window index pass) o := by
  induction window generalizing index pass o with
  | nil => trivial
  | cons event rest ih =>
    obtain ⟨mem, found⟩ := List.cons_subset.1 found
    rw [routeAll]
    split
    · exact ih found _ _ since
    · refine (Routing.respects_route sure mem since).bind fun result o₁ ends => ?_
      refine ⟨trivial, fun _ _ => ih found _ _ ?_⟩
      have later : Later o o₁ := .of_reaches rfl ends
      exact (since.trans later.trail).trans (later_after o₁ _ _).trail

theorem respects_receive
    (sure : ∀ {o group}, p o (.findIdentifier group) (.ok none) → unknown group)
    {window : List Event} (found : window ⊆ events) (settings : Settings) (state : State)
    (since : before <+: o.trail) :
    Respects (limited p) (Files unknown before events) (receive settings state window) o := by
  unfold receive
  split
  · have seen : (if state.cursor.isStart then window else window.drop 1) ⊆ events := by
      split
      · exact found
      · exact List.Subset.trans (List.drop_subset 1 window) found
    refine (respects_routeAll sure seen 0 _ since).bind fun pass o₁ _ => ?_
    split
    · trivial
    dsimp only
    split
    · trivial
    split
    · trivial
    · exact ⟨trivial, fun _ _ => trivial⟩
  · exact ⟨trivial, fun _ _ => trivial⟩

theorem respects_recover (state : State) (o : Outside) :
    Respects (limited p) (Files unknown before events) (recover state) o := by
  refine ⟨trivial, ?_⟩
  rintro (_ | _) _
  · trivial
  refine ⟨trivial, ?_⟩
  rintro (_ | _) _ <;> trivial

variable (unknown) in
/-- However its calls are answered, a step files notices of unconsumed events of the feed, as
`Files` admits it. -/
theorem respects_step
    (sure : ∀ {o group}, p o (.findIdentifier group) (.ok none) → unknown group)
    (settings : Settings) (state : State) (o : Outside) :
    Respects (limited p) (Files unknown o.trail o.feed) (step settings state) o := by
  refine ⟨trivial, ?_⟩
  rintro (_ | _) _
  · trivial
  refine ⟨trivial, ?_⟩
  rintro (_ | _) _
  · trivial
  dsimp only [if_true]
  split
  · trivial
  rename_i limit _
  refine ⟨trivial, ?_⟩
  rintro (failure | window) fetched
  · exact respects_recover state _
  · have part : window ⊆ o.feed := by
      have hw : window = (o.feed.drop _).take _ := fetched.1
      exact hw ▸ List.Subset.trans (List.take_subset _ _) (List.drop_subset _ _)
    let made : List Answered :=
      [⟨.isLoggedIn, true⟩, ⟨.isOnline, true⟩,
        ⟨.fetch state.cursor.windowStart limit, .ok window⟩]
    exact respects_receive sure part settings state ⟨made, by simp [made]⟩

end Sync

end Feedkeeper
