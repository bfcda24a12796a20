import Feedkeeper.Proofs.Convergence

/-!
# Routing an event again

A routing that fails may be tried again, with the event as it is in the feed by then. What was done
before the failure is not done again, and what was left is done : the deeds of a failed attempt and
those that the table has for the next one make up those that the table had at the outset
(`Routing.exists_makes_of_failed`). So an event that was routed well in the end is where it would be
had it been routed well at once (`retries_converge`), however often and wherever the attempts
before failed.
-/

namespace Feedkeeper

open Outside Script

namespace Outside

/-- No store, no acknowledgement and no join fails. -/
def Unfailing : (c : Call) → c.Answer → Prop
  | .acknowledge _, answer => answer = .ok ()
  | .saveNotice _, answer => answer = .ok ()
  | .joinAuthorization _, answer => answer = .ok ()
  | .findNotice _, answer => ∃ found, answer = .ok found
  | .noticesAbout _, answer => ∃ notices, answer = .ok notices
  | _, _ => True

end Outside

/-- The lookups that decide how the event is routed do not fail. -/
def Lookups.Serve (lookups : Lookups) (event : Event) : Prop :=
  event.route? = some .groupReply ∨ event.route? = some .groupInception →
    (∀ failure, lookups.request event.action.digest ≠ .error (.transport failure)) ∧
    ∀ request group, lookups.named event = some (request, group) →
      ∃ known, lookups.identifier group = .ok known

/-- Nothing fails, unless it is a lookup. -/
def Lookups.undisturbed (lookups : Lookups) : Behavior Outside :=
  limited (steady Unfailing fun _ => lookups)

/-- An answer to every call, as the lookups have it and without a failure otherwise. -/
def Lookups.obliging (lookups : Lookups) (o : Outside) : (c : Call) → c.Answer
  | .groupRequest digest => lookups.request digest
  | .sender digest => lookups.sender digest
  | .findIdentifier id => lookups.identifier id
  | c => o.obliging c

theorem Lookups.allows_obliging (lookups : Lookups) (c : Call) (o : Outside) :
    lookups.undisturbed.allows o c (lookups.obliging o c) := by
  cases c with
  | groupRequest | sender | findIdentifier => exact ⟨trivial, trivial, rfl⟩
  | acknowledge | saveNotice | joinAuthorization => exact ⟨trivial, rfl, trivial⟩
  | findNotice | noticesAbout => exact ⟨rfl, ⟨_, rfl⟩, trivial⟩
  | _ => exact ⟨Outside.allows_obliging o _, trivial, trivial⟩

/-- Whether the lookups serve depends on the action of the event only. -/
theorem Lookups.serve_congr {lookups : Lookups} {event event' : Event}
    (action : event'.action = event.action) : lookups.Serve event' ↔ lookups.Serve event := by
  rw [Serve, Serve, Event.route?, Event.route?, named, named, action]

namespace Routing

variable {lookups : Lookups} {notices : List Notice} {event : Event} {left : List Deed}
  {o o' : Outside}

/-! ## The table after the first deeds -/

/-- What relates the entries of two tables, in whose rules the same lookups decide, relates what the
tables have for an event with the same action. Only the rule for inceptions looks at the notices by
their groups. -/
theorem ruling_rel {R : List Deed → List Deed → Prop} {notices' : List Notice} {event' : Event}
    (action : event'.action = event.action) (stored : notices ⊆ notices')
    (acknowledge : R (acknowledging event) (acknowledging event'))
    (join : ∀ request, R (acknowledging event ++ [.joined request])
      (acknowledging event' ++ [.joined request]))
    (notice : ∀ route group, R (noticing lookups notices event route group)
      (noticing lookups notices' event' route group))
    (correlate : ∀ group : String, notices.any (·.correlation == some group) = false →
      notices'.any (·.correlation == some group) = true →
        R (noticing lookups notices event .groupInception (some group)) (acknowledging event')) :
    R (ruling lookups notices event) (ruling lookups notices' event') := by
  have named : lookups.named event' = lookups.named event := by
    rw [Lookups.named, Lookups.named, action]
  have route : event'.route? = event.route? := by rw [Event.route?, Event.route?, action]
  rw [ruling, ruling, route]
  cases event.route? with
  | none => exact acknowledge
  | some route =>
    cases route with
    | groupReply =>
      dsimp only
      rw [replying, replying, named]
      rcases lookups.named event with _ | ⟨request, group⟩
      · exact acknowledge
      dsimp only
      rcases lookups.identifier group with fault | _ | identifier
      · exact acknowledge
      · exact acknowledge
      dsimp only
      cases request.grantedEndpoint? with
      | none => exact notice _ _
      | some endpoint =>
        dsimp only
        split
        · exact acknowledge
        · exact join request
    | groupInception =>
      dsimp only
      rw [incepting, incepting, named]
      rcases lookups.named event with _ | ⟨request, group⟩
      · exact acknowledge
      dsimp only
      rcases lookups.identifier group with fault | _ | identifier
      · exact acknowledge
      · dsimp only
        cases before : notices.any (·.correlation == some group) with
        | true =>
          obtain ⟨notice, hmem, about⟩ := List.any_eq_true.1 before
          rw [if_pos rfl, if_pos (List.any_eq_true.2 ⟨notice, stored hmem, about⟩)]
          exact acknowledge
        | false =>
          rw [if_neg Bool.false_ne_true]
          split
          · exact correlate group before ‹_›
          · exact notice _ _
      · exact acknowledge
    | credentialGrant | credentialApply | credentialAgree | groupRotation | groupExchange =>
      dsimp only
      rw [action]
      exact notice _ _

/-- Once the event is acknowledged, the table has what followed the acknowledgement. -/
theorem ruling_acknowledged
    (table : ruling lookups notices event = .acknowledged event.id :: left) :
    ruling lookups notices { event with consumed := true } = left := by
  revert table
  refine ruling_rel
    (R := fun deeds deeds' => deeds = .acknowledged event.id :: left → deeds' = left) rfl
    (List.Subset.refl _) ?_ ?_ ?_ ?_
  · intro table
    unfold acknowledging at table
    split at table
    · cases table
    · exact (List.cons.inj table).2
  · intro request table
    unfold acknowledging at table
    split at table
    · cases table
    · exact (List.cons.inj table).2
  · intro route group table
    unfold noticing at table
    split at table
    · cases table
    split at table
    · exact (List.cons.inj table).2
    · cases table
  · intro group before after
    rw [before] at after
    cases after

/-- What the generic rule saves is about the event and the group, and is then announced and the
event acknowledged. -/
theorem noticing_saved {route : Route} {group : Option String} {notice told : Notice}
    (table : noticing lookups notices event route group =
      .saved notice :: .announced told :: left) :
    event.consumed = false ∧ notice.id = event.id ∧ notice.correlation = group ∧
      left = [.acknowledged event.id] := by
  unfold noticing at table
  split at table
  · cases table
  rename_i unconsumed
  split at table
  · cases table
  obtain ⟨saved, behind⟩ := List.cons.inj table
  obtain rfl := Deed.saved.inj saved
  exact ⟨by simpa using unconsumed, rfl, rfl, (List.cons.inj behind).2.symm⟩

/-- Once the notice is saved and announced, the table has what followed. -/
theorem ruling_saved {notice told : Notice}
    (table : ruling lookups notices event = .saved notice :: .announced told :: left) :
    ruling lookups (notices ++ [notice]) event = left := by
  revert table
  refine ruling_rel
    (R := fun deeds deeds' => deeds = .saved notice :: .announced told :: left → deeds' = left)
    rfl (List.subset_append_left _ _) ?_ ?_ ?_ ?_
  · intro table
    unfold acknowledging at table
    split at table <;> cases table
  · intro request table
    unfold acknowledging at table
    split at table <;> cases table
  · intro route group table
    obtain ⟨unconsumed, same, -, rfl⟩ := noticing_saved table
    rw [noticing, unconsumed, if_neg Bool.false_ne_true, if_pos]
    rw [List.any_append, Bool.or_eq_true]
    exact Or.inr (by simp [same])
  · intro group _ _ table
    obtain ⟨unconsumed, -, -, rfl⟩ := noticing_saved table
    rw [acknowledging, unconsumed]
    rfl

/-! ## Attempts that fail -/

/-- What a failed attempt did and what is left to do then make up what there was to do. -/
theorem exists_makes_of_failed {error : RoutingError} {event' : Event}
    (nodup : (o.feed.map (·.id)).Nodup) (current : event ∈ o.feed)
    (ends : Ends (limited fun _ => lookups.falters) (route event).run o (.error error) o')
    (current' : event' ∈ o'.feed) (same : event'.id = event.id) :
    ∃ made, o.Makes made o' ∧
      made ++ ruling lookups o'.kept event' = ruling lookups o.kept event := by
  have obeys : Ensures (limited fun _ => lookups.falters) (route event).run
      (Obeys o (ruling lookups o.kept event)) o :=
    @ensures_obeys _ (fun _ => lookups) id event o
  obtain ⟨made, left, does, table, -⟩ := obeys.ends ends
  obtain ⟨deeds, course, does'⟩ := Sync.comes_of_ends ends
  obtain rfl : made = deeds := List.append_cancel_left (does.deeds.symm.trans does'.deeds)
  have makes := does.toAdds.makes
  have kept := makes.kept_eq
  have own : ∀ e ∈ o.feed, e.id = event.id → e = event := fun e he hid =>
    List.inj_on_of_nodup_map nodup he current hid
  refine ⟨_, makes, ?_⟩
  rw [← table, List.append_cancel_left_eq]
  cases course with
  | failed =>
    have hfeed : o'.feed = o.feed := does.feed
    obtain rfl := own event' (hfeed ▸ current') same
    rw [kept, show savedNotices _ = [] from rfl, List.append_nil]
    exact table.symm
  | unjoined unconsumed =>
    have hfeed : o'.feed = Testbed.consumeFirst event.id o.feed := does.feed
    obtain ⟨first, hfirst, becomes⟩ := does.later.origin event' current'
    obtain rfl := own first hfirst (becomes.id_eq.symm.trans same)
    have consumed : event'.consumed = true :=
      Testbed.consumed_of_mem_consumeFirst nodup (hfeed ▸ current') same
    obtain rfl : event' = { first with consumed := true } := by
      rcases becomes with rfl | rfl
      · rw [consumed] at unconsumed
        cases unconsumed
      · rfl
    rw [kept, show savedNotices _ = [] from rfl, List.append_nil]
    exact ruling_acknowledged table.symm
  | unacknowledged =>
    have hfeed : o'.feed = o.feed := does.feed
    obtain rfl := own event' (hfeed ▸ current') same
    rw [kept]
    exact ruling_saved table.symm

/-- Attempts on the event with the id, each on the event as it is in the feed by then, that all
fail. -/
inductive Retries (lookups : Lookups) (id : String) (o : Outside) : Outside → Prop where
  | none : Retries lookups id o o
  | failed {o₁ o₂ : Outside} {event : Event} {error : RoutingError}
      (retries : Retries lookups id o o₁) (current : event ∈ o₁.feed) (same : event.id = id)
      (ends : Ends (limited fun _ => lookups.falters) (route event).run o₁ (.error error) o₂) :
      Retries lookups id o o₂

theorem Retries.later {id : String} (retries : Retries lookups id o o') : Later o o' := by
  induction retries with
  | none => exact .refl o
  | failed _ _ _ ends ih => exact ih.trans (.of_reaches rfl ends)

/-- What all failed attempts did and what is left to do then make up what there was to do. -/
theorem Retries.exists_makes {id : String} (retries : Retries lookups id o o')
    (nodup : (o.feed.map (·.id)).Nodup) (current : event ∈ o.feed) (same : event.id = id)
    {event' : Event} (current' : event' ∈ o'.feed) (same' : event'.id = id) :
    ∃ made, o.Makes made o' ∧
      made ++ ruling lookups o'.kept event' = ruling lookups o.kept event := by
  induction retries generalizing event' with
  | none =>
    obtain rfl := List.inj_on_of_nodup_map nodup current current' (same.trans same'.symm)
    exact ⟨[], (Adds.refl o).makes, rfl⟩
  | failed retries current₁ same₁ ends ih =>
    obtain ⟨made, makes, hmade⟩ := ih current₁ same₁
    have nodup₁ := nodup
    rw [← retries.later.ids] at nodup₁
    obtain ⟨made', makes', hmade'⟩ :=
      exists_makes_of_failed nodup₁ current₁ ends current' (same'.trans same₁.symm)
    refine ⟨made ++ made', makes.trans makes', ?_⟩
    rw [List.append_assoc, hmade', hmade]

/-! ## Attempts in which nothing fails -/

theorem ensures_isOk_acknowledging (event : Event) (verdict : Verdict) (o : Outside) :
    Ensures lookups.undisturbed (do acknowledge event; return verdict : Attempt Verdict).run
      (fun result _ => result.isOk = true) o := by
  rw [ensures_run_bind]
  cases hc : event.consumed with
  | true =>
    rw [Lookups.undisturbed, ensures_acknowledge_of_consumed hc]
    rfl
  | false =>
    rw [Lookups.undisturbed, ensures_acknowledge hc]
    rintro _ ⟨rfl, -⟩
    rfl

theorem ensures_isOk_joining (event : Event) (request : Group.Request) (group : String)
    (o : Outside) : Ensures lookups.undisturbed (do
        acknowledge event
        Attempt.action (ask (.joinAuthorization request))
        return .joined group : Attempt Verdict).run (fun result _ => result.isOk = true) o := by
  have join (o : Outside) : Ensures lookups.undisturbed (do
      Attempt.action (ask (.joinAuthorization request))
      return .joined group : Attempt Verdict).run (fun result _ => result.isOk = true) o := by
    rw [ensures_run_bind, ensures_run_action, ensures_ask]
    rintro _ ⟨-, rfl, -⟩
    rfl
  rw [ensures_run_bind]
  cases hc : event.consumed with
  | true =>
    rw [Lookups.undisturbed, ensures_acknowledge_of_consumed hc]
    exact join o
  | false =>
    rw [Lookups.undisturbed, ensures_acknowledge hc]
    rintro _ ⟨rfl, -⟩
    exact join _

theorem ensures_isOk_notice (event : Event) (route : Route) (group : Option String) (o : Outside) :
    Ensures lookups.undisturbed (notice event route group).run
      (fun result _ => result.isOk = true) o := by
  rw [notice]
  split
  · exact (rfl : (Except.ok Verdict.alreadyConsumed : Except RoutingError Verdict).isOk = true)
  rw [ensures_run_bind, ensures_run_store, ensures_ask]
  rintro _ ⟨-, ⟨_ | found, rfl⟩, -⟩
  · simp only [Except.mapError, connection, ensures_run_bind, ensures_run_lift, ensures_run_store,
      ensures_bind, ensures_pure]
    rintro createdAt _ sender _ _ ⟨-, rfl, -⟩ _ _
    rw [ensures_done, ← ensures_run_bind]
    exact ensures_isOk_acknowledging event _ _
  · exact ensures_isOk_acknowledging event .duplicate _

/-- The lookup of a group request fails only if the agent cannot be reached. -/
theorem ensures_looked {Q : Except RoutingError (Option (Group.Request × String)) → Outside → Prop}
    (failed : ∀ failure o', lookups.request event.action.digest = .error (.transport failure) →
      Q (.error (.transport failure)) o')
    (named : (∀ failure, lookups.request event.action.digest ≠ .error (.transport failure)) →
      ∀ o', Q (.ok (lookups.named event)) o') :
    Ensures lookups.undisturbed (lookup event).run Q o := by
  refine ensures_bind.2 ?_
  rintro answer ⟨-, -, rfl⟩
  rw [Lookups.named] at named
  generalize lookups.request event.action.digest = answer at failed named ⊢
  rcases answer with (digest | failure) | request
  · exact named (by simp) _
  · exact failed failure _ rfl
  · exact named (by simp) _

/-- A rule that looks the group up, and then its identifier, comes out well exactly if these lookups
do. -/
theorem ensures_isOk_of_group
    (hroute : event.route? = some .groupReply ∨ event.route? = some .groupInception)
    {gone : Attempt Verdict} {rule : Group.Request → String → Option Identifier → Attempt Verdict}
    (hgone : ∀ o, Ensures lookups.undisturbed gone.run (fun result _ => result.isOk = true) o)
    (hrule : ∀ request group known o, Ensures lookups.undisturbed (rule request group known).run
      (fun result _ => result.isOk = true) o) :
    Ensures lookups.undisturbed (do
      match ← lookup event with
      | none => gone
      | some (request, group) => do
        rule request group (← Attempt.store (ask (.findIdentifier group)))).run
      (fun result _ => result.isOk = true ↔ lookups.Serve event) o := by
  rw [ensures_run_bind]
  refine ensures_looked (fun failure o' hfailed => ?_) fun reached o' => ?_
  · exact iff_of_false Bool.false_ne_true fun serve => (serve hroute).1 failure hfailed
  dsimp only
  cases hnamed : lookups.named event with
  | none =>
    refine (hgone o').mono fun _ _ well => iff_of_true well fun _ => ⟨reached, ?_⟩
    rw [hnamed]
    rintro _ _ ⟨⟩
  | some named =>
    obtain ⟨request, group⟩ := named
    rw [ensures_run_bind, ensures_run_store, ensures_ask]
    rintro answer ⟨-, -, rfl⟩
    cases hknown : lookups.identifier group with
    | error fault =>
      refine iff_of_false Bool.false_ne_true fun serve => ?_
      obtain ⟨known, h⟩ := (serve hroute).2 request group hnamed
      rw [hknown] at h
      cases h
    | ok known =>
      refine (hrule request group known _).mono fun _ _ well => iff_of_true well fun _ => ?_
      refine ⟨reached, ?_⟩
      rw [hnamed]
      rintro _ _ ⟨⟩
      exact ⟨known, hknown⟩

theorem ensures_isOk_reply (hroute : event.route? = some .groupReply) (o : Outside) :
    Ensures lookups.undisturbed (reply event).run
      (fun result _ => result.isOk = true ↔ lookups.Serve event) o := by
  refine ensures_isOk_of_group (Or.inl hroute)
    (fun o => ensures_isOk_acknowledging event .groupGone o) fun request group known o => ?_
  cases known with
  | none => exact ensures_isOk_acknowledging event (.unknownGroup group) o
  | some identifier =>
    dsimp only
    cases request.grantedEndpoint? with
    | none => exact ensures_isOk_notice event .groupReply (some group) o
    | some endpoint =>
      dsimp only
      split
      · exact ensures_isOk_acknowledging event .duplicate o
      · exact ensures_isOk_joining event request group o

theorem ensures_isOk_inception (hroute : event.route? = some .groupInception) (o : Outside) :
    Ensures lookups.undisturbed (inception event).run
      (fun result _ => result.isOk = true ↔ lookups.Serve event) o := by
  refine ensures_isOk_of_group (Or.inr hroute)
    (fun o => ensures_isOk_acknowledging event .groupGone o) fun request group known o => ?_
  rw [ensures_run_bind, ensures_run_store, ensures_ask]
  rintro _ ⟨-, ⟨correlated, rfl⟩, -⟩
  dsimp only [Except.mapError]
  split
  · exact ensures_isOk_acknowledging event .duplicate _
  · exact ensures_isOk_notice event .groupInception (some group) _

/-- Where nothing else fails, a routing comes out well exactly if its lookups do. -/
theorem ensures_isOk_iff (event : Event) (o : Outside) :
    Ensures lookups.undisturbed (route event).run
      (fun result _ => result.isOk = true ↔ lookups.Serve event) o := by
  -- On all routes but those of the two rules that look a group up no lookup can do harm.
  have other (hr : event.route? ≠ some .groupReply) (hi : event.route? ≠ some .groupInception)
      {attempt : Attempt Verdict} {o : Outside}
      (h : Ensures lookups.undisturbed attempt.run (fun result _ => result.isOk = true) o) :
      Ensures lookups.undisturbed attempt.run
        (fun result _ => result.isOk = true ↔ lookups.Serve event) o :=
    h.mono fun _ _ well => iff_of_true well fun h => (h.elim hr hi).elim
  unfold route
  split
  · rename_i hroute
    refine other (by simp [hroute]) (by simp [hroute]) ?_
    split
    · exact ensures_done.2 rfl
    · exact ensures_isOk_acknowledging event .ignored o
  · rename_i hroute
    exact ensures_isOk_reply hroute o
  · rename_i hroute
    exact ensures_isOk_inception hroute o
  · rename_i route hr hi hroute
    refine other (fun h => hr (Option.some.inj (hroute.symm.trans h)))
      (fun h => hi (Option.some.inj (hroute.symm.trans h))) ?_
    split
    · exact ensures_done.2 rfl
    split
    · rw [ensures_run_bind, correlation, ensures_run_lift, ensures_ask_bind]
      rintro (failure | request) _ <;> exact ensures_isOk_notice event route _ _
    · exact ensures_isOk_notice event route none o

/-- Where the lookups serve, a routing in which nothing fails is possible, and comes out well. -/
theorem exists_ends_of_serve (serve : lookups.Serve event) (o : Outside) :
    ∃ verdict o', Ends lookups.undisturbed (route event).run o (.ok verdict) o' := by
  have ends := ends_run (b := lookups.undisturbed) (fun c o => lookups.obliging o c)
    lookups.allows_obliging (route event).run o
  have well := ((ensures_isOk_iff event o).ends ends).2 serve
  generalize Script.run _ _ _ = ended at ends well
  obtain ⟨_ | verdict, o'⟩ := ended
  · cases well
  · exact ⟨verdict, o', ends⟩

/-- An attempt in which nothing fails does all that the table has. -/
theorem makes_of_undisturbed {verdict : Verdict}
    (ends : Ends lookups.undisturbed (route event).run o (.ok verdict) o') :
    o.Makes (ruling lookups o.kept event) o' := by
  have ruled : Ensures lookups.undisturbed (route event).run
      (Ruled o (ruling lookups o.kept event)) o := ensures_ruling event o
  obtain ⟨made, does, table⟩ := ruled.ends ends verdict rfl
  exact ⟨made, does.toAdds, table⟩

end Routing

/-- An event that is tried again and again, from its state in the feed each time, until an attempt
meets no failure, is where a single such attempt at the outset takes it : with the same notices,
their times apart, the same flags, and the same acknowledgements, announcements and joins. -/
theorem retries_converge {lookups : Lookups} {event last : Event} {verdict : Verdict}
    {o o₁ o₂ : Outside} (nodup : (o.feed.map (·.id)).Nodup) (current : event ∈ o.feed)
    (retries : Routing.Retries lookups event.id o o₁) (stays : last ∈ o₁.feed)
    (same : last.id = event.id)
    (ends : Ends lookups.undisturbed (Routing.route last).run o₁ (.ok verdict) o₂) :
    (∃ verdict o', Ends lookups.undisturbed (Routing.route event).run o (.ok verdict) o') ∧
      ∀ verdict o', Ends lookups.undisturbed (Routing.route event).run o (.ok verdict) o' →
        o₂.kept = o'.kept ∧ o₂.feed = o'.feed ∧ o₂.past = o'.past := by
  obtain ⟨made, makes, left⟩ := retries.exists_makes nodup current rfl stays same
  have all := makes.trans (Routing.makes_of_undisturbed ends)
  rw [left] at all
  constructor
  · have serve : lookups.Serve last := ((Routing.ensures_isOk_iff last o₁).ends ends).1 rfl
    obtain ⟨first, hfirst, becomes⟩ := retries.later.origin last stays
    obtain rfl := List.inj_on_of_nodup_map nodup hfirst current (becomes.id_eq.symm.trans same)
    exact Routing.exists_ends_of_serve ((Lookups.serve_congr becomes.action_eq).1 serve) o
  · intro verdict' o' once
    have makes' := Routing.makes_of_undisturbed once
    exact ⟨all.kept_eq.trans makes'.kept_eq.symm, all.feed_eq.trans makes'.feed_eq.symm,
      all.past_eq.trans makes'.past_eq.symm⟩

/-- An agent whose group requests all grant a role for a known group. -/
def Lookups.granting : Lookups where
  request _ := .ok ⟨some "G", some ⟨Group.grantRoute, "E"⟩, .null⟩
  sender _ := .error ⟨"exchange not found", []⟩
  identifier id := .ok (some ⟨id, "group", false, []⟩)

/-- Answers as the lookups have it, and no failures but of joins. -/
def Lookups.unjoined (lookups : Lookups) (o : Outside) : (c : Call) → c.Answer
  | .joinAuthorization _ => .error ⟨"join failed", []⟩
  | c => lookups.obliging o c

/-- Routes an event so that only joins fail. -/
def Lookups.routeUnjoined (lookups : Lookups) (event : Event) (o : Outside) :
    Except RoutingError Verdict × Outside :=
  (Routing.route event).run.run
    (fun c o => (lookups.unjoined o c, o.after c (lookups.unjoined o c))) o

theorem Lookups.ends_routeUnjoined (lookups : Lookups) (event : Event) (o : Outside) :
    Ends (limited fun _ => lookups.falters) (Routing.route event).run o
      (lookups.routeUnjoined event o).1 (lookups.routeUnjoined event o).2 := by
  refine ends_run (b := limited fun _ => lookups.falters) (fun c o => lookups.unjoined o c) ?_ _ o
  rintro c o
  cases c with
  | joinAuthorization => exact ⟨trivial, trivial⟩
  | _ =>
    exact ⟨(lookups.allows_obliging _ o).1,
      falters_of_admits (lookups.allows_obliging _ o).2.2⟩

/-- A group reply that nobody has seen yet. -/
def Event.freshReply (id : String) : Event :=
  { Event.fresh id with action := ⟨Route.groupReply.wire, "D", []⟩ }

/-- A reply whose join failed after the acknowledgement is joined by the next attempt. -/
theorem retries_converge_joined :
    let o : Outside := { feed := [.freshReply "A"] }
    ∃ o₁ o₂ o' last verdict verdict', Routing.Retries .granting "A" o o₁ ∧
      acknowledgedIds o₁.deeds = ["A"] ∧ last ∈ o₁.feed ∧ last.id = "A" ∧
      Ends Lookups.granting.undisturbed (Routing.route last).run o₁ (.ok verdict) o₂ ∧
      Ends Lookups.granting.undisturbed (Routing.route (.freshReply "A")).run o (.ok verdict') o' ∧
      o₂.kept = o'.kept ∧ o₂.feed = o'.feed ∧ o₂.past = o'.past := by
  intro o
  have current : Event.freshReply "A" ∈ o.feed := List.mem_singleton_self _
  have attempt := Lookups.granting.ends_routeUnjoined (.freshReply "A") o
  have failed : (Lookups.granting.routeUnjoined (.freshReply "A") o).1.isOk = false := by
    decide +kernel
  have acknowledged :
      acknowledgedIds (Lookups.granting.routeUnjoined (.freshReply "A") o).2.deeds = ["A"] := by
    decide +kernel
  generalize Lookups.granting.routeUnjoined (.freshReply "A") o = tried at *
  obtain ⟨error | _, o₁⟩ := tried
  swap
  · cases failed
  have retries : Routing.Retries .granting "A" o o₁ := .failed .none current rfl attempt
  obtain ⟨last, stays, same⟩ : ∃ last ∈ o₁.feed, last.id = "A" := by
    have hid : "A" ∈ o₁.feed.map (·.id) := by
      rw [retries.later.ids]
      exact List.mem_singleton_self _
    simpa using hid
  have serve (event : Event) : Lookups.granting.Serve event :=
    fun _ => ⟨fun _ => (by rintro ⟨⟩), fun _ _ _ => ⟨_, rfl⟩⟩
  obtain ⟨verdict, o₂, ends⟩ := Routing.exists_ends_of_serve (serve last) o₁
  obtain ⟨⟨verdict', o', once⟩, alike⟩ :=
    retries_converge (by decide) current retries stays same ends
  exact ⟨o₁, o₂, o', last, verdict, verdict', retries, acknowledged, stays, same, ends, once,
    alike verdict' o' once⟩

end Feedkeeper
