import Feedkeeper.Proofs.Routing

/-!
# What a routing that comes out well does

`Routing.ruling` is the rules for routing an event as a table : what is done for good, as a function
of what the lookups answer, of the notices that are stored and of the event. Only the times at which
notices are made are left out of it (`Deed.undated`). `ensures_ruling` : a routing that comes out
well does what the table says, if each lookup is answered in one way (`Outside.steady`). What else
may go wrong on the way, such as a sender that cannot be found, is among the answers. A routing that
fails does the first deeds of the table and leaves the others (`ensures_obeys`).
-/

namespace Feedkeeper

open Outside Script

/-- The notice, whenever it was made. -/
def Notice.undated (notice : Notice) : Notice :=
  { notice with createdAt := ⟨0, 0⟩ }

/-- The deed, whenever its notice was made. -/
def Outside.Deed.undated : Deed → Deed
  | .saved notice => .saved notice.undated
  | .announced notice => .announced notice.undated
  | .acknowledged id => .acknowledged id
  | .joined request => .joined request

/-- What the agent and the local records answer when they are asked. -/
structure Lookups where
  request : String → Except LookupFailure Group.Request
  sender : String → Except Fault String
  identifier : String → Except Fault (Option Identifier)

/-- The group request behind the event with the group that it names. -/
def Lookups.named (lookups : Lookups) (event : Event) : Option (Group.Request × String) :=
  (lookups.request event.action.digest).toOption.bind fun request => request.group.map (request, ·)

/-- Whether the call is answered as the lookups have it. -/
def Lookups.admits (lookups : Lookups) : (c : Call) → c.Answer → Prop
  | .groupRequest digest, answer => answer = lookups.request digest
  | .sender digest, answer => answer = lookups.sender digest
  | .findIdentifier id, answer => answer = lookups.identifier id
  | _, _ => True

/-- Whether the call is answered as the lookups have it, or is the read of an identifier that
fails. -/
def Lookups.falters (lookups : Lookups) : (c : Call) → c.Answer → Prop
  | .findIdentifier _, .error _ => True
  | c, answer => lookups.admits c answer

theorem Lookups.falters_of_admits {lookups : Lookups} {c : Call} {answer : c.Answer}
    (admits : lookups.admits c answer) : lookups.falters c answer := by
  unfold falters
  split
  · trivial
  · exact admits

namespace Outside

/-- What was done for good, whenever notices were made. -/
def past (o : Outside) : List Deed :=
  o.deeds.map Deed.undated

/-- The stored notices, whenever they were made. -/
def kept (o : Outside) : List Notice :=
  o.notices.map Notice.undated

/-- Lookups are answered by what was done so far, and other calls where `p` admits it. -/
def steady (p : (c : Call) → c.Answer → Prop) (lookups : List Deed → Lookups) (o : Outside)
    (c : Call) (answer : c.Answer) : Prop :=
  p c answer ∧ (lookups o.past).admits c answer

theorem Adds.past_eq {o o' : Outside} (adds : o.Adds [] o') : o'.past = o.past := by
  rw [past, past, adds.deeds_eq]

theorem Adds.kept_eq {o o' : Outside} (adds : o.Adds [] o') : o'.kept = o.kept := by
  rw [kept, kept, adds.notices_eq]

end Outside

namespace Routing

/-- The acknowledgement of an event, if it is still to be made. -/
def acknowledging (event : Event) : List Deed :=
  if event.consumed then [] else [.acknowledged event.id]

/-- What the generic rule does. -/
def noticing (lookups : Lookups) (notices : List Notice) (event : Event) (route : Route)
    (group : Option String) : List Deed :=
  if event.consumed then []
  else if notices.any (·.id == event.id) then [.acknowledged event.id]
  else
    let notice := Notice.ofEvent event route ⟨0, 0⟩ group
      (lookups.sender event.action.digest).toOption
    [.saved notice, .announced notice, .acknowledged event.id]

/-- What the rule for group replies does. -/
def replying (lookups : Lookups) (notices : List Notice) (event : Event) : List Deed :=
  match lookups.named event with
  | none => acknowledging event
  | some (request, group) =>
    match lookups.identifier group with
    | .ok (some identifier) =>
      match request.grantedEndpoint? with
      | none => noticing lookups notices event .groupReply (some group)
      | some endpoint =>
        if identifier.authorizes endpoint then acknowledging event
        else acknowledging event ++ [.joined request]
    | _ => acknowledging event

/-- What the rule for group inceptions does. -/
def incepting (lookups : Lookups) (notices : List Notice) (event : Event) : List Deed :=
  match lookups.named event with
  | none => acknowledging event
  | some (_, group) =>
    match lookups.identifier group with
    | .ok none =>
      if notices.any (·.correlation == some group) then acknowledging event
      else noticing lookups notices event .groupInception (some group)
    | _ => acknowledging event

/-- What a routing that comes out well does for good. -/
def ruling (lookups : Lookups) (notices : List Notice) (event : Event) : List Deed :=
  match event.route? with
  | none => acknowledging event
  | some .groupReply => replying lookups notices event
  | some .groupInception => incepting lookups notices event
  | some route =>
    noticing lookups notices event route
      (if route.isGroup then (lookups.request event.action.digest).toOption.bind (·.group)
      else none)

/-- The routing did the first of the deeds, and all of them if it came out well. -/
def Obeys (o : Outside) (deeds : List Deed) (result : Except RoutingError Verdict)
    (o' : Outside) : Prop :=
  ∃ made left, o.Does made o' ∧ made.map Deed.undated ++ left = deeds ∧
    ∀ verdict, result = .ok verdict → left = []

/-- If the routing came out well, it did the deeds. -/
def Ruled (o : Outside) (deeds : List Deed) (result : Except RoutingError Verdict)
    (o' : Outside) : Prop :=
  ∀ verdict, result = .ok verdict → ∃ made, o.Does made o' ∧ made.map Deed.undated = deeds

variable {p : Outside → (c : Call) → c.Answer → Prop} {lookups : List Deed → Lookups}
  {event : Event} {deeds : List Deed} {result : Except RoutingError Verdict} {o o' o'' : Outside}

theorem Obeys.ruled (h : Obeys o deeds result o') : Ruled o deeds result o' := by
  rintro verdict hv
  obtain ⟨made, left, does, heq, done⟩ := h
  refine ⟨made, does, ?_⟩
  rw [← heq, done verdict hv, List.append_nil]

theorem obeys_of_does {made : List Deed} (does : o.Does made o') :
    Obeys o (made.map Deed.undated) result o' :=
  ⟨made, [], does, List.append_nil _, fun _ _ => rfl⟩

/-- A routing that fails may have done any first deeds. -/
theorem obeys_error {error : RoutingError} {made : List Deed} (does : o.Does made o')
    (left : List Deed) : Obeys o (made.map Deed.undated ++ left) (.error error) o' :=
  ⟨made, left, does, rfl, fun _ h => by cases h⟩

/-- A routing may fail before it has done anything. -/
theorem obeys_failed {error : RoutingError} (does : o.Does [] o') :
    Obeys o deeds (.error error) o' :=
  obeys_error does deeds

/-- Calls before which nothing was done change nothing about what is done. -/
theorem Obeys.of_does (does : o.Does [] o') (h : Obeys o' deeds result o'') :
    Obeys o deeds result o'' := by
  obtain ⟨made, left, does', heq, done⟩ := h
  exact ⟨made, left, does.trans does', heq, done⟩

theorem ensures_obeys_of_does {attempt : Attempt Verdict} (does : o.Does [] o')
    (h : Ensures (limited p) attempt.run (Obeys o' deeds) o') :
    Ensures (limited p) attempt.run (Obeys o deeds) o' :=
  h.mono fun _ _ h => h.of_does does

theorem ensures_acknowledging (event : Event) (verdict : Verdict) (o : Outside) :
    Ensures (limited p) (do acknowledge event; return verdict : Attempt Verdict).run
      (Obeys o (acknowledging event)) o := by
  rw [ensures_run_bind, acknowledging]
  cases hc : event.consumed with
  | true =>
    rw [ensures_acknowledge_of_consumed hc]
    exact obeys_of_does (.refl o)
  | false =>
    rw [ensures_acknowledge hc]
    rintro (failure | _) _
    · exact obeys_failed (does_after (.acknowledge _) trivial o (.error failure))
    · exact obeys_of_does (does_after (.acknowledge _) trivial o (.ok ()))

theorem ensures_joining (event : Event) (request : Group.Request) (group : String) (o : Outside) :
    Ensures (limited p) (do
        acknowledge event
        Attempt.action (ask (.joinAuthorization request))
        return .joined group : Attempt Verdict).run
      (Obeys o (acknowledging event ++ [.joined request])) o := by
  have join {made : List Deed} {o' : Outside} (does : o.Does made o') :
      Ensures (limited p) (do
          Attempt.action (ask (.joinAuthorization request))
          return .joined group : Attempt Verdict).run
        (Obeys o (made.map Deed.undated ++ [.joined request])) o' := by
    rw [ensures_run_bind, ensures_run_action, ensures_ask]
    rintro (fault | _) _
    · have failed := does.call (.joinAuthorization request) trivial (.error fault)
      rw [show (Answered.deed? ⟨.joinAuthorization request, .error fault⟩).toList = [] from rfl,
        List.append_nil] at failed
      exact obeys_error failed _
    · have joined := does.call (.joinAuthorization request) trivial (.ok ())
      have obeys : Obeys o _ (.ok (.joined group)) _ := obeys_of_does joined
      rwa [List.map_append] at obeys
  rw [ensures_run_bind, acknowledging]
  cases hc : event.consumed with
  | true =>
    rw [ensures_acknowledge_of_consumed hc]
    exact join (.refl o)
  | false =>
    rw [ensures_acknowledge hc]
    rintro (failure | _) _
    · exact obeys_failed (does_after (.acknowledge _) trivial o (.error failure))
    · exact join (does_after (.acknowledge _) trivial o (.ok ()))

theorem any_id_kept (o : Outside) (id : String) :
    o.kept.any (·.id == id) = (o.notices.find? (·.id == id)).isSome := by
  rw [kept, List.any_map, List.isSome_find?]
  rfl

theorem any_correlation_kept (o : Outside) (group : String) :
    o.kept.any (·.correlation == some group) =
      !(o.notices.filter (·.correlation == some group)).isEmpty := by
  rw [kept, List.any_map, Bool.eq_iff_iff, Bool.not_eq_true', List.isEmpty_eq_false_iff, Ne,
    List.filter_eq_nil_iff, List.any_eq_true]
  simp [Notice.undated]

/-! ## The rules -/

section

variable (serves : ∀ {o c answer}, p o c answer → (lookups o.past).falters c answer)

include serves

/-- The generic rule. -/
theorem ensures_noticing {route : Route} (group : Option String) (o : Outside) :
    Ensures (limited p) (notice event route group).run
      (Obeys o (noticing (lookups o.past) o.kept event route group)) o := by
  rw [noticing]
  cases hc : event.consumed with
  | true =>
    rw [notice, if_pos hc]
    exact obeys_of_does (.refl o)
  | false =>
    rw [notice, if_neg (by simp [hc]), if_neg Bool.false_ne_true, any_id_kept, ensures_run_bind,
      ensures_run_store, ensures_ask]
    rintro (fault | _ | found) allowed
    · exact obeys_failed (does_after (.findNotice _) trivial o (.error fault))
    · rw [← show none = o.notices.find? (·.id == event.id) from allowed.1]
      simp only [Except.mapError, connection, ensures_run_bind, ensures_run_lift,
        ensures_run_store, ensures_bind, ensures_pure]
      intro createdAt _ sender admitted saved _
      have timed : o.Does [] ((o.after (.findNotice event.id) (.ok none)).after .now createdAt) :=
        (does_after (.findNotice _) trivial _ _).call .now trivial _
      have looked := timed.call (.sender event.action.digest) trivial sender
      obtain rfl : sender = (lookups o.past).sender event.action.digest :=
        timed.past_eq ▸ serves admitted.2
      generalize hrecord : Notice.ofEvent event route createdAt group
        ((lookups o.past).sender event.action.digest).toOption = record
      have undated : record.undated = Notice.ofEvent event route ⟨0, 0⟩ group
        ((lookups o.past).sender event.action.digest).toOption := hrecord ▸ rfl
      rw [← undated]
      rcases saved with fault | _
      · exact obeys_failed (looked.call (.saveNotice record) trivial (.error fault))
      · intro _ _
        have saved := looked.call (.saveNotice record) trivial (.ok ())
        have told := saved.call (.announceNotice record) trivial ()
        rw [ensures_done, ensures_acknowledge hc]
        rintro (failure | _) _
        · exact obeys_error (told.call (.acknowledge _) trivial (.error failure)) _
        · exact obeys_of_does (told.call (.acknowledge _) trivial (.ok ()))
    · rw [← show some found = o.notices.find? (·.id == event.id) from allowed.1]
      have same : acknowledging event = [.acknowledged event.id] := by rw [acknowledging, hc]; rfl
      exact same ▸ ensures_obeys_of_does (does_after (.findNotice _) trivial _ _)
        (ensures_acknowledging event .duplicate _)

theorem ensures_noticing_of_does (does : o.Does [] o') {route : Route} (group : Option String) :
    Ensures (limited p) (notice event route group).run
      (Obeys o (noticing (lookups o.past) o.kept event route group)) o' := by
  rw [← does.past_eq, ← does.kept_eq]
  exact ensures_obeys_of_does does (ensures_noticing serves group o')

/-- The lookup of a group request, if it does not end the routing. -/
theorem ensures_named {Q : Except RoutingError (Option (Group.Request × String)) → Outside → Prop}
    (failed : ∀ error o', o.Does [] o' → Q (.error error) o')
    (named : ∀ o', o.Does [] o' → Q (.ok ((lookups o.past).named event)) o') :
    Ensures (limited p) (lookup event).run Q o := by
  refine ensures_bind.2 ?_
  rintro answer admitted
  have does := does_after (.groupRequest event.action.digest) trivial o answer
  have heq : answer = (lookups o.past).request event.action.digest := serves admitted.2
  rcases answer with failure | request
  · cases failure with
    | notFound digest =>
      have h := named _ does
      rw [Lookups.named, ← heq] at h
      exact h
    | transport failure => exact failed _ _ does
  · have h := named _ does
    rw [Lookups.named, ← heq] at h
    exact h

/-- The rule for group replies. -/
theorem ensures_replying (o : Outside) : Ensures (limited p) (reply event).run
    (Obeys o (replying (lookups o.past) o.kept event)) o := by
  rw [reply, replying, ensures_run_bind]
  refine ensures_named serves (fun _ _ => obeys_failed) fun o₁ named => ?_
  cases (lookups o.past).named event with
  | none => exact ensures_obeys_of_does named (ensures_acknowledging event .groupGone o₁)
  | some found =>
    obtain ⟨request, group⟩ := found
    simp only [ensures_run_bind, ensures_run_store]
    rintro answer admitted
    have does := named.call (.findIdentifier group) trivial answer
    rcases answer with fault | known
    · exact obeys_failed does
    have heq : .ok known = (lookups o.past).identifier group :=
      named.past_eq ▸ serves admitted.2
    rw [← heq]
    simp only [ensures_done, Except.mapError]
    rcases known with _ | identifier
    · exact ensures_obeys_of_does does (ensures_acknowledging event (.unknownGroup group) _)
    dsimp only
    cases request.grantedEndpoint? with
    | none => exact ensures_noticing_of_does serves does (some group)
    | some endpoint =>
      dsimp only
      split
      · exact ensures_obeys_of_does does (ensures_acknowledging event .duplicate _)
      · exact ensures_obeys_of_does does (ensures_joining event request group _)

/-- The rule for group inceptions. -/
theorem ensures_incepting (o : Outside) : Ensures (limited p) (inception event).run
    (Obeys o (incepting (lookups o.past) o.kept event)) o := by
  rw [inception, incepting, ensures_run_bind]
  refine ensures_named serves (fun _ _ => obeys_failed) fun o₁ named => ?_
  cases (lookups o.past).named event with
  | none => exact ensures_obeys_of_does named (ensures_acknowledging event .groupGone o₁)
  | some found =>
    obtain ⟨request, group⟩ := found
    simp only [ensures_run_bind, ensures_run_store]
    rintro known admitted
    have does₁ := named.call (.findIdentifier group) trivial known
    rcases known with fault | known
    · exact obeys_failed does₁
    have heq : .ok known = (lookups o.past).identifier group :=
      named.past_eq ▸ serves admitted.2
    rw [← heq, any_correlation_kept]
    rintro correlated looked
    have does := does₁.call (.noticesAbout group) trivial correlated
    rcases correlated with fault | correlated
    · exact obeys_failed does
    have hcorrelated : correlated = o.notices.filter (·.correlation == some group) := by
      rw [← does₁.notices_eq]
      exact looked.1
    simp only [ensures_done, Except.mapError]
    rw [← hcorrelated]
    cases known with
    | some identifier => exact ensures_obeys_of_does does (ensures_acknowledging event .duplicate _)
    | none =>
      dsimp only
      rw [Option.isSome_none, Bool.false_or]
      split
      · exact ensures_obeys_of_does does (ensures_acknowledging event .duplicate _)
      · exact ensures_noticing_of_does serves does (some group)

/-- The rule for all other recognized routes. -/
theorem ensures_ruling_of_other (route : Route) (o : Outside) :
    Ensures (limited p) (if event.consumed then pure .alreadyConsumed
      else if route.isGroup then do notice event route (← correlation event)
      else notice event route none : Attempt Verdict).run
      (Obeys o (noticing (lookups o.past) o.kept event route
        (if route.isGroup then
          ((lookups o.past).request event.action.digest).toOption.bind (·.group)
        else none))) o := by
  cases hc : event.consumed with
  | true =>
    rw [if_pos rfl, noticing, if_pos hc]
    exact obeys_of_does (.refl o)
  | false =>
    rw [if_neg Bool.false_ne_true]
    split
    · simp only [correlation, ensures_run_bind, ensures_run_lift, ensures_bind]
      rintro answer admitted
      have does := does_after (.groupRequest event.action.digest) trivial o answer
      have heq : answer = (lookups o.past).request event.action.digest := serves admitted.2
      rw [← heq]
      rcases answer with failure | request <;> exact ensures_noticing_of_does serves does _
    · exact ensures_noticing serves none o

/-- A routing does the first deeds of what the table says, and all of them if it comes out well. -/
theorem ensures_obeys (event : Event) (o : Outside) :
    Ensures (limited p) (route event).run
      (Obeys o (ruling (lookups o.past) o.kept event)) o := by
  unfold route ruling
  cases event.route? with
  | none =>
    dsimp only
    split
    · rename_i hc
      rw [acknowledging, if_pos hc]
      exact obeys_of_does (.refl o)
    · exact ensures_acknowledging event .ignored o
  | some route =>
    cases route with
    | groupReply => exact ensures_replying serves o
    | groupInception => exact ensures_incepting serves o
    | credentialGrant | credentialApply | credentialAgree | groupRotation | groupExchange =>
      exact ensures_ruling_of_other serves _ o

end

/-- A routing that comes out well does what the table says. -/
theorem ensures_ruling {p : (c : Call) → c.Answer → Prop} (event : Event) (o : Outside) :
    Ensures (limited (steady p lookups)) (route event).run
      (Ruled o (ruling (lookups o.past) o.kept event)) o :=
  (ensures_obeys (fun steady => Lookups.falters_of_admits steady.2) event o).mono
    fun _ _ obeys => obeys.ruled

end Routing

end Feedkeeper
