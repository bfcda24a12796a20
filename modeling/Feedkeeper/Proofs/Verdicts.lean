import Feedkeeper.Proofs.Retry

/-!
# The verdict of a routing

`Routing.Row` is the rules for routing an event as rows of a table : each says of which actions it
decides, by their route, by what the agent and the local records answer and by the stored notices,
and how. It does not look at whether the event is consumed. That comes in after the decision only,
and makes no difference to what a rule for groups has settled (`Routing.Decision.verdict`).

`route_follows_table` : of the rows exactly one fits, and where nothing makes the routing fail, it
comes to the verdict that the row has for the event and does what the row has for it.
-/

namespace Feedkeeper

open Outside Script

/-- The reply in the request grants a role to the endpoint. -/
def Group.Request.Grants (request : Group.Request) (endpoint : String) : Prop :=
  ∃ reply, request.reply = some reply ∧ reply.route = Group.grantRoute ∧ reply.endpoint = endpoint

theorem Group.Request.grantedEndpoint?_eq_some_iff {request : Group.Request} {endpoint : String} :
    request.grantedEndpoint? = some endpoint ↔ request.Grants endpoint := by
  unfold grantedEndpoint? Grants
  cases request.reply with
  | none => simp
  | some reply => simp

namespace Lookups

/-- The agent has a request with the digest, which names the group. -/
def Names (lookups : Lookups) (digest : String) (request : Group.Request) (group : String) : Prop :=
  lookups.request digest = .ok request ∧ request.group = some group

/-- The agent has no request with the digest any more, or it names no group. -/
def Gone (lookups : Lookups) (digest : String) : Prop :=
  (∃ missing, lookups.request digest = .error (.notFound missing)) ∨
    ∃ request, lookups.request digest = .ok request ∧ request.group = none

/-- The group that the request with the digest names, as far as it can be found out. -/
def group? (lookups : Lookups) (digest : String) : Option String :=
  (lookups.request digest).toOption.bind (·.group)

end Lookups

namespace Routing

/-- What a row says about the events that it fits. -/
inductive Decision where
  /-- The event is dropped, its route being unrecognized. -/
  | dropped
  /-- A rule for groups has come to the verdict. -/
  | settled (verdict : Verdict)
  /-- The authorization of the group is joined with the request. -/
  | joins (request : Group.Request) (group : String)
  /-- The generic rule applies, with the group that the notice is to concern. -/
  | generic (route : Route) (group : Option String)

/-- The verdict on an event, its notice being made at the time if there is one to be made. -/
def Decision.verdict (lookups : Lookups) (notices : List Notice) (event : Event)
    (createdAt : Instant) : Decision → Verdict
  | .dropped => if event.consumed then .alreadyConsumed else .ignored
  | .settled verdict => verdict
  | .joins _ group => .joined group
  | .generic route group =>
    if event.consumed then .alreadyConsumed
    else if notices.any (·.id == event.id) then .duplicate
    else .noticed (Notice.ofEvent event route createdAt group
      (lookups.sender event.action.digest).toOption)

/-- What is done for good, whenever notices are made. -/
def Decision.deeds (lookups : Lookups) (notices : List Notice) (event : Event) :
    Decision → List Deed
  | .dropped | .settled _ => acknowledging event
  | .joins request _ => acknowledging event ++ [.joined request]
  | .generic route group => noticing lookups notices event route group

/-- The table : a row fits the action and decides so. -/
inductive Row (lookups : Lookups) (notices : List Notice) (action : Action) : Decision → Prop where
  | unrecognized (off : ∀ route : Route, action.route ≠ route.wire) :
      Row lookups notices action .dropped
  | gone (on : action.route = Route.groupReply.wire ∨ action.route = Route.groupInception.wire)
      (gone : lookups.Gone action.digest) : Row lookups notices action (.settled .groupGone)
  -- Replies.
  | unknown {request : Group.Request} {group : String}
      (on : action.route = Route.groupReply.wire)
      (names : lookups.Names action.digest request group)
      (unknown : lookups.identifier group = .ok none) :
      Row lookups notices action (.settled (.unknownGroup group))
  | authorized {request : Group.Request} {group endpoint : String} {identifier : Identifier}
      (on : action.route = Route.groupReply.wire)
      (names : lookups.Names action.digest request group)
      (known : lookups.identifier group = .ok (some identifier))
      (grants : request.Grants endpoint) (authorized : endpoint ∈ identifier.authorized) :
      Row lookups notices action (.settled .duplicate)
  | joins {request : Group.Request} {group endpoint : String} {identifier : Identifier}
      (on : action.route = Route.groupReply.wire)
      (names : lookups.Names action.digest request group)
      (known : lookups.identifier group = .ok (some identifier))
      (grants : request.Grants endpoint) (unauthorized : endpoint ∉ identifier.authorized) :
      Row lookups notices action (.joins request group)
  | replied {request : Group.Request} {group : String} {identifier : Identifier}
      (on : action.route = Route.groupReply.wire)
      (names : lookups.Names action.digest request group)
      (known : lookups.identifier group = .ok (some identifier))
      (grantless : ∀ endpoint, ¬request.Grants endpoint) :
      Row lookups notices action (.generic .groupReply (some group))
  -- Inceptions.
  | handled {request : Group.Request} {group : String}
      (on : action.route = Route.groupInception.wire)
      (names : lookups.Names action.digest request group)
      (handled : (∃ identifier, lookups.identifier group = .ok (some identifier)) ∨
        ∃ notice ∈ notices, notice.correlation = some group) :
      Row lookups notices action (.settled .duplicate)
  | incepted {request : Group.Request} {group : String}
      (on : action.route = Route.groupInception.wire)
      (names : lookups.Names action.digest request group)
      (unknown : lookups.identifier group = .ok none)
      (uncorrelated : ∀ notice ∈ notices, notice.correlation ≠ some group) :
      Row lookups notices action (.generic .groupInception (some group))
  -- The other recognized routes.
  | correlated {route : Route} (among : route ∈ [.groupRotation, .groupExchange])
      (on : action.route = route.wire) :
      Row lookups notices action (.generic route (lookups.group? action.digest))
  | plain {route : Route} (among : route ∈ [.credentialGrant, .credentialApply, .credentialAgree])
      (on : action.route = route.wire) : Row lookups notices action (.generic route none)

/-! ## One row fits -/

/-- The decision on a group reply. -/
def decisionOnReply (lookups : Lookups) (event : Event) : Decision :=
  match lookups.named event with
  | none => .settled .groupGone
  | some (request, group) =>
    match lookups.identifier group with
    | .ok (some identifier) =>
      match request.grantedEndpoint? with
      | none => .generic .groupReply (some group)
      | some endpoint =>
        if identifier.authorizes endpoint then .settled .duplicate else .joins request group
    | _ => .settled (.unknownGroup group)

/-- The decision on a group inception. -/
def decisionOnInception (lookups : Lookups) (notices : List Notice) (event : Event) : Decision :=
  match lookups.named event with
  | none => .settled .groupGone
  | some (_, group) =>
    match lookups.identifier group with
    | .ok none =>
      if notices.any (·.correlation == some group) then .settled .duplicate
      else .generic .groupInception (some group)
    | _ => .settled .duplicate

/-- The decision on an event, rule after rule. -/
def decision (lookups : Lookups) (notices : List Notice) (event : Event) : Decision :=
  match event.route? with
  | none => .dropped
  | some .groupReply => decisionOnReply lookups event
  | some .groupInception => decisionOnInception lookups notices event
  | some route =>
    .generic route (if route.isGroup then lookups.group? event.action.digest else none)

variable {lookups : Lookups} {notices : List Notice} {event : Event} {other : Decision}
  {request : Group.Request} {group : String} {route : Route} {o o' : Outside}

theorem route?_eq_some_iff : event.route? = some route ↔ event.action.route = route.wire :=
  ⟨fun parsed => (Route.wire_of_parse? parsed).symm, fun on => by
    rw [Event.route?, on, Route.parse?_wire]⟩

theorem route?_eq_none_iff :
    event.route? = none ↔ ∀ route : Route, event.action.route ≠ route.wire := by
  rw [Option.eq_none_iff_forall_ne_some]
  exact forall_congr' fun route => not_congr route?_eq_some_iff

theorem named_eq_some_iff : lookups.named event = some (request, group) ↔
    lookups.Names event.action.digest request group := by
  unfold Lookups.named Lookups.Names
  cases lookups.request event.action.digest with
  | error failure => simp [Except.toOption]
  | ok request =>
    simp only [Except.toOption, Option.bind_some, Option.map_eq_some_iff, Prod.mk.injEq,
      Except.ok.injEq]
    constructor
    · rintro ⟨_, named, rfl, rfl⟩
      exact ⟨rfl, named⟩
    · rintro ⟨rfl, named⟩
      exact ⟨group, named, rfl, rfl⟩

theorem named_eq_none_of_gone (gone : lookups.Gone event.action.digest) :
    lookups.named event = none := by
  unfold Lookups.named
  rcases gone with ⟨missing, gone⟩ | ⟨request, found, groupless⟩
  · rw [gone]
    rfl
  · rw [found]
    simp [Except.toOption, groupless]

/-- A request that was asked for names no group only if it is gone. -/
theorem gone_of_named_eq_none (missing : lookups.named event = none)
    (reached : ∀ failure, lookups.request event.action.digest ≠ .error (.transport failure)) :
    lookups.Gone event.action.digest := by
  unfold Lookups.named at missing
  cases answer : lookups.request event.action.digest with
  | error failure =>
    cases failure with
    | notFound digest => exact Or.inl ⟨digest, answer⟩
    | transport failure => exact absurd answer (reached failure)
  | ok request =>
    rw [answer] at missing
    exact Or.inr ⟨request, answer, by simpa [Except.toOption] using missing⟩

theorem any_correlation_iff : notices.any (·.correlation == some group) = true ↔
    ∃ notice ∈ notices, notice.correlation = some group := by
  simp

/-- A row that fits makes the decision. -/
theorem Row.eq_decision (row : Row lookups notices event.action other) :
    other = decision lookups notices event := by
  unfold decision
  cases row with
  | unrecognized off => rw [route?_eq_none_iff.2 off]
  | gone on gone =>
    rcases on with on | on <;>
      simp [route?_eq_some_iff.2 on, decisionOnReply, decisionOnInception,
        named_eq_none_of_gone gone]
  | unknown on names unknown =>
    simp [route?_eq_some_iff.2 on, decisionOnReply, named_eq_some_iff.2 names, unknown]
  | authorized on names known grants authorized =>
    simp [route?_eq_some_iff.2 on, decisionOnReply, named_eq_some_iff.2 names, known,
      Group.Request.grantedEndpoint?_eq_some_iff.2 grants, Identifier.authorizes, authorized]
  | joins on names known grants unauthorized =>
    simp [route?_eq_some_iff.2 on, decisionOnReply, named_eq_some_iff.2 names, known,
      Group.Request.grantedEndpoint?_eq_some_iff.2 grants, Identifier.authorizes, unauthorized]
  | replied on names known grantless =>
    have none := Option.eq_none_iff_forall_ne_some.2 fun endpoint granted =>
      grantless endpoint (Group.Request.grantedEndpoint?_eq_some_iff.1 granted)
    simp [route?_eq_some_iff.2 on, decisionOnReply, named_eq_some_iff.2 names, known, none]
  | handled on names handled =>
    simp only [route?_eq_some_iff.2 on, decisionOnInception, named_eq_some_iff.2 names]
    rcases handled with ⟨identifier, known⟩ | about
    · rw [known]
    · rw [if_pos (any_correlation_iff.2 about)]
      split <;> rfl
  | incepted on names unknown uncorrelated =>
    simp only [route?_eq_some_iff.2 on, decisionOnInception, named_eq_some_iff.2 names, unknown]
    rw [if_neg fun about => ?_]
    obtain ⟨notice, mem, same⟩ := any_correlation_iff.1 about
    exact uncorrelated notice mem same
  | correlated among on =>
    simp only [List.mem_cons, List.not_mem_nil, or_false] at among
    rcases among with rfl | rfl <;> simp [route?_eq_some_iff.2 on, Route.isGroup]
  | plain among on =>
    simp only [List.mem_cons, List.not_mem_nil, or_false] at among
    rcases among with rfl | rfl | rfl <;> simp [route?_eq_some_iff.2 on, Route.isGroup]

theorem row_decisionOnReply (on : event.route? = some .groupReply) (serve : lookups.Serve event) :
    Row lookups notices event.action (decisionOnReply lookups event) := by
  have wire := route?_eq_some_iff.1 on
  obtain ⟨reached, answered⟩ := serve (Or.inl on)
  rw [decisionOnReply]
  cases named : lookups.named event with
  | none => exact .gone (Or.inl wire) (gone_of_named_eq_none named reached)
  | some found =>
    obtain ⟨request, group⟩ := found
    have names := named_eq_some_iff.1 named
    obtain ⟨_ | identifier, known⟩ := answered request group named
    · dsimp only
      rw [known]
      exact .unknown wire names known
    dsimp only
    rw [known]
    dsimp only
    cases granted : request.grantedEndpoint? with
    | none =>
      refine .replied wire names known fun endpoint grants => ?_
      rw [Group.Request.grantedEndpoint?_eq_some_iff.2 grants] at granted
      cases granted
    | some endpoint =>
      have grants := Group.Request.grantedEndpoint?_eq_some_iff.1 granted
      dsimp only
      split
      · rename_i authorizes
        exact .authorized wire names known grants (List.contains_iff_mem.1 authorizes)
      · rename_i authorizes
        exact .joins wire names known grants fun mem =>
          authorizes (List.contains_iff_mem.2 mem)

theorem row_decisionOnInception (on : event.route? = some .groupInception)
    (serve : lookups.Serve event) :
    Row lookups notices event.action (decisionOnInception lookups notices event) := by
  have wire := route?_eq_some_iff.1 on
  obtain ⟨reached, answered⟩ := serve (Or.inr on)
  rw [decisionOnInception]
  cases named : lookups.named event with
  | none => exact .gone (Or.inr wire) (gone_of_named_eq_none named reached)
  | some found =>
    obtain ⟨request, group⟩ := found
    have names := named_eq_some_iff.1 named
    obtain ⟨_ | identifier, known⟩ := answered request group named
    · dsimp only
      rw [known]
      dsimp only
      split
      · rename_i about
        exact .handled wire names (Or.inr (any_correlation_iff.1 about))
      · rename_i about
        exact .incepted wire names known fun notice mem same =>
          about (any_correlation_iff.2 ⟨notice, mem, same⟩)
    · dsimp only
      rw [known]
      exact .handled wire names (Or.inl ⟨identifier, known⟩)

/-- Where the lookups that decide do not fail, a row fits. -/
theorem row_decision (serve : lookups.Serve event) :
    Row lookups notices event.action (decision lookups notices event) := by
  unfold decision
  cases on : event.route? with
  | none => exact .unrecognized (route?_eq_none_iff.1 on)
  | some route =>
    have wire := route?_eq_some_iff.1 on
    cases route with
    | groupReply => exact row_decisionOnReply on serve
    | groupInception => exact row_decisionOnInception on serve
    | groupRotation | groupExchange => exact .correlated (by simp) wire
    | credentialGrant | credentialApply | credentialAgree => exact .plain (by simp) wire

theorem row_iff (serve : lookups.Serve event) :
    Row lookups notices event.action other ↔ other = decision lookups notices event :=
  ⟨Row.eq_decision, fun same => same ▸ row_decision serve⟩

/-! ## What is done -/

theorem noticing_kept (o : Outside) (group : Option String) :
    noticing lookups o.kept event route group = noticing lookups o.notices event route group := by
  rw [noticing, noticing, kept, List.any_map]
  rfl

theorem any_correlation_notices (o : Outside) (group : String) :
    o.kept.any (·.correlation == some group) = o.notices.any (·.correlation == some group) := by
  rw [kept, List.any_map]
  rfl

/-- What is done for good is what the decision has. -/
theorem ruling_eq_deeds (o : Outside) : ruling lookups o.kept event =
    (decision lookups o.notices event).deeds lookups o.notices event := by
  unfold ruling decision
  cases event.route? with
  | none => rfl
  | some route =>
    cases route with
    | groupReply =>
      simp only [replying, decisionOnReply, noticing_kept]
      rcases lookups.named event with _ | ⟨request, group⟩
      · rfl
      dsimp only
      rcases lookups.identifier group with fault | _ | identifier
      · rfl
      · rfl
      dsimp only
      cases request.grantedEndpoint? with
      | none => rfl
      | some endpoint =>
        dsimp only
        split <;> rfl
    | groupInception =>
      simp only [incepting, decisionOnInception, noticing_kept, any_correlation_notices]
      rcases lookups.named event with _ | ⟨request, group⟩
      · rfl
      dsimp only
      rcases lookups.identifier group with fault | _ | identifier
      · rfl
      · dsimp only
        split <;> rfl
      · rfl
    | credentialGrant | credentialApply | credentialAgree | groupRotation | groupExchange =>
      exact noticing_kept o _

/-! ## The verdict -/

/-- The routing fails, or comes to the verdict that the decision has. -/
def Gives (lookups : Lookups) (notices : List Notice) (event : Event) (decision : Decision)
    (result : Except RoutingError Verdict) : Prop :=
  ∀ verdict, result = .ok verdict →
    ∃ createdAt, verdict = decision.verdict lookups notices event createdAt

theorem gives_error (error : RoutingError) : Gives lookups notices event other (.error error) :=
  nofun

/-- An acknowledgement makes no difference to the verdict of what follows it. -/
theorem ensures_gives_acknowledge {f : Unit → Attempt Verdict}
    (h : ∀ o, Ensures lookups.undisturbed (f ()).run
      (fun result _ => Gives lookups notices event other result) o) (o : Outside) :
    Ensures lookups.undisturbed (acknowledge event >>= f).run
      (fun result _ => Gives lookups notices event other result) o := by
  rw [ensures_run_bind, Lookups.undisturbed]
  cases hc : event.consumed with
  | true => exact (ensures_acknowledge_of_consumed hc).2 (h o)
  | false =>
    refine (ensures_acknowledge hc).2 ?_
    rintro (failure | _) _
    · exact gives_error _
    · exact h _

theorem ensures_gives_acknowledging {verdict : Verdict} (createdAt : Instant)
    (same : other.verdict lookups notices event createdAt = verdict) (o : Outside) :
    Ensures lookups.undisturbed (do acknowledge event; return verdict : Attempt Verdict).run
      (fun result _ => Gives lookups notices event other result) o := by
  refine ensures_gives_acknowledge (fun o => ?_) o
  rintro _ ⟨⟩
  exact ⟨createdAt, same.symm⟩

theorem ensures_gives_settled (verdict : Verdict) (o : Outside) :
    Ensures lookups.undisturbed (do acknowledge event; return verdict : Attempt Verdict).run
      (fun result _ => Gives lookups notices event (.settled verdict) result) o :=
  have same : (Decision.settled verdict).verdict lookups notices event ⟨0, 0⟩ = verdict := rfl
  ensures_gives_acknowledging ⟨0, 0⟩ same o

theorem ensures_gives_joining (request : Group.Request) (group : String) (o : Outside) :
    Ensures lookups.undisturbed (do
        acknowledge event
        Attempt.action (ask (.joinAuthorization request))
        return .joined group : Attempt Verdict).run
      (fun result _ => Gives lookups notices event (.joins request group) result) o := by
  refine ensures_gives_acknowledge (fun o => ?_) o
  rw [ensures_run_bind, ensures_run_action, ensures_ask]
  rintro (fault | _) _
  · exact gives_error _
  · rintro _ ⟨⟩
    exact ⟨⟨0, 0⟩, rfl⟩

/-- The generic rule comes to its verdict, whatever was looked up before. -/
theorem ensures_gives_notice (does : o.Does [] o') (route : Route) (group : Option String) :
    Ensures lookups.undisturbed (notice event route group).run
      (fun result _ => Gives lookups o.notices event (.generic route group) result) o' := by
  cases hc : event.consumed with
  | true =>
    rw [notice, if_pos hc]
    rintro _ ⟨⟩
    exact ⟨⟨0, 0⟩, (if_pos hc).symm⟩
  | false =>
    have verdict (createdAt : Instant) :
        (Decision.generic route group).verdict lookups o.notices event createdAt =
          if (o'.notices.find? (·.id == event.id)).isSome then .duplicate
          else .noticed (Notice.ofEvent event route createdAt group
            (lookups.sender event.action.digest).toOption) := by
      rw [Decision.verdict, hc, if_neg Bool.false_ne_true, List.isSome_find?, does.notices_eq]
    rw [notice, if_neg (by simp [hc]), ensures_run_bind, ensures_run_store, ensures_ask]
    rintro _ ⟨found, ⟨_ | stored, rfl⟩, -⟩
    · rw [← show none = o'.notices.find? (·.id == event.id) from found] at verdict
      simp only [Except.mapError, connection, ensures_run_bind, ensures_run_lift,
        ensures_run_store, ensures_bind, ensures_pure]
      rintro createdAt - sender ⟨-, -, rfl⟩ saved -
      rcases saved with fault | _
      · exact gives_error _
      rintro - -
      rw [ensures_done, ← ensures_run_bind]
      exact ensures_gives_acknowledging createdAt (verdict createdAt) _
    · rw [← show some stored = o'.notices.find? (·.id == event.id) from found] at verdict
      exact ensures_gives_acknowledging ⟨0, 0⟩ (verdict _) _

/-- The lookup of a group request hands on what the table goes by. -/
theorem ensures_gives_lookup {decision : Decision}
    {f : Option (Group.Request × String) → Attempt Verdict}
    (h : ∀ o', o.Does [] o' → Ensures lookups.undisturbed (f (lookups.named event)).run
      (fun result _ => Gives lookups o.notices event decision result) o') :
    Ensures lookups.undisturbed (lookup event >>= f).run
      (fun result _ => Gives lookups o.notices event decision result) o := by
  rw [ensures_run_bind]
  exact @ensures_named _ (fun _ => lookups) _ _
    (fun steady => Lookups.falters_of_admits steady.2) _ (fun error _ _ => gives_error error) h

theorem ensures_gives_reply (o : Outside) : Ensures lookups.undisturbed (reply event).run
    (fun result _ => Gives lookups o.notices event (decisionOnReply lookups event) result) o := by
  refine ensures_gives_lookup fun o' does => ?_
  rw [decisionOnReply]
  rcases lookups.named event with _ | ⟨request, group⟩
  · exact ensures_gives_settled .groupGone o'
  dsimp only
  rw [ensures_run_bind, ensures_run_store, ensures_ask]
  rintro _ ⟨-, -, rfl⟩
  have does := does.call (.findIdentifier group) trivial (lookups.identifier group)
  generalize lookups.identifier group = answer at does ⊢
  rcases answer with fault | _ | identifier
  · exact gives_error _
  · exact ensures_gives_settled (.unknownGroup group) _
  dsimp only [Except.mapError]
  cases request.grantedEndpoint? with
  | none => exact ensures_gives_notice does .groupReply (some group)
  | some endpoint =>
    dsimp only
    split
    · exact ensures_gives_settled .duplicate _
    · exact ensures_gives_joining request group _

theorem ensures_gives_inception (o : Outside) : Ensures lookups.undisturbed (inception event).run
    (fun result _ => Gives lookups o.notices event (decisionOnInception lookups o.notices event)
      result) o := by
  refine ensures_gives_lookup fun o' does => ?_
  rw [decisionOnInception]
  rcases lookups.named event with _ | ⟨request, group⟩
  · exact ensures_gives_settled .groupGone o'
  dsimp only
  rw [ensures_run_bind, ensures_run_store, ensures_ask]
  rintro _ ⟨-, -, rfl⟩
  have does := does.call (.findIdentifier group) trivial (lookups.identifier group)
  generalize lookups.identifier group = answer at does ⊢
  rcases answer with fault | known
  · exact gives_error _
  dsimp only [Except.mapError]
  rw [ensures_run_bind, ensures_run_store, ensures_ask]
  rintro answer ⟨found, -, -⟩
  have does' := does.call (.noticesAbout group) trivial answer
  rcases answer with fault | correlated
  · exact gives_error _
  have about : correlated = o.notices.filter (·.correlation == some group) := by
    rw [← does.notices_eq]
    exact found
  have among : (!correlated.isEmpty) = o.notices.any (·.correlation == some group) := by
    rw [about, ← any_correlation_kept, any_correlation_notices]
  dsimp only [Except.mapError]
  rw [among]
  cases known with
  | some identifier => exact ensures_gives_settled .duplicate _
  | none =>
    dsimp only
    rw [Option.isSome_none, Bool.false_or]
    split
    · exact ensures_gives_settled .duplicate _
    · exact ensures_gives_notice does' .groupInception (some group)

/-- The rule for all other recognized routes. -/
theorem ensures_gives_other (route : Route) (o : Outside) :
    Ensures lookups.undisturbed (if event.consumed then pure .alreadyConsumed
      else if route.isGroup then do notice event route (← correlation event)
      else notice event route none : Attempt Verdict).run
      (fun result _ => Gives lookups o.notices event (.generic route
        (if route.isGroup then lookups.group? event.action.digest else none)) result) o := by
  cases hc : event.consumed with
  | true =>
    rw [if_pos rfl]
    rintro _ ⟨⟩
    exact ⟨⟨0, 0⟩, (if_pos hc).symm⟩
  | false =>
    rw [if_neg Bool.false_ne_true]
    split
    · rw [ensures_run_bind, correlation, ensures_run_lift, ensures_ask_bind]
      rintro answer ⟨-, -, rfl⟩
      have does := does_after (.groupRequest event.action.digest) trivial o
        (lookups.request event.action.digest)
      rw [Lookups.group?]
      generalize lookups.request event.action.digest = answer at does ⊢
      rcases answer with failure | request <;> exact ensures_gives_notice does route _
    · exact ensures_gives_notice (.refl o) route none

/-- A routing fails, or comes to the verdict that the decision has. -/
theorem ensures_gives (event : Event) (o : Outside) :
    Ensures lookups.undisturbed (Routing.route event).run
      (fun result _ => Gives lookups o.notices event (decision lookups o.notices event) result)
      o := by
  unfold Routing.route decision
  cases event.route? with
  | none =>
    dsimp only
    split
    · rename_i hc
      rintro _ ⟨⟩
      exact ⟨⟨0, 0⟩, (if_pos hc).symm⟩
    · rename_i hc
      refine ensures_gives_acknowledging ⟨0, 0⟩ ?_ o
      exact if_neg hc
  | some route =>
    cases route with
    | groupReply => exact ensures_gives_reply o
    | groupInception => exact ensures_gives_inception o
    | credentialGrant | credentialApply | credentialAgree | groupRotation | groupExchange =>
      exact ensures_gives_other _ o

end Routing

open Routing in
/-- Where no call fails that can make a routing fail, one row of the table fits the event, which
does not depend on whether the event is consumed. The routing then comes to the verdict of the row
and does for good what the row has for the event. -/
theorem route_follows_table {lookups : Lookups} {event : Event} (serve : lookups.Serve event)
    (o : Outside) : ∃ decision : Decision,
      (∀ other, Row lookups o.notices event.action other ↔ other = decision) ∧
      ∀ consumed, let event' := { event with consumed }
        (∃ result o', Ends lookups.undisturbed (route event').run o result o') ∧
        ∀ result o', Ends lookups.undisturbed (route event').run o result o' →
          (∃ createdAt, result = .ok (decision.verdict lookups o.notices event' createdAt)) ∧
          o'.past = o.past ++ decision.deeds lookups o.notices event' := by
  refine ⟨decision lookups o.notices event, fun other => row_iff serve, fun consumed => ?_⟩
  intro event'
  have serve' : lookups.Serve event' := (Lookups.serve_congr rfl).2 serve
  constructor
  · obtain ⟨verdict, o', ends⟩ := exists_ends_of_serve serve' o
    exact ⟨_, o', ends⟩
  intro result o' ends
  have well := ((ensures_isOk_iff event' o).ends ends).2 serve'
  obtain _ | verdict := result
  · cases well
  obtain ⟨createdAt, rfl⟩ := (ensures_gives event' o).ends ends verdict rfl
  refine ⟨⟨createdAt, rfl⟩, ?_⟩
  rw [(makes_of_undisturbed ends).past_eq, ruling_eq_deeds]
  rfl

/-- A reply that grants a role for a known group is joined, be it consumed or not. -/
theorem route_follows_table_granted : Lookups.granting.Serve (.freshReply "A") ∧
    ∃ request, Lookups.granting.Names "D" request "G" ∧ ∀ consumed, ∃ o',
      Ends Lookups.granting.undisturbed
        (Routing.route { Event.freshReply "A" with consumed }).run {} (.ok (.joined "G")) o' ∧
      o'.past = (if consumed then [] else [.acknowledged "A"]) ++ [.joined request] := by
  have serve : Lookups.granting.Serve (.freshReply "A") :=
    fun _ => ⟨fun _ => (by rintro ⟨⟩), fun _ _ _ => ⟨_, rfl⟩⟩
  obtain ⟨decision, rows, follows⟩ := route_follows_table serve {}
  have names : Lookups.granting.Names "D" _ "G" := ⟨rfl, rfl⟩
  refine ⟨serve, _, names, fun consumed => ?_⟩
  obtain rfl := (rows _).1 (.joins rfl names rfl ⟨_, rfl, rfl, rfl⟩ List.not_mem_nil)
  obtain ⟨⟨result, o', ends⟩, follows⟩ := follows consumed
  obtain ⟨⟨createdAt, rfl⟩, past⟩ := follows result o' ends
  exact ⟨o', ends, past⟩

end Feedkeeper
