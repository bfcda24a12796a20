import Feedkeeper.Proofs.Execution
import Feedkeeper.Routing

/-!
# The effects of a routing

A routing looks things up, which changes nothing, and has at most four effects : it saves a notice,
announces it, acknowledges the event and joins an authorization. `Routing.Effects` lists the ways in
which a routing can go, each with its result and the effects it tried to have, those that failed
included. `Routing.records_route` : however the calls are answered, there are no others. So a
routing joins at most once, and if it does it comes out well (`Routing.Effects.joins`).
-/

namespace Feedkeeper

open Script

namespace Answered

/-- Whether the call does more than look something up. -/
def isEffect : Answered → Bool
  | ⟨.groupRequest _, _⟩ | ⟨.sender _, _⟩ | ⟨.findNotice _, _⟩ | ⟨.noticesAbout _, _⟩
  | ⟨.findIdentifier _, _⟩ | ⟨.now, _⟩ => false
  | _ => true

/-- The request whose authorization the call joined, if it did. -/
def joined? : Answered → Option Group.Request
  | ⟨.joinAuthorization request, .ok ()⟩ => some request
  | _ => none

/-- A join is an effect. -/
theorem joined?_eq_none {answered : Answered} (h : answered.isEffect = false) :
    answered.joined? = none := by
  unfold joined?
  split
  · cases h
  · rfl

/-- The joins among calls are the joins among their effects. -/
theorem filterMap_joined_filter (calls : List Answered) :
    (calls.filter isEffect).filterMap joined? = calls.filterMap joined? := by
  rw [List.filterMap_filter]
  refine List.filterMap_congr fun answered _ => ?_
  cases h : answered.isEffect with
  | false => exact (joined?_eq_none h).symm
  | true => rfl

end Answered

/-- What a lookup at the agent or in a local store fails with. -/
def RoutingError.FromLookup : RoutingError → Prop
  | .transport _ | .store _ => True
  | _ => False

namespace Routing

/-- The ways in which routing an event can go : the result, and the effects that were tried, in
order. -/
inductive Effects (event : Event) : Except RoutingError Verdict → List Answered → Prop where
  /-- A lookup failed before any effect. -/
  | failed {error : RoutingError} (fromLookup : error.FromLookup) :
      Effects event (.error error) []
  | spared {verdict : Verdict} (consumed : event.consumed = true) :
      Effects event (.ok verdict) []
  | acknowledged {verdict : Verdict} (unconsumed : event.consumed = false) :
      Effects event (.ok verdict) [⟨.acknowledge event.id, .ok ()⟩]
  | unacknowledged {failure : TransportFailure} (unconsumed : event.consumed = false) :
      Effects event (.error (.transport failure)) [⟨.acknowledge event.id, .error failure⟩]
  | joined {verdict : Verdict} {request : Group.Request} (unconsumed : event.consumed = false) :
      Effects event (.ok verdict)
        [⟨.acknowledge event.id, .ok ()⟩, ⟨.joinAuthorization request, .ok ()⟩]
  | unjoined {request : Group.Request} {fault : Fault} (unconsumed : event.consumed = false) :
      Effects event (.error (.action fault))
        [⟨.acknowledge event.id, .ok ()⟩, ⟨.joinAuthorization request, .error fault⟩]
  /-- The event was acknowledged by an earlier routing. -/
  | joinedLater {verdict : Verdict} {request : Group.Request} (consumed : event.consumed = true) :
      Effects event (.ok verdict) [⟨.joinAuthorization request, .ok ()⟩]
  | unjoinedLater {request : Group.Request} {fault : Fault} (consumed : event.consumed = true) :
      Effects event (.error (.action fault)) [⟨.joinAuthorization request, .error fault⟩]
  | unsaved {notice : Notice} {fault : Fault} (unconsumed : event.consumed = false) :
      Effects event (.error (.store fault)) [⟨.saveNotice notice, .error fault⟩]
  | noticed {notice : Notice} (unconsumed : event.consumed = false) :
      Effects event (.ok (.noticed notice)) [⟨.saveNotice notice, .ok ()⟩,
        ⟨.announceNotice notice, ()⟩, ⟨.acknowledge event.id, .ok ()⟩]
  /-- The notice is saved, and the acknowledgement failed. -/
  | unfinished {notice : Notice} {failure : TransportFailure}
      (unconsumed : event.consumed = false) :
      Effects event (.error (.transport failure)) [⟨.saveNotice notice, .ok ()⟩,
        ⟨.announceNotice notice, ()⟩, ⟨.acknowledge event.id, .error failure⟩]

variable {event : Event} {result : Except RoutingError Verdict} {effects : List Answered}

/-- A routing joins at most once, and comes out well if it does. -/
theorem Effects.joins (h : Effects event result effects) :
    effects.filterMap Answered.joined? = [] ∨
      result.isOk = true ∧ ∃ request, effects.filterMap Answered.joined? = [request] := by
  cases h with
  | joined | joinedLater => exact Or.inr ⟨rfl, _, rfl⟩
  | _ => exact Or.inl rfl

/-- What is recorded of a routing : its effects are among those listed. -/
def Shows (event : Event) (result : Except RoutingError Verdict) (calls : List Answered) : Prop :=
  Effects event result (calls.filter Answered.isEffect)

/-! ## The rules -/

/-- An acknowledgement that decides the routing. -/
theorem records_acknowledge (event : Event) (verdict : Verdict) :
    Records (do acknowledge event; return verdict : Attempt Verdict).run (Shows event) := by
  cases hc : event.consumed with
  | true =>
    rw [acknowledge, if_pos hc]
    exact records_done.2 (.spared hc)
  | false =>
    rw [acknowledge, if_neg (by simp [hc])]
    refine records_call.2 ?_
    rintro (failure | _)
    · exact records_done.2 (.unacknowledged hc)
    · exact records_done.2 (.acknowledged hc)

/-- The generic rule. -/
theorem records_notice (event : Event) (route : Route) (group : Option String) :
    Records (notice event route group).run (Shows event) := by
  cases hc : event.consumed with
  | true =>
    rw [notice, if_pos hc]
    exact records_done.2 (.spared hc)
  | false =>
    rw [notice, if_neg (by simp [hc])]
    refine records_call.2 ?_
    rintro (fault | _ | found)
    · exact records_done.2 (.failed trivial)
    · refine records_call.2 fun createdAt => records_call.2 fun sender => records_call.2 ?_
      rintro (fault | _)
      · exact records_done.2 (.unsaved hc)
      · refine records_call.2 fun _ => ?_
        dsimp only [Except.mapError]
        rw [acknowledge, if_neg (by simp [hc])]
        refine records_call.2 ?_
        rintro (failure | _)
        · exact records_done.2 (.unfinished hc)
        · exact records_done.2 (.noticed hc)
    · exact records_acknowledge event .duplicate

/-- A lookup has no effect. -/
theorem records_lookup (event : Event) : Records (lookup event).run fun result calls =>
    calls.filter Answered.isEffect = [] ∧ ∀ error, result = .error error →
      error.FromLookup := by
  refine records_call.2 ?_
  rintro ((digest | failure) | request)
  · exact records_done.2 ⟨rfl, nofun⟩
  · refine records_done.2 ⟨rfl, ?_⟩
    rintro _ ⟨⟩
    trivial
  · exact records_done.2 ⟨rfl, nofun⟩

/-- Calls without an effect show nothing. -/
theorem shows_append {first second : List Answered}
    (quiet : first.filter Answered.isEffect = []) :
    Shows event result (first ++ second) ↔ Shows event result second := by
  rw [Shows, Shows, List.filter_append, quiet, List.nil_append]

/-- The rules for groups begin with a lookup, and go on as the generic rule or with what follows
the lookup. -/
theorem records_group {f : Option (Group.Request × String) → Attempt Verdict}
    (h : ∀ found, Records (f found).run (Shows event)) :
    Records (lookup event >>= f).run (Shows event) := by
  refine records_run_bind.2 ((records_lookup event).mono ?_)
  rintro (error | found) calls ⟨quiet, fromLookup⟩
  · change Effects event _ (calls.filter _)
    rw [quiet]
    exact .failed (fromLookup error rfl)
  · exact (h found).mono fun _ _ shows => (shows_append quiet).2 shows

theorem records_reply (event : Event) : Records (reply event).run (Shows event) := by
  refine records_group ?_
  rintro (_ | ⟨request, group⟩)
  · exact records_acknowledge event .groupGone
  rw [records_run_bind, records_run_store, records_ask]
  rintro (fault | _ | identifier)
  · exact .failed trivial
  · exact records_acknowledge event (.unknownGroup group)
  dsimp only [Except.mapError]
  cases request.grantedEndpoint? with
  | none => exact records_notice event .groupReply (some group)
  | some endpoint =>
    dsimp only
    split
    · exact records_acknowledge event .duplicate
    cases hc : event.consumed with
    | true =>
      rw [acknowledge, if_pos hc]
      refine records_call.2 ?_
      rintro (fault | _)
      · exact records_done.2 (.unjoinedLater hc)
      · exact records_done.2 (.joinedLater hc)
    | false =>
      rw [acknowledge, if_neg (by simp [hc])]
      refine records_call.2 ?_
      rintro (failure | _)
      · exact records_done.2 (.unacknowledged hc)
      refine records_call.2 ?_
      rintro (fault | _)
      · exact records_done.2 (.unjoined hc)
      · exact records_done.2 (.joined hc)

theorem records_inception (event : Event) : Records (inception event).run (Shows event) := by
  refine records_group ?_
  rintro (_ | ⟨request, group⟩)
  · exact records_acknowledge event .groupGone
  rw [records_run_bind, records_run_store, records_ask]
  rintro (fault | known)
  · exact .failed trivial
  dsimp only [Except.mapError]
  rw [records_run_bind, records_run_store, records_ask]
  rintro (fault | correlated)
  · exact .failed trivial
  dsimp only [Except.mapError]
  split
  · exact records_acknowledge event .duplicate
  · exact records_notice event .groupInception (some group)

/-- However its calls are answered, a routing has the effects listed. -/
theorem records_route (event : Event) : Records (route event).run (Shows event) := by
  unfold route
  split
  · split
    · rename_i hc
      exact records_done.2 (.spared hc)
    · exact records_acknowledge event .ignored
  · exact records_reply event
  · exact records_inception event
  · split
    · rename_i hc
      exact records_done.2 (.spared hc)
    split
    · refine records_call.2 ?_
      rintro (failure | request) <;> exact records_notice event _ _
    · exact records_notice event _ none

end Routing

end Feedkeeper
