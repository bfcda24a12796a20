import Feedkeeper.Proofs.Routing

/-!
# Why an event is acknowledged

Every acknowledgement that routing an event makes is one of that event, which is not consumed, and
has one of the `Routing.Grounds` : a notice of the event was saved by the same routing, or found in
the store, or the event is on no recognized route, or it is a group inception or reply and the
routing is about to end with a verdict that needs no notice. `grounded_route` says so of every point
at which a routing may be left, whatever its calls were answered.
-/

namespace Feedkeeper

open Outside Script

/-- The verdicts with which a group inception or reply needs no notice. -/
inductive Verdict.Excused : Verdict → Prop where
  | groupGone : Excused .groupGone
  | unknownGroup (group : String) : Excused (.unknownGroup group)
  | duplicate : Excused .duplicate
  | joined (group : String) : Excused (.joined group)

namespace Routing

/-- All that is left of the routing is to end with the verdict, or to make a join and end with the
verdict unless the join fails. -/
inductive Leads (verdict : Verdict) : Script (Except RoutingError Verdict) → Prop where
  | ended : Leads verdict (.done (.ok verdict))
  | joining {request : Group.Request}
      {next : Except Fault Unit → Script (Except RoutingError Verdict)}
      (joined : next (.ok ()) = .done (.ok verdict))
      (failed : ∀ fault, next (.error fault) = .done (.error (.action fault))) :
      Leads verdict (.call (.joinAuthorization request) next)

/-- What an acknowledgement of the event rests on, after the calls and with the rest of the routing
to come. -/
inductive Grounds (event : Event) (calls : List Answered)
    (rest : Script (Except RoutingError Verdict)) : Prop where
  | saved (notice : Notice) (tells : notice.Tells event)
      (made : ⟨.saveNotice notice, .ok ()⟩ ∈ calls) : Grounds event calls rest
  | found (notice : Notice) (made : ⟨.findNotice event.id, .ok (some notice)⟩ ∈ calls) :
      Grounds event calls rest
  | unrecognized (none : event.route? = none) : Grounds event calls rest
  | excused {verdict : Verdict}
      (group : event.route? = some .groupInception ∨ event.route? = some .groupReply)
      (leads : Leads verdict rest) (excused : verdict.Excused) : Grounds event calls rest

/-- After the calls made, the script acknowledges nothing but the event, and that on grounds. -/
def Grounded (event : Event) (made : List Answered)
    (script : Script (Except RoutingError Verdict)) : Prop :=
  ∀ calls id rest, Traces script (calls ++ [⟨.acknowledge id, .ok ()⟩]) rest →
    id = event.id ∧ event.consumed = false ∧ Grounds event (made ++ calls) rest

variable {event : Event} {made : List Answered}

theorem grounded_done (result : Except RoutingError Verdict) :
    Grounded event made (done result) := by
  intro calls id rest h
  simp at h

/-- Any other call acknowledges nothing. -/
theorem Grounded.call {c : Call} {next : c.Answer → Script (Except RoutingError Verdict)}
    (other : ∀ id, c ≠ .acknowledge id)
    (h : ∀ answer, Grounded event (made ++ [⟨c, answer⟩]) (next answer)) :
    Grounded event made (call c next) := by
  intro calls id rest traces
  rcases traces_call.1 traces with ⟨hnil, -⟩ | ⟨answer, calls', heq, traces⟩
  · simp at hnil
  cases calls with
  | nil =>
    simp only [List.nil_append, List.cons.injEq, Answered.mk.injEq] at heq
    exact absurd heq.1.1.symm (other id)
  | cons first calls =>
    obtain ⟨rfl, rfl⟩ := List.cons.inj heq
    simpa using h answer calls id rest traces

theorem grounded_acknowledge
    {next : Except TransportFailure Unit → Script (Except RoutingError Verdict)}
    (unconsumed : event.consumed = false) (grounds : Grounds event made (next (.ok ())))
    (h : ∀ answer, Grounded event (made ++ [⟨.acknowledge event.id, answer⟩]) (next answer)) :
    Grounded event made (.call (.acknowledge event.id) next) := by
  intro calls id rest traces
  rcases traces_call.1 traces with ⟨hnil, -⟩ | ⟨answer, calls', heq, traces⟩
  · simp at hnil
  cases calls with
  | nil =>
    rw [List.nil_append] at heq
    cases heq
    rw [traces_nil.1 traces, List.append_nil]
    exact ⟨rfl, unconsumed, grounds⟩
  | cons first calls =>
    obtain ⟨rfl, rfl⟩ := List.cons.inj heq
    simpa using h answer calls id rest traces

/-- An acknowledgement that decides the routing. -/
theorem grounded_verdict {verdict : Verdict}
    (grounds : event.consumed = false → Grounds event made (done (.ok verdict))) :
    Grounded event made (do acknowledge event; return verdict : Attempt Verdict).run := by
  cases hc : event.consumed with
  | true =>
    rw [acknowledge, if_pos hc]
    exact grounded_done _
  | false =>
    rw [acknowledge, if_neg (by simp [hc])]
    refine grounded_acknowledge hc (grounds hc) ?_
    rintro (failure | _) <;> exact grounded_done _

/-- The generic rule acknowledges once a notice is saved, or found. -/
theorem grounded_notice {route : Route} (hroute : event.route? = some route)
    (group : Option String) : Grounded event made (notice event route group).run := by
  cases hc : event.consumed with
  | true =>
    rw [notice, if_pos hc]
    exact grounded_done _
  | false =>
    rw [notice, if_neg (by simp [hc])]
    refine Grounded.call (fun _ => Call.noConfusion) ?_
    rintro (fault | _ | found)
    · exact grounded_done _
    · refine Grounded.call (fun _ => Call.noConfusion) fun createdAt => ?_
      refine Grounded.call (fun _ => Call.noConfusion) fun sender => ?_
      refine Grounded.call (fun _ => Call.noConfusion) ?_
      rintro (fault | _)
      · exact grounded_done _
      refine Grounded.call (fun _ => Call.noConfusion) fun _ => ?_
      exact grounded_verdict fun _ => .saved (.ofEvent event route createdAt group sender.toOption)
        ⟨rfl, hroute, rfl, rfl⟩ (by simp)
    · exact grounded_verdict fun _ => .found found (by simp)

theorem grounded_reply (hroute : event.route? = some .groupReply) :
    Grounded event made (reply event).run := by
  refine Grounded.call (fun _ => Call.noConfusion) ?_
  have excused {verdict : Verdict} (h : verdict.Excused) (made : List Answered) :
      Grounded event made (do acknowledge event; return verdict : Attempt Verdict).run :=
    grounded_verdict fun _ => .excused (Or.inr hroute) .ended h
  rintro ((digest | failure) | ⟨_ | group, reply?, exchange⟩)
  · exact excused .groupGone _
  · exact grounded_done _
  · exact excused .groupGone _
  refine Grounded.call (fun _ => Call.noConfusion) ?_
  rintro (fault | _ | identifier)
  · exact grounded_done _
  · exact excused (.unknownGroup group) _
  cases Group.Request.grantedEndpoint? ⟨some group, reply?, exchange⟩ with
  | none => exact grounded_notice hroute _
  | some endpoint =>
    change Grounded event _ (if identifier.authorizes endpoint then do
        acknowledge event
        return .duplicate
      else do
        acknowledge event
        Attempt.action (ask (.joinAuthorization ⟨some group, reply?, exchange⟩))
        return .joined group : Attempt Verdict).run
    split
    · exact excused .duplicate _
    cases hc : event.consumed with
    | true =>
      rw [acknowledge, if_pos hc]
      refine Grounded.call (fun _ => Call.noConfusion) ?_
      rintro (fault | _) <;> exact grounded_done _
    | false =>
      rw [acknowledge, if_neg (by simp [hc])]
      refine grounded_acknowledge hc
        (.excused (Or.inr hroute) (.joining rfl fun _ => rfl) (.joined group)) ?_
      rintro (failure | _)
      · exact grounded_done _
      refine Grounded.call (fun _ => Call.noConfusion) ?_
      rintro (fault | _) <;> exact grounded_done _

theorem grounded_inception (hroute : event.route? = some .groupInception) :
    Grounded event made (inception event).run := by
  have excused {verdict : Verdict} (h : verdict.Excused) (made : List Answered) :
      Grounded event made (do acknowledge event; return verdict : Attempt Verdict).run :=
    grounded_verdict fun _ => .excused (Or.inl hroute) .ended h
  refine Grounded.call (fun _ => Call.noConfusion) ?_
  rintro ((digest | failure) | ⟨_ | group, reply?, exchange⟩)
  · exact excused .groupGone _
  · exact grounded_done _
  · exact excused .groupGone _
  refine Grounded.call (fun _ => Call.noConfusion) ?_
  rintro (fault | known)
  · exact grounded_done _
  refine Grounded.call (fun _ => Call.noConfusion) ?_
  rintro (fault | correlated)
  · exact grounded_done _
  change Grounded event _ (if known.isSome || !correlated.isEmpty then do
      acknowledge event
      return .duplicate
    else notice event .groupInception (some group) : Attempt Verdict).run
  split
  · exact excused .duplicate _
  · exact grounded_notice hroute _

/-- However the calls turn out, an event is acknowledged on grounds only. -/
theorem grounded_route (event : Event) (made : List Answered) :
    Grounded event made (route event).run := by
  unfold route
  split
  · rename_i hroute
    split
    · exact grounded_done _
    · exact grounded_verdict fun _ => .unrecognized hroute
  · rename_i hroute
    exact grounded_reply hroute
  · rename_i hroute
    exact grounded_inception hroute
  · rename_i hroute
    split
    · exact grounded_done _
    split
    · refine Grounded.call (fun _ => Call.noConfusion) ?_
      rintro (failure | request) <;> exact grounded_notice hroute _
    · exact grounded_notice hroute none

end Routing

end Feedkeeper
