import Feedkeeper.Proofs.Effects
import Feedkeeper.Proofs.Step

/-!
# The calls of a step

`Sync.Rounds` lists the ways in which a step of the feed loop can go by the calls that it makes,
whatever these are answered : nothing is assumed of the feed, nor that ids are distinct. A step that
fetches its window and finds the anchor passes over the unseen events (`Sync.Walks`). Those that are
settled are left out, and each other one is routed once, in order (`Sync.Handling`).
`Sync.records_step` : there are no other ways.

The walk hands every event that routed cleanly over to the cursor or to the settled ones. It stands
before the first event that is held, which the cursor moves past, or it is settled from then on
(`Sync.Walks.handed_over`).
-/

namespace Feedkeeper

open Script

namespace Answered

/-- A call with which a step waits or finds out that it cannot go on. -/
def IsWaiting : Answered → Prop
  | ⟨.isLoggedIn, _⟩ | ⟨.isOnline, _⟩ | ⟨.fetch .., .error _⟩ | ⟨.reconnect, _⟩ => True
  | _ => False

/-- A call of the feed loop itself, and not of the routing of an event or its report. -/
def IsOwn : Answered → Prop
  | ⟨.isLoggedIn, _⟩ | ⟨.isOnline, _⟩ | ⟨.fetch .., _⟩ | ⟨.reconnect, _⟩ | ⟨.storeCursor .., _⟩ =>
    True
  | _ => False

theorem IsWaiting.isOwn {answered : Answered} (h : answered.IsWaiting) : answered.IsOwn := by
  unfold IsWaiting at h
  split at h <;> trivial

end Answered

/-- A cursor that was advanced is as far on as it was to be, which is a position. -/
theorem Cursor.eq_of_advance? {cursor next : Cursor} {count : Nat} {last : String}
    (advanced : cursor.advance? count last = some next) :
    next = ⟨cursor.nextIndex + count, last⟩ ∧ cursor.nextIndex + count < Position.bound := by
  obtain ⟨index, added, rfl⟩ := Option.map_eq_some_iff.1 advanced
  obtain ⟨rfl, fits⟩ := Position.add?_eq_some_iff.1 added
  exact ⟨rfl, fits⟩

namespace Sync

/-- How an event was handled : what its routing came to, and the calls made for it. -/
structure Handling where
  event : Event
  result : Except RoutingError Verdict
  calls : List Answered
  traces : Traces (Routing.route event).run calls (.done result)

namespace Handling

/-- The calls for the event, and then the report. -/
def trail (handling : Handling) : List Answered :=
  handling.calls ++ [⟨.reportRouting handling.event.id handling.result, ()⟩]

/-- The requests whose authorization was joined for the event. -/
def joins (handling : Handling) : List Group.Request :=
  handling.calls.filterMap Answered.joined?

/-- The effects are those of a routing. -/
theorem shows (handling : Handling) :
    Routing.Shows handling.event handling.result handling.calls :=
  Routing.records_route handling.event _ _ handling.traces

/-- For an event at most one authorization is joined, and the event routes cleanly then. -/
theorem joins_eq (handling : Handling) : handling.joins = [] ∨
    handling.result.isOk = true ∧ ∃ request, handling.joins = [request] := by
  have joins := handling.shows.joins
  rw [Answered.filterMap_joined_filter] at joins
  exact joins

end Handling

/-- A walk over events, `index` events having gone before them : settled events are left out, and
the others are handled in order. -/
inductive Walks : List Event → Nat → Pass → List Handling → Pass → Prop where
  | ended {index : Nat} {pass : Pass} : Walks [] index pass [] pass
  | settled {event : Event} {rest : List Event} {index : Nat} {pass pass' : Pass}
      {handled : List Handling} (settled : event.id ∈ pass.settled)
      (walks : Walks rest (index + 1) pass handled pass') :
      Walks (event :: rest) index pass handled pass'
  | routed {rest : List Event} {index : Nat} {pass pass' : Pass} {handled : List Handling}
      (handling : Handling) (unsettled : handling.event.id ∉ pass.settled)
      (walks : Walks rest (index + 1) (pass.record index handling.event.id handling.result) handled
        pass') :
      Walks (handling.event :: rest) index pass (handling :: handled) pass'

/-- The state after a step, which is as it was if the step crashed. -/
def State.next (state : State) (result : Except Crash (Outcome × State)) : State :=
  (result.toOption.map (·.2)).getD state

/-- The events of a window behind the anchor. -/
def State.unseen (state : State) (window : List Event) : List Event :=
  if state.cursor.isStart then window else window.drop 1

/-- The calls of a step up to the window that it gets. -/
def fetching (settings : Settings) (state : State) (window : List Event) : List Answered :=
  [⟨.isLoggedIn, true⟩, ⟨.isOnline, true⟩,
    ⟨.fetch state.cursor.windowStart (state.cursor.windowStart + settings.windowSize), .ok window⟩]

theorem fetch_mem_fetching (settings : Settings) (state : State) (window : List Event) :
    ⟨.fetch state.cursor.windowStart (state.cursor.windowStart + settings.windowSize), .ok window⟩ ∈
      fetching settings state window :=
  List.mem_cons_of_mem _ (List.mem_cons_of_mem _ List.mem_cons_self)

/-- The ways in which a step can go, by its calls. -/
inductive Rounds (settings : Settings) (state : State) :
    Except Crash (Outcome × State) → List Answered → Prop where
  | stopped {outcome : Outcome} {calls : List Answered} (stops : outcome ∈ Outcome.stops)
      (waiting : ∀ answered ∈ calls, answered.IsWaiting) :
      Rounds settings state (.ok (outcome, state)) calls
  | crashed (overflow : Position.bound ≤ state.cursor.windowStart + settings.windowSize) :
      Rounds settings state (.error .addOverflow) [⟨.isLoggedIn, true⟩, ⟨.isOnline, true⟩]
  /-- The window is longer than what was asked for. -/
  | overrun {window processed : List Event} {handled : List Handling} {pass : Pass}
      (long : settings.windowSize < window.length)
      (walks : Walks (state.unseen window) 0 { settled := state.settled } handled pass)
      (taken : processed =
        (state.unseen window).take (pass.held.getD (state.unseen window).length))
      (some : processed ≠ [])
      (overflow : Position.bound ≤ state.cursor.nextIndex + processed.length) :
      Rounds settings state (.error .addOverflow)
        (fetching settings state window ++ handled.flatMap Handling.trail)
  | reset {window : List Event} {answer : Except Fault Unit}
      (unmatched : state.cursor.matchesAnchor (window.head?.map (·.id)) = false) :
      Rounds settings state (.ok (.cursorReset, .at .start)) (fetching settings state window ++
        [⟨.storeCursor settings.cursorKey .start, answer⟩])
  | idle {window : List Event}
      (matched : state.cursor.matchesAnchor (window.head?.map (·.id)) = true)
      (nothing : state.unseen window = []) :
      Rounds settings state (.ok (.idle, state)) (fetching settings state window)
  | held {window rest : List Event} {first : Event} {handled : List Handling} {pass : Pass}
      (matched : state.cursor.matchesAnchor (window.head?.map (·.id)) = true)
      (unseen : state.unseen window = first :: rest)
      (walks : Walks (state.unseen window) 0 { settled := state.settled } handled pass)
      (held : pass.held = some 0) :
      Rounds settings state
        (.ok (.held first.id pass.failed, { state with settled := pass.settled }))
        (fetching settings state window ++ handled.flatMap Handling.trail)
  | advanced {window processed : List Event} {last : Event} {handled : List Handling} {pass : Pass}
      {answer : Except Fault Unit}
      (matched : state.cursor.matchesAnchor (window.head?.map (·.id)) = true)
      (walks : Walks (state.unseen window) 0 { settled := state.settled } handled pass)
      (taken : processed =
        (state.unseen window).take (pass.held.getD (state.unseen window).length))
      (ended : processed.getLast? = some last)
      (fits : state.cursor.nextIndex + processed.length < Position.bound) :
      Rounds settings state
        (.ok (.advanced processed.length pass.failed,
          { cursor := ⟨state.cursor.nextIndex + processed.length, last.id⟩,
            settled := pass.settled.filter fun id => !processed.any (·.id == id) }))
        (fetching settings state window ++ (handled.flatMap Handling.trail ++
          [⟨.storeCursor settings.cursorKey
            ⟨state.cursor.nextIndex + processed.length, last.id⟩, answer⟩]))

variable {settings : Settings} {state : State} {events window : List Event} {index : Nat}
  {pass pass' : Pass} {handled : List Handling}

/-! ## Walks -/

theorem records_routeAll (events : List Event) (index : Nat) (pass : Pass) :
    Records (routeAll events index pass) fun pass' calls =>
      ∃ handled, Walks events index pass handled pass' ∧
        calls = handled.flatMap Handling.trail := by
  induction events generalizing index pass with
  | nil => exact records_done.2 ⟨[], .ended, rfl⟩
  | cons event rest ih =>
    rw [routeAll]
    split
    · rename_i hs
      refine (ih (index + 1) pass).mono ?_
      rintro pass' calls ⟨handled, walks, rfl⟩
      exact ⟨handled, .settled (by simpa using hs) walks, rfl⟩
    · rename_i hs
      refine records_bind.2 fun result calls traces => records_bind.2 (records_ask.2 fun _ => ?_)
      refine (ih (index + 1) (pass.record index event.id result)).mono ?_
      rintro pass' calls' ⟨handled, walks, rfl⟩
      refine ⟨⟨event, result, calls, traces⟩ :: handled, ?_, ?_⟩
      · exact .routed ⟨event, result, calls, traces⟩ (by simpa using hs) walks
      · simp [Handling.trail]

/-- The events handled are among those walked over, in the same order. -/
theorem Walks.sublist (walks : Walks events index pass handled pass') :
    (handled.map (·.event)).Sublist events := by
  induction walks with
  | ended => exact .refl _
  | settled _ _ ih => exact ih.cons _
  | routed handling _ _ ih => exact ih.cons_cons _

/-- What is settled stays settled. -/
theorem Pass.settled_subset_record (pass : Pass) (index : Nat) (id : String)
    (result : Except RoutingError Verdict) :
    pass.settled ⊆ (pass.record index id result).settled := by
  cases result with
  | ok verdict =>
    rw [Pass.record]
    split
    · exact List.subset_append_left _ _
    · exact List.Subset.refl _
  | error error => exact List.Subset.refl _

theorem Walks.settled_subset (walks : Walks events index pass handled pass') :
    pass.settled ⊆ pass'.settled := by
  induction walks with
  | ended => exact List.Subset.refl _
  | settled _ _ ih => exact ih
  | routed handling _ _ ih => exact List.Subset.trans (Pass.settled_subset_record _ _ _ _) ih

/-- No event is handled that was settled before. -/
theorem Walks.unsettled (walks : Walks events index pass handled pass') :
    ∀ handling ∈ handled, handling.event.id ∉ pass.settled := by
  induction walks with
  | ended => exact fun _ h => by cases h
  | settled _ _ ih => exact ih
  | routed handling unsettled _ ih =>
    refine List.forall_mem_cons.2 ⟨unsettled, fun other ho hs => ?_⟩
    exact ih other ho (Pass.settled_subset_record _ _ _ _ hs)

/-- Once an event is held, the first one to be held does not change. -/
theorem Pass.held_record {k : Nat} (held : pass.held = some k) (index : Nat) (id : String)
    (result : Except RoutingError Verdict) : (pass.record index id result).held = some k := by
  cases result with
  | ok verdict =>
    rw [Pass.record]
    split <;> exact held
  | error error => simp [Pass.record, held]

/-- An event that routes cleanly behind a held one is settled. -/
theorem Pass.mem_settled_record {k : Nat} (held : pass.held = some k) (index : Nat) (id : String)
    {result : Except RoutingError Verdict} (clean : result.isOk = true) :
    id ∈ (pass.record index id result).settled := by
  cases result with
  | ok verdict =>
    rw [Pass.record]
    split
    · exact List.mem_append_right _ (List.mem_singleton.2 rfl)
    · rename_i h
      simpa [held] using h
  | error error => cases clean

theorem Walks.held_eq (walks : Walks events index pass handled pass') {k : Nat}
    (held : pass.held = some k) : pass'.held = some k := by
  induction walks with
  | ended => exact held
  | settled _ _ ih => exact ih held
  | routed handling _ _ ih => exact ih (Pass.held_record held _ _ _)

/-- Behind a held event, all that routes cleanly is settled. -/
theorem Walks.settles (walks : Walks events index pass handled pass') {k : Nat}
    (held : pass.held = some k) : ∀ handling ∈ handled, handling.result.isOk = true →
      handling.event.id ∈ pass'.settled := by
  induction walks with
  | ended => exact fun _ h => by cases h
  | settled _ _ ih => exact ih held
  | routed handling _ walks ih =>
    refine List.forall_mem_cons.2 ⟨fun clean => ?_, ih (Pass.held_record held _ _ _)⟩
    exact walks.settled_subset (Pass.mem_settled_record held _ _ clean)

/-- The events walked over are those before the first one that is held, and the rest. What routed
cleanly is among the former, or is settled. -/
theorem Walks.handed_over (walks : Walks events index pass handled pass')
    (unheld : pass.held = none) : ∃ processed rest, events = processed ++ rest ∧
      pass'.held.getD (index + events.length) = index + processed.length ∧
      ∀ handling ∈ handled, handling.result.isOk = true →
        handling.event ∈ processed ∨ handling.event.id ∈ pass'.settled := by
  induction walks with
  | ended => exact ⟨[], [], rfl, by simp [unheld], fun _ h => by cases h⟩
  | @settled event rest index pass pass' handled _ _ ih =>
    obtain ⟨processed, behind, rfl, length, handed⟩ := ih unheld
    refine ⟨event :: processed, behind, rfl, ?_, fun handling hh clean => ?_⟩
    · simpa only [List.length_cons, Nat.add_assoc, Nat.add_comm 1] using length
    · exact (handed handling hh clean).imp_left (List.mem_cons_of_mem _)
  | @routed rest index pass pass' handled handling _ walks ih =>
    cases hh : (pass.record index handling.event.id handling.result).held with
    | none =>
      obtain ⟨processed, behind, rfl, length, handed⟩ := ih hh
      refine ⟨handling.event :: processed, behind, rfl, ?_, ?_⟩
      · simpa only [List.length_cons, Nat.add_assoc, Nat.add_comm 1] using length
      · refine List.forall_mem_cons.2 ⟨fun _ => Or.inl List.mem_cons_self, fun other ho clean => ?_⟩
        exact (handed other ho clean).imp_left (List.mem_cons_of_mem _)
    | some k =>
      -- The event is the first one that is held, so it did not route cleanly.
      obtain ⟨error, failed, rfl⟩ : ∃ error, handling.result = .error error ∧ k = index := by
        cases hr : handling.result with
        | ok verdict =>
          rw [hr, Pass.record_ok unheld, unheld] at hh
          cases hh
        | error error =>
          rw [hr] at hh
          simp only [Pass.record, unheld] at hh
          split at hh
          · exact ⟨error, rfl, (Option.some.inj hh).symm⟩
          · cases hh
      refine ⟨[], handling.event :: rest, rfl, by simp [walks.held_eq hh], ?_⟩
      refine List.forall_mem_cons.2 ⟨fun clean => ?_, fun other ho clean =>
        Or.inr (walks.settles hh other ho clean)⟩
      rw [failed] at clean
      cases clean

/-! ## Steps -/

/-- The unseen events of a window stand behind the cursor. -/
theorem prefix_unseen {feed : List Event}
    (hw : window = (feed.drop state.cursor.windowStart).take settings.windowSize)
    (matched : state.cursor.matchesAnchor (window.head?.map (·.id)) = true) :
    state.unseen window <+: feed.drop state.cursor.nextIndex := by
  rw [State.unseen, (anchored_of_matches hw matched).2]
  exact List.take_prefix _ _

theorem mem_of_mem_unseen {event : Event} (h : event ∈ state.unseen window) : event ∈ window := by
  unfold State.unseen at h
  split at h
  · exact h
  · exact List.mem_of_mem_drop h

theorem length_unseen_le {size : Nat} (short : window.length ≤ size) :
    (state.unseen window).length ≤ if state.cursor.isStart then size else size - 1 := by
  unfold State.unseen
  split
  · exact short
  · rw [List.length_drop]
    omega

/-- The cursor overflows only behind a window that is longer than what was asked for. -/
theorem lt_length_of_overflow {processed : List Event} {last : String}
    (fits : state.cursor.windowStart + settings.windowSize < Position.bound)
    (some : processed.length ≤ (state.unseen window).length) (ne : processed ≠ [])
    (overflow : state.cursor.advance? processed.length last = none) :
    settings.windowSize < window.length := by
  by_contra short
  have advanced := advance?_eq last fits some ne (length_unseen_le (Nat.not_lt.1 short))
  rw [overflow] at advanced
  cases advanced

/-- A step that has found the window to line up with the cursor. -/
theorem records_consume (fits : state.cursor.windowStart + settings.windowSize < Position.bound)
    (matched : state.cursor.matchesAnchor (window.head?.map (·.id)) = true) :
    Records (consume settings state (state.unseen window)) fun result calls =>
      Rounds settings state result (fetching settings state window ++ calls) := by
  refine records_bind.2 ((records_routeAll _ 0 _).mono ?_)
  rintro pass calls ⟨handled, walks, rfl⟩
  cases hunseen : state.unseen window with
  | nil =>
    rw [hunseen] at walks
    cases walks
    refine records_done.2 ?_
    rw [List.flatMap_nil, List.append_nil, List.append_nil]
    exact .idle matched hunseen
  | cons first rest =>
    dsimp only
    split
    · rename_i hnone
      have held : pass.held = some 0 := by
        rw [List.getLast?_eq_none_iff, List.take_eq_nil_iff] at hnone
        cases hh : pass.held with
        | none => simp [hh] at hnone
        | some k => simpa [hh] using hnone
      have kept : pass.settled.filter (fun id => !([] : List Event).any (·.id == id)) =
        pass.settled := List.filter_eq_self.2 fun _ _ => rfl
      rw [held, Option.getD_some, List.take_zero, kept]
      refine records_done.2 ?_
      rw [List.append_nil]
      exact .held matched hunseen walks held
    · rename_i last ended
      rw [← hunseen] at ended ⊢
      split
      · rename_i overflow
        have some := List.getLast?_isSome.1 (Option.isSome_iff_exists.2 ⟨last, ended⟩)
        refine records_done.2 ?_
        rw [List.append_nil]
        exact .overrun (lt_length_of_overflow fits (List.length_take_le' _ _) some overflow) walks
          rfl some (Position.add?_eq_none_iff.1 (Option.map_eq_none_iff.1 overflow))
      · rename_i cursor advanced
        obtain ⟨rfl, fits⟩ := Cursor.eq_of_advance? advanced
        exact records_bind.2 (records_bind.2 (records_ask.2 fun answer => records_done.2
          (records_done.2 (.advanced matched walks rfl ended fits))))

/-- A step that has got a window. -/
theorem records_receive (fits : state.cursor.windowStart + settings.windowSize < Position.bound)
    (window : List Event) : Records (receive settings state window) fun result calls =>
      Rounds settings state result (fetching settings state window ++ calls) := by
  rw [receive]
  split
  · rename_i matched
    exact records_consume fits matched
  · rename_i unmatched
    exact records_bind.2 (records_bind.2 (records_ask.2 fun answer => records_done.2
      (records_done.2 (.reset (Bool.not_eq_true _ ▸ unmatched)))))

/-- A step that could not get the window. -/
theorem records_recover (state : State) : Records (recover state) fun result calls =>
    (∃ outcome ∈ Outcome.stops, result = .ok (outcome, state)) ∧
      ∀ answered ∈ calls, answered.IsWaiting := by
  refine records_call.2 ?_
  rintro (_ | _)
  · exact records_done.2 ⟨⟨.fetchFailed, by decide, rfl⟩, by simp [Answered.IsWaiting]⟩
  · refine records_call.2 ?_
    rintro (_ | _)
    · exact records_done.2 ⟨⟨.cancelled, by decide, rfl⟩, by simp [Answered.IsWaiting]⟩
    · exact records_done.2 ⟨⟨.fetchFailed, by decide, rfl⟩, by simp [Answered.IsWaiting]⟩

/-- However its calls are answered, a step goes one of the ways listed. -/
theorem records_step (settings : Settings) (state : State) :
    Records (step settings state) (Rounds settings state) := by
  refine records_bind.2 (records_ask.2 ?_)
  rintro (_ | _)
  · exact records_done.2 (.stopped (by decide) (by simp [Answered.IsWaiting]))
  rw [if_pos rfl]
  refine records_bind.2 (records_ask.2 ?_)
  rintro (_ | _)
  · exact records_done.2 (.stopped (by decide) (by simp [Answered.IsWaiting]))
  rw [if_pos rfl]
  dsimp only
  cases hlimit : Position.add? state.cursor.windowStart settings.windowSize with
  | none => exact records_done.2 (.crashed (Position.add?_eq_none_iff.1 hlimit))
  | some limit =>
    obtain ⟨rfl, fits⟩ := Position.add?_eq_some_iff.1 hlimit
    refine records_call.2 ?_
    rintro (failure | window)
    · refine (records_recover state).mono ?_
      rintro _ calls ⟨⟨outcome, stops, rfl⟩, waiting⟩
      refine .stopped stops ?_
      simpa [Answered.IsWaiting] using waiting
    · exact records_receive fits window

end Sync

end Feedkeeper
