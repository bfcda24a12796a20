import Feedkeeper.Proofs.Batch

/-!
# What a step makes of its window

A step that finds its window to line up with the cursor routes the unseen events that are not
settled, once each and in order, whichever of them fail. How far the cursor moves, what is settled
then and what the outcome is can be told from how these routings came out (`Sync.Batch`). The cursor
moves up to the first event whose routing may come out well later (`Sync.reach`), and what routed
cleanly behind that event is settled. `batch_law` : so goes every step whose window has distinct
ids.
-/

namespace Feedkeeper

open Script

/-- A call of the feed loop itself does more than look something up. -/
theorem Answered.IsOwn.isEffect {answered : Answered} (own : answered.IsOwn) :
    answered.isEffect = true := by
  unfold Answered.IsOwn at own
  split at own
  all_goals first | rfl | exact own.elim

/-- No effect of a routing is a call of the feed loop itself. -/
theorem Routing.Effects.not_isOwn {event : Event} {outcome : Except RoutingError Verdict}
    {effects : List Answered} (h : Routing.Effects event outcome effects) :
    ∀ answered ∈ effects, ¬answered.IsOwn := by
  cases h <;> simp [Answered.IsOwn]

namespace Sync

/-- The routing failed, and may come out well later. -/
def Handling.holds (handling : Handling) : Bool :=
  match handling.result with
  | .ok _ => false
  | .error error => error.isTransient

/-- How many routings failed. -/
def failures (handled : List Handling) : Nat :=
  handled.countP fun handling => !handling.result.isOk

/-- How many of the events stand before the first one whose routing may come out well later. -/
def reach (handled : List Handling) (events : List Event) : Nat :=
  events.findIdx fun event =>
    handled.any fun handling => handling.event.id == event.id && handling.holds

/-- The event with the id routed cleanly, and is one of these. -/
def Cleared (handled : List Handling) (events : List Event) (id : String) : Prop :=
  ∃ handling ∈ handled, handling.result.isOk = true ∧ handling.event ∈ events ∧
    handling.event.id = id

/-- The calls of a step up to the end of its pass over the new events. -/
def passing (settings : Settings) (state : State) (window : List Event)
    (handled : List Handling) : List Answered :=
  fetching settings state window ++ handled.flatMap Handling.trail

/-- What a step comes to that got the window and routed events of it as listed : `events` are the
new ones, and the first `count` of them stand before the first one that may yet be routed well. -/
structure Batch (settings : Settings) (state : State) (window events : List Event)
    (handled : List Handling) (count : Nat) (result : Except Crash (Outcome × State))
    (calls : List Answered) : Prop where
  /-- The events that are not settled are routed, once each and in order. -/
  routed : handled.map (·.event) = events.filter fun event => !state.isSettled event.id
  /-- Up to the end of the pass, no cursor is stored. -/
  unstored : ∀ key cursor answer,
    ⟨.storeCursor key cursor, answer⟩ ∉ passing settings state window handled
  idle : events = [] → result = .ok (.idle, state) ∧ calls = passing settings state window handled
  held : events ≠ [] → count = 0 → ∃ first settled, events.head? = some first ∧
    result = .ok (.held first.id (failures handled), { state with settled }) ∧
    calls = passing settings state window handled
  /-- The cursor is stored once, whether or not that comes out well. -/
  advanced : 0 < count → state.cursor.nextIndex + count < Position.bound →
    ∃ last settled answer, events[count - 1]? = some last ∧
      result = .ok (.advanced count (failures handled),
        { cursor := ⟨state.cursor.nextIndex + count, last.id⟩, settled }) ∧
      calls = passing settings state window handled ++
        [⟨.storeCursor settings.cursorKey ⟨state.cursor.nextIndex + count, last.id⟩, answer⟩]
  /-- Past the last position, the window is longer than what was asked for. -/
  overrun : 0 < count → Position.bound ≤ state.cursor.nextIndex + count →
    settings.windowSize < window.length ∧ result = .error .addOverflow ∧
      calls = passing settings state window handled
  /-- What routed cleanly behind a held event is settled, and what the cursor moved past is not. -/
  settled : ∀ outcome state', result = .ok (outcome, state') → ∀ id, id ∈ state'.settled ↔
    (id ∈ state.settled ∨ Cleared handled (events.drop (count + 1)) id) ∧
      id ∉ (events.take count).map (·.id)

variable {settings : Settings} {state : State} {event : Event} {events rest window : List Event}
  {index k : Nat} {pass pass' : Pass} {handling : Handling} {handled : List Handling}
  {id other : String} {result : Except RoutingError Verdict}

/-! ## One event -/

theorem Pass.failed_record (pass : Pass) (index : Nat) (id : String)
    (result : Except RoutingError Verdict) :
    (pass.record index id result).failed = pass.failed + if result.isOk then 0 else 1 := by
  cases result with
  | ok verdict =>
    rw [Pass.record]
    split <;> rfl
  | error error => rfl

/-- An event that does not hold the cursor leaves it unheld. -/
theorem Pass.held_record_eq_none (unheld : pass.held = none) (passes : handling.holds = false) :
    (pass.record index handling.event.id handling.result).held = none := by
  unfold Handling.holds at passes
  cases hr : handling.result with
  | ok verdict => rw [Pass.record_ok unheld, unheld]
  | error error =>
    rw [hr] at passes
    simp only [Pass.record, unheld, passes]
    rfl

/-- The first event that holds the cursor holds it where it stands. -/
theorem Pass.held_record_eq_some (unheld : pass.held = none) (holds : handling.holds = true) :
    (pass.record index handling.event.id handling.result).held = some index := by
  unfold Handling.holds at holds
  cases hr : handling.result with
  | ok verdict =>
    rw [hr] at holds
    cases holds
  | error error =>
    rw [hr] at holds
    simp [Pass.record, unheld, holds]

/-- Before the first held event, nothing is settled. -/
theorem Pass.settled_record (unheld : pass.held = none) :
    (pass.record index id result).settled = pass.settled := by
  cases result with
  | ok verdict => rw [Pass.record_ok unheld]
  | error error => rfl

/-- Behind a held event, what routes cleanly is settled. -/
theorem Pass.mem_settled_record_iff (held : pass.held = some k) :
    other ∈ (pass.record index id result).settled ↔
      other ∈ pass.settled ∨ result.isOk = true ∧ id = other := by
  constructor
  · cases result with
    | ok verdict =>
      rw [Pass.record]
      split
      · simpa [Except.isOk, Except.toBool] using Or.imp_right Eq.symm
      · exact Or.inl
    | error error => exact Or.inl
  · rintro (settled | ⟨clean, rfl⟩)
    · exact Pass.settled_subset_record _ _ _ _ settled
    · exact Pass.mem_settled_record held _ _ clean

theorem Pass.mem_settled_record_of_ne (ne : other ≠ id) :
    other ∈ (pass.record index id result).settled ↔ other ∈ pass.settled := by
  cases held : pass.held with
  | none => rw [Pass.settled_record held]
  | some k => simp [Pass.mem_settled_record_iff held, ne.symm]

/-- A routing that may come out well later has not come out well. -/
theorem Handling.isOk_of_holds (holds : handling.holds = true) : handling.result.isOk = false := by
  unfold Handling.holds at holds
  cases hr : handling.result with
  | ok verdict =>
    rw [hr] at holds
    cases holds
  | error error => rfl

/-! ## What is reached -/

theorem reach_cons_of_holds (holds : handling.holds = true) :
    reach (handling :: handled) (handling.event :: rest) = 0 := by
  simp [reach, List.findIdx_cons, holds]

/-- An event that was not routed, or does not hold the cursor, is moved past. -/
theorem reach_cons (passed : ∀ handling ∈ handled, handling.event.id = event.id →
    handling.holds = false) : reach handled (event :: rest) = reach handled rest + 1 := by
  have passes : (handled.any fun handling => handling.event.id == event.id && handling.holds) =
      false := by
    rw [List.any_eq_false]
    intro handling mem holds
    rw [Bool.and_eq_true, beq_iff_eq] at holds
    exact Bool.false_ne_true (passed handling mem holds.1 ▸ holds.2)
  rw [reach, List.findIdx_cons, passes, cond_false, ← reach]

/-- A routing that does not hold the cursor makes no difference. -/
theorem reach_of_passes (passes : handling.holds = false) :
    reach (handling :: handled) events = reach handled events := by
  simp [reach, passes]

theorem cleared_of_fails (fails : handling.result.isOk = false) :
    Cleared (handling :: handled) events id ↔ Cleared handled events id := by
  simp [Cleared, fails]

theorem cleared_of_not_mem (missing : handling.event ∉ events) :
    Cleared (handling :: handled) events id ↔ Cleared handled events id := by
  simp [Cleared, missing]

/-! ## Walks over distinct events -/

/-- No event is handled that is not walked over. -/
theorem Walks.id_ne (walks : Walks events index pass handled pass')
    (missing : id ∉ events.map (·.id)) : ∀ handling ∈ handled, handling.event.id ≠ id := by
  rintro handling mem rfl
  exact missing (List.mem_map_of_mem (walks.sublist.subset (List.mem_map_of_mem mem)))

/-- The events that are handled are those that were not settled. -/
theorem Walks.handled_eq (walks : Walks events index pass handled pass')
    (distinct : (events.map (·.id)).Nodup) : handled.map (·.event) =
      events.filter fun event => !pass.settled.contains event.id := by
  induction walks with
  | ended => rfl
  | settled settled _ ih =>
    rw [List.map_cons, List.nodup_cons] at distinct
    rw [List.filter_cons_of_neg (by simpa using settled), ih distinct.2]
  | routed handling unsettled _ ih =>
    rw [List.map_cons, List.nodup_cons] at distinct
    rw [List.map_cons, List.filter_cons_of_pos (by simpa using unsettled), ih distinct.2]
    congr 1
    refine List.filter_congr fun event mem => ?_
    have ne : event.id ≠ handling.event.id := fun same =>
      distinct.1 (same ▸ List.mem_map_of_mem mem)
    rw [Bool.eq_iff_iff, Bool.not_eq_true', Bool.not_eq_true', ← Bool.not_eq_true,
      ← Bool.not_eq_true, List.contains_iff_mem, List.contains_iff_mem,
      Pass.mem_settled_record_of_ne ne]

theorem Walks.failed_eq (walks : Walks events index pass handled pass') :
    pass'.failed = pass.failed + failures handled := by
  induction walks with
  | ended => rfl
  | settled _ _ ih => exact ih
  | routed handling _ _ ih =>
    rw [ih, Pass.failed_record, failures, failures, List.countP_cons]
    cases handling.result.isOk
    · simp only [Bool.not_false, Bool.false_eq_true, if_true, if_false]
      omega
    · rfl

/-- The cursor is held at the first event that may yet be routed well. -/
theorem Walks.held_eq_reach (walks : Walks events index pass handled pass')
    (distinct : (events.map (·.id)).Nodup) (unheld : pass.held = none) :
    pass'.held.getD (index + events.length) = index + reach handled events := by
  induction walks with
  | ended => simp [unheld, reach]
  | @settled event rest index pass pass' handled settled walks ih =>
    rw [List.map_cons, List.nodup_cons] at distinct
    have := ih distinct.2 unheld
    rw [reach_cons fun handling mem same => absurd same (walks.id_ne distinct.1 handling mem),
      List.length_cons, Nat.add_comm _ 1, Nat.add_comm _ 1, ← Nat.add_assoc, ← Nat.add_assoc, this]
  | @routed rest index pass pass' handled handling unsettled walks ih =>
    rw [List.map_cons, List.nodup_cons] at distinct
    cases holds : handling.holds with
    | true =>
      rw [walks.held_eq (Pass.held_record_eq_some unheld holds), reach_cons_of_holds holds]
      rfl
    | false =>
      have := ih distinct.2 (Pass.held_record_eq_none unheld holds)
      rw [reach_of_passes holds,
        reach_cons fun handling mem same => absurd same (walks.id_ne distinct.1 handling mem),
        List.length_cons, Nat.add_comm _ 1, Nat.add_comm _ 1, ← Nat.add_assoc, ← Nat.add_assoc,
        this]

/-- Behind a held event, what routes cleanly is settled, and nothing else. -/
theorem Walks.mem_settled_of_held (walks : Walks events index pass handled pass')
    (held : pass.held = some k) : id ∈ pass'.settled ↔
      id ∈ pass.settled ∨ Cleared handled events id := by
  induction walks with
  | ended => simp [Cleared]
  | @settled event rest index pass pass' handled settled walks ih =>
    rw [ih held]
    refine or_congr_right ⟨?_, ?_⟩
    · rintro ⟨handling, mem, clean, among, rfl⟩
      exact ⟨handling, mem, clean, List.mem_cons_of_mem _ among, rfl⟩
    · rintro ⟨handling, mem, clean, -, rfl⟩
      exact ⟨handling, mem, clean, walks.sublist.subset (List.mem_map_of_mem mem), rfl⟩
  | @routed rest index pass pass' handled handling unsettled walks ih =>
    rw [ih (Pass.held_record held _ _ _), Pass.mem_settled_record_iff held, or_assoc]
    refine or_congr_right ⟨?_, ?_⟩
    · rintro (⟨clean, rfl⟩ | ⟨other, mem, clean, among, rfl⟩)
      · exact ⟨handling, List.mem_cons_self, clean, List.mem_cons_self, rfl⟩
      · exact ⟨other, List.mem_cons_of_mem _ mem, clean, List.mem_cons_of_mem _ among, rfl⟩
    · rintro ⟨other, mem, clean, -, rfl⟩
      rcases List.mem_cons.1 mem with rfl | mem
      · exact Or.inl ⟨clean, rfl⟩
      · exact Or.inr ⟨other, mem, clean, walks.sublist.subset (List.mem_map_of_mem mem), rfl⟩

/-- What a walk settles is what routes cleanly behind the first held event. -/
theorem Walks.mem_settled (walks : Walks events index pass handled pass')
    (distinct : (events.map (·.id)).Nodup) (unheld : pass.held = none) : id ∈ pass'.settled ↔
      id ∈ pass.settled ∨ Cleared handled (events.drop (reach handled events + 1)) id := by
  induction walks with
  | ended => simp [Cleared]
  | @settled event rest index pass pass' handled settled walks ih =>
    rw [List.map_cons, List.nodup_cons] at distinct
    rw [ih distinct.2 unheld, List.drop_succ_cons,
      reach_cons fun handling mem same => absurd same (walks.id_ne distinct.1 handling mem)]
  | @routed rest index pass pass' handled handling unsettled walks ih =>
    rw [List.map_cons, List.nodup_cons] at distinct
    cases holds : handling.holds with
    | true =>
      rw [walks.mem_settled_of_held (Pass.held_record_eq_some unheld holds),
        Pass.settled_record unheld, reach_cons_of_holds holds,
        cleared_of_fails (Handling.isOk_of_holds holds)]
      rfl
    | false =>
      have missing : handling.event ∉ rest.drop (reach handled rest + 1) := fun mem =>
        distinct.1 (List.mem_map_of_mem (List.mem_of_mem_drop mem))
      rw [ih distinct.2 (Pass.held_record_eq_none unheld holds), Pass.settled_record unheld,
        reach_of_passes holds, List.drop_succ_cons,
        reach_cons fun handling mem same => absurd same (walks.id_ne distinct.1 handling mem),
        cleared_of_not_mem missing]

/-! ## Whose calls -/

/-- No call of a routing, or report of one, is a call of the feed loop itself. -/
theorem Handling.not_isOwn (handling : Handling) :
    ∀ answered ∈ handling.trail, ¬answered.IsOwn := by
  intro answered made own
  rcases List.mem_append.1 made with made | made
  · exact handling.shows.not_isOwn answered (List.mem_filter.2 ⟨made, own.isEffect⟩) own
  · rw [List.mem_singleton.1 made] at own
    exact own

theorem mem_fetching_of_isOwn {answered : Answered} (own : answered.IsOwn)
    (made : answered ∈ passing settings state window handled) :
    answered ∈ fetching settings state window := by
  rcases List.mem_append.1 made with made | made
  · exact made
  · obtain ⟨handling, -, made⟩ := List.mem_flatMap.1 made
    exact absurd own (handling.not_isOwn answered made)

theorem not_storeCursor_mem_passing (key : String) (cursor : Cursor) (answer : Except Fault Unit) :
    ⟨.storeCursor key cursor, answer⟩ ∉ passing settings state window handled := fun made => by
  have made := mem_fetching_of_isOwn (by trivial) made
  simp [fetching] at made

theorem mem_passing_of_mem_fetching {answered : Answered}
    (made : answered ∈ fetching settings state window) :
    answered ∈ passing settings state window [] :=
  List.mem_append_left _ made

theorem fetched_of_stored {offset limit : Nat} {window : List Event} {calls : List Answered}
    {cursor : Cursor} {key : String} {answer : Except Fault Unit}
    (made : ⟨.fetch offset limit, .ok window⟩ ∈ calls ++ [⟨.storeCursor key cursor, answer⟩]) :
    ⟨.fetch offset limit, .ok window⟩ ∈ calls := by
  simpa using made

/-- The window is fetched once. -/
theorem eq_of_fetch_mem_passing {offset limit : Nat} {other : List Event}
    (made : ⟨.fetch offset limit, .ok other⟩ ∈ passing settings state window handled) :
    other = window := by
  have made := mem_fetching_of_isOwn (by trivial) made
  simp only [fetching, List.mem_cons, Answered.mk.injEq, reduceCtorEq, false_and, false_or,
    List.not_mem_nil, or_false] at made
  obtain ⟨call, answers⟩ := made
  cases call
  exact Except.ok.inj (eq_of_heq answers)

/-! ## The law -/

theorem nodup_unseen (distinct : (window.map (·.id)).Nodup) :
    ((state.unseen window).map (·.id)).Nodup := by
  unfold State.unseen
  split
  · exact distinct
  · exact distinct.sublist ((List.drop_sublist 1 window).map _)

theorem reach_le_length : reach handled events ≤ events.length :=
  List.findIdx_le_length

/-- The pass of a step holds the cursor at the first event that may yet be routed well. -/
theorem Walks.taken_eq (walks : Walks events 0 { settled := state.settled } handled pass)
    (distinct : (events.map (·.id)).Nodup) :
    pass.held.getD events.length = reach handled events := by
  simpa only [Nat.zero_add] using walks.held_eq_reach distinct rfl

theorem Walks.failures_eq (walks : Walks events 0 { settled := state.settled } handled pass) :
    pass.failed = failures handled := by
  rw [walks.failed_eq, Nat.zero_add]

theorem Batch.of_idle (nothing : events = []) :
    Batch settings state window events [] (reach [] events) (.ok (.idle, state))
      (fetching settings state window) := by
  subst nothing
  constructor
  case routed => rfl
  case unstored => exact not_storeCursor_mem_passing
  case idle => exact fun _ => ⟨rfl, (List.append_nil _).symm⟩
  case held => exact fun some => absurd rfl some
  case advanced => exact fun moved => absurd moved (Nat.lt_irrefl 0)
  case overrun => exact fun moved => absurd moved (Nat.lt_irrefl 0)
  case settled =>
    rintro _ _ ⟨⟩ id
    simp [Cleared]

theorem Batch.of_held {first : Event} (distinct : ((first :: rest).map (·.id)).Nodup)
    (walks : Walks (first :: rest) 0 { settled := state.settled } handled pass)
    (held : pass.held = some 0) :
    Batch settings state window (first :: rest) handled (reach handled (first :: rest))
      (.ok (.held first.id pass.failed, { state with settled := pass.settled }))
      (passing settings state window handled) := by
  have reached := walks.taken_eq distinct
  rw [held, Option.getD_some] at reached
  constructor
  case routed => exact walks.handled_eq distinct
  case unstored => exact not_storeCursor_mem_passing
  case idle => exact nofun
  case held => exact fun _ _ => ⟨first, pass.settled, rfl, by rw [walks.failures_eq], rfl⟩
  case advanced => exact fun moved => absurd reached (Nat.ne_of_lt moved)
  case overrun => exact fun moved => absurd reached (Nat.ne_of_lt moved)
  case settled =>
    rintro _ _ ⟨⟩ id
    rw [walks.mem_settled distinct rfl, ← reached]
    simp

theorem Batch.of_overrun (distinct : (events.map (·.id)).Nodup)
    (walks : Walks events 0 { settled := state.settled } handled pass)
    (some : events.take (pass.held.getD events.length) ≠ [])
    (long : settings.windowSize < window.length)
    (overflow : Position.bound ≤
      state.cursor.nextIndex + (events.take (pass.held.getD events.length)).length) :
    Batch settings state window events handled (reach handled events) (.error .addOverflow)
      (passing settings state window handled) := by
  rw [walks.taken_eq distinct] at some overflow
  rw [List.length_take, Nat.min_eq_left reach_le_length] at overflow
  constructor
  case routed => exact walks.handled_eq distinct
  case unstored => exact not_storeCursor_mem_passing
  case idle =>
    rintro rfl
    exact absurd List.take_nil some
  case held =>
    intro _ none
    rw [none] at some
    exact absurd rfl some
  case advanced => exact fun _ fits => absurd fits (Nat.not_lt.2 overflow)
  case overrun => exact fun _ _ => ⟨long, rfl, rfl⟩
  case settled => exact nofun

theorem Batch.of_advanced {last : Event} {answer : Except Fault Unit} {processed : List Event}
    (distinct : (events.map (·.id)).Nodup)
    (walks : Walks events 0 { settled := state.settled } handled pass)
    (taken : processed = events.take (pass.held.getD events.length))
    (ended : processed.getLast? = some last)
    (fits : state.cursor.nextIndex + processed.length < Position.bound) :
    Batch settings state window events handled (reach handled events)
      (.ok (.advanced processed.length pass.failed,
        { cursor := ⟨state.cursor.nextIndex + processed.length, last.id⟩,
          settled := pass.settled.filter fun id => !processed.any (·.id == id) }))
      (passing settings state window handled ++ [⟨.storeCursor settings.cursorKey
        ⟨state.cursor.nextIndex + processed.length, last.id⟩, answer⟩]) := by
  rw [walks.taken_eq distinct] at taken
  have length : processed.length = reach handled events := by
    rw [taken, List.length_take, Nat.min_eq_left reach_le_length]
  have moved : 0 < reach handled events :=
    length ▸ List.length_pos_of_mem (List.mem_of_getLast? ended)
  have last_eq : events[reach handled events - 1]? = some last := by
    rw [← ended, List.getLast?_eq_getElem?, length, taken, List.getElem?_take_of_lt (by omega)]
  rw [length] at fits ⊢
  constructor
  case routed => exact walks.handled_eq distinct
  case unstored => exact not_storeCursor_mem_passing
  case idle =>
    rintro rfl
    cases last_eq
  case held => exact fun _ none => absurd none.symm (Nat.ne_of_lt moved)
  case advanced =>
    exact fun _ _ => ⟨last, _, answer, last_eq, by rw [walks.failures_eq], rfl⟩
  case overrun => exact fun _ overflow => absurd fits (Nat.not_lt.2 overflow)
  case settled =>
    rintro _ _ ⟨⟩ id
    rw [List.mem_filter, walks.mem_settled distinct rfl, taken]
    refine and_congr_right fun _ => ?_
    simp only [Bool.not_eq_true', List.any_eq_false, beq_iff_eq, List.mem_map, not_exists, not_and]

end Sync

open Sync in
/-- A step whose window has distinct ids and lines up with the cursor goes by what came of its
routings : it comes to what `Batch` says. -/
theorem batch_law {settings : Settings} {state : State} {window : List Event} {offset limit : Nat}
    {calls : List Answered} {result : Except Crash (Outcome × State)}
    (traces : Traces (step settings state) calls (.done result))
    (fetched : ⟨.fetch offset limit, .ok window⟩ ∈ calls)
    (matched : state.cursor.matchesAnchor (window.head?.map (·.id)) = true)
    (distinct : (window.map (·.id)).Nodup) :
    ∃ handled, Batch settings state window (state.unseen window) handled
      (reach handled (state.unseen window)) result calls := by
  have rounds := records_step settings state result calls traces
  cases rounds with
  | stopped _ waiting => exact (waiting _ fetched).elim
  | crashed => simp at fetched
  | overrun long walks taken some overflow =>
    obtain rfl := eq_of_fetch_mem_passing fetched
    subst taken
    exact ⟨_, .of_overrun (nodup_unseen distinct) walks some long overflow⟩
  | reset unmatched =>
    have fetched := mem_passing_of_mem_fetching (fetched_of_stored fetched)
    obtain rfl := eq_of_fetch_mem_passing fetched
    rw [matched] at unmatched
    cases unmatched
  | idle _ nothing =>
    obtain rfl := eq_of_fetch_mem_passing (mem_passing_of_mem_fetching fetched)
    rw [nothing]
    exact ⟨_, .of_idle rfl⟩
  | held _ unseen walks held =>
    obtain rfl := eq_of_fetch_mem_passing fetched
    rw [unseen] at walks ⊢
    exact ⟨_, .of_held (unseen ▸ nodup_unseen distinct) walks held⟩
  | advanced _ walks taken ended fits =>
    rw [← List.append_assoc] at fetched ⊢
    obtain rfl := eq_of_fetch_mem_passing (fetched_of_stored fetched)
    exact ⟨_, .of_advanced (nodup_unseen distinct) walks taken ended fits⟩

namespace Sync

/-- An event of no recognized route, whose routing only acknowledges it. -/
def plain (id : String) : Event :=
  { id, occurredAt := ⟨0, 0⟩, consumed := false, action := ⟨"", "", []⟩ }

/-- A state behind a first event, with a later one settled. -/
def behind : State :=
  { cursor := ⟨1, "A"⟩, settled := ["C"] }

/-- The calls of a step in which the acknowledgement of the event `D` fails. -/
def unacknowledging : List Answered :=
  let lost : TransportFailure := ⟨"timeout"⟩
  fetching {} behind [plain "A", plain "B", plain "C", plain "D", plain "E"] ++
    [⟨.acknowledge "B", .ok ()⟩, ⟨.reportRouting "B" (.ok .ignored), ()⟩,
      ⟨.acknowledge "D", .error lost⟩, ⟨.reportRouting "D" (.error (.transport lost)), ()⟩,
      ⟨.acknowledge "E", .ok ()⟩, ⟨.reportRouting "E" (.ok .ignored), ()⟩,
      ⟨.storeCursor "keria-notification-marker" ⟨3, "C"⟩, .ok ()⟩]

/-- The cursor moves past the settled event up to the failed one, and the last one is settled. -/
def advancing : Except Crash (Outcome × State) :=
  .ok (.advanced 2 1, { cursor := ⟨3, "C"⟩, settled := ["E"] })

end Sync

open Sync in
/-- A step with a settled event before the failed one. -/
theorem batch_law_settled :
    Traces (step {} behind) unacknowledging (.done advancing) ∧
      ∃ handled, Batch {} behind [plain "A", plain "B", plain "C", plain "D", plain "E"]
        [plain "B", plain "C", plain "D", plain "E"] handled
        (reach handled [plain "B", plain "C", plain "D", plain "E"]) advancing unacknowledging := by
  have traces : Traces (step {} behind) unacknowledging (.done advancing) :=
    .next (.next (.next (.next (.next (.next (.next (.next (.next (.next (.here _))))))))))
  refine ⟨traces, ?_⟩
  exact batch_law traces (List.mem_append_left _ (fetch_mem_fetching _ _ _)) (by decide) (by decide)

end Feedkeeper
