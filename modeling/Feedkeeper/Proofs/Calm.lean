import Feedkeeper.Proofs.Coverage
import Feedkeeper.Proofs.Ruling

/-!
# Coming to rest

While nothing fails that matters (`Outside.Calm`) and the feed does not change, repeating the step
comes to rest. Each step resets the cursor, which happens at most once, or moves it past all new
events of the window, of which there is at least one, or finds that it has seen the whole feed
(`Sync.CalmSteps`). So the number of steps is at most two more than the number of events
(`Sync.restsWithin`), and at the end all events are consumed and the cursor is behind the last one.
A calm step is always possible (`Sync.canEnd_step`).
-/

namespace Feedkeeper

open Outside Script

/-- The gate is open, the feed can be fetched, and every routing comes out well. -/
def Outside.Calm : (c : Call) → c.Answer → Prop
  | .isLoggedIn, answer => answer = true
  | .isOnline, answer => answer = true
  | .fetch .., answer => ∃ window, answer = .ok window
  | .reportRouting _ result, _ => ∃ verdict, result = .ok verdict
  | _, _ => True

/-- An agent that has no group requests and finds no senders and no identifiers. -/
def Lookups.vacant : Lookups where
  request digest := .error (.notFound digest)
  sender _ := .error ⟨"exchange not found", []⟩
  identifier _ := .ok none

/-- Calm calls with an agent that finds nothing. -/
def Outside.vacantly : Behavior Outside :=
  limited (steady Calm fun _ => .vacant)

/-- The cursor behind the last event. -/
def Cursor.atEnd (feed : List Event) : Cursor :=
  match feed.getLast? with
  | none => .start
  | some last => ⟨feed.length, last.id⟩

namespace Sync

/-- The step can be made, and however its calls turn out as `p` admits it, it finds nothing new and
has `Q` hold, or the same can be said of one step less from then on. -/
def RestsWithin (p : Outside → (c : Call) → c.Answer → Prop) (settings : Settings)
    (Q : State → Outside → Prop) : Nat → State → Outside → Prop
  | 0, _, _ => False
  | count + 1, state, o =>
    CanEnd (limited p) (step settings state) o ∧
    Ensures (limited p) (step settings state) (fun result o' =>
      match result with
      | .ok (.idle, state') => Q state' o'
      | .ok (_, state') => RestsWithin p settings Q count state' o'
      | .error _ => False) o

/-- The loop has seen the whole feed, and left nothing of it unconsumed. -/
structure AtRest (start : Outside) (state : State) (o : Outside) : Prop where
  later : Later start o
  consumed : ∀ event ∈ o.feed, event.consumed = true
  cursor : state.cursor = .atEnd o.feed

/-- The ways in which a step can go while it is calm. -/
inductive CalmSteps (p : Outside → (c : Call) → c.Answer → Prop) (windowSize : Nat) (state : State)
    (o : Outside) : Outcome → State → Outside → Prop where
  | reset {o' : Outside} (unanchored : ¬state.Anchored o.feed) (adds : o.Adds [] o') :
      CalmSteps p windowSize state o .cursorReset (.at .start) o'
  | idle {o' : Outside} (anchored : state.Anchored o.feed)
      (seen : o.feed.length ≤ state.cursor.nextIndex) (adds : o.Adds [] o') :
      CalmSteps p windowSize state o .idle state o'
  | advanced {last : Event} {failed : Nat} {o₁ o₂ o' : Outside}
      (anchored : state.Anchored o.feed) (before : o.Adds [] o₁)
      (passes : Passes p (state.ahead windowSize o.feed) 0 { settled := state.settled } o₁
        { settled := state.settled } o₂)
      (ended : (state.ahead windowSize o.feed).getLast? = some last) (behind : o₂.Adds [] o') :
      CalmSteps p windowSize state o (.advanced (state.ahead windowSize o.feed).length failed)
        { cursor := ⟨state.cursor.nextIndex + (state.ahead windowSize o.feed).length, last.id⟩,
          settled := state.settled.filter fun id =>
            !(state.ahead windowSize o.feed).any (·.id == id) } o'

variable {p : Outside → (c : Call) → c.Answer → Prop} {settings : Settings} {state : State}
  {windowSize : Nat} {o o' : Outside}

/-! ## Calm steps -/

/-- With nothing failing, a pass holds and settles nothing. -/
theorem Passes.eq_of_calm (calm : ∀ {o c answer}, p o c answer → Calm c answer)
    {events : List Event} {index : Nat} {pass pass' : Pass}
    (passes : Passes p events index pass o pass' o') (unheld : pass.held = none) :
    pass' = pass := by
  induction passes with
  | ended => rfl
  | settled _ _ ih => exact ih unheld
  | routed _ _ _ reported _ ih =>
    obtain ⟨verdict, rfl⟩ := calm reported
    rw [Pass.record_ok unheld] at ih
    exact ih unheld

/-- A window of two events or more shows an event behind the cursor if there is one. -/
theorem State.length_le_of_ahead (size : 2 ≤ windowSize) {feed : List Event}
    (nothing : state.ahead windowSize feed = []) : feed.length ≤ state.cursor.nextIndex := by
  rw [State.ahead, List.take_eq_nil_iff, List.drop_eq_nil_iff] at nothing
  rcases nothing with hsize | hlen
  · split at hsize <;> omega
  · exact hlen

/-- A calm step that does not crash is one of those listed. -/
theorem Steps.calm (calm : ∀ {o c answer}, p o c answer → Calm c answer)
    {outcome : Outcome} {state' : State}
    (steps : Steps p settings state o (.ok (outcome, state')) o') (size : 2 ≤ settings.windowSize) :
    CalmSteps p settings.windowSize state o outcome state' o' := by
  generalize hresult : (Except.ok (outcome, state') : Except Crash (Outcome × State)) = result
    at steps
  cases steps with
  | stopped hindered _ _ =>
    exfalso
    obtain ⟨o, h | h | ⟨offset, limit, failure, h⟩⟩ := hindered
    · exact Bool.noConfusion (calm h)
    · exact Bool.noConfusion (calm h)
    · obtain ⟨window, hw⟩ := calm h
      cases hw
  | crashed => cases hresult
  | reset does unanchored =>
    cases hresult
    exact .reset (unanchored (by omega)) (does.toAdds.trans (adds_storeCursor _ _ _ _))
  | idle does anchored nothing =>
    cases hresult
    exact .idle anchored (State.length_le_of_ahead size nothing) does.toAdds
  | held _ _ passes held =>
    rw [passes.eq_of_calm calm rfl] at held
    cases held
  | advanced does anchored passes taken ended =>
    cases hresult
    obtain rfl := passes.eq_of_calm calm rfl
    rw [Option.getD_none, List.take_length] at taken
    subst taken
    exact .advanced anchored does.toAdds passes ended (adds_storeCursor _ _ _ _)

/-! ## Anchors -/

/-- Whether a cursor is anchored depends on the ids of the events only. -/
theorem State.anchored_iff {feed feed' : List Event} (ids : feed'.map (·.id) = feed.map (·.id)) :
    state.Anchored feed' ↔ state.Anchored feed := by
  rw [State.Anchored, State.Anchored, ← List.getElem?_map, ← List.getElem?_map, ids]

/-- Behind the first `n` events, the last of the next ones stands just before the cursor that has
moved past them. -/
theorem getElem?_of_prefix_drop {feed processed : List Event} {n : Nat} {last : Event}
    (next : processed <+: feed.drop n) (ended : processed.getLast? = some last) :
    0 < processed.length ∧ feed[n + processed.length - 1]? = some last := by
  have pos : 0 < processed.length := List.length_pos_of_mem (List.mem_of_getLast? ended)
  refine ⟨pos, ?_⟩
  obtain ⟨more, hmore⟩ := next
  rw [Nat.add_sub_assoc pos, ← List.getElem?_drop, ← hmore, List.getElem?_append_left (by omega),
    ← List.getLast?_eq_getElem?, ended]

/-- A cursor that has moved past the new events of a window is anchored at the last of them. -/
theorem State.getElem?_ahead {feed : List Event} {last : Event}
    (ended : (state.ahead windowSize feed).getLast? = some last) :
    0 < (state.ahead windowSize feed).length ∧
      feed[state.cursor.nextIndex + (state.ahead windowSize feed).length - 1]? = some last :=
  getElem?_of_prefix_drop (List.take_prefix _ _) ended

theorem State.anchored_advanced {feed : List Event} {last : Event} (settled : List String)
    (ended : (state.ahead windowSize feed).getLast? = some last) :
    State.Anchored ⟨⟨state.cursor.nextIndex + (state.ahead windowSize feed).length, last.id⟩,
      settled⟩ feed :=
  Or.inr (by rw [(getElem?_ahead ended).2, Option.map_some])

/-! ## A calm step is possible -/

theorem canEnd_acknowledge (event : Event) (verdict : Verdict) (o : Outside) : ∃ o',
    Ends vacantly (do Routing.acknowledge event; return verdict : Attempt Verdict).run o
      (.ok verdict) o' := by
  cases hc : event.consumed with
  | true =>
    rw [Routing.acknowledge, if_pos hc]
    exact ⟨o, .here _ _⟩
  | false =>
    rw [Routing.acknowledge, if_neg (by simp [hc])]
    exact ⟨_, .call (.ok ()) ⟨trivial, trivial, trivial⟩ (.here _ _)⟩

theorem canEnd_notice (event : Event) (route : Route) (group : Option String) (o : Outside) :
    ∃ verdict o', Ends vacantly (Routing.notice event route group).run o (.ok verdict) o' := by
  cases hc : event.consumed with
  | true =>
    rw [Routing.notice, if_pos hc]
    exact ⟨_, o, .here _ _⟩
  | false =>
    rw [Routing.notice, if_neg (by simp [hc])]
    cases hfound : o.notices.find? (·.id == event.id) with
    | some notice =>
      obtain ⟨o', h⟩ := canEnd_acknowledge event .duplicate
        (o.after (.findNotice event.id) (.ok (some notice)))
      exact ⟨_, o', .call (.ok (some notice)) ⟨hfound.symm, trivial, trivial⟩ h⟩
    | none =>
      let notice := Notice.ofEvent event route ⟨0, 0⟩ group none
      let looked := ((o.after (.findNotice event.id) (.ok none)).after .now ⟨0, 0⟩).after
        (.sender event.action.digest) (Lookups.vacant.sender event.action.digest)
      obtain ⟨o', h⟩ := canEnd_acknowledge event (.noticed notice)
        ((looked.after (.saveNotice notice) (.ok ())).after (.announceNotice notice) ())
      refine ⟨.noticed notice, o', .call (.ok none) ⟨hfound.symm, trivial, trivial⟩ ?_⟩
      refine .call ⟨0, 0⟩ ⟨trivial, trivial, trivial⟩ (.call _ ⟨trivial, trivial, rfl⟩ ?_)
      exact .call (.ok ()) ⟨trivial, trivial, trivial⟩ (.call () ⟨trivial, trivial, trivial⟩ h)

theorem canEnd_route (event : Event) (o : Outside) : ∃ verdict o',
    Ends vacantly (Routing.route event).run o (.ok verdict) o' := by
  have gone : ∃ o', Ends vacantly (do
      Routing.acknowledge event
      return .groupGone : Attempt Verdict).run (o.after (.groupRequest event.action.digest)
        (.error (.notFound event.action.digest))) (.ok .groupGone) o' :=
    canEnd_acknowledge event .groupGone _
  unfold Routing.route
  split
  · split
    · exact ⟨_, o, .here _ _⟩
    · exact ⟨_, canEnd_acknowledge event .ignored o⟩
  · obtain ⟨o', h⟩ := gone
    exact ⟨_, o', .call (.error (.notFound _)) ⟨trivial, trivial, rfl⟩ h⟩
  · obtain ⟨o', h⟩ := gone
    exact ⟨_, o', .call (.error (.notFound _)) ⟨trivial, trivial, rfl⟩ h⟩
  · split
    · exact ⟨_, o, .here _ _⟩
    split
    · obtain ⟨verdict, o', h⟩ := canEnd_notice event _ none
        (o.after (.groupRequest event.action.digest) (.error (.notFound event.action.digest)))
      exact ⟨verdict, o', .call (.error (.notFound _)) ⟨trivial, trivial, rfl⟩ h⟩
    · exact canEnd_notice event _ none o

theorem canEnd_routeAll (events : List Event) (index : Nat) (pass : Pass) (o : Outside) :
    CanEnd vacantly (routeAll events index pass) o := by
  induction events generalizing index pass o with
  | nil => exact canEnd_pure pass o
  | cons event rest ih =>
    rw [routeAll]
    split
    · exact ih (index + 1) pass o
    · obtain ⟨verdict, o₁, ends⟩ := canEnd_route event o
      obtain ⟨pass', o', rest⟩ := ih (index + 1) (pass.record index event.id (.ok verdict))
        (o₁.after (.reportRouting event.id (.ok verdict)) ())
      exact ⟨pass', o', ends.bind (.call () ⟨trivial, ⟨verdict, rfl⟩, trivial⟩ rest)⟩

/-- Whatever the state, a step can be made in which the agent finds nothing. -/
theorem canEnd_step_vacantly (settings : Settings) (state : State) (o : Outside) :
    CanEnd vacantly (step settings state) o := by
  have persisted {α : Type} (cursor : Cursor) (value : α) (o : Outside) :
      CanEnd vacantly (do persist settings cursor; return value) o :=
    .ask_bind (.ok ()) ⟨trivial, trivial, trivial⟩ (canEnd_pure value _)
  rw [step]
  refine .ask_bind true ⟨trivial, rfl, trivial⟩ ?_
  rw [if_pos rfl]
  refine .ask_bind true ⟨trivial, rfl, trivial⟩ ?_
  rw [if_pos rfl]
  dsimp only
  split
  · exact canEnd_pure _ _
  refine .ask_bind (.ok _) ⟨rfl, ⟨_, rfl⟩, trivial⟩ ?_
  dsimp only
  rw [receive]
  split
  · refine (canEnd_routeAll _ _ _ _).bind fun pass o => ?_
    split
    · exact canEnd_pure _ _
    dsimp only
    split
    · exact canEnd_pure _ _
    split
    · exact canEnd_pure _ _
    · exact persisted _ _ _
  · exact persisted _ _ _

/-- Whatever the state, a calm step can be made. -/
theorem canEnd_step (settings : Settings) (state : State) (o : Outside) :
    CanEnd (limited fun _ => Calm) (step settings state) o := by
  obtain ⟨result, o', ends⟩ := canEnd_step_vacantly settings state o
  exact ⟨result, o', ends.mono rfl fun allowed => ⟨allowed.1, allowed.2.1⟩⟩

/-- Where the cursor has seen the whole feed, all events are consumed and the cursor is behind the
last one. -/
theorem State.at_rest (keeps : o.Keeps state) (anchored : state.Anchored o.feed)
    (seen : o.feed.length ≤ state.cursor.nextIndex) :
    (∀ event ∈ o.feed, event.consumed = true) ∧ state.cursor = .atEnd o.feed := by
  constructor
  · intro event he
    refine (keeps.cursor.done_of_anchored anchored event.id ?_).handled event he rfl
    rw [List.take_of_length_le (by rwa [List.length_map])]
    exact List.mem_map_of_mem he
  · rcases keeps.cursor with hstart | ⟨moved, -⟩
    · have hnil : o.feed = [] := by
        rw [hstart] at seen
        exact List.length_eq_zero_iff.1 (Nat.le_zero.1 seen)
      rw [hstart, hnil]
      rfl
    · rcases anchored with hs | anchor
      · rw [Cursor.isStart, beq_iff_eq] at hs
        omega
      obtain ⟨last, hlast, hid⟩ := Option.map_eq_some_iff.1 anchor
      have hlt := (List.getElem?_eq_some_iff.1 hlast).1
      have hlen : state.cursor.nextIndex = o.feed.length := by omega
      rw [hlen, ← List.getLast?_eq_getElem?] at hlast
      rw [Cursor.atEnd, hlast]
      dsimp only
      rw [hid, ← hlen]

/-! ## Rest -/

/-- How many steps there may be before the one that finds nothing new. -/
def State.left (state : State) (feed : List Event) : Nat :=
  if state.Anchored feed then feed.length - state.cursor.nextIndex else feed.length + 1

/-- Every calm step that finds something leaves fewer steps. -/
theorem CalmSteps.left_lt {outcome : Outcome} {state' : State}
    (steps : CalmSteps p windowSize state o outcome state' o') (busy : outcome ≠ .idle) :
    state'.left o'.feed < state.left o.feed := by
  cases steps with
  | reset unanchored adds =>
    have anchored : (State.at .start).Anchored o'.feed := Or.inl rfl
    rw [State.left, State.left, if_pos anchored, if_neg unanchored, show o'.feed = o.feed from
      adds.feed]
    exact Nat.lt_succ_of_le (Nat.sub_le _ _)
  | idle => exact absurd rfl busy
  | advanced anchored before passes ended behind =>
    have ids : o'.feed.map (·.id) = o.feed.map (·.id) :=
      ((before.later.trans passes.later).trans behind.later).ids
    have hlen : o'.feed.length = o.feed.length := by
      rw [← List.length_map (·.id), ids, List.length_map]
    obtain ⟨pos, hlast⟩ := State.getElem?_ahead ended
    have hlt := (List.getElem?_eq_some_iff.1 hlast).1
    rw [State.left, State.left, if_pos anchored, hlen,
      if_pos ((State.anchored_iff ids).2 (State.anchored_advanced _ ended))]
    dsimp only
    omega

/-- After a calm step the window starts before the last event, or where it started before. -/
theorem CalmSteps.windowStart_le {outcome : Outcome} {state' : State}
    (steps : CalmSteps p windowSize state o outcome state' o') (busy : outcome ≠ .idle) :
    state'.cursor.windowStart ≤ o.feed.length - 1 ∧ o'.feed.length = o.feed.length := by
  cases steps with
  | reset unanchored adds => exact ⟨Nat.zero_le _, by rw [show o'.feed = o.feed from adds.feed]⟩
  | idle => exact absurd rfl busy
  | advanced anchored before passes ended behind =>
    have ids := ((before.later.trans passes.later).trans behind.later).ids
    have hlt := (List.getElem?_eq_some_iff.1 (State.getElem?_ahead ended).2).1
    refine ⟨?_, by rw [← List.length_map (·.id), ids, List.length_map]⟩
    change state.cursor.nextIndex + (state.ahead windowSize o.feed).length - 1 ≤ _
    omega

/-- While it is calm, repeating the step comes to rest, with one step more than were left. -/
theorem restsWithin (calm : ∀ {o c answer}, p o c answer → Calm c answer)
    (possible : ∀ state o, CanEnd (limited p) (step settings state) o)
    (size : 2 ≤ settings.windowSize) {start : Outside} (count : Nat) (state : State) (o : Outside)
    (since : Later start o) (sound : o.Sound) (keeps : o.Keeps state)
    (fits : state.cursor.windowStart + settings.windowSize < Position.bound)
    (room : o.feed.length - 1 + settings.windowSize < Position.bound)
    (enough : state.left o.feed < count) :
    RestsWithin p settings (AtRest start) count state o := by
  induction count generalizing state o with
  | zero => exact absurd enough (Nat.not_lt_zero _)
  | succ count ih =>
    refine ⟨possible state o, ensures_iff.2 fun result o' ends => ?_⟩
    have steps := (ensures_step settings state sound).ends ends
    have later : Later o o' := .of_reaches rfl ends
    rcases result with crash | ⟨outcome, state'⟩
    · cases steps with
      | crashed _ overflow => omega
    have keeps' : o'.Keeps state' := steps.keeps sound keeps state' rfl
    have further (busy : outcome ≠ .idle) :
        RestsWithin p settings (AtRest start) count state' o' := by
      have fewer := (steps.calm calm size).left_lt busy
      obtain ⟨hstart, hlen⟩ := (steps.calm calm size).windowStart_le busy
      exact ih state' o' (since.trans later) (sound.later later) keeps' (by omega) (by omega)
        (by omega)
    cases steps.calm calm size with
    | reset => exact further Outcome.noConfusion
    | idle anchored seen adds =>
      have hfeed : o'.feed = o.feed := adds.feed
      rw [← hfeed] at anchored seen
      obtain ⟨consumed, cursor⟩ := State.at_rest keeps' anchored seen
      exact ⟨since.trans later, consumed, cursor⟩
    | advanced => exact further Outcome.noConfusion

theorem State.left_le (state : State) (feed : List Event) : state.left feed ≤ feed.length + 1 := by
  rw [State.left]
  split <;> omega

end Sync

end Feedkeeper
