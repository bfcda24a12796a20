import Feedkeeper.Proofs.Routing
import Feedkeeper.Sync

/-!
# What a step comes to

`Sync.Steps` lists the ways in which one step of the feed loop can go : it is stopped, crashes,
resets the cursor, finds nothing new, or passes over the new events and then holds or advances the
cursor. `Sync.Passes` is such a pass, event after event. The events are those that stand in the
feed behind the cursor (`State.ahead`), and each of them is routed as it stands in the feed at that
time. `ensures_step` : there are no other ways, whatever fails.
-/

namespace Feedkeeper

open Outside Script

namespace Sync

/-- The cursor is at the start, or the event before it is its anchor. -/
def State.Anchored (state : State) (feed : List Event) : Prop :=
  state.cursor.isStart = true ∨
    feed[state.cursor.nextIndex - 1]?.map (·.id) = some state.cursor.lastEventId

instance (state : State) (feed : List Event) : Decidable (state.Anchored feed) :=
  inferInstanceAs (Decidable (_ ∨ _))

/-- The new events that a step looks at, if the cursor is anchored. -/
def State.ahead (state : State) (windowSize : Nat) (feed : List Event) : List Event :=
  (feed.drop state.cursor.nextIndex).take
    (if state.cursor.isStart then windowSize else windowSize - 1)

section

variable (p : Outside → (c : Call) → c.Answer → Prop)

/-- A pass over events, `index` events having gone before them. -/
inductive Passes : List Event → Nat → Pass → Outside → Pass → Outside → Prop where
  | ended {index : Nat} {pass : Pass} {o : Outside} : Passes [] index pass o pass o
  | settled {event : Event} {rest : List Event} {index : Nat} {pass pass' : Pass} {o o' : Outside}
      (settled : event.id ∈ pass.settled) (passes : Passes rest (index + 1) pass o pass' o') :
      Passes (event :: rest) index pass o pass' o'
  | routed {event : Event} {rest : List Event} {index : Nat} {pass pass' : Pass}
      {o o₁ o' : Outside} {result : Except RoutingError Verdict}
      (unsettled : event.id ∉ pass.settled) (current : event ∈ o.feed)
      (ends : Ends (limited p) (Routing.route event).run o result o₁)
      (reported : p o₁ (.reportRouting event.id result) ())
      (passes : Passes rest (index + 1) (pass.record index event.id result)
        (o₁.after (.reportRouting event.id result) ()) pass' o') :
      Passes (event :: rest) index pass o pass' o'

/-- Something admits that a step is stopped before it has looked at the feed. -/
def Hindered : Prop :=
  ∃ o, p o .isLoggedIn false ∨ p o .isOnline false ∨
    ∃ offset limit failure, p o (.fetch offset limit) (.error failure)

/-- The outcomes of a step that is stopped. -/
def Outcome.stops : List Outcome :=
  [.notLoggedIn, .offline, .fetchFailed, .cancelled]

/-- The ways in which a step can go. -/
inductive Steps (settings : Settings) (state : State) (o : Outside) :
    Except Crash (Outcome × State) → Outside → Prop where
  | stopped {outcome : Outcome} {o' : Outside} (hindered : Hindered p) (does : o.Does [] o')
      (stops : outcome ∈ Outcome.stops) :
      Steps settings state o (.ok (outcome, state)) o'
  | crashed {o' : Outside} (does : o.Does [] o')
      (overflow : Position.bound ≤ state.cursor.windowStart + settings.windowSize) :
      Steps settings state o (.error .addOverflow) o'
  | reset {o' : Outside} {answer : Except Fault Unit} (does : o.Does [] o')
      (unanchored : settings.windowSize ≠ 0 → ¬state.Anchored o.feed) :
      Steps settings state o (.ok (.cursorReset, .at .start))
        (o'.after (.storeCursor settings.cursorKey .start) answer)
  | idle {o' : Outside} (does : o.Does [] o') (anchored : state.Anchored o.feed)
      (nothing : state.ahead settings.windowSize o.feed = []) :
      Steps settings state o (.ok (.idle, state)) o'
  | held {first : Event} {pass : Pass} {o₁ o' : Outside} (does : o.Does [] o₁)
      (anchored : state.Anchored o.feed)
      (passes : Passes p (state.ahead settings.windowSize o.feed) 0
        { settled := state.settled } o₁ pass o') (held : pass.held = some 0) :
      Steps settings state o
        (.ok (.held first.id pass.failed, { state with settled := pass.settled })) o'
  | advanced {processed : List Event} {last : Event} {pass : Pass} {o₁ o' : Outside}
      {answer : Except Fault Unit} (does : o.Does [] o₁) (anchored : state.Anchored o.feed)
      (passes : Passes p (state.ahead settings.windowSize o.feed) 0
        { settled := state.settled } o₁ pass o')
      (taken : processed = (state.ahead settings.windowSize o.feed).take
        (pass.held.getD (state.ahead settings.windowSize o.feed).length))
      (ended : processed.getLast? = some last) :
      Steps settings state o
        (.ok (.advanced processed.length pass.failed,
          { cursor := ⟨state.cursor.nextIndex + processed.length, last.id⟩,
            settled := pass.settled.filter fun id => !processed.any (·.id == id) }))
        (o'.after (.storeCursor settings.cursorKey
          ⟨state.cursor.nextIndex + processed.length, last.id⟩) answer)

end

variable {p : Outside → (c : Call) → c.Answer → Prop} {settings : Settings} {state : State}
  {o o' : Outside}

/-! ## Passes -/

theorem comes_of_ends {event : Event} {result : Except RoutingError Verdict}
    (ends : Ends (limited p) (Routing.route event).run o result o') :
    Routing.Comes event o result o' :=
  (ensures_limited (Routing.ensures_route event o)).ends ends

/-- Routing an event leaves the other events as they are. -/
theorem mem_feed_of_ends {event other : Event} {result : Except RoutingError Verdict}
    (ends : Ends (limited p) (Routing.route event).run o result o') (h : other ∈ o.feed)
    (ne : other.id ≠ event.id) : other ∈ o'.feed := by
  obtain ⟨deeds, course, does⟩ := comes_of_ends ends
  rw [does.feed]
  rcases course.acknowledgedIds_eq with hnil | ⟨-, hone⟩
  · rwa [hnil]
  · rw [hone]
    exact Testbed.mem_consumeFirst_of_ne h ne

theorem ensures_routeAll (events : List Event) (index : Nat) (pass : Pass) (o : Outside)
    (nodup : (events.map (·.id)).Nodup) (current : ∀ event ∈ events, event ∈ o.feed) :
    Ensures (limited p) (routeAll events index pass) (Passes p events index pass o) o := by
  induction events generalizing index pass o with
  | nil => exact .ended
  | cons event rest ih =>
    rw [List.map_cons, List.nodup_cons] at nodup
    rw [routeAll]
    split
    · rename_i hs
      refine (ih (index + 1) pass o nodup.2 fun e he => current e (List.mem_cons_of_mem _ he)).mono
        fun _ _ h => .settled (by simpa using hs) h
    · rename_i hs
      rw [ensures_bind]
      refine ensures_iff.2 fun result o₁ ends => ?_
      rw [ensures_bind]
      intro _ reported
      refine (ih (index + 1) _ _ nodup.2 fun e he => ?_).mono fun _ _ h =>
        .routed (by simpa using hs) (current event List.mem_cons_self) ends reported.2 h
      have ne : e.id ≠ event.id := fun heq => nodup.1 (heq ▸ List.mem_map_of_mem he)
      exact (mem_feed_of_ends ends (current e (List.mem_cons_of_mem _ he)) ne : e ∈ o₁.feed)

theorem Passes.later {events : List Event} {index : Nat} {pass pass' : Pass}
    (passes : Passes p events index pass o pass' o') : Later o o' := by
  induction passes with
  | ended => exact .refl _
  | settled _ _ ih => exact ih
  | routed _ _ ends _ _ ih => exact ((Later.of_reaches rfl ends).trans (later_after _ _ _)).trans ih

/-- A pass stores no cursor. -/
theorem Passes.cursors_eq {events : List Event} {index : Nat} {pass pass' : Pass}
    (passes : Passes p events index pass o pass' o') : o'.cursors = o.cursors := by
  induction passes with
  | ended => rfl
  | settled _ _ ih => exact ih
  | routed _ _ ends _ _ ih =>
    obtain ⟨deeds, -, does⟩ := comes_of_ends ends
    exact ih.trans does.cursors

/-- While nothing is held, an event that routed cleanly need not be remembered. -/
theorem Pass.record_ok {pass : Pass} (unheld : pass.held = none) {index : Nat} {id : String}
    {verdict : Verdict} : pass.record index id (.ok verdict) = pass := by
  rw [Pass.record, unheld]
  rfl

/-- Once an event is held, the cursor is held there whatever comes behind it. -/
theorem Passes.held_eq {events : List Event} {index k : Nat} {pass pass' : Pass}
    (passes : Passes p events index pass o pass' o') (h : pass.held = some k) :
    pass'.held = some k := by
  induction passes with
  | ended => exact h
  | settled _ _ ih => exact ih h
  | @routed _ _ _ _ _ _ _ _ result _ _ _ _ _ ih =>
    refine ih ?_
    cases result with
    | ok verdict =>
      rw [Pass.record]
      split <;> exact h
    | error error => simp [Pass.record, h]

/-! ## Steps -/

/-- A window that lines up with the cursor begins with the anchor, and the new events follow it. -/
theorem anchored_of_matches {feed window : List Event}
    (hw : window = (feed.drop state.cursor.windowStart).take settings.windowSize)
    (matched : state.cursor.matchesAnchor (window.head?.map (·.id)) = true) :
    state.Anchored feed ∧
      (if state.cursor.isStart then window else window.drop 1) =
        state.ahead settings.windowSize feed := by
  subst hw
  unfold State.Anchored State.ahead
  rw [Cursor.matchesAnchor, Bool.or_eq_true] at matched
  cases hs : state.cursor.isStart with
  | true =>
    have hn : state.cursor.nextIndex = 0 := by simpa [Cursor.isStart] using hs
    simp [Cursor.windowStart, hn]
  | false =>
    have hn : state.cursor.nextIndex ≠ 0 := by simpa [Cursor.isStart] using hs
    rw [hs, or_iff_right Bool.false_ne_true, beq_iff_eq, Cursor.windowStart, List.head?_take,
      List.head?_drop] at matched
    split at matched
    · cases matched
    refine ⟨Or.inr matched, ?_⟩
    rw [if_neg Bool.false_ne_true, if_neg Bool.false_ne_true, Cursor.windowStart, List.drop_take,
      List.drop_drop, Nat.sub_add_cancel (Nat.one_le_iff_ne_zero.2 hn)]

/-- A window that does not line up with the cursor shows that the cursor is not anchored. -/
theorem not_anchored_of_not_matches {feed window : List Event}
    (hw : window = (feed.drop state.cursor.windowStart).take settings.windowSize)
    (unmatched : state.cursor.matchesAnchor (window.head?.map (·.id)) = false)
    (size : settings.windowSize ≠ 0) : ¬state.Anchored feed := by
  subst hw
  rw [Cursor.matchesAnchor, Bool.or_eq_false_iff, Cursor.windowStart, List.head?_take,
    if_neg size, List.head?_drop, beq_eq_false_iff_ne] at unmatched
  rintro (hs | anchor)
  · rw [hs] at unmatched
    exact Bool.noConfusion unmatched.1
  · exact unmatched.2 anchor

/-- The window fits in the positions, so the cursor stays a position. -/
theorem advance?_eq {events processed : List Event} (last : String)
    (fits : state.cursor.windowStart + settings.windowSize < Position.bound)
    (hp : processed.length ≤ events.length) (ne : processed ≠ [])
    (he : events.length ≤ if state.cursor.isStart then settings.windowSize
      else settings.windowSize - 1) :
    state.cursor.advance? processed.length last =
      some ⟨state.cursor.nextIndex + processed.length, last⟩ := by
  have hlen : 0 < processed.length := List.length_pos_iff.2 ne
  have hbound : state.cursor.nextIndex + processed.length < Position.bound := by
    rw [Cursor.windowStart] at fits
    cases hs : state.cursor.isStart with
    | true =>
      have hn : state.cursor.nextIndex = 0 := by simpa [Cursor.isStart] using hs
      rw [if_pos hs] at he
      omega
    | false =>
      have hn : state.cursor.nextIndex ≠ 0 := by simpa [Cursor.isStart] using hs
      rw [hs, if_neg Bool.false_ne_true] at he
      omega
  rw [Cursor.advance?, Position.add?_eq_some_iff.2 ⟨rfl, hbound⟩, Option.map_some]

theorem ensures_persist {Q : Unit → Outside → Prop} {cursor : Cursor}
    (h : ∀ answer, Q () (o.after (.storeCursor settings.cursorKey cursor) answer)) :
    Ensures (limited p) (persist settings cursor) Q o := by
  rw [persist, ensures_bind]
  exact fun answer _ => h answer

/-- A step that has found the window to line up with the cursor. -/
theorem ensures_consume {o₁ : Outside} (sound : o.Sound) (does : o.Does [] o₁)
    (anchored : state.Anchored o.feed)
    (fits : state.cursor.windowStart + settings.windowSize < Position.bound) :
    Ensures (limited p) (consume settings state (state.ahead settings.windowSize o.feed))
      (Steps p settings state o) o₁ := by
  have hlen : (state.ahead settings.windowSize o.feed).length ≤
      if state.cursor.isStart then settings.windowSize else settings.windowSize - 1 :=
    List.length_take_le _ _
  have hsub : (state.ahead settings.windowSize o.feed).Sublist o.feed :=
    (List.take_sublist _ _).trans (List.drop_sublist _ _)
  rw [consume, ensures_bind]
  refine (ensures_routeAll _ 0 _ o₁ ((hsub.map _).nodup sound.feed_nodup) fun event he =>
    does.feed ▸ hsub.subset he).mono fun pass o₂ passes => ?_
  cases hahead : state.ahead settings.windowSize o.feed with
  | nil =>
    rw [hahead] at passes
    cases passes
    exact .idle does anchored hahead
  | cons first rest =>
    dsimp only
    split
    · rename_i hnone
      have hheld : pass.held = some 0 := by
        rw [List.getLast?_eq_none_iff, List.take_eq_nil_iff] at hnone
        cases hh : pass.held with
        | none => simp [hh] at hnone
        | some k => simpa [hh] using hnone
      have hs : pass.settled.filter (fun id => !([] : List Event).any (·.id == id)) =
        pass.settled := List.filter_eq_self.2 fun _ _ => rfl
      rw [hheld, Option.getD_some, List.take_zero, hs]
      exact .held does anchored passes hheld
    · rename_i last hlast
      have ne : (first :: rest).take (pass.held.getD (first :: rest).length) ≠ [] := by
        intro hnil
        rw [hnil] at hlast
        cases hlast
      rw [advance?_eq last.id fits (List.length_take_le' _ _) ne (hahead ▸ hlen)]
      dsimp only
      rw [ensures_bind]
      exact ensures_persist fun answer => .advanced does anchored passes (by rw [hahead]) hlast

/-- A step that has fetched a window. -/
theorem ensures_receive {o₁ : Outside} {window : List Event} (sound : o.Sound)
    (does : o.Does [] o₁)
    (hw : window = (o.feed.drop state.cursor.windowStart).take settings.windowSize)
    (fits : state.cursor.windowStart + settings.windowSize < Position.bound) :
    Ensures (limited p) (receive settings state window) (Steps p settings state o) o₁ := by
  rw [receive]
  split
  · rename_i matched
    obtain ⟨anchored, heq⟩ := anchored_of_matches hw matched
    rw [heq]
    exact ensures_consume sound does anchored fits
  · rename_i unmatched
    rw [ensures_bind]
    exact ensures_persist fun answer => .reset does
      (not_anchored_of_not_matches hw (Bool.not_eq_true _ ▸ unmatched))

/-- A step that could not fetch the window. -/
theorem ensures_recover {o₁ : Outside} (hindered : Hindered p) (does : o.Does [] o₁) :
    Ensures (limited p) (recover state) (Steps p settings state o) o₁ := by
  rw [recover, ensures_ask_bind]
  rintro (_ | _) _
  · exact .stopped hindered (does.call .isOnline trivial _) (by decide)
  rw [if_pos rfl, ensures_ask_bind]
  rintro (_ | _) _ <;>
    exact .stopped hindered ((does.call .isOnline trivial _).call .reconnect trivial _) (by decide)

/-- However the calls turn out, a step goes one of the ways listed. -/
theorem ensures_step (settings : Settings) (state : State) (sound : o.Sound) :
    Ensures (limited p) (step settings state) (Steps p settings state o) o := by
  rw [step, ensures_ask_bind]
  rintro (_ | _) loggedIn
  · exact .stopped ⟨o, Or.inl loggedIn.2⟩ (does_after .isLoggedIn trivial _ _) (by decide)
  have does := does_after .isLoggedIn trivial o true
  rw [if_pos rfl, ensures_ask_bind]
  rintro (_ | _) online
  · exact .stopped ⟨_, Or.inr (Or.inl online.2)⟩ (does.call .isOnline trivial _) (by decide)
  replace does := does.call .isOnline trivial true
  rw [if_pos rfl]
  dsimp only
  cases hlimit : Position.add? state.cursor.windowStart settings.windowSize with
  | none => exact .crashed does (Position.add?_eq_none_iff.1 hlimit)
  | some limit =>
    obtain ⟨rfl, fits⟩ := Position.add?_eq_some_iff.1 hlimit
    dsimp only
    rw [ensures_ask_bind]
    rintro (failure | window) fetched
    · exact ensures_recover ⟨_, Or.inr (Or.inr ⟨_, _, failure, fetched.2⟩)⟩
        (does.call (.fetch _ _) trivial (.error failure))
    · have hw : window = (o.feed.drop state.cursor.windowStart).take settings.windowSize := by
        rw [← Nat.add_sub_cancel_left (n := state.cursor.windowStart) (m := settings.windowSize)]
        exact fetched.1
      exact ensures_receive sound
        (does.call (.fetch _ _) trivial (.ok window)) hw fits

end Sync

end Feedkeeper
