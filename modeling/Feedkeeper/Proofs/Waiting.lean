import Feedkeeper.Proofs.Pace

/-!
# Going on at once

After a failed fetch, a reset and an advance the feed loop goes on at once (`Outcome.rest?`). While
the feed and the gate stay as they are it does so only so often, whatever else fails. A step of this
kind uses up a fetch that may fail, or some of the effort that lies ahead of the cursor
(`Sync.Goes`, `Sync.goes_of_ends`), so it leaves less leeway (`Sync.Goes.leeway_lt`). A cursor that
was reset or moved on lines up with the feed from then on, and is not reset again
(`Sync.Goes.resets_le`). Along the steps at once this bounds how many there are
(`Sync.Repeats.bounded`), and the loop waits or ends behind them (`Loop.waitsWithin_of_lt`).
`Loop.never_spins` puts the two together.
-/

namespace Feedkeeper

open Outside Script

/-- Whether a fetch failed. -/
def Answered.isFailedFetch : Answered → Bool
  | ⟨.fetch .., .error _⟩ => true
  | _ => false

namespace Outside

/-- How many fetches have failed so far. -/
def failedFetches (o : Outside) : Nat :=
  o.trail.countP Answered.isFailedFetch

/-- The gate answers the same each time, and a fetch may fail as long as fewer than `most` have. -/
def Still (online loggedIn : Bool) (most : Nat) (o : Outside) : (c : Call) → c.Answer → Prop
  | .isOnline, answer => answer = online
  | .isLoggedIn, answer => answer = loggedIn
  | .fetch .., .error _ => o.failedFetches < most
  | _, _ => True

variable {online loggedIn : Bool} {most : Nat} {o o' : Outside} {calls : List Answered}

theorem Later.failedFetches_le (later : Later o o') : o.failedFetches ≤ o'.failedFetches :=
  later.trail.sublist.countP_le

/-- An answer to every call : fetches fail for as long as they may, and nothing else does. -/
def reluctant (online loggedIn : Bool) (most : Nat) (c : Call) (o : Outside) : c.Answer :=
  match c with
  | .isOnline => online
  | .isLoggedIn => loggedIn
  | .fetch offset limit =>
    if o.failedFetches < most then .error ⟨"unreachable"⟩ else o.obliging (.fetch offset limit)
  | c => o.obliging c

/-- Runs a script with reluctant answers. -/
def reluctantly {α : Type} (online loggedIn : Bool) (most : Nat) (script : Script α)
    (o : Outside) : α × Outside :=
  script.run (fun c o => (reluctant online loggedIn most c o,
    o.after c (reluctant online loggedIn most c o))) o

theorem ends_reluctantly {α : Type} (online loggedIn : Bool) (most : Nat) (script : Script α)
    (o : Outside) : Ends (limited (Still online loggedIn most)) script o
      (reluctantly online loggedIn most script o).1
      (reluctantly online loggedIn most script o).2 := by
  refine ends_run (b := limited (Still online loggedIn most)) (reluctant online loggedIn most)
    (fun c o => ?_) script o
  cases c with
  | isOnline | isLoggedIn => exact ⟨trivial, rfl⟩
  | fetch offset limit =>
    rw [reluctant]
    split
    · rename_i spare
      exact ⟨trivial, spare⟩
    · exact ⟨rfl, trivial⟩
  | _ => exact ⟨allows_obliging o _, trivial⟩

theorem canEnd_still {α : Type} (script : Script α) (o : Outside) :
    CanEnd (limited (Still online loggedIn most)) script o :=
  ⟨_, _, ends_reluctantly online loggedIn most script o⟩

/-- The trail grows by the calls. -/
theorem trail_replay (p : Outside → (c : Call) → c.Answer → Prop) (o : Outside)
    (calls : List Answered) : ((limited p).replay o calls).trail = o.trail ++ calls := by
  induction calls generalizing o with
  | nil => exact (List.append_nil _).symm
  | cons answered rest ih => exact (ih _).trans (List.append_assoc _ _ _)

/-- A fetch that failed is one of those that still might. -/
theorem failedFetches_lt_of_mem (all : (limited (Still online loggedIn most)).AllowsAll o calls)
    {answered : Answered} (made : answered ∈ calls) (failed : answered.isFailedFetch = true) :
    o.failedFetches < most ∧
      o.failedFetches < ((limited (Still online loggedIn most)).replay o calls).failedFetches := by
  constructor
  · induction calls generalizing o with
    | nil => cases made
    | cons head rest ih =>
      rcases List.mem_cons.1 made with rfl | made
      · unfold Answered.isFailedFetch at failed
        split at failed
        · exact all.1.2
        · cases failed
      · exact Nat.lt_of_le_of_lt (later_after o _ _).failedFetches_le (ih all.2 made)
  · rw [failedFetches, failedFetches, trail_replay, List.countP_append]
    exact Nat.lt_add_of_pos_right (List.countP_pos_iff.2 ⟨answered, made, failed⟩)

end Outside

namespace Sync

/-- Where a step leads while the gate and a feed with the ids stay as they are. -/
inductive Goes (settings : Settings) (ids : List String) (most : Nat) (state : State)
    (o : Outside) : Except Crash (Outcome × State) → Outside → Prop where
  | rests {outcome : Outcome} {state' : State} {o' : Outside}
      (rest : outcome.rest? settings ≠ some .yield) :
      Goes settings ids most state o (.ok (outcome, state')) o'
  | failed {o' : Outside} (spare : o.failedFetches < most)
      (used : o.failedFetches < o'.failedFetches) :
      Goes settings ids most state o (.ok (.fetchFailed, state)) o'
  | reset {o' : Outside} (unmatched : ¬state.cursor.LinesUp settings.windowSize ids) :
      Goes settings ids most state o (.ok (.cursorReset, .at .start)) o'
  | advanced {processed failed : Nat} {next : State} {o' : Outside}
      (size : settings.windowSize ≠ 0)
      (anchor : ids[next.cursor.nextIndex - 1]? = some next.cursor.lastEventId)
      (moved : state.cursor.nextIndex < next.cursor.nextIndex) :
      Goes settings ids most state o (.ok (.advanced processed failed, next)) o'
  | crashed {o' : Outside} (overflow : ¬state.cursor.HasRoom settings.windowSize) :
      Goes settings ids most state o (.error .addOverflow) o'

variable {p : Outside → (c : Call) → c.Answer → Prop} {settings : Settings} {state state' : State}
  {online loggedIn : Bool} {most : Nat} {o o' : Outside} {ids : List String}

/-! ## One step -/

/-- The fetch is only said to have failed if there was one. -/
theorem records_fetchFailed (settings : Settings) (state : State) :
    Records (step settings state) fun result calls =>
      ∀ state', result = .ok (.fetchFailed, state') →
        ∃ offset limit answer, ⟨.fetch offset limit, answer⟩ ∈ calls := by
  refine records_bind.2 (records_ask.2 ?_)
  rintro (_ | _)
  · exact records_done.2 (by rintro _ ⟨⟩)
  rw [if_pos rfl]
  refine records_bind.2 (records_ask.2 ?_)
  rintro (_ | _)
  · exact records_done.2 (by rintro _ ⟨⟩)
  rw [if_pos rfl]
  dsimp only
  split
  · exact records_done.2 (by rintro _ ⟨⟩)
  · refine records_call.2 fun answer result calls _ _ _ => ⟨_, _, answer, ?_⟩
    exact List.mem_append_right _ (List.mem_append_right _ List.mem_cons_self)

/-- The window that was fetched is that of the feed. -/
theorem eq_of_allowsAll_fetching {window : List Event} {calls : List Answered}
    (all : (limited p).AllowsAll o (fetching settings state window ++ calls)) :
    window = (o.feed.drop state.cursor.windowStart).take settings.windowSize := by
  obtain ⟨-, -, fetched, -⟩ := all
  rw [← Nat.add_sub_cancel_left (n := state.cursor.windowStart) (m := settings.windowSize)]
  exact fetched.1

/-- A window that is not matched shows that the cursor does not line up. -/
theorem not_linesUp {feed window : List Event}
    (shown : window = (feed.drop state.cursor.windowStart).take settings.windowSize)
    (unmatched : state.cursor.matchesAnchor (window.head?.map (·.id)) = false) :
    ¬state.cursor.LinesUp settings.windowSize (feed.map (·.id)) := by
  rintro (start | ⟨size, anchor⟩)
  · rw [Cursor.matchesAnchor, Cursor.isStart, start] at unmatched
    cases unmatched
  · rw [List.getElem?_map] at anchor
    exact not_anchored_of_not_matches shown unmatched size (.inr anchor)

/-- A step leads where it may, while the gate and the feed stay as they are. -/
theorem goes_of_ends {result : Except Crash (Outcome × State)}
    (ends : Ends (limited (Still online loggedIn most)) (step settings state) o result o') :
    Goes settings (o.feed.map (·.id)) most state o result o' := by
  obtain ⟨calls, traces, all, rfl⟩ := reaches_iff.1 ends
  have fetched := records_fetchFailed settings state _ _ traces
  cases records_step settings state _ _ traces with
  | @stopped outcome _ stops waiting =>
    by_cases failed : outcome = .fetchFailed
    · subst failed
      obtain ⟨offset, limit, answer, made⟩ := fetched state rfl
      rcases answer with failure | window
      · obtain ⟨spare, used⟩ := failedFetches_lt_of_mem all made rfl
        exact .failed spare used
      · exact (waiting _ made).elim
    · refine .rests fun yields => ?_
      cases outcome with
      | fetchFailed => exact failed rfl
      | notLoggedIn | offline | cancelled | idle | held => cases yields
      | cursorReset | advanced => simp [Outcome.stops] at stops
  | crashed overflow => exact .crashed (Nat.not_lt.2 overflow)
  | overrun long =>
    rw [eq_of_allowsAll_fetching all] at long
    exact absurd (List.length_take_le _ _) (Nat.not_le.2 long)
  | reset unmatched => exact .reset (not_linesUp (eq_of_allowsAll_fetching all) unmatched)
  | idle => exact .rests (by rintro ⟨⟩)
  | held => exact .rests (by rintro ⟨⟩)
  | @advanced window processed last handled pass answer matched walks taken ended fits =>
    have shown := eq_of_allowsAll_fetching all
    have ahead : processed <+: o.feed.drop state.cursor.nextIndex :=
      taken ▸ (List.take_prefix _ _).trans (prefix_unseen shown matched)
    obtain ⟨moved, anchor⟩ := getElem?_of_prefix_drop ahead ended
    refine .advanced (fun none => ?_) ?_ (Nat.lt_add_of_pos_right moved)
    · have short : window.length ≤ 0 := none ▸ shown ▸ List.length_take_le _ _
      have within : processed.length ≤ (state.unseen window).length :=
        taken ▸ List.length_take_le' _ _
      have unseen : (state.unseen window).length ≤ if state.cursor.isStart then 0 else 0 - 1 :=
        length_unseen_le short
      split at unseen <;> omega
    · rw [List.getElem?_map, anchor, Option.map_some]

/-- How often the loop may still go on at once : the effort ahead of its cursor, and the fetches
that may still fail. -/
def State.leeway (settings : Settings) (most : Nat) (state : State) (o : Outside) : Nat :=
  state.cursor.effort settings.windowSize (o.feed.map (·.id)) + (most - o.failedFetches)

/-- How often the cursor may still be reset. -/
def State.resets (settings : Settings) (ids : List String) (state : State) : Nat :=
  if state.cursor.LinesUp settings.windowSize ids then 0 else 1

/-- A step after which the loop goes on at once leaves it less leeway. -/
theorem Goes.leeway_lt {outcome : Outcome}
    (goes : Goes settings (o.feed.map (·.id)) most state o (.ok (outcome, state')) o')
    (later : Later o o') (yields : outcome.rest? settings = some .yield) :
    state'.leeway settings most o' < state.leeway settings most o := by
  have fewer : most - o'.failedFetches ≤ most - o.failedFetches :=
    Nat.sub_le_sub_left later.failedFetches_le most
  rw [State.leeway, State.leeway, later.ids]
  cases goes with
  | rests rest => exact absurd yields rest
  | failed spare used => exact Nat.add_lt_add_left (Nat.sub_lt_sub_left spare used) _
  | reset unmatched =>
    refine Nat.add_lt_add_of_lt_of_le ?_ fewer
    rw [State.at, Cursor.effort_start, Cursor.effort, if_neg unmatched]
    exact Nat.lt_succ_self _
  | advanced size anchor moved =>
    exact Nat.add_lt_add_of_lt_of_le (Cursor.effort_lt size anchor moved) fewer

/-- A reset is one of those that may still be. -/
theorem Goes.resets_le {outcome : Outcome}
    (goes : Goes settings ids most state o (.ok (outcome, state')) o')
    (yields : outcome.rest? settings = some .yield) :
    state'.resets settings ids + [outcome].count .cursorReset ≤ state.resets settings ids := by
  cases goes with
  | rests rest => exact absurd yields rest
  | failed => exact Nat.le_refl _
  | reset unmatched =>
    rw [State.resets, State.resets, if_neg unmatched, if_pos (.inl rfl)]
    exact Nat.le_refl _
  | advanced size anchor moved =>
    rw [State.resets, if_pos (.inr ⟨size, anchor⟩)]
    exact Nat.zero_le _

/-- The next window has room too, if the last window of the feed has. -/
theorem Goes.hasRoom {outcome : Outcome}
    (goes : Goes settings ids most state o (.ok (outcome, state')) o')
    (yields : outcome.rest? settings = some .yield)
    (first : state.cursor.HasRoom settings.windowSize)
    (last : ids.length - 1 + settings.windowSize < Position.bound) :
    state'.cursor.HasRoom settings.windowSize := by
  cases goes with
  | rests rest => exact absurd yields rest
  | failed => exact first
  | reset => exact Nat.lt_of_le_of_lt (Nat.add_le_add_right (Nat.zero_le _) _) last
  | advanced size anchor moved =>
    obtain ⟨behind, -⟩ := List.getElem?_eq_some_iff.1 anchor
    exact Nat.lt_of_le_of_lt (Nat.add_le_add_right (Nat.le_sub_one_of_lt behind) _) last

/-! ## Steps at once -/

/-- Steps after each of which the loop goes on at once, with these outcomes. -/
inductive Repeats (p : Outside → (c : Call) → c.Answer → Prop) (settings : Settings) :
    State → Outside → List Outcome → State → Outside → Prop where
  | none {state : State} {o : Outside} : Repeats p settings state o [] state o
  | more {state state₁ state' : State} {o o₁ o' : Outside} {outcome : Outcome}
      {outcomes : List Outcome}
      (ends : Ends (limited p) (step settings state) o (.ok (outcome, state₁)) o₁)
      (yields : outcome.rest? settings = some .yield)
      (repeats : Repeats p settings state₁ o₁ outcomes state' o') :
      Repeats p settings state o (outcome :: outcomes) state' o'

/-- There are no more steps at once than there is leeway, and at most one of them resets. -/
theorem Repeats.bounded {outcomes : List Outcome}
    (repeats : Repeats (Still online loggedIn most) settings state o outcomes state' o') :
    outcomes.length ≤ state.leeway settings most o ∧
      outcomes.count .cursorReset ≤ state.resets settings (o.feed.map (·.id)) := by
  induction repeats with
  | none => exact ⟨Nat.zero_le _, Nat.zero_le _⟩
  | @more state state₁ _ o o₁ _ outcome outcomes ends yields _ ih =>
    have later : Later o o₁ := .of_reaches rfl ends
    have less := (goes_of_ends ends).leeway_lt later yields
    have resets := (goes_of_ends ends).resets_le yields
    rw [later.ids] at ih
    refine ⟨Nat.lt_of_le_of_lt ih.1 less, ?_⟩
    rw [← List.singleton_append, List.count_append, Nat.add_comm]
    exact Nat.le_trans (Nat.add_le_add_right ih.2 _) resets

end Sync

namespace Loop

/-- The loop waits or ends by this many turns : a turn can be made, and however its calls turn out
the loop waits, or ends as it should, or goes on at once and has one turn less. -/
def WaitsWithin (p : Outside → (c : Call) → c.Answer → Prop) (settings : Settings) :
    Nat → Loop → Outside → Prop
  | 0, _, _ => False
  | count + 1, loop, o =>
    CanEnd (limited p) (loop.turn settings) o ∧
    Ensures (limited p) (loop.turn settings) (fun turn o' =>
      match turn with
      | .again (.pause _) _ => True
      | .again .yield next => WaitsWithin p settings count next o'
      | .finished ending => ending = .ok) o

variable {settings : Settings} {state : Sync.State} {online loggedIn : Bool} {most : Nat}
  {o : Outside}

/-- With more turns than there is leeway the loop waits or ends. -/
theorem waitsWithin_of_lt (count : Nat)
    (first : state.cursor.HasRoom settings.windowSize)
    (last : o.feed.length - 1 + settings.windowSize < Position.bound)
    (enough : state.leeway settings most o < count) :
    WaitsWithin (Still online loggedIn most) settings count (.feed state) o := by
  induction count generalizing state o with
  | zero => exact absurd enough (Nat.not_lt_zero _)
  | succ count ih =>
    refine ⟨canEnd_still _ _, ensures_ask_bind.2 ?_⟩
    rintro (_ | _) -
    · rw [if_neg Bool.false_ne_true, ensures_bind]
      -- Asking whether the loop is shut down changes neither the feed nor the count of failures.
      generalize asked : (limited (Still online loggedIn most)).after o .isShutDown false = o₁
      have feed : o₁.feed = o.feed := asked ▸ rfl
      have failed : o₁.failedFetches = o.failedFetches := by
        rw [← asked, failedFetches, limited_after, trail_after, List.countP_append]
        rfl
      refine ensures_iff.2 fun result o' ends => ?_
      have goes := Sync.goes_of_ends ends
      have later : Later o₁ o' := .of_reaches rfl ends
      rcases result with crash | ⟨outcome, state'⟩
      · cases goes with
        | crashed overflow => exact absurd first overflow
      dsimp only
      cases rest : outcome.rest? settings with
      | none => rfl
      | some rest' =>
        cases rest' with
        | pause ms => trivial
        | yield =>
          have length : o'.feed.length = o.feed.length := by
            rw [← List.length_map (·.id), later.ids, feed, List.length_map]
          have less := goes.leeway_lt later rest
          rw [Sync.State.leeway.eq_def _ _ state, feed, failed] at less
          refine ih (goes.hasRoom rest first ?_) (length ▸ last) ?_
          · rwa [feed, List.length_map]
          · exact Nat.lt_of_lt_of_le less (Nat.le_of_lt_succ enough)
    · rfl

/-- **The feed loop never spins.** While the feed and the gate stay as they are and at most so many
fetches fail, the loop waits or ends after a bounded number of turns at once, whatever fails
otherwise; and of the steps that it makes at once at most one resets the cursor. -/
theorem never_spins (online loggedIn : Bool) (settings : Settings) (state : Sync.State)
    (o : Outside) (failures : Nat) (first : state.cursor.HasRoom settings.windowSize)
    (last : o.feed.length - 1 + settings.windowSize < Position.bound) :
    WaitsWithin (Still online loggedIn (o.failedFetches + failures)) settings
      (failures + 1 + o.feed.length + 1) (.feed state) o ∧
    ∀ outcomes state' o', Sync.Repeats (Still online loggedIn (o.failedFetches + failures))
        settings state o outcomes state' o' →
      outcomes.length ≤ failures + 1 + o.feed.length ∧ outcomes.count .cursorReset ≤ 1 := by
  have leeway : state.leeway settings (o.failedFetches + failures) o ≤
      failures + 1 + o.feed.length := by
    have effort := state.cursor.effort_le settings.windowSize (o.feed.map (·.id))
    rw [List.length_map] at effort
    rw [Sync.State.leeway, Nat.add_sub_cancel_left]
    omega
  have resets : state.resets settings (o.feed.map (·.id)) ≤ 1 := by
    rw [Sync.State.resets]
    split <;> decide
  refine ⟨waitsWithin_of_lt _ first last (Nat.lt_succ_of_le leeway), fun _ _ _ repeats => ?_⟩
  exact ⟨Nat.le_trans repeats.bounded.1 leeway, Nat.le_trans repeats.bounded.2 resets⟩

/-- A feed of a single event, on a route that is not recognized. -/
def singleFeed : Outside :=
  { feed := [⟨"A", ⟨0, 0⟩, false, ⟨"", "", []⟩⟩] }

/-- With a cursor that is behind the end of a feed of one event, and one fetch that fails, all of
the steps at once that there may be are made. -/
theorem never_spins_behind_end :
    Cursor.HasRoom 2 ⟨5, "Z"⟩ ∧ singleFeed.feed.length - 1 + 2 < Position.bound ∧
    WaitsWithin (Still true true 1) { windowSize := 2 } 4 (.feed (.at ⟨5, "Z"⟩)) singleFeed ∧
    ∃ state' o', Sync.Repeats (Still true true 1) { windowSize := 2 } (.at ⟨5, "Z"⟩) singleFeed
      [.fetchFailed, .cursorReset, .advanced 1 0] state' o' := by
  have first : Cursor.HasRoom 2 ⟨5, "Z"⟩ := show 4 + 2 < Position.bound by decide
  have last : singleFeed.feed.length - 1 + 2 < Position.bound := by decide
  refine ⟨first, last,
    (never_spins true true { windowSize := 2 } (.at ⟨5, "Z"⟩) singleFeed 1 first last).1, ?_⟩
  have step (state : Sync.State) (o : Outside) :=
    ends_reluctantly true true 1 (Sync.step { windowSize := 2 } state) o
  exact ⟨_, _, .more (step _ _) rfl (.more (step _ _) rfl (.more (step _ _) rfl .none))⟩

end Loop

end Feedkeeper
