import Feedkeeper.Proofs.Batch
import Feedkeeper.Proofs.Calm
import Feedkeeper.Proofs.Stopping

/-!
# The pace of the loops

A turn of a loop comes to rest (`Loop.Due.rests`). It pauses for a time that is not zero, or sleeps
until the agent is reached again, or it has the next turn follow at once. The last happens only
after something was used up : a failure that is armed, or some of the loop's *effort*, which is how
often it may still reset its cursor or move it on (`Cursor.effort`). Where a loop sleeps it is left
with no more to do than to end, if it is shut down.
-/

namespace Feedkeeper

open Script Testbed

/-! ## Cursors -/

namespace Cursor

/-- A window of the size behind the cursor ends at a position. -/
def HasRoom (windowSize : Nat) (cursor : Cursor) : Prop :=
  cursor.windowStart + windowSize < Position.bound

/-- A window from the cursor on shows that the cursor is anchored in a feed with the ids. -/
def LinesUp (windowSize : Nat) (ids : List String) (cursor : Cursor) : Prop :=
  cursor.nextIndex = 0 ∨ windowSize ≠ 0 ∧ ids[cursor.nextIndex - 1]? = some cursor.lastEventId

instance (windowSize : Nat) (ids : List String) (cursor : Cursor) :
    Decidable (cursor.LinesUp windowSize ids) :=
  inferInstanceAs (Decidable (_ ∨ _))

/-- How often the cursor may still be changed : once for each event ahead, or once more if it has
to go back to the start. -/
def effort (windowSize : Nat) (ids : List String) (cursor : Cursor) : Nat :=
  if cursor.LinesUp windowSize ids then ids.length - cursor.nextIndex else ids.length + 1

variable {windowSize : Nat} {ids : List String} {cursor : Cursor}

theorem effort_le (windowSize : Nat) (ids : List String) (cursor : Cursor) :
    cursor.effort windowSize ids ≤ ids.length + 1 := by
  unfold effort
  split <;> omega

theorem effort_start (windowSize : Nat) (ids : List String) :
    Cursor.start.effort windowSize ids = ids.length :=
  if_pos (.inl rfl)

/-- A cursor that has moved on to behind an event has less effort ahead of it. -/
theorem effort_lt {next : Cursor} (size : windowSize ≠ 0)
    (anchor : ids[next.nextIndex - 1]? = some next.lastEventId)
    (moved : cursor.nextIndex < next.nextIndex) :
    next.effort windowSize ids < cursor.effort windowSize ids := by
  obtain ⟨within, -⟩ := List.getElem?_eq_some_iff.1 anchor
  rw [effort, if_pos (.inr ⟨size, anchor⟩), effort]
  split <;> omega

end Cursor

/-! ## Steps -/

namespace Sync

/-- Where a step comes to rest : it pauses, or has changed something, or waits for the agent to be
reached again, or has crashed. -/
inductive Stops (settings : Settings) (ids : List String) (state : State) (bed : Testbed) :
    Stop (Except Crash (Outcome × State)) → Testbed → Prop where
  | pausing {outcome : Outcome} {ms : Nat} {state' : State} {bed' : Testbed}
      (rest : outcome.rest? settings = some (.pause ms)) (same : state'.cursor = state.cursor) :
      Stops settings ids state bed (.ended (.ok (outcome, state'))) bed'
  | changed {outcome : Outcome} {state' : State} {bed' : Testbed}
      (rest : outcome.rest? settings = some .yield)
      (within : state'.cursor = state.cursor ∨ state'.cursor.nextIndex ≤ ids.length)
      (less : state'.cursor.effort settings.windowSize ids + bed'.refusals <
        state.cursor.effort settings.windowSize ids + bed.refusals) :
      Stops settings ids state bed (.ended (.ok (outcome, state'))) bed'
  | reconnecting {wake : Nat} {bed' : Testbed} (later : bed'.time < wake) :
      Stops settings ids state bed (.asleep (some wake)
        (call .reconnected fun _ => done (.ok (.fetchFailed, state)))
        (some (done (.ok (.cancelled, state))))) bed'
  | crashed {bed' : Testbed} (overflow : ¬state.cursor.HasRoom settings.windowSize) :
      Stops settings ids state bed (.ended (.error .addOverflow)) bed'

/-- Where a step comes to rest, after calls that go on. -/
def Comes (settings : Settings) (ids : List String) (state : State) (bed : Testbed)
    (stop : Stop (Except Crash (Outcome × State))) (bed' : Testbed) : Prop :=
  bed.GoesOn (·.nextIndex ≤ ids.length) bed' ∧ Stops settings ids state bed stop bed'

variable {settings : Settings} {ids : List String} {state : State} {bed bed₁ : Testbed}
  {caller : Caller}

/-- A step that could not fetch the window, which has used up a failure. -/
theorem rests_recover (hooks : bed.hooks = []) (running : bed.isShutDown caller.signal = false)
    (goesOn : bed.GoesOn (·.nextIndex ≤ ids.length) bed₁) (fewer : bed₁.refusals < bed.refusals) :
    Rests caller (Comes settings ids state bed) (recover state) bed₁ := by
  have failed {bed' : Testbed} (goesOn' : bed₁.GoesOn (·.nextIndex ≤ ids.length) bed') :
      Comes settings ids state bed (.ended (.ok (.fetchFailed, state))) bed' :=
    ⟨goesOn.trans goesOn', .changed rfl (.inl rfl)
      (Nat.add_lt_add_left (Nat.lt_of_le_of_lt goesOn'.refusals fewer) _)⟩
  rw [recover, rests_isOnline]
  split
  · refine (rests_reconnect (goesOn.isShutDown_eq _ ▸ running)).2 ?_
    split
    · exact failed (respond_goesOn (goesOn.hooks.trans hooks) caller (by rintro _ _ ⟨⟩))
    · rename_i takes
      exact ⟨goesOn, .reconnecting (lt_wakeAfter _ takes)⟩
  · exact failed (.refl bed₁)

/-- A step that ends with storing a cursor for which there is less to do. -/
theorem rests_persist {outcome : Outcome} {next : State} (hooks : bed.hooks = [])
    (goesOn : bed.GoesOn (·.nextIndex ≤ ids.length) bed₁)
    (rest : outcome.rest? settings = some .yield) (within : next.cursor.nextIndex ≤ ids.length)
    (less : next.cursor.effort settings.windowSize ids <
      state.cursor.effort settings.windowSize ids) :
    Rests caller (Comes settings ids state bed)
      (do persist settings next.cursor; return .ok (outcome, next)) bed₁ := by
  have stored : bed.GoesOn (·.nextIndex ≤ ids.length)
      (respond caller (.storeCursor settings.cursorKey next.cursor) bed₁).2 := by
    refine goesOn.respond hooks caller ?_
    rintro key cursor ⟨⟩
    exact within
  exact ⟨stored, .changed rest (.inr within) (Nat.add_lt_add_of_lt_of_le less stored.refusals)⟩

/-- A step whose window shows these events behind the cursor. -/
theorem rests_consume {feed events : List Event} (hooks : bed.hooks = [])
    (goesOn : bed.GoesOn (·.nextIndex ≤ ids.length) bed₁) (same : feed.map (·.id) = ids)
    (fits : state.cursor.HasRoom settings.windowSize)
    (next : events <+: feed.drop state.cursor.nextIndex) (short : events.length ≤
      if state.cursor.isStart then settings.windowSize else settings.windowSize - 1) :
    Rests caller (Comes settings ids state bed) (consume settings state events) bed₁ := by
  have keeps := keepsTo_routeAll events 0 { settled := state.settled }
  rw [consume, rests_bind]
  refine keeps.rests Call.isImmediate_of_ofRouting fun pass => ?_
  have routed := goesOn.run hooks caller keeps (by rintro _ _ ⟨⟩)
  cases events with
  | nil => exact ⟨routed, .pausing rfl rfl⟩
  | cons first rest =>
    dsimp only
    split
    · exact ⟨routed, .pausing rfl rfl⟩
    rename_i last ended
    have within := List.length_take_le' (pass.held.getD (first :: rest).length) (first :: rest)
    have ne : (first :: rest).take (pass.held.getD (first :: rest).length) ≠ [] :=
      List.getLast?_isSome.1 (ended ▸ rfl)
    obtain ⟨moved, anchor⟩ := getElem?_of_prefix_drop ((List.take_prefix _ _).trans next) ended
    -- The window has room, so the cursor can move on to behind the last event.
    rw [advance?_eq last.id fits within ne short]
    generalize (first :: rest).take (pass.held.getD (first :: rest).length) = processed at *
    have size : settings.windowSize ≠ 0 := fun none => by simp [none] at short
    have anchored : ids[state.cursor.nextIndex + processed.length - 1]? = some last.id := by
      rw [← same, List.getElem?_map, anchor, Option.map_some]
    obtain ⟨behind, -⟩ := List.getElem?_eq_some_iff.1 anchored
    exact rests_persist hooks routed rfl (by dsimp only; omega)
      (Cursor.effort_lt size anchored (Nat.lt_add_of_pos_right moved))

/-- A step that has fetched a window. -/
theorem rests_receive {feed window : List Event} (hooks : bed.hooks = [])
    (goesOn : bed.GoesOn (·.nextIndex ≤ ids.length) bed₁) (same : feed.map (·.id) = ids)
    (fits : state.cursor.HasRoom settings.windowSize)
    (shown : window = (feed.drop state.cursor.windowStart).take settings.windowSize) :
    Rests caller (Comes settings ids state bed) (receive settings state window) bed₁ := by
  rw [receive]
  split
  · rename_i matched
    obtain ⟨-, seen⟩ := anchored_of_matches shown matched
    rw [seen]
    exact rests_consume hooks goesOn same fits (List.take_prefix _ _) (List.length_take_le _ _)
  · rename_i unmatched
    -- A window that does not line up shows that the cursor is to go back, which is counted for.
    have astray : ¬state.cursor.LinesUp settings.windowSize ids := by
      rintro (start | ⟨size, anchor⟩)
      · simp [Cursor.matchesAnchor, Cursor.isStart, start] at unmatched
      · refine not_anchored_of_not_matches shown (Bool.not_eq_true _ ▸ unmatched) size (.inr ?_)
        rw [← List.getElem?_map, same, anchor]
    refine rests_persist hooks goesOn rfl (Nat.zero_le _) ?_
    change Cursor.start.effort settings.windowSize ids < _
    rw [Cursor.effort_start, Cursor.effort, if_neg astray]
    exact Nat.lt_succ_self _

/-- Where a step comes to rest. -/
theorem rests_step (hooks : bed.hooks = []) (running : bed.isShutDown caller.signal = false)
    (same : bed.agent.events.map (·.id) = ids) :
    Rests caller (Comes settings ids state bed) (step settings state) bed := by
  rw [step, rests_isLoggedIn]
  split
  · rw [rests_isOnline]
    split
    · dsimp only
      cases hlimit : Position.add? state.cursor.windowStart settings.windowSize with
      | none =>
        exact ⟨.refl bed, .crashed (Nat.not_lt.2 (Position.add?_eq_none_iff.1 hlimit))⟩
      | some limit =>
        obtain ⟨rfl, fits⟩ := Position.add?_eq_some_iff.1 hlimit
        dsimp only
        rw [rests_ask_bind rfl]
        generalize reach : state.cursor.windowStart + settings.windowSize = limit
        have goesOn : bed.GoesOn (·.nextIndex ≤ ids.length)
            (respond caller (.fetch state.cursor.windowStart limit) bed).2 :=
          respond_goesOn hooks caller (by rintro _ _ ⟨⟩)
        rcases respond_fetch hooks caller state.cursor.windowStart limit with
          fetched | ⟨failure, failed, fewer⟩
        · rw [fetched]
          refine rests_receive hooks goesOn same fits ?_
          rw [← reach, Nat.add_sub_cancel_left]
        · rw [failed]
          exact rests_recover hooks running goesOn fewer
    · exact ⟨.refl bed, .pausing rfl rfl⟩
  · exact ⟨.refl bed, .pausing rfl rfl⟩

end Sync

/-! ## Passes -/

namespace Poll

/-- Where a pass comes to rest : at its end, or where it waits for the agent to be reached again and
ends if it is shut down meanwhile. -/
inductive Stops : Stop Tally → Testbed → Prop where
  | ended {tally : Tally} {bed' : Testbed} : Stops (.ended tally) bed'
  | reconnecting {wake : Nat} {operations : List Operation} {tally tally' : Tally} {bed' : Testbed}
      (later : bed'.time < wake) : Stops (.asleep (some wake)
        (call .reconnected fun _ => passOver operations tally) (some (done tally'))) bed'

/-- Where a pass comes to rest, after calls that go on. -/
def Comes (p : Cursor → Prop) (bed : Testbed) (stop : Stop Tally) (bed' : Testbed) : Prop :=
  bed.GoesOn p bed' ∧ Stops stop bed'

variable {p : Cursor → Prop} {bed bed₁ : Testbed} {caller : Caller}

theorem rests_passOver (hooks : bed.hooks = []) (running : bed.isShutDown caller.signal = false)
    (operations : List Operation) (tally : Tally) (goesOn : bed.GoesOn p bed₁) :
    Rests caller (Comes p bed) (passOver operations tally) bed₁ := by
  induction operations generalizing tally bed₁ with
  | nil => exact ⟨goesOn, .ended⟩
  | cons operation rest ih =>
    rw [passOver, rests_isShutDown, goesOn.isShutDown_eq, running, if_neg Bool.false_ne_true,
      rests_ask_bind rfl]
    have asked := goesOn.respond (c := .operationStatus operation.id) hooks caller
      (by rintro _ _ ⟨⟩)
    generalize (respond caller (.operationStatus operation.id) bed₁).2 = bed₂ at asked ⊢
    cases (respond caller (.operationStatus operation.id) bed₁).1 with
    | error failure =>
      dsimp only
      rw [rests_isOnline]
      split
      · refine (rests_reconnect ((asked.isShutDown_eq _).trans running)).2 ?_
        split
        · exact ih _ (asked.respond hooks caller (by rintro _ _ ⟨⟩))
        · rename_i takes
          exact ⟨asked, .reconnecting (lt_wakeAfter _ takes)⟩
      · exact ih _ asked
    | ok status =>
      dsimp only
      split
      · have keeps := keepsTo_complete operation
        rw [rests_bind]
        refine keeps.rests Call.isImmediate_of_ofCompletion fun result => ?_
        have completed := asked.run hooks caller keeps (by rintro _ _ ⟨⟩)
        cases result with
        | ok => exact ih _ completed
        | error fault => exact ih _ completed
      · exact ih _ asked

theorem rests_pass (hooks : bed.hooks = []) (running : bed.isShutDown caller.signal = false) :
    Rests caller (Comes p bed) pass bed := by
  rw [pass, rests_isOnline]
  split
  · rw [rests_ask_bind rfl]
    exact rests_passOver hooks running _ _ (.refl bed)
  · exact ⟨.refl bed, .ended⟩

end Poll

/-! ## Turns -/

/-- The stored cursor is loaded, or the load fails. -/
theorem Testbed.respond_loadCursor {bed : Testbed} (hooks : bed.hooks = []) (caller : Caller)
    (key : String) :
    (∃ fault, (respond caller (.loadCursor key) bed).1 = .error fault) ∨
      (respond caller (.loadCursor key) bed).1 = .ok (bed.stores.cursors.get? key) := by
  rcases respond_cases (fun _ => True) hooks caller (.loadCursor key) with
    ⟨log, -, responds⟩ | ⟨detail, log, injections, -, -, refused, -⟩
  · rw [responds]
    exact .inr rfl
  · exact .inl ⟨_, (Option.some.inj refused).symm⟩

/-- The loops take time when they pause. -/
structure Settings.Paced (settings : Settings) : Prop where
  poll : settings.pollInterval ≠ 0
  login : settings.loginInterval ≠ 0
  operation : settings.operationInterval ≠ 0

theorem Settings.Paced.ne_zero {settings : Settings} (paced : settings.Paced)
    {outcome : Sync.Outcome} {ms : Nat} (rest : outcome.rest? settings = some (.pause ms)) :
    ms ≠ 0 := by
  cases outcome with
  | notLoggedIn => exact Rest.pause.inj (Option.some.inj rest) ▸ paced.login
  | offline | held | idle => exact Rest.pause.inj (Option.some.inj rest) ▸ paced.poll
  | fetchFailed | cursorReset | advanced | cancelled => cases rest

/-- No hook is armed, the feed has these ids, and of the stored cursor `room` holds. -/
structure Testbed.Steady (room : Cursor → Prop) (settings : Settings) (ids : List String)
    (bed : Testbed) : Prop where
  hooks : bed.hooks = []
  ids : bed.agent.events.map (·.id) = ids
  room : ∀ cursor, bed.stores.cursors.get? settings.cursorKey = some cursor →
    room cursor.normalized

theorem Testbed.Steady.after {room : Cursor → Prop} {settings : Settings} {ids : List String}
    {bed bed₁ : Testbed} (steady : bed.Steady room settings ids)
    (within : ∀ cursor, cursor.nextIndex ≤ ids.length → room cursor)
    (goesOn : bed.GoesOn (·.nextIndex ≤ ids.length) bed₁) : bed₁.Steady room settings ids where
  hooks := goesOn.hooks.trans steady.hooks
  ids := goesOn.ids.trans steady.ids
  room cursor found := by
    rcases goesOn.cursors _ _ found with before | short
    · exact steady.room cursor before
    · refine within _ ?_
      unfold Cursor.normalized
      split
      · exact Nat.zero_le _
      · exact short

namespace Loop

/-- Of the cursor that the loop goes on from `room` holds. -/
def Fits (room : Cursor → Prop) : Loop → Prop
  | feed state => room state.cursor
  | _ => True

/-- How often the loop may still change its cursor, or load it. -/
def effort (settings : Settings) (ids : List String) : Loop → Nat
  | feedStart => ids.length + 2
  | feed state => state.cursor.effort settings.windowSize ids
  | pollerStart | poller => 0

/-- What a loop has to do, and with how much effort : a turn, or what is left of one once the agent
is reached again. -/
inductive Due (room : Cursor → Prop) (settings : Settings) (ids : List String) :
    Nat → Script (Turn Loop) → Prop where
  | turn {loop : Loop} (fits : loop.Fits room) :
      Due room settings ids (loop.effort settings ids) (loop.turn settings)
  | recovered {state : Sync.State} (fits : room state.cursor) :
      Due room settings ids (state.cursor.effort settings.windowSize ids + 1)
        (call .reconnected fun _ => done (.again .yield (.feed state)))
  | passing {rest : List Operation} {tally : Poll.Tally} :
      Due room settings ids 0 (call .reconnected fun _ => do
        let _ ← Poll.passOver rest tally
        return .again (.pause settings.operationInterval) .poller)

theorem Due.le {room : Cursor → Prop} {settings : Settings} {ids : List String} {n : Nat}
    {script : Script (Turn Loop)} (due : Due room settings ids n script) : n ≤ ids.length + 2 := by
  cases due with
  | @turn loop fits =>
    cases loop with
    | feedStart => exact Nat.le_refl _
    | feed state => exact Nat.le_succ_of_le (Cursor.effort_le _ _ _)
    | pollerStart | poller => exact Nat.zero_le _
  | recovered fits => exact Nat.succ_le_succ (Cursor.effort_le _ _ _)
  | passing => exact Nat.zero_le _

/-- Where a turn with so much effort comes to rest. -/
inductive Halts (room : Cursor → Prop) (settings : Settings) (ids : List String) (n : Nat)
    (bed : Testbed) : Stop (Turn Loop) → Testbed → Prop where
  | pausing {ms : Nat} {loop : Loop} {bed' : Testbed} (takes : ms ≠ 0) (fits : loop.Fits room) :
      Halts room settings ids n bed (.ended (.again (.pause ms) loop)) bed'
  | yielding {loop : Loop} {bed' : Testbed} (fits : loop.Fits room)
      (less : loop.effort settings ids + bed'.refusals < n + bed.refusals) :
      Halts room settings ids n bed (.ended (.again .yield loop)) bed'
  | waiting {wake m : Nat} {elapsed : Script (Turn Loop)} {last : Turn Loop} {bed' : Testbed}
      (later : bed'.time < wake) (due : Due room settings ids m elapsed) (isLast : last.IsLast) :
      Halts room settings ids n bed (.asleep (some wake) elapsed (some (done last))) bed'
  | crashed {cursor : Cursor} {bed' : Testbed} (fits : room cursor)
      (overflow : ¬cursor.HasRoom settings.windowSize) :
      Halts room settings ids n bed (.ended (.finished .crashed)) bed'

/-- Where a turn comes to rest, after calls that go on. -/
def Arrives (room : Cursor → Prop) (settings : Settings) (ids : List String) (n : Nat)
    (bed : Testbed) (stop : Stop (Turn Loop)) (bed' : Testbed) : Prop :=
  bed.GoesOn (·.nextIndex ≤ ids.length) bed' ∧ Halts room settings ids n bed stop bed'

variable {room : Cursor → Prop} {settings : Settings} {ids : List String} {n : Nat}
  {state : Sync.State} {bed bed₁ : Testbed} {caller : Caller}

/-- What comes before a turn may take effort, and may use up failures. -/
theorem rests_after {m : Nat} {script : Script (Turn Loop)}
    (goesOn : bed.GoesOn (·.nextIndex ≤ ids.length) bed₁) (le : n ≤ m)
    (rests : Rests caller (Arrives room settings ids n bed₁) script bed₁) :
    Rests caller (Arrives room settings ids m bed) script bed₁ := by
  refine rests.mono fun stop bed' ⟨goesOn', halts⟩ => ⟨goesOn.trans goesOn', ?_⟩
  cases halts with
  | pausing takes fits => exact .pausing takes fits
  | yielding fits less =>
    exact .yielding fits (Nat.lt_of_lt_of_le less (Nat.add_le_add le goesOn.refusals))
  | waiting later due isLast => exact .waiting later due isLast
  | crashed fits overflow => exact .crashed fits overflow

/-- A poller that is in a pass rests where that does. -/
theorem rests_watching (paced : settings.Paced) {script : Script Poll.Tally}
    (rests : Rests caller (Poll.Comes (·.nextIndex ≤ ids.length) bed) script bed₁) :
    Rests caller (Arrives room settings ids n bed) (do
      let _ ← script
      return .again (.pause settings.operationInterval) .poller) bed₁ := by
  refine rests_bind.2 (rests.mono fun stop bed' ⟨goesOn, stops⟩ => ?_)
  cases stops with
  | ended => exact ⟨goesOn, .pausing paced.operation trivial⟩
  | reconnecting later => exact ⟨goesOn, .waiting later .passing trivial⟩

section

variable (paced : settings.Paced) (steady : bed.Steady room settings ids)
  (running : bed.isShutDown caller.signal = false)

include paced steady running

theorem rests_watchOperations :
    Rests caller (Arrives room settings ids n bed) (watchOperations settings) bed := by
  rw [watchOperations, rests_isShutDown, running, if_neg Bool.false_ne_true]
  exact rests_watching paced (Poll.rests_pass steady.hooks running)

theorem rests_followFeed (within : ∀ cursor, cursor.nextIndex ≤ ids.length → room cursor)
    (fits : room state.cursor) :
    Rests caller (Arrives room settings ids (state.cursor.effort settings.windowSize ids) bed)
      (followFeed settings state) bed := by
  rw [followFeed, rests_isShutDown, running, if_neg Bool.false_ne_true, rests_bind]
  refine (Sync.rests_step steady.hooks running steady.ids).mono fun stop bed' comes => ?_
  obtain ⟨goesOn, stops⟩ := comes
  cases stops with
  | pausing rest kept =>
    dsimp only
    rw [rest]
    exact ⟨goesOn, .pausing (paced.ne_zero rest) ((congrArg room kept).mpr fits)⟩
  | changed rest short less =>
    dsimp only
    rw [rest]
    refine ⟨goesOn, .yielding ?_ less⟩
    exact short.elim (fun kept => (congrArg room kept).mpr fits) (within _)
  | reconnecting later => exact ⟨goesOn, .waiting later (.recovered fits) trivial⟩
  | crashed overflow => exact ⟨goesOn, .crashed fits overflow⟩

end

section

variable (paced : settings.Paced) (steady : bed.Steady room settings ids)
  (running : bed.isShutDown caller.signal = false)
  (within : ∀ cursor, cursor.nextIndex ≤ ids.length → room cursor)

include paced steady running within

/-- The stored operations are loaded, and then watched. -/
theorem rests_pollerStart :
    Rests caller (Arrives room settings ids n bed) (turn settings pollerStart) bed := by
  refine (rests_call (c := .pendingOperations) rfl).2 ?_
  have asked : bed.GoesOn (·.nextIndex ≤ ids.length) (respond caller .pendingOperations bed).2 :=
    respond_goesOn steady.hooks caller (by rintro _ _ ⟨⟩)
  generalize (respond caller .pendingOperations bed).2 = bed₁ at asked ⊢
  cases (respond caller .pendingOperations bed).1 with
  | error fault => exact ⟨asked, .pausing paced.operation trivial⟩
  | ok stored =>
    refine (rests_call (c := .enqueueAll stored) rfl).2 ?_
    have queued := asked.respond (c := .enqueueAll stored) steady.hooks caller (by rintro _ _ ⟨⟩)
    exact rests_after queued (Nat.le_refl _) (rests_watchOperations paced
      (steady.after within queued) ((queued.isShutDown_eq _).trans running))

/-- The cursor is loaded, and put at the start if there is none, and then the feed is followed. -/
theorem rests_feedStart : Rests caller (Arrives room settings ids (ids.length + 2) bed)
    (turn settings feedStart) bed := by
  have follows {bed₁ : Testbed} {cursor : Cursor}
      (loaded : bed.GoesOn (·.nextIndex ≤ ids.length) bed₁) (fits : room cursor) :
      Rests caller (Arrives room settings ids (ids.length + 2) bed)
        (followFeed settings (.at cursor)) bed₁ :=
    rests_after loaded (Nat.le_succ_of_le (Cursor.effort_le _ _ _)) (rests_followFeed paced
      (steady.after within loaded) ((loaded.isShutDown_eq _).trans running) within fits)
  refine (rests_call (c := .loadCursor settings.cursorKey) rfl).2 ?_
  have asked : bed.GoesOn (·.nextIndex ≤ ids.length)
      (respond caller (.loadCursor settings.cursorKey) bed).2 :=
    respond_goesOn steady.hooks caller (by rintro _ _ ⟨⟩)
  generalize (respond caller (.loadCursor settings.cursorKey) bed).2 = bed₁ at asked ⊢
  rcases respond_loadCursor steady.hooks caller settings.cursorKey with ⟨fault, failed⟩ | found
  · rw [failed]
    exact ⟨asked, .pausing paced.poll trivial⟩
  rw [found]
  cases stored : bed.stores.cursors.get? settings.cursorKey with
  | some cursor => exact follows asked (steady.room cursor stored)
  | none =>
    refine (rests_call (c := .storeCursor settings.cursorKey .start) rfl).2 ?_
    have put : bed.GoesOn (·.nextIndex ≤ ids.length)
        (respond caller (.storeCursor settings.cursorKey .start) bed₁).2 := by
      refine asked.respond steady.hooks caller ?_
      rintro key cursor ⟨⟩
      exact Nat.zero_le _
    cases (respond caller (.storeCursor settings.cursorKey .start) bed₁).1 with
    | error fault => exact ⟨put, .pausing paced.poll trivial⟩
    | ok => exact follows put (within .start (Nat.zero_le _))

theorem rests_turn {loop : Loop} (fits : loop.Fits room) : Rests caller
    (Arrives room settings ids (loop.effort settings ids) bed) (turn settings loop) bed := by
  cases loop with
  | feedStart => exact rests_feedStart paced steady running within
  | feed state => exact rests_followFeed paced steady running within fits
  | pollerStart => exact rests_pollerStart paced steady running within
  | poller => exact rests_watchOperations paced steady running

/-- What is due comes to rest. -/
theorem Due.rests {script : Script (Turn Loop)} (due : Due room settings ids n script) :
    Rests caller (Arrives room settings ids n bed) script bed := by
  have reached : bed.GoesOn (·.nextIndex ≤ ids.length) (respond caller .reconnected bed).2 :=
    respond_goesOn steady.hooks caller (by rintro _ _ ⟨⟩)
  cases due with
  | turn fits => exact rests_turn paced steady running within fits
  | recovered fits =>
    rw [rests_call rfl]
    exact ⟨reached, .yielding fits
      (Nat.add_lt_add_of_lt_of_le (Nat.lt_succ_self _) reached.refusals)⟩
  | passing =>
    rw [rests_call rfl]
    exact rests_watching paced (Poll.rests_passOver steady.hooks running _ _ reached)

end

end Loop

end Feedkeeper
