import Feedkeeper.Proofs.Window

/-!
# The limits of a step

A step adds positions of 64 bits, counts the events that failed, and takes a window apart by index.
`Careful.step` does what the step does and looks at every sum and at every index on the way : it
ends with a `Mishap` where one is out of its limits, and leaves the state as it was at that point.
While the feed answers with no more events than it was asked for (`Frugal`), it comes to the same as
the step, and its one mishap is that the end of the window is no position (`step_within_limits`).

The sums stay within their limits because the new events of a window stand before its end, which is
a position, and the indices do because the first held event is one of them (`Walks.held_lt`).
-/

namespace Feedkeeper

/-- A call is followed by the same if what follows is the same for all values that it can end
with. -/
theorem Script.bind_congr_of_traces {α β : Type} {script : Script α} {f g : α → Script β}
    (same : ∀ value calls, script.Traces calls (.done value) → f value = g value) :
    script >>= f = script >>= g := by
  induction script with
  | done value => exact same value [] (.here _)
  | call c next ih =>
    refine congrArg (Script.call c) (funext fun answer => ?_)
    exact ih answer fun value calls traces => same value _ (.next traces)

namespace Sync

/-- The first held event of a walk is one of those walked over. -/
theorem Walks.held_lt {events : List Event} {index k : Nat} {pass pass' : Pass}
    {handled : List Handling} (walks : Walks events index pass handled pass')
    (unheld : pass.held = none) (held : pass'.held = some k) : k < index + events.length := by
  induction walks with
  | ended =>
    rw [unheld] at held
    cases held
  | settled _ _ ih =>
    have := ih unheld held
    rw [List.length_cons]
    omega
  | @routed rest index pass pass' handled handling _ walks ih =>
    rw [List.length_cons]
    cases holds : handling.holds with
    | false =>
      have := ih (Pass.held_record_eq_none unheld holds) held
      omega
    | true =>
      have first := walks.held_eq (Pass.held_record_eq_some unheld holds)
      rw [held, Option.some.injEq] at first
      omega

/-! ## Careful steps -/

/-- What can be out of its limits. -/
inductive Mishap where
  | addOverflow
  | outOfRange
  deriving DecidableEq, Repr

/-- A procedure on the state of the feed loop that may end with a mishap. -/
abbrev Careful := ExceptT Mishap (StateT State Script)

namespace Careful

open Script (ask)

variable {α β : Type}

/-- What the procedure comes to from a state. -/
def runFrom (procedure : Careful α) (state : State) : Script (Except Mishap α × State) :=
  procedure.run.run state

/-- The sum of two numbers of 64 bits. -/
def add (first second : Nat) : Careful Nat :=
  match Position.add? first second with
  | some sum => pure sum
  | none => throw .addOverflow

/-- The item at an index. -/
def item (items : List α) (index : Nat) : Careful α :=
  match items[index]? with
  | some item => pure item
  | none => throw .outOfRange

/-- The items from an index on. -/
def itemsFrom (items : List α) (index : Nat) : Careful (List α) :=
  if index ≤ items.length then pure (items.drop index) else throw .outOfRange

/-- The items up to an index. -/
def itemsTo (items : List α) (index : Nat) : Careful (List α) :=
  if index ≤ items.length then pure (items.take index) else throw .outOfRange

/-- Routes the events in order, given the index of the first held one, and how many failed. -/
def routeAll : List Event → Nat → Option Nat → Nat → Careful (Option Nat × Nat)
  | [], _, held, failed => pure (held, failed)
  | event :: rest, index, held, failed => do
    if (← get).isSettled event.id then routeAll rest (index + 1) held failed
    else do
      let result ← liftM (Routing.route event).run
      liftM (ask (.reportRouting event.id result))
      match result with
      | .ok _ =>
        if held.isSome then
          modify fun state => { state with settled := state.settled ++ [event.id] }
        routeAll rest (index + 1) held failed
      | .error error =>
        let failed ← add failed 1
        routeAll rest (index + 1)
          (if error.isTransient && held.isNone then some index else held) failed

/-- Looks up the event at which the cursor is held, and its position, to note them. -/
def note (events : List Event) : Option Nat → Careful Unit
  | none => pure ()
  | some index => do
    let _ ← item events index
    let _ ← add (← get).cursor.nextIndex index

/-- Moves the cursor past so many events, or holds it at the first one. -/
def move (settings : Settings) (events : List Event) (processed failed : Nat) :
    Careful Outcome := do
  let passed ← itemsTo events processed
  modify fun state =>
    { state with settled := state.settled.filter fun id => !passed.any (·.id == id) }
  match processed with
  | 0 => return .held (← item events 0).id failed
  | before + 1 =>
    let last ← item events before
    let nextIndex ← add (← get).cursor.nextIndex processed
    modify fun state => { state with cursor := ⟨nextIndex, last.id⟩ }
    liftM (persist settings ⟨nextIndex, last.id⟩)
    return .advanced processed failed

/-- Routes new events, and moves the cursor up to the first one that is held. -/
def consume (settings : Settings) (events : List Event) : Careful Outcome := do
  let (held, failed) ← routeAll events 0 none 0
  if events.isEmpty then return .idle
  else do
    note events held
    move settings events (held.getD events.length) failed

/-- Takes a window whose first event is the anchor, unless the cursor is at the start; begins anew
if the anchor is not there. -/
def receive (settings : Settings) (window : List Event) : Careful Outcome := do
  let cursor := (← get).cursor
  if cursor.matchesAnchor (window.head?.map (·.id)) then
    if cursor.isStart then consume settings window
    else consume settings (← itemsFrom window 1)
  else
    set (State.at .start)
    liftM (persist settings .start)
    return .cursorReset

/-- Waits for the agent after a failed fetch, if the gate still says that it can be reached. -/
def recover : Careful Outcome := do
  if ← liftM (ask .isOnline) then
    if ← liftM (ask .reconnect) then return .fetchFailed
    else return .cancelled
  else return .fetchFailed

/-- What a step does behind the gate. -/
def fetch (settings : Settings) : Careful Outcome := do
  let offset := (← get).cursor.windowStart
  let limit ← add offset settings.windowSize
  match ← liftM (ask (.fetch offset limit)) with
  | .ok window => receive settings window
  | .error _ => recover

/-- A step that looks at every sum and every index. -/
def step (settings : Settings) : Careful Outcome := do
  if ← liftM (ask .isLoggedIn) then
    if ← liftM (ask .isOnline) then fetch settings
    else return .offline
  else return .notLoggedIn

/-! ## Running careful procedures -/

theorem runFrom_bind (first : Careful α) (next : α → Careful β) (state : State) :
    (first >>= next).runFrom state = first.runFrom state >>= fun result =>
      match result.1 with
      | .ok value => (next value).runFrom result.2
      | .error mishap => pure (.error mishap, result.2) := by
  rw [runFrom, ExceptT.run_bind, StateT.run_bind]
  refine bind_congr fun ⟨outcome, state'⟩ => ?_
  cases outcome <;> rfl

variable {next : α → Careful β} {state : State}

@[simp] theorem runFrom_get_bind {next : State → Careful β} :
    runFrom (get >>= next) state = runFrom (next state) state :=
  rfl

@[simp] theorem runFrom_set_bind {next : PUnit → Careful β} (state' : State) :
    runFrom (set state' >>= next) state = runFrom (next ⟨⟩) state' :=
  rfl

@[simp] theorem runFrom_modify_bind {next : PUnit → Careful β} (f : State → State) :
    runFrom (modify f >>= next) state = runFrom (next ⟨⟩) (f state) :=
  rfl

@[simp] theorem runFrom_liftM_bind (script : Script α) :
    runFrom (liftM script >>= next) state =
      script >>= fun value => runFrom (next value) state := by
  have lifted : runFrom (liftM script) state = script >>= fun value => pure (.ok value, state) := by
    simp only [runFrom, liftM, monadLift, MonadLift.monadLift, ExceptT.run_lift, StateT.run_map,
      StateT.run_lift, map_bind, map_pure]
  rw [runFrom_bind, lifted, bind_assoc]
  rfl

theorem runFrom_add_bind {next : Nat → Careful β} {first second : Nat}
    (fits : first + second < Position.bound) :
    runFrom (add first second >>= next) state = runFrom (next (first + second)) state := by
  rw [add, Position.add?_eq_some_iff.2 ⟨rfl, fits⟩]
  rfl

theorem runFrom_item_bind {items : List α} {index : Nat} {found : α}
    (there : items[index]? = some found) :
    runFrom (item items index >>= next) state = runFrom (next found) state := by
  rw [item, there]
  rfl

theorem runFrom_itemsFrom_bind {next : List α → Careful β} {items : List α} {index : Nat}
    (within : index ≤ items.length) : runFrom (itemsFrom items index >>= next) state =
      runFrom (next (items.drop index)) state := by
  rw [itemsFrom, if_pos within]
  rfl

theorem runFrom_itemsTo_bind {next : List α → Careful β} {items : List α} {index : Nat}
    (within : index ≤ items.length) : runFrom (itemsTo items index >>= next) state =
      runFrom (next (items.take index)) state := by
  rw [itemsTo, if_pos within]
  rfl

/-! ## Windows that are not too long -/

variable {settings : Settings} {events window : List Event}

/-- What a step comes to, as a careful procedure says it. -/
def reported (state : State) : Except Crash (Outcome × State) → Except Mishap Outcome × State
  | .ok (outcome, state') => (.ok outcome, state')
  | .error .addOverflow => (.error .addOverflow, state)

/-- The failures are counted as long as there are not too many events. -/
theorem runFrom_routeAll (events : List Event) (index : Nat) (held : Option Nat) (failed : Nat)
    (room : failed + events.length < Position.bound) (state : State) :
    runFrom (routeAll events index held failed) state =
      Sync.routeAll events index ⟨held, failed, state.settled⟩ >>= fun pass =>
        pure (.ok (pass.held, pass.failed), { state with settled := pass.settled }) := by
  induction events generalizing index held failed state with
  | nil => rfl
  | cons event rest ih =>
    rw [List.length_cons] at room
    rw [routeAll, Sync.routeAll, runFrom_get_bind]
    cases settled : state.settled.contains event.id with
    | true => rw [State.isSettled, settled, if_pos rfl, if_pos rfl, ih _ _ _ (by omega)]
    | false =>
      rw [State.isSettled, settled, if_neg Bool.false_ne_true, if_neg Bool.false_ne_true]
      simp only [runFrom_liftM_bind, bind_assoc]
      refine bind_congr fun result => bind_congr fun _ => ?_
      cases result with
      | error error =>
        dsimp only
        rw [runFrom_add_bind (by omega), ih _ _ _ (by omega)]
        rfl
      | ok verdict =>
        cases held with
        | none =>
          dsimp only
          rw [if_neg (by decide), ih _ _ _ (by omega)]
          rfl
        | some k =>
          dsimp only
          rw [if_pos Option.isSome_some, runFrom_modify_bind, ih _ _ _ (by omega), Pass.record,
            settled]
          rfl

/-- A held event is there, and stands at a position. -/
theorem runFrom_note_bind (state : State) {next : Unit → Careful β} {held : Option Nat}
    (within : ∀ index, held = some index → index < events.length)
    (fits : state.cursor.nextIndex + events.length < Position.bound) :
    runFrom (note events held >>= next) state = runFrom (next ()) state := by
  cases held with
  | none => rfl
  | some index =>
    have behind := within index rfl
    have there : events[index]? = some events[index] := List.getElem?_eq_getElem behind
    simp only [note, bind_assoc]
    rw [runFrom_item_bind there, runFrom_get_bind, runFrom_add_bind (by omega)]
    rfl

/-- The cursor moves on to behind the last of the events, or is held at the first one. -/
theorem runFrom_move (state : State) {first : Event} {rest : List Event} {processed failed : Nat}
    (within : processed ≤ (first :: rest).length)
    (fits : state.cursor.nextIndex + processed < Position.bound) :
    runFrom (move settings (first :: rest) processed failed) state =
      match ((first :: rest).take processed).getLast? with
      | none => pure (.ok (.held first.id failed),
          { state with settled := state.settled.filter fun id =>
              !((first :: rest).take processed).any (·.id == id) })
      | some last => persist settings ⟨state.cursor.nextIndex + processed, last.id⟩ >>= fun _ =>
          pure (.ok (.advanced processed failed),
            { cursor := ⟨state.cursor.nextIndex + processed, last.id⟩,
              settled := state.settled.filter fun id =>
                !((first :: rest).take processed).any (·.id == id) }) := by
  unfold move
  rw [runFrom_itemsTo_bind within, runFrom_modify_bind]
  cases processed with
  | zero => rfl
  | succ before =>
    obtain ⟨last, there⟩ : ∃ last, (first :: rest)[before]? = some last :=
      ⟨_, List.getElem?_eq_getElem within⟩
    have ended : ((first :: rest).take (before + 1)).getLast? = some last := by
      rw [List.getLast?_take, if_neg (Nat.succ_ne_zero _), Nat.add_sub_cancel, there]
      rfl
    rw [ended]
    dsimp only
    rw [runFrom_item_bind there, runFrom_get_bind, runFrom_add_bind fits, runFrom_modify_bind,
      runFrom_liftM_bind]
    rfl

/-- New events that stand at positions are consumed alike. -/
theorem runFrom_consume (fits : state.cursor.nextIndex + events.length < Position.bound) :
    runFrom (consume settings events) state =
      Sync.consume settings state events >>= fun result => pure (reported state result) := by
  rw [consume, Sync.consume, runFrom_bind, runFrom_routeAll events 0 none 0 (by omega)]
  simp only [bind_assoc, pure_bind]
  refine Script.bind_congr_of_traces fun pass calls traces => ?_
  obtain ⟨handled, walks, -⟩ := records_routeAll events 0 _ _ _ traces
  cases events with
  | nil => rfl
  | cons first rest =>
    have held (index : Nat) (h : pass.held = some index) : index < (first :: rest).length := by
      have := walks.held_lt rfl h
      rwa [Nat.zero_add] at this
    have within : pass.held.getD (first :: rest).length ≤ (first :: rest).length := by
      cases h : pass.held with
      | none => exact Nat.le_refl _
      | some index => exact Nat.le_of_lt (held index h)
    have fits' : state.cursor.nextIndex + pass.held.getD (first :: rest).length <
        Position.bound := Nat.lt_of_le_of_lt (Nat.add_le_add_left within _) fits
    dsimp only
    rw [List.isEmpty_cons, if_neg Bool.false_ne_true,
      runFrom_note_bind ⟨state.cursor, pass.settled⟩ held fits,
      runFrom_move ⟨state.cursor, pass.settled⟩ within fits', List.length_take_of_le within]
    cases ((first :: rest).take (pass.held.getD (first :: rest).length)).getLast? with
    | none => rfl
    | some last =>
      dsimp only
      rw [Cursor.advance?, Position.add?_eq_some_iff.2 ⟨rfl, fits'⟩]
      rfl

/-- A window that is not longer than what was asked for is received alike. -/
theorem runFrom_receive (fits : state.cursor.windowStart + settings.windowSize < Position.bound)
    (short : window.length ≤ settings.windowSize) : runFrom (receive settings window) state =
      Sync.receive settings state window >>= fun result => pure (reported state result) := by
  rw [receive, Sync.receive, runFrom_get_bind]
  dsimp only
  cases matched : state.cursor.matchesAnchor (window.head?.map (·.id)) with
  | false =>
    rw [if_neg Bool.false_ne_true, if_neg Bool.false_ne_true, runFrom_set_bind, runFrom_liftM_bind]
    rfl
  | true =>
    rw [Cursor.windowStart] at fits
    rw [if_pos rfl, if_pos rfl]
    cases start : state.cursor.isStart with
    | true =>
      have zero : state.cursor.nextIndex = 0 := beq_iff_eq.1 start
      rw [if_pos rfl, if_pos rfl]
      exact runFrom_consume (by omega)
    | false =>
      -- The window begins with the anchor.
      rw [Cursor.matchesAnchor, start, Bool.false_or, beq_iff_eq] at matched
      obtain ⟨anchor, rest, rfl⟩ : ∃ anchor rest, window = anchor :: rest := by
        cases window with
        | nil => cases matched
        | cons anchor rest => exact ⟨anchor, rest, rfl⟩
      have moved : state.cursor.nextIndex ≠ 0 := beq_eq_false_iff_ne.1 start
      rw [if_neg Bool.false_ne_true, if_neg Bool.false_ne_true,
        runFrom_itemsFrom_bind (Nat.succ_le_succ (Nat.zero_le _))]
      rw [List.length_cons] at short
      rw [List.drop_succ_cons, List.drop_zero]
      exact runFrom_consume (by omega)

theorem runFrom_recover (state : State) : runFrom recover state =
    Sync.recover state >>= fun result => pure (reported state result) := by
  rw [recover, Sync.recover, runFrom_liftM_bind, bind_assoc]
  refine bind_congr fun online => ?_
  cases online with
  | false => rfl
  | true =>
    rw [if_pos rfl, if_pos rfl, runFrom_liftM_bind, bind_assoc]
    refine bind_congr fun reached => ?_
    cases reached <;> rfl

end Careful

/-! ## What a step comes to -/

section

open Script (ask)

/-- Whether the gate lets the loop look at the feed. -/
def gate : Script Bool := do
  if ← ask .isLoggedIn then ask .isOnline else return false

/-- What a step does once the gate has let it through. -/
def behindGate (settings : Settings) (state : State) :
    Script (Except Crash (Outcome × State)) := do
  let offset := state.cursor.windowStart
  match Position.add? offset settings.windowSize with
  | none => return .error .addOverflow
  | some limit =>
    match ← ask (.fetch offset limit) with
    | .ok window => receive settings state window
    | .error _ => recover state

variable {W : Type} {answer : (c : Call) → W → c.Answer × W} {settings : Settings} {state : State}
  {w : W}

/-- A sequence is run by running its parts in turn. -/
theorem run_bind {α β : Type} (script : Script α) (f : α → Script β) (w : W) :
    (script >>= f).run answer w = (f (script.run answer w).1).run answer (script.run answer w).2 :=
  Script.run_bind _ _ _ _

theorem step_eq (settings : Settings) (state : State) : step settings state = do
    if ← ask .isLoggedIn then
      if ← ask .isOnline then behindGate settings state
      else return .ok (.offline, state)
    else return .ok (.notLoggedIn, state) :=
  rfl

theorem runFrom_step (settings : Settings) (state : State) :
    (Careful.step settings).runFrom state = do
      if ← ask .isLoggedIn then
        if ← ask .isOnline then (Careful.fetch settings).runFrom state
        else return (.ok .offline, state)
      else return (.ok .notLoggedIn, state) := by
  rw [Careful.step, Careful.runFrom_liftM_bind]
  refine bind_congr fun loggedIn => ?_
  cases loggedIn with
  | false => rfl
  | true =>
    rw [if_pos rfl, if_pos rfl, Careful.runFrom_liftM_bind]
    refine bind_congr fun online => ?_
    cases online <;> rfl

/-- A step ends at the gate with the state as it was, or goes on behind it, and so does a careful
one. -/
theorem run_step_gate (settings : Settings) (state : State) (w : W) :
    ((gate.run answer w).1 = false ∧ ∃ outcome,
      (step settings state).run answer w = (.ok (outcome, state), (gate.run answer w).2) ∧
      ((Careful.step settings).runFrom state).run answer w =
        ((.ok outcome, state), (gate.run answer w).2)) ∨
    ((gate.run answer w).1 = true ∧
      (step settings state).run answer w =
        (behindGate settings state).run answer (gate.run answer w).2 ∧
      ((Careful.step settings).runFrom state).run answer w =
        ((Careful.fetch settings).runFrom state).run answer (gate.run answer w).2) := by
  rw [step_eq, runFrom_step, gate, run_bind, run_bind, run_bind, Script.run_ask]
  generalize answer .isLoggedIn w = loggedIn
  obtain ⟨_ | _, w⟩ := loggedIn
  · exact .inl ⟨rfl, _, rfl, rfl⟩
  dsimp only
  rw [if_pos rfl, if_pos rfl, if_pos rfl, run_bind, run_bind, Script.run_ask]
  generalize answer .isOnline w = online
  obtain ⟨_ | _, w⟩ := online
  · exact .inl ⟨rfl, _, rfl, rfl⟩
  · exact .inr ⟨rfl, rfl, rfl⟩

/-- A script makes calls and ends with what it comes to. -/
theorem exists_traces_run {α : Type} (answer : (c : Call) → W → c.Answer × W)
    (script : Script α) (w : W) : ∃ calls, script.Traces calls (.done (script.run answer w).1) := by
  induction script generalizing w with
  | done value => exact ⟨[], .here _⟩
  | call c next ih =>
    obtain ⟨calls, traces⟩ := ih (answer c w).1 (answer c w).2
    exact ⟨_, .next traces⟩

/-- A step does not crash on a window that is not longer than what was asked for. -/
theorem receive_ne_crash {window : List Event} {calls : List Answered} {crash : Crash}
    (fits : state.cursor.windowStart + settings.windowSize < Position.bound)
    (short : window.length ≤ settings.windowSize) :
    ¬(receive settings state window).Traces calls (.done (.error crash)) := fun traces => by
  have rounds : Rounds settings state _ (fetching settings state window ++ calls) :=
    records_receive fits window _ _ traces
  cases rounds with
  | overrun long => exact absurd short (Nat.not_le.2 long)

/-- The feed answers with no more events than it was asked for. -/
def Frugal (answer : (c : Call) → W → c.Answer × W) : Prop :=
  ∀ offset limit w window, (answer (.fetch offset limit) w).1 = .ok window →
    window.length ≤ limit - offset

/-- Behind the gate, the one thing that can be out of its limits is the end of the window, and
nothing is asked then. -/
theorem run_behindGate (frugal : Frugal answer) (settings : Settings) (state : State) (w : W) :
    ((Careful.fetch settings).runFrom state).run answer w =
        (Careful.reported state ((behindGate settings state).run answer w).1,
          ((behindGate settings state).run answer w).2) ∧
      if Position.bound ≤ state.cursor.windowStart + settings.windowSize then
        (behindGate settings state).run answer w = (.error .addOverflow, w)
      else ∃ reached, ((behindGate settings state).run answer w).1 = .ok reached := by
  rw [Careful.fetch, Careful.runFrom_get_bind, behindGate]
  cases added : Position.add? state.cursor.windowStart settings.windowSize with
  | none =>
    rw [if_pos (Position.add?_eq_none_iff.1 added)]
    dsimp only
    rw [Careful.add, added]
    exact ⟨rfl, rfl⟩
  | some limit =>
    obtain ⟨rfl, fits⟩ := Position.add?_eq_some_iff.1 added
    rw [if_neg (Nat.not_le.2 fits)]
    dsimp only
    rw [Careful.runFrom_add_bind fits, Careful.runFrom_liftM_bind, run_bind, run_bind,
      Script.run_ask]
    have within := frugal state.cursor.windowStart
      (state.cursor.windowStart + settings.windowSize) w
    generalize answer (.fetch state.cursor.windowStart
      (state.cursor.windowStart + settings.windowSize)) w = fetched at within
    obtain ⟨failure | window, w⟩ := fetched
    · dsimp only
      rw [Careful.runFrom_recover, run_bind]
      obtain ⟨calls, traces⟩ := exists_traces_run answer (recover state) w
      obtain ⟨⟨outcome, -, ended⟩, -⟩ := records_recover state _ _ traces
      exact ⟨rfl, _, ended⟩
    · have short := within window rfl
      rw [Nat.add_sub_cancel_left] at short
      dsimp only
      rw [Careful.runFrom_receive fits short, run_bind]
      obtain ⟨calls, traces⟩ := exists_traces_run answer (receive settings state window) w
      refine ⟨rfl, ?_⟩
      cases ended : ((receive settings state window).run answer w).1 with
      | ok reached => exact ⟨reached, rfl⟩
      | error crash =>
        rw [ended] at traces
        exact absurd traces (receive_ne_crash fits short)

end

/-- While the feed answers with no more events than it was asked for, a step that looks at every sum
and every index comes to the same as the step. Something is out of its limits exactly if the gate
lets the step through and the end of the window is no position. Then the step crashes, the state is
as it was, and nothing was asked but the gate. -/
theorem step_within_limits {W : Type} {answer : (c : Call) → W → c.Answer × W}
    (frugal : Frugal answer) (settings : Settings) (state : State) (w : W) :
    let plain := (step settings state).run answer w
    let careful := ((Careful.step settings).runFrom state).run answer w
    let gated := gate.run answer w
    careful = (Careful.reported state plain.1, plain.2) ∧
      (plain.1 = .error .addOverflow ↔ gated.1 = true ∧
        Position.bound ≤ state.cursor.windowStart + settings.windowSize) ∧
      ∀ mishap state', careful.1 = (.error mishap, state') →
        plain.1 = .error .addOverflow ∧ mishap = .addOverflow ∧ state' = state ∧
          careful.2 = gated.2 := by
  dsimp only
  rcases run_step_gate settings state w with
    ⟨stopped, outcome, plain, careful⟩ | ⟨passed, plain, careful⟩
  · rw [plain, careful, stopped]
    refine ⟨rfl, ⟨nofun, fun through => Bool.noConfusion through.1⟩, nofun⟩
  · obtain ⟨same, limits⟩ := run_behindGate frugal settings state (gate.run answer w).2
    rw [plain, careful, passed, same]
    refine ⟨rfl, ?_⟩
    split at limits
    case isTrue overflow =>
      rw [limits]
      refine ⟨⟨fun _ => ⟨rfl, overflow⟩, fun _ => rfl⟩, ?_⟩
      rintro mishap state' ⟨⟩
      exact ⟨rfl, rfl, rfl, rfl⟩
    case isFalse fits =>
      obtain ⟨reached, ended⟩ := limits
      rw [ended]
      exact ⟨⟨nofun, fun through => absurd through.2 fits⟩, nofun⟩

/-- The answers of a feed of three events that stands at the last positions there are, with the
calls written down. -/
def lastly (c : Call) (trail : List Answered) : c.Answer × List Answered :=
  let answer : c.Answer := match c with
    | .fetch offset limit => .ok ([plain "A", plain "B", plain "C"].take (limit - offset))
    | c => ({} : Outside).obliging c
  (answer, trail ++ [⟨c, answer⟩])

/-- A cursor of which the window of three events ends at the last position. -/
def State.last : State :=
  .at ⟨Position.bound - 3, "A"⟩

/-- A window of three events moves the cursor on to the last position. One of four does not end at a
position. -/
theorem step_within_limits_last :
    Frugal lastly ∧
      (((Careful.step { windowSize := 3 }).runFrom .last).run lastly []).1 =
        (.ok (.advanced 2 0), .at ⟨Position.bound - 1, "C"⟩) ∧
      (((Careful.step { windowSize := 4 }).runFrom .last).run lastly []) =
        ((.error .addOverflow, .last), [⟨.isLoggedIn, true⟩, ⟨.isOnline, true⟩]) := by
  have frugal : Frugal lastly := by
    rintro offset limit _ _ ⟨⟩
    exact List.length_take_le _ _
  have three := step_within_limits frugal { windowSize := 3 } .last []
  have four := step_within_limits frugal { windowSize := 4 } .last []
  refine ⟨frugal, ?_, ?_⟩
  · rw [three.1]
    rfl
  · rw [four.1, four.2.1.2 ⟨rfl, by decide⟩]
    rfl

end Sync

end Feedkeeper
