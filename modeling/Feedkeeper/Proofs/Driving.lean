import Feedkeeper.Proofs.Clock
import Feedkeeper.Proofs.Outside
import Feedkeeper.Proofs.Shares

/-!
# Running up to a wait

While no hook is armed, the calls of a script leave the clock, the signals and the ids of the feed
as they are, and they only use up the failures that are armed (`Testbed.GoesOn`). `Script.Rests`
says of a script where it comes to rest and on what testbed; `rests_call`, `rests_bind` and
`KeepsTo.rests` take a script apart for that. A call that is immediate is no place to rest.
-/

namespace Feedkeeper

open Script Testbed

namespace Testbed

/-! ## Calls while no hook is armed -/

/-- How many more requests for a window may be made to fail. -/
def refusals (bed : Testbed) : Nat :=
  bed.failures .fetch + bed.injections.foldr (·.remaining + ·) 0

theorem foldl_remaining (injections : List Injection) (n : Nat) :
    injections.foldl (fun n injection => n + injection.remaining) n =
      n + injections.foldr (·.remaining + ·) 0 := by
  induction injections generalizing n with
  | nil => rfl
  | cons injection rest ih => rw [List.foldl_cons, ih, List.foldr_cons, Nat.add_assoc]

/-- There are enough rounds for each failure, each event and each way to begin. -/
theorem le_rounds (bed : Testbed) :
    bed.refusals + bed.agent.events.length + 3 ≤ bed.rounds := by
  rw [rounds, foldl_remaining, Nat.zero_add, ← refusals]
  refine Nat.le_trans ?_ (Nat.add_le_mul (by omega) (by omega))
  omega

/-- The second testbed is the first after some calls at its time. Of the cursors that they stored
`p` holds. -/
structure GoesOn (p : Cursor → Prop) (bed bed' : Testbed) : Prop where
  hooks : bed'.hooks = bed.hooks
  time : bed'.time = bed.time
  signals : bed'.signals = bed.signals
  ids : bed'.agent.events.map (·.id) = bed.agent.events.map (·.id)
  refusals : bed'.refusals ≤ bed.refusals
  cursors : ∀ key cursor, bed'.stores.cursors.get? key = some cursor →
    bed.stores.cursors.get? key = some cursor ∨ p cursor
  logs : bed.Logs (· = bed.time) bed'

variable {p : Cursor → Prop} {bed bed' bed'' : Testbed} {caller : Caller}

theorem GoesOn.refl (bed : Testbed) : bed.GoesOn p bed :=
  ⟨rfl, rfl, rfl, rfl, Nat.le_refl _, fun _ _ => .inl, .of_eq rfl⟩

theorem GoesOn.trans (h : bed.GoesOn p bed') (h' : bed'.GoesOn p bed'') : bed.GoesOn p bed'' where
  hooks := h'.hooks.trans h.hooks
  time := h'.time.trans h.time
  signals := h'.signals.trans h.signals
  ids := h'.ids.trans h.ids
  refusals := Nat.le_trans h'.refusals h.refusals
  cursors key cursor found := (h'.cursors key cursor found).elim (h.cursors key cursor) .inr
  logs := h.logs.trans (h.time ▸ h'.logs)

theorem GoesOn.isShutDown_eq (h : bed.GoesOn p bed') (signal : Nat) :
    bed'.isShutDown signal = bed.isShutDown signal :=
  congrArg (fun signals => signals.given.contains signal) h.signals

/-- What is quiet goes on. -/
theorem GoesOn.of_eq (hooks : bed'.hooks = bed.hooks) (time : bed'.time = bed.time)
    (signals : bed'.signals = bed.signals)
    (ids : bed'.agent.events.map (·.id) = bed.agent.events.map (·.id))
    (failures : bed'.failures = bed.failures) (injections : bed'.injections = bed.injections)
    (cursors : bed'.stores.cursors = bed.stores.cursors) (log : bed'.log = bed.log) :
    bed.GoesOn p bed' := by
  refine ⟨hooks, time, signals, ids, ?_, fun _ _ => ?_, .of_eq log⟩
  · exact Nat.le_of_eq (by rw [Testbed.refusals, Testbed.refusals, failures, injections])
  · rw [cursors]
    exact .inl

/-- A failure that is taken from a counter is one less. -/
theorem goesOn_of_takeFailure? {kind : Call.Kind} (taken : bed.takeFailure? kind = some bed') :
    bed.GoesOn p bed' ∧ (kind = .fetch → bed'.refusals < bed.refusals) := by
  unfold takeFailure? at taken
  split at taken
  · cases taken
  · rename_i n left
    obtain rfl := Option.some.inj taken
    have fewer : (bed.setFailures kind n).failures .fetch ≤ bed.failures .fetch := by
      dsimp only [setFailures]
      split
      · rename_i same
        rw [same, left]
        exact Nat.le_succ n
      · exact Nat.le_refl _
    refine ⟨⟨rfl, rfl, rfl, rfl, ?_, fun _ _ => .inl, .of_eq rfl⟩, ?_⟩
    · exact Nat.add_le_add_right fewer _
    · rintro rfl
      refine Nat.add_lt_add_right ?_ _
      simp only [setFailures, if_true, left]
      exact Nat.lt_succ_self n

/-- A call that reaches its dependency. -/
theorem perform_goesOn (bed : Testbed) (caller : Caller) {c : Call}
    (stores : ∀ key cursor, c = .storeCursor key cursor → p cursor) :
    bed.GoesOn p (bed.perform caller c).2 := by
  cases c with
  | fetch | joinAuthorization | startAuthorization =>
    dsimp only [perform, fetch, joinAuthorization, startAuthorization]
    split
    · rename_i failed
      refine .trans ?_ (goesOn_of_takeFailure? failed).1
      exact .of_eq rfl rfl rfl rfl rfl rfl rfl rfl
    · exact .of_eq rfl rfl rfl rfl rfl rfl rfl rfl
  | acknowledge id =>
    dsimp only [perform, acknowledge]
    split
    · rename_i failed
      exact (goesOn_of_takeFailure? failed).1
    · exact .of_eq rfl rfl rfl (map_id_consumeFirst id _) rfl rfl rfl rfl
  | saveNotice | deletePending =>
    dsimp only [perform, saveNotice, deletePending]
    split
    · rename_i failed
      exact (goesOn_of_takeFailure? failed).1
    · exact .of_eq rfl rfl rfl rfl rfl rfl rfl rfl
  | setPending id pending =>
    dsimp only [perform, setPending]
    split
    · rename_i failed
      exact (goesOn_of_takeFailure? failed).1
    split <;> exact .of_eq rfl rfl rfl rfl rfl rfl rfl rfl
  | storeCursor key cursor =>
    refine ⟨rfl, rfl, rfl, rfl, Nat.le_refl _, fun other found stored => ?_, .of_eq rfl⟩
    change (bed.stores.cursors.put key cursor).get? other = some found at stored
    by_cases same : other = key
    · subst same
      rw [Table.get?_put_self] at stored
      exact .inr (Option.some.inj stored ▸ stores other cursor rfl)
    · rw [Table.get?_put_of_ne same] at stored
      exact .inl stored
  | note text =>
    exact ⟨rfl, rfl, rfl, rfl, Nat.le_refl _, fun _ _ => .inl, [_], rfl, by simp⟩
  | operationStatus | updateNotice | savePending =>
    dsimp only [perform, operationStatus, updateNotice, savePending]
    split <;> exact .of_eq rfl rfl rfl rfl rfl rfl rfl rfl
  | _ => exact .of_eq rfl rfl rfl rfl rfl rfl rfl rfl

/-- A failure that is used from the injections is one less. -/
theorem foldr_spendInjection? {c : Call} {injections left : List Injection}
    (spent : spendInjection? c injections = some left) :
    left.foldr (·.remaining + ·) 0 < injections.foldr (·.remaining + ·) 0 := by
  induction injections generalizing left with
  | nil => cases spent
  | cons injection rest ih =>
    rw [spendInjection?] at spent
    split at spent
    · rename_i fits
      obtain rfl := Option.some.inj spent
      have usable : injection.remaining ≠ 0 := by simpa using (Bool.and_eq_true_iff.1 fits).2
      simp only [List.foldr_cons]
      omega
    · obtain ⟨others, spent', rfl⟩ := Option.map_eq_some_iff.1 spent
      simpa using ih spent'

/-- With no hook armed, a call uses up an injected failure, or reaches its dependency. -/
theorem respond_cases (p : Cursor → Prop) (hooks : bed.hooks = []) (caller : Caller) (c : Call) :
    (∃ log, bed.GoesOn p { bed with log } ∧
      respond caller c bed = ({ bed with log } : Testbed).perform caller c) ∨
    ∃ detail log injections, bed.GoesOn p { bed with log, injections } ∧
      ({ bed with log, injections } : Testbed).refusals < bed.refusals ∧
      refusal? detail c = some (respond caller c bed).1 ∧
      (respond caller c bed).2 = { bed with log, injections } := by
  unfold respond
  split
  · exact .inl ⟨bed.log, .refl bed, rfl⟩
  · rename_i kind _
    have unstruck : (bed.record caller.role c).strike c = bed.record caller.role c := by
      have fits : splitHook? c (bed.record caller.role c).hooks = none :=
        (congrArg (splitHook? c) hooks).trans rfl
      rw [strike, fits]
    dsimp only
    rw [unstruck]
    cases injected : (bed.record caller.role c).injected? kind c with
    | none =>
      refine .inl ⟨_, ?_, rfl⟩
      exact ⟨rfl, rfl, rfl, rfl, Nat.le_refl _, fun _ _ => .inl, [_], rfl, by simp⟩
    | some outcome =>
      unfold injected? at injected
      split at injected
      · rename_i answer left refused spent
        obtain rfl := Option.some.inj injected
        have fewer := Nat.add_lt_add_left (foldr_spendInjection? spent) (bed.failures .fetch)
        refine .inr ⟨_, _, left, ⟨rfl, rfl, rfl, rfl, Nat.le_of_lt fewer, fun _ _ => .inl, [_], rfl,
          by simp⟩, fewer, refused, rfl⟩
      · cases injected

/-- Any call goes on. -/
theorem respond_goesOn (hooks : bed.hooks = []) (caller : Caller) {c : Call}
    (stores : ∀ key cursor, c = .storeCursor key cursor → p cursor) :
    bed.GoesOn p (respond caller c bed).2 := by
  rcases respond_cases p hooks caller c with
    ⟨log, recorded, responds⟩ | ⟨detail, log, injections, recorded, -, -, responds⟩
  · rw [responds]
    exact recorded.trans (perform_goesOn _ caller stores)
  · exact responds ▸ recorded

/-- What goes on goes on with any further call. -/
theorem GoesOn.respond (goesOn : bed.GoesOn p bed') (hooks : bed.hooks = []) (caller : Caller)
    {c : Call} (stores : ∀ key cursor, c = .storeCursor key cursor → p cursor) :
    bed.GoesOn p (Testbed.respond caller c bed').2 :=
  goesOn.trans (respond_goesOn (goesOn.hooks.trans hooks) caller stores)

/-- A call launches what it is for launching, if it reaches its dependency. -/
theorem respond_launched (hooks : bed.hooks = []) (caller : Caller) {c : Call}
    (none : c.launches = []) : (respond caller c bed).2.launched = bed.launched := by
  rcases respond_cases (fun _ => True) hooks caller c with
    ⟨log, -, responds⟩ | ⟨detail, log, injections, -, -, -, responds⟩
  · rw [responds, (perform_keeps _ caller c).2, none, List.append_nil]
  · rw [responds]

/-- A window is fetched as it was asked for, or a failure is used up. -/
theorem fetch_cases (bed : Testbed) (offset limit : Nat) :
    (∃ bed', bed.fetch offset limit =
      (.ok ((bed.agent.events.drop offset).take (limit - offset)), bed')) ∨
    ∃ bed', bed.fetch offset limit = (.error unreachable, bed') ∧ bed'.refusals < bed.refusals := by
  dsimp only [fetch]
  split
  · rename_i taken
    exact .inr ⟨_, rfl, (goesOn_of_takeFailure? (p := fun _ => True) taken).2 rfl⟩
  · exact .inl ⟨_, rfl⟩

theorem respond_fetch (hooks : bed.hooks = []) (caller : Caller) (offset limit : Nat) :
    (respond caller (.fetch offset limit) bed).1 =
      .ok ((bed.agent.events.drop offset).take (limit - offset)) ∨
    ∃ failure, (respond caller (.fetch offset limit) bed).1 = .error failure ∧
      (respond caller (.fetch offset limit) bed).2.refusals < bed.refusals := by
  rcases respond_cases (fun _ => True) hooks caller (.fetch offset limit) with
    ⟨log, -, responds⟩ | ⟨detail, log, injections, -, fewer, refused, responds⟩
  · rw [responds]
    rcases fetch_cases { bed with log } offset limit with ⟨bed', fetched⟩ | ⟨bed', failed, fewer⟩
    · exact .inl (congrArg Prod.fst fetched)
    · exact .inr ⟨_, congrArg Prod.fst failed, (congrArg Prod.snd failed).symm ▸ fewer⟩
  · exact .inr ⟨_, (Option.some.inj refused).symm, responds.symm ▸ fewer⟩

/-! ## Runs -/

section

variable {α : Type} {own : Call → Bool} {seen : (c : Call) → c.Answer → c.Answer}

/-- What goes on goes on with any further run. -/
theorem GoesOn.run (goesOn : bed.GoesOn p bed') (hooks : bed.hooks = []) (caller : Caller)
    {script : Script α} (keeps : script.KeepsTo own seen)
    (stores : ∀ key cursor, own (.storeCursor key cursor) = true → p cursor) :
    bed.GoesOn p (script.run (Testbed.respond caller) bed').2 := by
  refine keeps.run_keeps (I := bed.GoesOn p) (fun c bed₁ owned before => ?_) goesOn
  refine before.respond hooks caller ?_
  rintro key cursor rfl
  exact stores key cursor owned

/-- An authorization launches no other. -/
theorem GoesOn.respond_ofAuthorization (goesOn : bed.GoesOn p bed') (hooks : bed.hooks = [])
    (idle : bed'.launched = []) (caller : Caller) {c : Call} (owned : c.ofAuthorization = true) :
    bed.GoesOn p (Testbed.respond caller c bed').2 ∧
      (Testbed.respond caller c bed').2.launched = [] := by
  refine ⟨goesOn.respond hooks caller ?_, ?_⟩
  · rintro key cursor rfl
    cases owned
  · rw [respond_launched (goesOn.hooks.trans hooks) caller
      (Call.launches_of_ofAuthorization owned), idle]

theorem GoesOn.authorizeAll (goesOn : bed.GoesOn p bed') (hooks : bed.hooks = [])
    (idle : bed'.launched = []) (groups : List String) :
    bed.GoesOn p (bed'.authorizeAll groups) ∧ (bed'.authorizeAll groups).launched = [] := by
  induction groups generalizing bed' with
  | nil => exact ⟨goesOn, idle⟩
  | cons group rest ih =>
    have authorized := (Poll.keepsTo_authorize group).run_keeps
      (I := fun bed₁ => bed.GoesOn p bed₁ ∧ bed₁.launched = [])
      (fun c bed₁ owned before =>
        before.1.respond_ofAuthorization hooks before.2 ⟨.authorization, 0⟩ owned) ⟨goesOn, idle⟩
    exact ih authorized.1 authorized.2

/-- After the launched authorizations have run, none is left. -/
theorem runLaunched_goesOn (hooks : bed.hooks = []) :
    bed.GoesOn p bed.runLaunched ∧ bed.runLaunched.launched = [] := by
  have begun : bed.GoesOn p { bed with launched := [] } :=
    .of_eq rfl rfl rfl rfl rfl rfl rfl rfl
  exact begun.authorizeAll hooks rfl bed.launched

end

end Testbed

/-! ## Where a script comes to rest -/

/-- Whether the call is answered at once. -/
def Call.isImmediate : Call → Bool
  | .pause _ | .sleep _ | .awaitShutdown | .reconnect => false
  | _ => true

theorem Call.isImmediate_of_ofRouting {c : Call} (own : c.ofRouting = true) :
    c.isImmediate = true := by
  cases c <;> first | rfl | cases own

theorem Call.isImmediate_of_ofCompletion {c : Call} (own : c.ofCompletion = true) :
    c.isImmediate = true := by
  cases c <;> first | rfl | cases own

namespace Script

variable {α β : Type} {caller : Caller} {bed : Testbed}

/-- What holds of the script where it comes to rest, and of the testbed then. -/
def Rests (caller : Caller) (Q : Stop α → Testbed → Prop) (script : Script α) (bed : Testbed) :
    Prop :=
  Q (drive caller script bed).1 (drive caller script bed).2

variable {Q : Stop α → Testbed → Prop} {c : Call}

/-- An immediate call is made, and what follows on the answer comes to rest. -/
theorem rests_call (immediate : c.isImmediate = true) {next : c.Answer → Script α} :
    Rests caller Q (call c next) bed ↔
      Rests caller Q (next (respond caller c bed).1) (respond caller c bed).2 := by
  cases c <;> first | exact Iff.rfl | cases immediate

theorem rests_ask_bind (immediate : c.isImmediate = true) {f : c.Answer → Script α} :
    Rests caller Q (ask c >>= f) bed ↔
      Rests caller Q (f (respond caller c bed).1) (respond caller c bed).2 :=
  rests_call immediate

theorem rests_isLoggedIn {f : Bool → Script α} :
    Rests caller Q (ask .isLoggedIn >>= f) bed ↔ Rests caller Q (f bed.gate.loggedIn) bed :=
  Iff.rfl

theorem rests_isOnline {f : Bool → Script α} :
    Rests caller Q (ask .isOnline >>= f) bed ↔ Rests caller Q (f bed.gate.online) bed :=
  Iff.rfl

theorem rests_isShutDown {f : Bool → Script α} : Rests caller Q (ask .isShutDown >>= f) bed ↔
    Rests caller Q (f (bed.isShutDown caller.signal)) bed :=
  Iff.rfl

/-- A reconnect takes its time, unless it takes none. -/
theorem rests_reconnect (running : bed.isShutDown caller.signal = false)
    {next : Bool → Script α} : Rests caller Q (call .reconnect next) bed ↔
      if bed.gate.delay.getD 0 = 0 then
        Rests caller Q (next true) (respond caller .reconnected bed).2
      else Q (.asleep (some (wakeAfter bed.time (bed.gate.delay.getD 0)))
        (call .reconnected fun _ => next true) (some (next false))) bed := by
  rw [Rests, drive, running, if_neg Bool.false_ne_true]
  dsimp only
  split <;> exact Iff.rfl

/-- A sequence rests where its first part does, or after it where the second does. -/
theorem rests_bind {Q : Stop β → Testbed → Prop} {script : Script α} {f : α → Script β} :
    Rests caller Q (script >>= f) bed ↔ Rests caller (fun stop bed' =>
      match stop with
      | .ended value => Rests caller Q (f value) bed'
      | .asleep wake elapsed cut =>
        Q (.asleep wake (elapsed >>= f) (cut.map (· >>= f))) bed') script bed := by
  change Rests caller Q (Script.bind script f) bed ↔ _
  induction script generalizing bed with
  | done value => exact Iff.rfl
  | call c next ih =>
    cases immediate : c.isImmediate with
    | true =>
      rw [rests_call immediate]
      exact (rests_call immediate).trans (ih _)
    | false =>
      cases c with
      | pause ms =>
        rw [Script.bind, Rests, Rests, drive, drive]
        split
        · exact ih _
        split
        · exact ih _
        · exact Iff.rfl
      | reconnect =>
        rw [Script.bind, Rests, Rests, drive, drive]
        split
        · exact ih _
        dsimp only
        split
        · exact ih _
        · exact Iff.rfl
      | sleep | awaitShutdown =>
        rw [Script.bind, Rests, Rests, drive, drive]
        split
        · exact ih _
        · exact Iff.rfl
      | _ => cases immediate

theorem Rests.mono {R : Stop α → Testbed → Prop} {script : Script α}
    (h : Rests caller Q script bed) (imp : ∀ stop bed', Q stop bed' → R stop bed') :
    Rests caller R script bed :=
  imp _ _ h

/-- A script of immediate calls comes to its end. -/
theorem KeepsTo.rests {own : Call → Bool} {seen : (c : Call) → c.Answer → c.Answer}
    {script : Script α} (keeps : script.KeepsTo own seen)
    (immediate : ∀ {c}, own c = true → c.isImmediate = true)
    (ended : ∀ value, Q (.ended value) (script.run (respond caller) bed).2) :
    Rests caller Q script bed := by
  induction script generalizing bed with
  | done value => exact ended value
  | call c next ih =>
    rw [rests_call (immediate keeps.1)]
    exact ih _ (keeps.2.2 _) ended

end Script

end Feedkeeper
