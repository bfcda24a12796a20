import Feedkeeper.Proofs.Ownership
import Feedkeeper.Testbed.Answer

/-!
# The loops' shares of the testbed

What the poller's calls change is its *share* of the testbed, and the feed loop's calls change the
rest. `Testbed.beside` puts a poller's share into the testbed of a feed loop. While nothing is
armed, running a script of one loop on testbeds put together is running it on the loop's own and
putting the result together with the other (`Testbed.Apart.execute_feed`,
`Testbed.Apart.execute_poller`). What both loops read neither changes : the answers of the gate, the
shutdown signals, and the identifiers but for whether they are pending (`Testbed.Ground`). Both
loops count their reconnects on one counter, so these are added.
-/

namespace Feedkeeper

open Script

/-- Whether the counter of the kind is in the poller's share. -/
def Call.Kind.isPolled : Call.Kind → Bool
  | .setPending | .deletePending | .startAuthorization => true
  | _ => false

namespace Testbed

/-- The first testbed with the poller's share of the second. -/
def beside (feed poller : Testbed) (log : List Entry) : Testbed :=
  { feed with
    agent.reports := poller.agent.reports
    agent.statusAsked := poller.agent.statusAsked
    gate.reconnects := feed.gate.reconnects + poller.gate.reconnects
    stores.identifiers := poller.stores.identifiers
    stores.pending := poller.stores.pending
    effects.started := poller.effects.started
    effects.startAttempts := poller.effects.startAttempts
    effects.completions := poller.effects.completions
    queue := poller.queue
    failures := fun kind => if kind.isPolled then poller.failures kind else feed.failures kind
    launched := poller.launched
    log }

theorem reports_beside (feed poller : Testbed) (log : List Entry) :
    (feed.beside poller log).agent.reports = poller.agent.reports :=
  rfl

theorem identifiers_beside (feed poller : Testbed) (log : List Entry) :
    (feed.beside poller log).stores.identifiers = poller.stores.identifiers :=
  rfl

/-- What neither loop changes. -/
structure Ground where
  online : Bool
  delay : Option Nat
  signals : Signals
  hooks : List Hook
  injections : List Injection
  /-- The identifiers, whether they are pending or not. -/
  known : String → Option Identifier

/-- The ground of a testbed. -/
def ground (bed : Testbed) : Ground where
  online := bed.gate.online
  delay := bed.gate.delay
  signals := bed.signals
  hooks := bed.hooks
  injections := bed.injections
  known := fun id => (bed.stores.identifiers.get? id).map Identifier.cleared

variable {bed feed poller : Testbed}

/-! ## Counters -/

/-- A counter is set in the share that it is in. -/
theorem setFailures_beside (feed poller : Testbed) (log : List Entry) (kind : Call.Kind)
    (n : Nat) : (feed.beside poller log).setFailures kind n =
      if kind.isPolled then feed.beside (poller.setFailures kind n) log
      else (feed.setFailures kind n).beside poller log := by
  unfold setFailures beside
  split
  all_goals
    congr 1
    funext other
    by_cases same : other = kind <;> simp_all

theorem takeFailure?_beside_feed (feed poller : Testbed) (log : List Entry) {kind : Call.Kind}
    (own : kind.isPolled = false) : (feed.beside poller log).takeFailure? kind =
      (feed.takeFailure? kind).map (·.beside poller log) := by
  have same : (feed.beside poller log).failures kind = feed.failures kind := by
    simp [beside, own]
  rw [takeFailure?, takeFailure?, same]
  cases feed.failures kind with
  | zero => rfl
  | succ n => simp [setFailures_beside, own]

theorem takeFailure?_beside_poller (feed poller : Testbed) (log : List Entry) {kind : Call.Kind}
    (own : kind.isPolled = true) : (feed.beside poller log).takeFailure? kind =
      (poller.takeFailure? kind).map (feed.beside · log) := by
  have same : (feed.beside poller log).failures kind = poller.failures kind := by
    simp [beside, own]
  rw [takeFailure?, takeFailure?, same]
  cases poller.failures kind with
  | zero => rfl
  | succ n => simp [setFailures_beside, own]

/-! ## Calls that reach their dependency -/

/-- A call of the feed loop acts on its own testbed. -/
theorem perform_beside_feed (feed poller : Testbed) {c : Call} (own : c.ofFeed = true)
    (alike : poller.ground = feed.ground) (caller : Caller) (log : List Entry) :
    c.seenByFeed ((feed.beside poller log).perform caller c).1 =
        c.seenByFeed (feed.perform caller c).1 ∧
      ((feed.beside poller log).perform caller c).2 =
        (feed.perform caller c).2.beside poller log := by
  have of_eq {x y : c.Answer × Testbed} (h : x = (y.1, y.2.beside poller log)) :
      c.seenByFeed x.1 = c.seenByFeed y.1 ∧ x.2 = y.2.beside poller log := by
    rw [h]
    exact ⟨rfl, rfl⟩
  cases c with
  | fetch offset limit =>
    refine of_eq ?_
    -- The window is noted before the counter is looked at.
    have taken := takeFailure?_beside_feed
      { feed with agent.fetches := feed.agent.fetches ++ [(offset, limit)] } poller log
      (show Call.Kind.fetch.isPolled = false from rfl)
    dsimp only [perform, fetch]
    erw [taken]
    cases takeFailure? _ _ <;> rfl
  | acknowledge id =>
    refine of_eq ?_
    dsimp only [perform, acknowledge]
    rw [takeFailure?_beside_feed feed poller log rfl]
    cases feed.takeFailure? .acknowledge <;> rfl
  | saveNotice notice =>
    refine of_eq ?_
    dsimp only [perform, saveNotice]
    rw [takeFailure?_beside_feed feed poller log rfl]
    cases feed.takeFailure? .saveNotice <;> rfl
  | joinAuthorization request =>
    refine of_eq ?_
    have taken := takeFailure?_beside_feed
      { feed with effects.joinAttempts := feed.effects.joinAttempts + 1 } poller log
      (show Call.Kind.joinAuthorization.isPolled = false from rfl)
    dsimp only [perform, joinAuthorization]
    erw [taken]
    cases takeFailure? _ _ <;> rfl
  | findIdentifier id =>
    exact ⟨congrArg Except.ok (congrFun (congrArg Ground.known alike) id), rfl⟩
  | reconnected =>
    refine ⟨rfl, ?_⟩
    change { feed.beside poller log with
      gate.reconnects := feed.gate.reconnects + poller.gate.reconnects + 1 } = _
    rw [Nat.add_right_comm]
    rfl
  | groupRequest | sender | storeCursor | findNotice | noticesAbout | announceNotice | isOnline
  | isLoggedIn | now | reconnect | reportRouting => exact ⟨rfl, rfl⟩
  | _ => cases own

/-- A call of the poller acts on its own testbed. -/
theorem perform_beside_poller (feed poller : Testbed) {c : Call} (own : c.ofPoller = true)
    (alike : poller.ground = feed.ground) (caller : Caller) (log : List Entry) :
    (feed.beside poller log).perform caller c =
      ((poller.perform caller c).1, feed.beside (poller.perform caller c).2 log) := by
  cases c with
  | operationStatus id =>
    dsimp only [perform, operationStatus]
    rw [reports_beside]
    cases poller.agent.reports.get? id <;> rfl
  | setPending id pending =>
    dsimp only [perform, setPending]
    rw [takeFailure?_beside_poller feed poller log rfl]
    cases poller.takeFailure? .setPending with
    | some bed => rfl
    | none =>
      dsimp only [Option.map_none]
      rw [identifiers_beside]
      cases poller.stores.identifiers.get? id <;> rfl
  | deletePending id =>
    dsimp only [perform, deletePending]
    rw [takeFailure?_beside_poller feed poller log rfl]
    cases poller.takeFailure? .deletePending <;> rfl
  | startAuthorization name =>
    have taken := takeFailure?_beside_poller feed
      { poller with effects.startAttempts := poller.effects.startAttempts + 1 } log
      (show Call.Kind.startAuthorization.isPolled = true from rfl)
    dsimp only [perform, startAuthorization]
    erw [taken]
    cases takeFailure? _ _ <;> rfl
  | isOnline => exact congrArg (fun ground : Ground => (ground.online, _)) alike.symm
  | isShutDown =>
    exact congrArg (fun ground => (ground.signals.given.contains caller.signal, _)) alike.symm
  | reconnect =>
    exact congrArg (fun ground => (!ground.signals.given.contains caller.signal, _)) alike.symm
  | findIdentifier | launchAuthorization | announceCompletion | queued | dequeue
  | reconnected => rfl
  | _ => cases own

/-- Setting whether an identifier is pending changes nothing else of the identifiers. -/
theorem known_setPending {identifiers : Table Identifier} {id : String} {identifier : Identifier}
    (found : identifiers.get? id = some identifier) (pending : Bool) (other : String) :
    ((identifiers.put id { identifier with pending }).get? other).map Identifier.cleared =
      (identifiers.get? other).map Identifier.cleared := by
  by_cases same : other = id
  · subst same
    rw [Table.get?_put_self, found]
    rfl
  · rw [Table.get?_put_of_ne same]

/-- No call changes the ground, and what it launches is launched. -/
theorem perform_keeps (bed : Testbed) (caller : Caller) (c : Call) :
    (bed.perform caller c).2.ground = bed.ground ∧
      (bed.perform caller c).2.launched = bed.launched ++ c.launches := by
  have keeps {bed bed' : Testbed} (ground : bed'.ground = bed.ground)
      (launched : bed'.launched = bed.launched) :
      bed'.ground = bed.ground ∧ bed'.launched = bed.launched ++ [] :=
    ⟨ground, launched.trans (List.append_nil _).symm⟩
  have taken {bed bed' : Testbed} {kind : Call.Kind} (h : bed.takeFailure? kind = some bed') :
      bed'.ground = bed.ground ∧ bed'.launched = bed.launched ++ [] := by
    unfold takeFailure? at h
    split at h
    · cases h
    · cases h
      exact keeps rfl rfl
  cases c with
  | launchAuthorization group => exact ⟨rfl, rfl⟩
  | setPending id pending =>
    dsimp only [perform, setPending]
    split
    · rename_i failed
      exact taken failed
    split
    · exact keeps rfl rfl
    · rename_i identifier found
      refine keeps ?_ rfl
      simp only [ground, known_setPending found]
  | fetch | acknowledge | saveNotice | deletePending | joinAuthorization | startAuthorization =>
    dsimp only [perform, fetch, acknowledge, saveNotice, deletePending, joinAuthorization,
      startAuthorization]
    split
    · rename_i failed
      have kept := taken failed
      exact kept
    · exact keeps rfl rfl
  | operationStatus | updateNotice | savePending =>
    dsimp only [perform, operationStatus, updateNotice, savePending]
    split <;> exact keeps rfl rfl
  | _ => exact keeps rfl rfl

/-! ## Calls while nothing is armed -/

/-- With no hooks and injections, a call reaches its dependency. -/
theorem exists_respond_eq (bed : Testbed) (hooks : bed.hooks = [])
    (injections : bed.injections = []) (caller : Caller) (c : Call) :
    ∃ log, respond caller c bed = ({ bed with log } : Testbed).perform caller c := by
  unfold respond
  split
  · exact ⟨bed.log, rfl⟩
  · rename_i kind _
    have unstruck : (bed.record caller.role c).strike c = bed.record caller.role c := by
      have fits : splitHook? c (bed.record caller.role c).hooks = none :=
        (congrArg (splitHook? c) hooks).trans rfl
      rw [strike, fits]
    have uninjected : (bed.record caller.role c).injected? kind c = none := by
      have fits : spendInjection? c (bed.record caller.role c).injections = none :=
        (congrArg (spendInjection? c) injections).trans rfl
      unfold injected?
      rw [fits]
      cases refusal? _ c <;> rfl
    dsimp only
    rw [unstruck, uninjected]
    exact ⟨_, rfl⟩

/-- The first testbed is the second with the poller's share of the third, on the same ground and
with nothing armed. -/
structure Apart (bed feed poller : Testbed) : Prop where
  together : ∃ log, bed = feed.beside poller log
  alike : poller.ground = feed.ground
  hooks : feed.hooks = []
  injections : feed.injections = []

theorem Apart.ground (apart : Apart bed feed poller) : bed.ground = poller.ground := by
  obtain ⟨⟨log, rfl⟩, alike, -, -⟩ := apart
  simp only [Testbed.ground, Ground.mk.injEq] at alike ⊢
  obtain ⟨online, delay, signals, hooks, injections, -⟩ := alike
  exact ⟨online.symm, delay.symm, signals.symm, hooks.symm, injections.symm, rfl⟩

theorem Apart.launched (apart : Apart bed feed poller) : bed.launched = poller.launched := by
  obtain ⟨⟨log, rfl⟩, -, -, -⟩ := apart
  rfl

theorem Apart.respond_feed (apart : Apart bed feed poller) {c : Call} (own : c.ofFeed = true)
    (caller : Caller) :
    c.seenByFeed (respond caller c bed).1 = c.seenByFeed (respond caller c feed).1 ∧
      Apart (respond caller c bed).2 (respond caller c feed).2 poller ∧
      (respond caller c feed).2.launched = feed.launched := by
  obtain ⟨⟨log, rfl⟩, alike, hooks, injections⟩ := apart
  obtain ⟨log₁, together⟩ := exists_respond_eq (feed.beside poller log) hooks injections caller c
  obtain ⟨log₂, alone⟩ := exists_respond_eq feed hooks injections caller c
  obtain ⟨same, changed⟩ :=
    perform_beside_feed { feed with log := log₂ } poller own alike caller log₁
  obtain ⟨kept, launched⟩ := perform_keeps { feed with log := log₂ } caller c
  rw [together, alone]
  refine ⟨same, ⟨⟨log₁, changed⟩, alike.trans kept.symm, ?_, ?_⟩, ?_⟩
  · exact (congrArg Ground.hooks kept).trans hooks
  · exact (congrArg Ground.injections kept).trans injections
  · rw [launched, Call.launches_of_ofFeed own, List.append_nil]

theorem Apart.respond_poller (apart : Apart bed feed poller) {c : Call}
    (own : c.ofPoller = true) (caller : Caller) :
    (respond caller c bed).1 = (respond caller c poller).1 ∧
      Apart (respond caller c bed).2 feed (respond caller c poller).2 ∧
      (respond caller c poller).2.launched = poller.launched ++ c.launches := by
  obtain ⟨⟨log, rfl⟩, alike, hooks, injections⟩ := apart
  obtain ⟨log₁, together⟩ := exists_respond_eq (feed.beside poller log) hooks injections caller c
  obtain ⟨log₂, alone⟩ := exists_respond_eq poller ((congrArg Ground.hooks alike).trans hooks)
    ((congrArg Ground.injections alike).trans injections) caller c
  have performed : ({ feed.beside poller log with log := log₁ } : Testbed).perform caller c = _ :=
    perform_beside_poller feed { poller with log := log₂ } own alike caller log₁
  obtain ⟨kept, launched⟩ := perform_keeps { poller with log := log₂ } caller c
  rw [together, alone, performed]
  exact ⟨rfl, ⟨⟨log₁, rfl⟩, kept.trans alike, hooks, injections⟩, launched⟩

/-! ## Launched authorizations -/

/-- The authorizations of the groups, in order. -/
def authorizeAll (groups : List String) (bed : Testbed) : Testbed :=
  groups.foldl
    (fun bed group => ((Poll.authorize group).run (respond ⟨.authorization, 0⟩) bed).2) bed

/-- Authorizations act on the poller's testbed, and launch nothing. -/
theorem Apart.authorizeAll (apart : Apart bed feed poller) (idle : poller.launched = [])
    (groups : List String) :
    Apart (bed.authorizeAll groups) feed (poller.authorizeAll groups) ∧
      (poller.authorizeAll groups).launched = [] := by
  induction groups generalizing bed poller with
  | nil => exact ⟨apart, idle⟩
  | cons group rest ih =>
    have alike (c : Call) (bed poller : Testbed) (own : c.ofAuthorization = true)
        (related : Apart bed feed poller ∧ poller.launched = []) :
        c.seenByPoller (respond ⟨.authorization, 0⟩ c bed).1 =
            c.seenByPoller (respond ⟨.authorization, 0⟩ c poller).1 ∧
          Apart (respond ⟨.authorization, 0⟩ c bed).2 feed
              (respond ⟨.authorization, 0⟩ c poller).2 ∧
            (respond ⟨.authorization, 0⟩ c poller).2.launched = [] := by
      obtain ⟨same, apart, launched⟩ :=
        related.1.respond_poller (Call.ofPoller_of_ofAuthorization own) ⟨.authorization, 0⟩
      rw [related.2, Call.launches_of_ofAuthorization own] at launched
      exact ⟨same, apart, launched⟩
    obtain ⟨-, apart, idle⟩ := (Poll.keepsTo_authorize group).run_alike alike ⟨apart, idle⟩
    exact ih apart idle

theorem Apart.runLaunched (apart : Apart bed feed poller) :
    Apart bed.runLaunched feed poller.runLaunched ∧ poller.runLaunched.launched = [] := by
  obtain ⟨⟨log, rfl⟩, alike, hooks, injections⟩ := apart
  have begun : Apart { feed.beside poller log with launched := [] } feed
      { poller with launched := [] } := ⟨⟨log, rfl⟩, alike, hooks, injections⟩
  exact begun.authorizeAll rfl poller.launched

theorem runLaunched_of_nil (idle : bed.launched = []) : bed.runLaunched = bed := by
  unfold runLaunched
  rw [idle]
  cases bed
  cases idle
  rfl

/-! ## Reconnecting -/

/-- The testbed after waiting for the agent to be reached again. -/
def waited (caller : Caller) (bed : Testbed) : Testbed :=
  if !bed.isShutDown caller.signal && bed.gate.delay.getD 0 != 0 then bed.runLaunched else bed

theorem answer_reconnect (caller : Caller) (bed : Testbed) : answer caller .reconnect bed =
    if (bed.waited caller).isShutDown caller.signal then (false, bed.waited caller)
    else (true, (respond caller .reconnected (bed.waited caller)).2) :=
  rfl

theorem answer_of_ne {c : Call} (h : c ≠ .reconnect) (caller : Caller) (bed : Testbed) :
    answer caller c bed = respond caller c bed := by
  cases c <;> first | rfl | exact absurd rfl h

theorem waited_of_nil (idle : bed.launched = []) (caller : Caller) : bed.waited caller = bed := by
  rw [waited, runLaunched_of_nil idle, ite_self]

/-- Whether there is a wait depends on the ground alone. -/
theorem Apart.waited (apart : Apart bed feed poller) (caller : Caller) :
    Apart (bed.waited caller) feed (poller.waited caller) := by
  have waits : (!bed.isShutDown caller.signal && bed.gate.delay.getD 0 != 0) =
      (!poller.isShutDown caller.signal && poller.gate.delay.getD 0 != 0) :=
    congrArg (fun ground => !ground.signals.given.contains caller.signal &&
      ground.delay.getD 0 != 0) apart.ground
  rw [Testbed.waited, Testbed.waited, waits]
  split
  · exact apart.runLaunched.1
  · exact apart

theorem isShutDown_congr {bed' : Testbed} (same : bed.ground = bed'.ground) (signal : Nat) :
    bed.isShutDown signal = bed'.isShutDown signal :=
  congrArg (fun ground => ground.signals.given.contains signal) same

/-! ## Scripts -/

theorem Apart.answer_feed (apart : Apart bed feed poller) (idle : feed.launched = [])
    (idle' : poller.launched = []) {c : Call} (own : c.ofFeed = true) (caller : Caller) :
    c.seenByFeed (answer caller c bed).1 = c.seenByFeed (answer caller c feed).1 ∧
      Apart (answer caller c bed).2 (answer caller c feed).2 poller ∧
      (answer caller c feed).2.launched = [] := by
  by_cases reconnects : c = .reconnect
  · subst reconnects
    rw [answer_reconnect, answer_reconnect, waited_of_nil idle,
      waited_of_nil (apart.launched.trans idle'),
      isShutDown_congr (apart.ground.trans apart.alike)]
    split
    · exact ⟨rfl, apart, idle⟩
    · obtain ⟨-, apart, kept⟩ := apart.respond_feed (c := .reconnected) rfl caller
      exact ⟨rfl, apart, kept.trans idle⟩
  · rw [answer_of_ne reconnects, answer_of_ne reconnects]
    obtain ⟨same, apart, kept⟩ := apart.respond_feed own caller
    exact ⟨same, apart, kept.trans idle⟩

theorem Apart.answer_poller (apart : Apart bed feed poller) {c : Call}
    (own : c.ofPoller = true) (caller : Caller) :
    (answer caller c bed).1 = (answer caller c poller).1 ∧
      Apart (answer caller c bed).2 feed (answer caller c poller).2 := by
  by_cases reconnects : c = .reconnect
  · subst reconnects
    have after := apart.waited caller
    rw [answer_reconnect, answer_reconnect, isShutDown_congr after.ground]
    split
    · exact ⟨rfl, after⟩
    · exact ⟨rfl, (after.respond_poller (c := .reconnected) rfl caller).2.1⟩
  · rw [answer_of_ne reconnects, answer_of_ne reconnects]
    obtain ⟨same, apart, -⟩ := apart.respond_poller own caller
    exact ⟨same, apart⟩

/-- A script of the feed loop acts on its own testbed. -/
theorem Apart.execute_feed {α : Type} (apart : Apart bed feed poller) (idle : feed.launched = [])
    (idle' : poller.launched = []) {script : Script α}
    (keeps : script.KeepsTo Call.ofFeed Call.seenByFeed) (caller : Caller) :
    (bed.execute caller script).1 = (feed.execute caller script).1 ∧
      Apart (bed.execute caller script).2 (feed.execute caller script).2 poller ∧
      (feed.execute caller script).2.launched = [] := by
  have alike (c : Call) (bed feed : Testbed) (own : c.ofFeed = true)
      (related : Apart bed feed poller ∧ feed.launched = []) :
      c.seenByFeed (answer caller c bed).1 = c.seenByFeed (answer caller c feed).1 ∧
        Apart (answer caller c bed).2 (answer caller c feed).2 poller ∧
        (answer caller c feed).2.launched = [] :=
    related.1.answer_feed related.2 idle' own caller
  obtain ⟨same, apart, idle⟩ := keeps.run_alike alike ⟨apart, idle⟩
  dsimp only [execute]
  rw [runLaunched_of_nil (apart.launched.trans idle'), runLaunched_of_nil idle]
  exact ⟨same, apart, idle⟩

/-- A script of the poller acts on its own testbed, and so does what it launches. -/
theorem Apart.execute_poller {α : Type} (apart : Apart bed feed poller) {script : Script α}
    (keeps : script.KeepsTo Call.ofPoller Call.seenByPoller) (caller : Caller) :
    (bed.execute caller script).1 = (poller.execute caller script).1 ∧
      Apart (bed.execute caller script).2 feed (poller.execute caller script).2 ∧
      (poller.execute caller script).2.launched = [] := by
  have alike (c : Call) (bed poller : Testbed) (own : c.ofPoller = true)
      (related : Apart bed feed poller) :
      c.seenByPoller (answer caller c bed).1 = c.seenByPoller (answer caller c poller).1 ∧
        Apart (answer caller c bed).2 feed (answer caller c poller).2 :=
    related.answer_poller own caller
  obtain ⟨same, apart⟩ := keeps.run_alike alike apart
  exact ⟨same, apart.runLaunched⟩

end Testbed

end Feedkeeper
