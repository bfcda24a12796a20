import Feedkeeper.Poll
import Feedkeeper.Sync

/-!
# What the loops call

The feed loop and the poller make different calls, and where both look up an identifier the feed
loop does not look at whether it is pending, which is all that the poller changes of it. A script
*keeps to* calls of its own and to what it sees of their answers (`Script.KeepsTo`) : it goes on in
the same way after answers that it sees alike. `Sync.keepsTo_step`, `Poll.keepsTo_pass` and
`Poll.keepsTo_authorize` say so of the loops' procedures. `Script.KeepsTo.run_alike` : run in two
worlds whose answers it sees alike, such a script ends with the same value.
-/

namespace Feedkeeper

/-- The identifier once nothing is to be finished on it. -/
def Identifier.cleared (identifier : Identifier) : Identifier :=
  { identifier with pending := false }

namespace Call

/-- Whether the feed loop makes such calls. -/
def ofFeed : Call → Bool
  | .fetch .. | .acknowledge _ | .groupRequest _ | .sender _ | .storeCursor .. | .saveNotice _
  | .findNotice _ | .noticesAbout _ | .findIdentifier _ | .joinAuthorization _ | .announceNotice _
  | .isOnline | .isLoggedIn | .now | .reconnect | .reconnected | .reportRouting .. => true
  | _ => false

/-- Whether routing an event and reporting it makes such calls. -/
def ofRouting : Call → Bool
  | .acknowledge _ | .groupRequest _ | .sender _ | .saveNotice _ | .findNotice _ | .noticesAbout _
  | .findIdentifier _ | .joinAuthorization _ | .announceNotice _ | .now | .reportRouting .. => true
  | _ => false

/-- Whether the poller makes such calls, or the authorizations that it launches. -/
def ofPoller : Call → Bool
  | .operationStatus _ | .findIdentifier _ | .setPending .. | .startAuthorization _
  | .launchAuthorization _ | .announceCompletion _ | .deletePending _ | .queued | .dequeue _
  | .isOnline | .isShutDown | .reconnect | .reconnected => true
  | _ => false

/-- Whether completing an operation makes such calls. -/
def ofCompletion : Call → Bool
  | .setPending .. | .launchAuthorization _ | .announceCompletion _ | .deletePending _
  | .dequeue _ => true
  | _ => false

/-- Whether starting an authorization makes such calls. -/
def ofAuthorization : Call → Bool
  | .findIdentifier _ | .startAuthorization _ => true
  | _ => false

/-- The groups whose authorization the call launches. -/
def launches : Call → List String
  | .launchAuthorization group => [group]
  | _ => []

/-- What the feed loop sees of an answer. -/
def seenByFeed : (c : Call) → c.Answer → c.Answer
  | .findIdentifier _, answer => answer.map (Option.map Identifier.cleared)
  | _, answer => answer

/-- What the poller sees of an answer. -/
def seenByPoller (c : Call) (answer : c.Answer) : c.Answer :=
  answer

theorem launches_of_ofFeed {c : Call} (own : c.ofFeed = true) : c.launches = [] := by
  cases c <;> first | rfl | cases own

theorem launches_of_ofAuthorization {c : Call} (own : c.ofAuthorization = true) :
    c.launches = [] := by
  cases c <;> first | rfl | cases own

/-- Routing is the feed loop's. -/
theorem ofFeed_of_ofRouting {c : Call} (own : c.ofRouting = true) : c.ofFeed = true := by
  cases c <;> first | rfl | cases own

/-- Completing an operation is the poller's. -/
theorem ofPoller_of_ofCompletion {c : Call} (own : c.ofCompletion = true) :
    c.ofPoller = true := by
  cases c <;> first | rfl | cases own

/-- An authorization is the poller's. -/
theorem ofPoller_of_ofAuthorization {c : Call} (own : c.ofAuthorization = true) :
    c.ofPoller = true := by
  cases c <;> first | rfl | cases own

end Call

namespace Script

variable {α β V W : Type} {own : Call → Bool} {seen : (c : Call) → c.Answer → c.Answer}

/-- The script makes only calls of its own, and goes on from an answer as from what it sees of
it. -/
def KeepsTo (own : Call → Bool) (seen : (c : Call) → c.Answer → c.Answer) : Script α → Prop
  | done _ => True
  | call c next =>
    own c = true ∧ (∀ answer, next (seen c answer) = next answer) ∧
      ∀ answer, KeepsTo own seen (next answer)

theorem KeepsTo.mono {own' : Call → Bool} {script : Script α} (keeps : script.KeepsTo own seen)
    (more : ∀ {c}, own c = true → own' c = true) : script.KeepsTo own' seen := by
  induction script with
  | done value => trivial
  | call c next ih =>
    exact ⟨more keeps.1, keeps.2.1, fun answer => ih answer (keeps.2.2 answer)⟩

theorem KeepsTo.bind {script : Script α} {f : α → Script β} (keeps : script.KeepsTo own seen)
    (rest : ∀ value, (f value).KeepsTo own seen) : (script >>= f).KeepsTo own seen := by
  change (Script.bind script f).KeepsTo own seen
  induction script with
  | done value => exact rest value
  | call c next ih =>
    refine ⟨keeps.1, fun answer => ?_, fun answer => ih answer (keeps.2.2 answer)⟩
    exact congrArg (Script.bind · f) (keeps.2.1 answer)

theorem KeepsTo.run_bind {attempt : Attempt α} {f : α → Attempt β}
    (keeps : attempt.run.KeepsTo own seen) (rest : ∀ value, (f value).run.KeepsTo own seen) :
    (attempt >>= f).run.KeepsTo own seen := by
  rw [ExceptT.run_bind]
  refine keeps.bind ?_
  rintro (error | value)
  · trivial
  · exact rest value

/-- What the script's own calls keep is kept along a run of it. -/
theorem KeepsTo.run_keeps {I : W → Prop} {answer : (c : Call) → W → c.Answer × W}
    {script : Script α} {w : W} (keeps : script.KeepsTo own seen)
    (kept : ∀ c w, own c = true → I w → I (answer c w).2) (start : I w) :
    I (script.run answer w).2 := by
  induction script generalizing w with
  | done value => exact start
  | call c next ih => exact ih _ (keeps.2.2 _) (kept c w keeps.1 start)

/-- If the script's own calls are answered alike in related worlds, and leave them related, then it
ends with the same value in both, and they are still related. -/
theorem KeepsTo.run_alike {R : V → W → Prop} {answer : (c : Call) → V → c.Answer × V}
    {answer' : (c : Call) → W → c.Answer × W} {script : Script α} {v : V} {w : W}
    (keeps : script.KeepsTo own seen)
    (alike : ∀ c v w, own c = true → R v w →
      seen c (answer c v).1 = seen c (answer' c w).1 ∧ R (answer c v).2 (answer' c w).2)
    (start : R v w) :
    (script.run answer v).1 = (script.run answer' w).1 ∧
      R (script.run answer v).2 (script.run answer' w).2 := by
  induction script generalizing v w with
  | done value => exact ⟨rfl, start⟩
  | call c next ih =>
    -- The answers may differ, but not in what is seen of them, which decides how to go on.
    obtain ⟨same, related⟩ := alike c v w keeps.1 start
    have goesOn : next (answer c v).1 = next (answer' c w).1 := by
      rw [← keeps.2.1 (answer c v).1, same, keeps.2.1]
    rw [run, run, goesOn]
    exact ih _ (keeps.2.2 _) related

end Script

open Script

/-! ## The feed loop -/

namespace Routing

open Call (ofRouting seenByFeed)

theorem keepsTo_acknowledge (event : Event) :
    (acknowledge event).run.KeepsTo ofRouting seenByFeed := by
  unfold acknowledge
  split
  · trivial
  · exact ⟨rfl, fun _ => rfl, fun _ => trivial⟩

theorem keepsTo_acknowledge_bind (event : Event) (verdict : Verdict) :
    (do acknowledge event; return verdict : Attempt Verdict).run.KeepsTo ofRouting seenByFeed :=
  (keepsTo_acknowledge event).run_bind fun _ => trivial

theorem keepsTo_lookup (event : Event) : (lookup event).run.KeepsTo ofRouting seenByFeed := by
  refine ⟨rfl, fun _ => rfl, ?_⟩
  rintro ((digest | failure) | request) <;> trivial

theorem keepsTo_notice (event : Event) (route : Route) (group : Option String) :
    (notice event route group).run.KeepsTo ofRouting seenByFeed := by
  unfold notice
  split
  · trivial
  refine ⟨rfl, fun _ => rfl, ?_⟩
  rintro (fault | _ | found)
  · trivial
  · refine ⟨rfl, fun _ => rfl, fun createdAt => ⟨rfl, fun _ => rfl, fun sender =>
      ⟨rfl, fun _ => rfl, ?_⟩⟩⟩
    rintro (fault | _)
    · trivial
    · exact ⟨rfl, fun _ => rfl, fun _ => keepsTo_acknowledge_bind event _⟩
  · exact keepsTo_acknowledge_bind event .duplicate

/-- What follows on looking up an identifier must not depend on whether it is pending. -/
theorem keepsTo_findIdentifier {α : Type} {group : String} {f : Option Identifier → Attempt α}
    (unseen : ∀ found, f (found.map Identifier.cleared) = f found)
    (rest : ∀ found, (f found).run.KeepsTo ofRouting seenByFeed) :
    (Attempt.store (ask (.findIdentifier group)) >>= f).run.KeepsTo ofRouting seenByFeed := by
  refine ⟨rfl, ?_, ?_⟩
  · rintro (fault | found)
    · rfl
    · exact congrArg ExceptT.run (unseen found)
  · rintro (fault | found)
    · trivial
    · exact rest found

theorem keepsTo_reply (event : Event) : (reply event).run.KeepsTo ofRouting seenByFeed := by
  refine (keepsTo_lookup event).run_bind ?_
  rintro (_ | ⟨request, group⟩)
  · exact keepsTo_acknowledge_bind event .groupGone
  -- The record is asked for the endpoints that it authorizes.
  refine keepsTo_findIdentifier (fun found => by cases found <;> rfl) ?_
  rintro (_ | identifier)
  · exact keepsTo_acknowledge_bind event (.unknownGroup group)
  dsimp only
  split
  · exact keepsTo_notice event .groupReply (some group)
  split
  · exact keepsTo_acknowledge_bind event .duplicate
  · refine (keepsTo_acknowledge event).run_bind fun _ => ⟨rfl, fun _ => rfl, ?_⟩
    rintro (fault | _) <;> trivial

theorem keepsTo_inception (event : Event) : (inception event).run.KeepsTo ofRouting seenByFeed := by
  refine (keepsTo_lookup event).run_bind ?_
  rintro (_ | ⟨request, group⟩)
  · exact keepsTo_acknowledge_bind event .groupGone
  -- All that matters is whether there is a record.
  refine keepsTo_findIdentifier (fun found => by cases found <;> rfl) fun known => ?_
  refine KeepsTo.run_bind ⟨rfl, fun _ => rfl, fun _ => trivial⟩ fun correlated => ?_
  split
  · exact keepsTo_acknowledge_bind event .duplicate
  · exact keepsTo_notice event .groupInception (some group)

theorem keepsTo_route (event : Event) : (route event).run.KeepsTo ofRouting seenByFeed := by
  unfold route
  split
  · split
    · trivial
    · exact keepsTo_acknowledge_bind event .ignored
  · exact keepsTo_reply event
  · exact keepsTo_inception event
  · split
    · trivial
    split
    · refine ⟨rfl, fun _ => rfl, ?_⟩
      rintro (failure | request) <;> exact keepsTo_notice event _ _
    · exact keepsTo_notice event _ none

end Routing

namespace Sync

open Call (ofFeed ofRouting ofFeed_of_ofRouting seenByFeed)

theorem keepsTo_routeAll (events : List Event) (index : Nat) (pass : Pass) :
    (routeAll events index pass).KeepsTo ofRouting seenByFeed := by
  induction events generalizing index pass with
  | nil => trivial
  | cons event rest ih =>
    rw [routeAll]
    split
    · exact ih _ _
    · exact (Routing.keepsTo_route event).bind fun result =>
        ⟨rfl, fun _ => rfl, fun _ => ih _ _⟩

theorem keepsTo_receive (settings : Settings) (state : State) (window : List Event) :
    (receive settings state window).KeepsTo ofFeed seenByFeed := by
  unfold receive
  split
  · refine ((keepsTo_routeAll _ 0 _).mono ofFeed_of_ofRouting).bind fun pass => ?_
    split
    · trivial
    dsimp only
    split
    · trivial
    split
    · trivial
    · exact ⟨rfl, fun _ => rfl, fun _ => trivial⟩
  · exact ⟨rfl, fun _ => rfl, fun _ => trivial⟩

theorem keepsTo_recover (state : State) : (recover state).KeepsTo ofFeed seenByFeed := by
  refine ⟨rfl, fun _ => rfl, ?_⟩
  rintro (_ | _)
  · trivial
  refine ⟨rfl, fun _ => rfl, ?_⟩
  rintro (_ | _) <;> trivial

theorem keepsTo_step (settings : Settings) (state : State) :
    (step settings state).KeepsTo ofFeed seenByFeed := by
  refine ⟨rfl, fun _ => rfl, ?_⟩
  rintro (_ | _)
  · trivial
  refine ⟨rfl, fun _ => rfl, ?_⟩
  rintro (_ | _)
  · trivial
  dsimp only [if_true]
  split
  · trivial
  refine ⟨rfl, fun _ => rfl, ?_⟩
  rintro (failure | window)
  · exact keepsTo_recover state
  · exact keepsTo_receive settings state window

end Sync

/-! ## The poller -/

namespace Poll

open Call (ofPoller ofCompletion ofAuthorization ofPoller_of_ofCompletion seenByPoller)

theorem keepsTo_complete (operation : Operation) :
    (complete operation).run.KeepsTo ofCompletion seenByPoller := by
  obtain ⟨id, kind, entity⟩ := operation
  refine ⟨rfl, fun _ => rfl, ?_⟩
  rintro (fault | _)
  · trivial
  cases kind with
  | groupFormation =>
    refine ⟨rfl, fun _ => rfl, fun _ => ⟨rfl, fun _ => rfl, fun _ => ⟨rfl, fun _ => rfl, ?_⟩⟩⟩
    rintro (fault | _)
    · trivial
    · exact ⟨rfl, fun _ => rfl, fun _ => trivial⟩
  | witnessAssignment =>
    refine ⟨rfl, fun _ => rfl, fun _ => ⟨rfl, fun _ => rfl, ?_⟩⟩
    rintro (fault | _)
    · trivial
    · exact ⟨rfl, fun _ => rfl, fun _ => trivial⟩

theorem keepsTo_passOver (operations : List Operation) (tally : Tally) :
    (passOver operations tally).KeepsTo ofPoller seenByPoller := by
  induction operations generalizing tally with
  | nil => trivial
  | cons operation rest ih =>
    refine ⟨rfl, fun _ => rfl, ?_⟩
    rintro (_ | _)
    rotate_left
    · trivial
    refine ⟨rfl, fun _ => rfl, ?_⟩
    rintro (failure | ⟨name, _ | _⟩)
    · refine ⟨rfl, fun _ => rfl, ?_⟩
      rintro (_ | _)
      · exact ih _
      refine ⟨rfl, fun _ => rfl, ?_⟩
      rintro (_ | _)
      · trivial
      · exact ih _
    · exact ih _
    · refine ((keepsTo_complete operation).mono ofPoller_of_ofCompletion).bind ?_
      rintro (fault | _) <;> exact ih _

theorem keepsTo_pass : pass.KeepsTo ofPoller seenByPoller := by
  refine ⟨rfl, fun _ => rfl, ?_⟩
  rintro (_ | _)
  · trivial
  · exact ⟨rfl, fun _ => rfl, fun operations => keepsTo_passOver operations {}⟩

theorem keepsTo_authorize (group : String) :
    (authorize group).KeepsTo ofAuthorization seenByPoller := by
  refine ⟨rfl, fun _ => rfl, ?_⟩
  rintro (fault | _ | identifier)
  · trivial
  · trivial
  · exact ⟨rfl, fun _ => rfl, fun _ => trivial⟩

end Poll

end Feedkeeper
