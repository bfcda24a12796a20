import Feedkeeper.Proofs.Shares
import Feedkeeper.Session

/-!
# The two loops do not interfere

A step of the feed loop and a pass of the poller may change places on any testbed on which nothing
is armed (`Session.perform_comm`) : a step acts on the rest of the testbed as if there were no
poller, and a pass on the poller's share as if there were no feed loop
(`Testbed.Undisturbed.execute_comm`). So any two orders of the same number of steps and passes come
to the same (`loops_independent`).
-/

namespace Feedkeeper

namespace Testbed

/-- Nothing is armed, and nothing is left to be started. -/
structure Undisturbed (bed : Testbed) : Prop where
  hooks : bed.hooks = []
  injections : bed.injections = []
  launched : bed.launched = []

/-- The testbed with an empty log. -/
def unlogged (bed : Testbed) : Testbed :=
  { bed with log := [] }

/-- The testbed as the poller's to begin with, which counts its own reconnects. -/
def unreconnected (bed : Testbed) : Testbed :=
  { bed with gate.reconnects := 0 }

variable {bed bed' feed poller : Testbed}

theorem Undisturbed.unlogged (undisturbed : bed.Undisturbed) : bed.unlogged.Undisturbed :=
  ⟨undisturbed.hooks, undisturbed.injections, undisturbed.launched⟩

/-- A testbed has the poller's share of itself. -/
theorem Undisturbed.apart (undisturbed : bed.Undisturbed) : Apart bed bed bed.unreconnected := by
  refine ⟨⟨bed.log, ?_⟩, rfl, undisturbed.hooks, undisturbed.injections⟩
  have failures : (bed.beside bed.unreconnected bed.log).failures = bed.failures :=
    funext fun _ => ite_self _
  calc bed
      = { bed.beside bed.unreconnected bed.log with failures := bed.failures } := rfl
    _ = bed.beside bed.unreconnected bed.log := by rw [← failures]

theorem Apart.unlogged (apart : Apart bed feed poller) : Apart bed.unlogged feed poller := by
  obtain ⟨⟨log, rfl⟩, alike, hooks, injections⟩ := apart
  exact ⟨⟨[], rfl⟩, alike, hooks, injections⟩

/-- The parts determine the testbed but for its log. -/
theorem Apart.unlogged_eq (apart : Apart bed feed poller) (apart' : Apart bed' feed poller) :
    bed.unlogged = bed'.unlogged := by
  obtain ⟨⟨log, rfl⟩, -, -, -⟩ := apart
  obtain ⟨⟨log', rfl⟩, -, -, -⟩ := apart'
  rfl

theorem Apart.undisturbed (apart : Apart bed feed poller) (idle : poller.launched = []) :
    bed.Undisturbed := by
  obtain ⟨⟨log, rfl⟩, -, hooks, injections⟩ := apart
  exact ⟨hooks, injections, idle⟩

theorem Undisturbed.execute_feed {α : Type} (undisturbed : bed.Undisturbed) {script : Script α}
    (keeps : script.KeepsTo Call.ofFeed Call.seenByFeed) (caller : Caller) :
    (bed.execute caller script).2.Undisturbed ∧
      (bed.execute caller script).2.signals = bed.signals := by
  obtain ⟨-, apart, -⟩ :=
    undisturbed.apart.execute_feed undisturbed.launched undisturbed.launched keeps caller
  exact ⟨apart.undisturbed undisturbed.launched, congrArg Ground.signals apart.ground⟩

theorem Undisturbed.execute_poller {α : Type} (undisturbed : bed.Undisturbed) {script : Script α}
    (keeps : script.KeepsTo Call.ofPoller Call.seenByPoller) (caller : Caller) :
    (bed.execute caller script).2.Undisturbed ∧
      (bed.execute caller script).2.signals = bed.signals := by
  obtain ⟨-, apart, idle⟩ := undisturbed.apart.execute_poller keeps caller
  exact ⟨apart.undisturbed idle, congrArg Ground.signals (apart.ground.trans apart.alike)⟩

/-- A script of the feed loop and one of the poller may change places. -/
theorem Undisturbed.execute_comm {α β : Type} (undisturbed : bed.Undisturbed) {fed : Script α}
    {polled : Script β} (keeps : fed.KeepsTo Call.ofFeed Call.seenByFeed)
    (keeps' : polled.KeepsTo Call.ofPoller Call.seenByPoller) (caller caller' : Caller) :
    ((bed.execute caller' polled).2.unlogged.execute caller fed).1 =
        (bed.execute caller fed).1 ∧
      ((bed.execute caller fed).2.unlogged.execute caller' polled).1 =
        (bed.execute caller' polled).1 ∧
      ((bed.execute caller' polled).2.unlogged.execute caller fed).2.unlogged =
        ((bed.execute caller fed).2.unlogged.execute caller' polled).2.unlogged := by
  have idle := undisturbed.launched
  -- Either order ends with the feed loop's testbed after `fed` and the poller's after `polled`.
  obtain ⟨-, first, -⟩ := undisturbed.apart.execute_feed idle idle keeps caller
  obtain ⟨second, last, -⟩ := first.unlogged.execute_poller keeps' caller'
  obtain ⟨alone, first', idle'⟩ := undisturbed.apart.execute_poller keeps' caller'
  obtain ⟨second', last', -⟩ := first'.unlogged.execute_feed idle idle' keeps caller
  exact ⟨second', second.trans alone.symm, last'.unlogged_eq last⟩

end Testbed

/-! ## Sessions -/

namespace Session

/-- A piece of work of one of the loops. -/
inductive Work where
  /-- A step of the feed loop. -/
  | step
  /-- A pass over the queue, with the authorizations that it launches. -/
  | pass
  deriving DecidableEq

/-- The command that does the work. -/
def Work.command : Work → Command
  | .step => .step
  | .pass => .poll

/-- What pieces of work come to. -/
structure Worked where
  /-- The replies to the steps, in order. -/
  steps : List Reply
  /-- The replies to the passes, in order. -/
  passes : List Reply
  /-- The session after them, with an empty log. -/
  after : Session

/-- Puts the reply to a piece of work in front. -/
def Worked.add (worked : Worked) (reply : Reply) : Work → Worked
  | .step => { worked with steps := reply :: worked.steps }
  | .pass => { worked with passes := reply :: worked.passes }

/-- The session with an empty log. -/
def unlogged (session : Session) : Session :=
  { session with bed := session.bed.unlogged }

/-- Does pieces of work, one after another. -/
def workAll : List Work → Session → Worked
  | [], session => ⟨[], [], session.unlogged⟩
  | work :: rest, session =>
    let (reply, session) := session.perform work.command
    (workAll rest session).add reply work

variable {session : Session}

/-- The log of the session does not matter. -/
theorem workAll_unlogged (works : List Work) (session : Session) :
    workAll works session.unlogged = workAll works session := by
  cases works <;> rfl

/-- The reply to a step. -/
def stepReply : Except Crash (Sync.Outcome × Sync.State) → Reply
  | .ok (outcome, state) => .step outcome state.cursor
  | .error crash => .crash crash

/-- The state after a step. -/
def stateAfter (state : Sync.State) : Except Crash (Sync.Outcome × Sync.State) → Sync.State
  | .ok (_, state) => state
  | .error _ => state

theorem perform_step (session : Session) :
    let executed := session.bed.unlogged.execute ⟨.feed, session.bed.signals.current⟩
      (Sync.step session.settings session.state)
    session.perform .step = (stepReply executed.1,
      { session with state := stateAfter session.state executed.1, bed := executed.2 }) := by
  intro executed
  change step session.unlogged = _
  have ran : session.unlogged.asFeed (Sync.step session.unlogged.settings
      session.unlogged.state) = executed := rfl
  rw [step, ran]
  rcases executed with ⟨crash | ⟨outcome, state⟩, bed⟩ <;> rfl

theorem perform_poll (session : Session) :
    let executed :=
      session.bed.unlogged.execute ⟨.poller, session.bed.signals.current⟩ Poll.pass
    session.perform .poll = (.tally executed.1, { session with bed := executed.2 }) :=
  rfl

/-- A step and a pass may change places. -/
theorem perform_comm (undisturbed : session.bed.Undisturbed) :
    ((session.perform .poll).2.perform .step).1 = (session.perform .step).1 ∧
      ((session.perform .step).2.perform .poll).1 = (session.perform .poll).1 ∧
      ((session.perform .poll).2.perform .step).2.unlogged =
        ((session.perform .step).2.perform .poll).2.unlogged := by
  have keeps := Sync.keepsTo_step session.settings session.state
  obtain ⟨replied, replied', ended⟩ := undisturbed.unlogged.execute_comm keeps Poll.keepsTo_pass
    ⟨.feed, session.bed.signals.current⟩ ⟨.poller, session.bed.signals.current⟩
  -- The second command runs under the same shutdown signal as the first.
  have signals :=
    (undisturbed.unlogged.execute_feed keeps ⟨.feed, session.bed.signals.current⟩).2
  have signals' := (undisturbed.unlogged.execute_poller Poll.keepsTo_pass
    ⟨.poller, session.bed.signals.current⟩).2
  change _ = session.bed.signals at signals signals'
  simp only [perform_step, perform_poll, signals, signals', replied, replied', true_and]
  simp only [unlogged, ended]

theorem Work.undisturbed (undisturbed : session.bed.Undisturbed) (work : Work) :
    (session.perform work.command).2.bed.Undisturbed := by
  cases work with
  | step =>
    rw [command, perform_step]
    exact (undisturbed.unlogged.execute_feed (Sync.keepsTo_step _ _) _).1
  | pass => exact (undisturbed.unlogged.execute_poller Poll.keepsTo_pass _).1

end Session

/-- Steps of the feed loop and passes of the poller, done in any two orders, answer the same and
leave the same session : the cursor and the settled events, the stores and counters, the queue, and
all that was done to the domain and told to the application. Nothing is asked of the session but
that no hooks or injections are armed and no authorization is left to be started; the agent may be
out of reach, and the shutdown signal given. -/
theorem loops_independent {session : Session} {works works' : List Session.Work}
    (undisturbed : session.bed.Undisturbed) (same : works.Perm works') :
    session.workAll works = session.workAll works' := by
  induction same generalizing session with
  | nil => rfl
  | cons work _ ih =>
    exact congrArg (Session.Worked.add · _ work) (ih (work.undisturbed undisturbed))
  | swap work work' rest =>
    obtain ⟨replied, replied', ended⟩ := Session.perform_comm undisturbed
    have after := congrArg (Session.workAll rest) ended
    rw [Session.workAll_unlogged, Session.workAll_unlogged] at after
    cases work <;> cases work' <;> simp only [Session.workAll, Session.Work.command,
      Session.Worked.add, replied, replied', after]
  | trans _ _ ih ih' => exact (ih undisturbed).trans (ih' undisturbed)

/-- Both loops are concerned with a group : its formation is done, and an event grants a role in
it. -/
def Session.forming : Session where
  bed :=
    { agent :=
        { events := [⟨"A", ⟨0, 0⟩, false, ⟨Route.groupReply.wire, "d", []⟩⟩]
          requests := ⟨[("d", .ok ⟨some "G", some ⟨Group.grantRoute, "E"⟩, .null⟩)]⟩
          reports := ⟨[("group.G", [.ok true])]⟩ }
      stores :=
        { identifiers := ⟨[("G", ⟨"G", "team", true, []⟩)]⟩
          pending := [.ofEntity .groupFormation "G"] }
      queue := ⟨[.ofEntity .groupFormation "G"]⟩ }

/-- The role is joined and the group's authorization started, whichever loop comes first. -/
theorem loops_independent_forming :
    Session.forming.bed.Undisturbed ∧
    [Session.Work.step, .pass].Perm [.pass, .step] ∧
    Session.forming.workAll [.step, .pass] = Session.forming.workAll [.pass, .step] ∧
    (Session.forming.workAll [.step, .pass]).after.bed.effects.joined.map (·.group) = [some "G"] ∧
    (Session.forming.workAll [.step, .pass]).after.bed.effects.started = ["team"] ∧
    (Session.forming.workAll [.step, .pass]).after.bed.queue.entries = [] := by
  have undisturbed : Session.forming.bed.Undisturbed := ⟨rfl, rfl, rfl⟩
  have same : [Session.Work.step, .pass].Perm [.pass, .step] := .swap _ _ _
  exact ⟨undisturbed, same, loops_independent undisturbed same, by decide +kernel,
    by decide +kernel, by decide +kernel⟩

end Feedkeeper
