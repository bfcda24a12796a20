import Feedkeeper.Proofs.Ledger
import Feedkeeper.Proofs.Run
import Mathlib.Logic.Relation

/-!
# Devices

A *device* is what the feed loop and the inbox share, together with the identifiers that it knows. A
run of it (`Device.Run`) goes through calls of the procedures of either, while the feed changes and
identifiers are added. A step may begin with anything in memory, and every procedure may be left
after any of its calls, so restarts, rescans, resets and crashes need no moves of their own.

Along every run the ledger of the notices goes on (`Run.continues`). That leaves at most one
invitation per group, over any feed (`one_invitation_per_group`) : inceptions are told apart by
their events, but whether one is filed is decided by its group.
-/

namespace Feedkeeper

open Outside Script
open Inbox (invitations)

/-- What surrounds a feed loop and its inbox. -/
structure Device where
  outside : Outside
  identifiers : Table Identifier := {}

namespace Device

/-- A lookup of an identifier that succeeds answers what is known. -/
def Knows (identifiers : Table Identifier) : Outside → (c : Call) → c.Answer → Prop
  | _, .findIdentifier id, .ok identifier? => identifier? = identifiers.get? id
  | _, _, _ => True

/-- How calls may turn out on the device. -/
def behavior (device : Device) : Behavior Outside :=
  limited (Knows device.identifiers)

/-- The procedures that work on the notices of a device. -/
inductive Procedure : {α : Type} → Script α → Prop where
  | step (settings : Settings) (state : Sync.State) : Procedure (Sync.step settings state)
  | load (settings : Settings) : Procedure (Sync.load settings)
  | all : Procedure Inbox.all.run
  | about (group : String) : Procedure (Inbox.about group).run
  | setRead (id : String) (read : Bool) : Procedure (Inbox.setRead id read).run
  | delete (id : String) : Procedure (Inbox.delete id).run

/-- What may happen to a device, events being appended that are `new`. -/
inductive Moves (new : Outside → Event → Prop) : Device → Device → Prop where
  /-- A procedure makes some of its calls, or all. -/
  | calls {device : Device} {α : Type} {script rest : Script α} {o' : Outside}
      (procedure : Procedure script)
      (reaches : Reaches device.behavior script device.outside rest o') :
      Moves new device { device with outside := o' }
  | append {device : Device} (event : Event) (unknown : new device.outside event) :
      Moves new device { device with outside :=
        { device.outside with
          appended := device.outside.appended ++ [event], feed := device.outside.feed ++ [event] } }
  | withdraw {device : Device} (kept : List Event) (sublist : kept.Sublist device.outside.feed) :
      Moves new device { device with outside := { device.outside with feed := kept } }
  /-- An identifier is added, or replaced. -/
  | register {device : Device} (identifier : Identifier) :
      Moves new device
        { device with identifiers := device.identifiers.put identifier.id identifier }

/-- What may happen to a device, one move after another. -/
abbrev Run (new : Outside → Event → Prop) : Device → Device → Prop :=
  Relation.ReflTransGen (Moves new)

/-- No notice was filed yet, and no call made. -/
structure Begins (device : Device) : Prop where
  notices : device.outside.notices = []
  trail : device.outside.trail = []

variable {new : Outside → Event → Prop} {start device device' : Device}

/-- The device after a procedure whose calls are answered so. -/
def after (device : Device) (answer : Outside → (c : Call) → c.Answer) {α : Type}
    (script : Script α) : Device :=
  { device with outside :=
      (script.run (fun c o => (answer o c, o.after c (answer o c))) device.outside).2 }

/-- On a device without identifiers, answers that are allowed are a move. -/
theorem moves_after {answer : Outside → (c : Call) → c.Answer} {α : Type} {script : Script α}
    (procedure : Procedure script) (none : device.identifiers = {})
    (allowed : ∀ c o, (limited (Knows {})).allows o c (answer o c)) :
    Moves new device (device.after answer script) := by
  obtain ⟨o, identifiers⟩ := device
  subst none
  exact .calls procedure (ends_run _ allowed _ _)

/-! ## The ledger of a run -/

/-- However its calls are answered, the calls of a procedure fit the notices. -/
theorem Procedure.orderly {α : Type} {script : Script α} (procedure : Procedure script)
    {p : Outside → (c : Call) → c.Answer → Prop} (o : Outside) :
    Respects (limited p) Orderly script o := by
  cases procedure with
  | step settings state => exact Sync.orderly_step settings state o
  | load settings => exact Sync.orderly_load settings o
  | all => exact Inbox.orderly_all o
  | about group => exact Inbox.orderly_about group o
  | setRead id read => exact Inbox.orderly_setRead id read o
  | delete id => exact Inbox.orderly_delete id o

theorem Moves.continues (moves : Moves new device device')
    (distinct : (device.outside.notices.map (·.id)).Nodup) :
    device.outside.Continues device'.outside := by
  cases moves with
  | calls procedure reaches =>
    exact continues_of_reaches (procedure.orderly device.outside) distinct reaches
  | append | withdraw | register => exact .refl _

/-- Along a run the ledger goes on. -/
theorem Run.continues (run : Run new start device)
    (distinct : (start.outside.notices.map (·.id)).Nodup) :
    start.outside.Continues device.outside := by
  induction run with
  | refl => exact .refl _
  | tail _ moves ih => exact ih.trans (moves.continues (ih.nodup distinct))

/-- The notices are what the changes so far have made of none. -/
theorem Run.ledger (run : Run new start device) (begins : start.Begins) :
    Ledger [] device.outside.history device.outside.notices := by
  have distinct : (start.outside.notices.map (·.id)).Nodup := begins.notices ▸ List.nodup_nil
  obtain ⟨entries, history, ledger⟩ := run.continues distinct
  have none : start.outside.history = [] := by
    rw [Outside.history, begins.trail, List.filterMap_nil]
  rw [history, none, List.nil_append]
  exact begins.notices ▸ ledger

/-! ## Invitations -/

/-- A step files a notice of a group inception only about a group that is unknown at that moment and
that no stored notice concerns. -/
theorem invites_of_reaches {settings : Settings} {state : Sync.State} {notice : Notice}
    {next : Except Fault Unit → Script (Except Crash (Sync.Outcome × Sync.State))} {o' : Outside}
    (reaches : Reaches device.behavior (Sync.step settings state) device.outside
      (.call (.saveNotice notice) next) o') (route : notice.route = .groupInception) :
    ∃ group, notice.correlation = some group ∧
      Invites (device.identifiers.get? · = none) device.outside.trail notice.action.digest o'
        group := by
  have respects := (Sync.respects_step (p := Knows device.identifiers)
    (device.identifiers.get? · = none) (fun known => known.symm) settings state
    device.outside).reaches reaches
  exact respects.1.2.2.inception route

end Device

open Device

variable {start device : Device}

/-- Along every run that begins without notices, over any feed, at most one stored notice invites to
a group, every stored notice of an inception or a reply is about a group, and a step saves a notice
of an inception only about a group that its group request named, that no identifier has at that
moment, and that no stored notice is about. -/
theorem one_invitation_per_group (begins : start.Begins)
    (run : Device.Run (fun _ _ => True) start device) :
    (∀ group, (invitations group device.outside.notices).length ≤ 1) ∧
    (∀ notice ∈ device.outside.notices,
      notice.route = .groupInception ∨ notice.route = .groupReply →
        notice.correlation.isSome = true) ∧
    ∀ settings state notice next o', Reaches device.behavior (Sync.step settings state)
        device.outside (.call (.saveNotice notice) next) o' → notice.route = .groupInception →
      ∃ group, notice.correlation = some group ∧
        Invites (device.identifiers.get? · = none) device.outside.trail notice.action.digest o'
          group :=
  ⟨(run.ledger begins).invitations_le_one,
    fun _ mem route => (run.ledger begins).correlated mem route,
    fun _ _ _ _ _ reaches route => invites_of_reaches reaches route⟩

/-- A feed with three inceptions, before anything is done. -/
def Device.invited : Device :=
  { outside :=
      { feed := ["A", "B", "C"].map fun id =>
          { Event.fresh id with action := ⟨Route.groupInception.wire, "", []⟩ } } }

/-- Every group request names one group, and all succeeds but what `fails`. -/
def Outside.inviting (fails : String → Bool) (o : Outside) : (c : Call) → c.Answer
  | .groupRequest _ => .ok ⟨some "G", none, .null⟩
  | .acknowledge id => if fails id then .error ⟨"unreachable"⟩ else .ok ()
  | c => o.obliging c

theorem Outside.allows_inviting (fails : String → Bool) (c : Call) (o : Outside) :
    (limited (Knows {})).allows o c (o.inviting fails c) := by
  cases c with
  | groupRequest | acknowledge => exact ⟨trivial, trivial⟩
  | findIdentifier => exact ⟨trivial, rfl⟩
  | _ => exact ⟨allows_obliging o _, trivial⟩

/-- The first of three inceptions for a group is filed, though its acknowledgement fails, and the
others are not, in this step or in the next. -/
theorem one_invitation_per_group_held : ∃ device,
    Device.invited.Begins ∧ Device.Run (fun _ _ => True) .invited device ∧
    device.outside.notices.map (·.id) = ["A"] ∧
    (∀ group, (invitations group device.outside.notices).length ≤ 1) ∧
    (∀ notice ∈ device.outside.notices,
      notice.route = .groupInception ∨ notice.route = .groupReply →
        notice.correlation.isSome = true) ∧
    ∀ settings state notice next o', Reaches device.behavior (Sync.step settings state)
        device.outside (.call (.saveNotice notice) next) o' → notice.route = .groupInception →
      ∃ group, notice.correlation = some group ∧
        Invites (device.identifiers.get? · = none) device.outside.trail notice.action.digest o'
          group := by
  have begins : Device.invited.Begins := ⟨rfl, rfl⟩
  let step := Sync.step {} (.at .start)
  let held := Device.invited.after (Outside.inviting (· == "A")) step
  have run : Device.Run (fun _ _ => True) .invited
      (held.after (Outside.inviting fun _ => false) step) :=
    (Relation.ReflTransGen.single (moves_after (.step _ _) rfl (allows_inviting _))).tail
      (moves_after (.step _ _) rfl (allows_inviting _))
  exact ⟨_, begins, run, by decide +kernel, one_invitation_per_group begins run⟩

end Feedkeeper
