import Feedkeeper.Proofs.Device

/-!
# The inbox beside the feed loop

The feed loop and the inbox work on the same notices. A step of the loop only appends unread notices
under new ids, whatever fails and wherever it is left (`Device.gains_of_reaches`). Marking a notice
changes its flag alone, and deleting one takes out that one alone (`Inbox.ensures_marks`,
`Inbox.ensures_deletes`).

Neither brings back what the other has settled. A notice is saved or announced only of an event that
the feed holds unconsumed (`Device.Procedure.reports`). So if a notice is deleted once its event is
consumed, nothing is ever said of that event again, as long as no id is used twice
(`Device.Run.silent`).
-/

namespace Feedkeeper

open Outside Script
open Inbox (Entry marking)

variable {p : Outside → (c : Call) → c.Answer → Prop} {o o' : Outside}

/-! ## Steps -/

/-- Between the two states notices were appended, each of them saved in its turn and unread, and
nothing else was done to the notices. -/
def Outside.Gains (o o' : Outside) : Prop :=
  ∃ added : List Notice, o'.notices = o.notices ++ added ∧
    o'.history = o.history ++ added.map .saved ∧ ∀ notice ∈ added, notice.read = false

theorem Outside.Gains.nothing (notices : o'.notices = o.notices)
    (history : o'.history = o.history) :
    o.Gains o' :=
  ⟨[], by rw [notices, List.append_nil], by rw [history, List.map_nil, List.append_nil],
    List.forall_mem_nil _⟩

theorem Outside.Gains.trans {o'' : Outside} (h : o.Gains o') (h' : o'.Gains o'') : o.Gains o'' := by
  obtain ⟨added, notices, history, unread⟩ := h
  obtain ⟨more, notices', history', unread'⟩ := h'
  refine ⟨added ++ more, ?_, ?_, fun notice mem => ?_⟩
  · rw [notices', notices, List.append_assoc]
  · rw [history', history, List.map_append, List.append_assoc]
  · exact (List.mem_append.1 mem).elim (unread notice) (unread' notice)

/-- A call of a step saves a notice, or leaves the notices as they are. -/
theorem Outside.Files.gains {unknown : String → Prop} {before : List Answered}
    {events : List Event} {c : Call} (files : Files unknown before events o c) (answer : c.Answer) :
    o.Gains (o.after c answer) := by
  cases c with
  | saveNotice notice =>
    cases answer with
    | error => exact .nothing rfl (history_after_of_none rfl)
    | ok =>
      obtain ⟨⟨event, -, -, tells⟩, -, -⟩ := files
      exact ⟨[notice], rfl, history_after _ _ _, by simp [tells.unread]⟩
  | updateNotice | deleteNotice => exact files.elim
  | acknowledge | storeCursor =>
    cases answer <;> exact .nothing rfl (history_after_of_none rfl)
  | _ => exact .nothing rfl (history_after_of_none rfl)

/-- At every point of a step the notices are those of before, with unread ones appended. -/
theorem Sync.gains_of_reaches {settings : Settings} {state : State}
    {rest : Script (Except Crash (Outcome × State))}
    (reaches : Reaches (limited p) (step settings state) o rest o') : o.Gains o' :=
  (respects_step (p := p) (fun _ => True) (fun _ => trivial) settings state o).keeps
    (I := o.Gains) reaches (.nothing rfl rfl) fun gains files _ => gains.trans (files.gains _)

/-! ## The inbox -/

namespace Inbox

/-- What comes of marking a notice. Unless the store fails, it fails only where there is none. -/
structure Marks (id : String) (read : Bool) (o : Outside) (result : Except RoutingError Unit)
    (o' : Outside) : Prop where
  spares : o.Spares o'
  done : result = .ok () →
    o'.notices = marking id read o.notices ∧ o'.history = o.history ++ [.marked id read]
  failed : ∀ error, result = .error error → o'.notices = o.notices ∧ o'.history = o.history
  missing : (∀ fault, result ≠ .error (.store fault)) →
    (result = .error (.noSuchNotice id) ↔ ¬o.Stored id)

/-- What comes of deleting a notice. It fails only if the store fails. -/
structure Deletes (id : String) (o : Outside) (result : Except RoutingError Unit)
    (o' : Outside) : Prop where
  spares : o.Spares o'
  done : result = .ok () →
    o'.notices = o.notices.filter (·.id != id) ∧ o'.history = o.history ++ [.deleted id]
  failed : ∀ error, result = .error error →
    (∃ fault, error = .store fault) ∧ o'.notices = o.notices ∧ o'.history = o.history

theorem ensures_marks (distinct : (o.notices.map (·.id)).Nodup) (id : String) (read : Bool) :
    Ensures (limited p) (setRead id read).run (Marks id read o) o := by
  rw [setRead, ensures_run_bind, ensures_run_store, ensures_ask]
  rintro (fault | _ | notice) found
  · exact ⟨spares_after rfl rfl, by simp, fun _ _ => ⟨rfl, history_after_of_none rfl⟩,
      fun sound => absurd rfl (sound fault)⟩
  · have missing : ¬o.Stored id := not_stored_of_find found.1.symm
    exact ⟨spares_after rfl rfl, by simp, fun _ _ => ⟨rfl, history_after_of_none rfl⟩,
      fun _ => iff_of_true rfl missing⟩
  have find : o.notices.find? (·.id == id) = some notice := found.1.symm
  have stored : notice ∈ o.notices := List.mem_of_find?_eq_some find
  obtain rfl : notice.id = id := by simpa using List.find?_some find
  have looked : o.Spares (o.after (.findNotice notice.id) (.ok (some notice))) :=
    spares_after rfl rfl
  have untold : (o.after (.findNotice notice.id) (.ok (some notice))).history = o.history :=
    history_after_of_none rfl
  simp only [Except.mapError]
  rw [ensures_run_store, ensures_ask]
  rintro (fault | _) _
  · exact ⟨looked.trans (spares_after rfl rfl), by simp [Except.mapError],
      fun _ _ => ⟨rfl, (history_after_of_none rfl).trans untold⟩,
      fun sound => absurd rfl (sound fault)⟩
  · refine ⟨looked.trans (spares_after rfl rfl), fun _ => ⟨?_, ?_⟩,
      by simp [Except.mapError],
      fun _ => iff_of_false (by rintro ⟨⟩) (not_not.2 ⟨notice, stored, rfl⟩)⟩
    · change (Testbed.replaceFirst? _ o.notices).getD o.notices = _
      rw [Testbed.replaceFirst?_eq_marking stored distinct, Option.getD_some]
    · exact (history_after _ _ _).trans (congrArg (· ++ _) untold)

theorem ensures_deletes (id : String) :
    Ensures (limited p) (delete id).run (Deletes id o) o := by
  rw [delete, ensures_run_store, ensures_ask]
  rintro (fault | _) _
  · refine ⟨spares_after rfl rfl, by simp [Except.mapError], fun error failed => ?_⟩
    obtain rfl : RoutingError.store fault = error := Except.error.inj failed
    exact ⟨⟨fault, rfl⟩, rfl, history_after_of_none rfl⟩
  · exact ⟨spares_after rfl rfl, fun _ => ⟨rfl, history_after _ _ _⟩, by simp [Except.mapError]⟩

end Inbox

/-! ## What is said of an event -/

namespace Outside

/-- The call saves or announces a notice of one of the events, if it does, and one that is not
consumed. -/
def Reports (events : List Event) : Call → Prop
  | .saveNotice notice | .announceNotice notice =>
    ∃ event ∈ events, event.consumed = false ∧ notice.id = event.id
  | _ => True

/-- The call does not save or announce a notice of the event with the id. -/
def Silent (id : String) : Call → Prop
  | .saveNotice notice | .announceNotice notice => notice.id ≠ id
  | _ => True

/-- The event is none that the feed ever had. -/
def Novel (o : Outside) (event : Event) : Prop :=
  event.id ∉ o.appended.map (·.id)

theorem Files.reports {unknown : String → Prop} {before : List Answered} {events : List Event}
    {c : Call} (files : Files unknown before events o c) : Reports events c := by
  cases c with
  | saveNotice notice =>
    obtain ⟨⟨event, found, unconsumed, tells⟩, -⟩ := files
    exact ⟨event, found, unconsumed, tells.id⟩
  | announceNotice notice =>
    obtain ⟨event, found, unconsumed, tells⟩ := files
    exact ⟨event, found, unconsumed, tells.id⟩
  | _ => trivial

/-- Of events that are consumed nothing is said. -/
theorem Reports.silent {id : String} {c : Call} (reports : Reports o.feed c)
    (handled : o.Handled id) : Silent id c := by
  have unsaid {notice : Notice}
      (h : ∃ event ∈ o.feed, event.consumed = false ∧ notice.id = event.id) : notice.id ≠ id := by
    obtain ⟨event, mem, unconsumed, same⟩ := h
    rintro rfl
    rw [handled event mem same.symm] at unconsumed
    cases unconsumed
  cases c with
  | saveNotice | announceNotice => exact unsaid reports
  | _ => trivial

/-- Between the two states only calls of the kind were made. -/
def MakesOnly (o : Outside) (kind : Call → Prop) (o' : Outside) : Prop :=
  ∃ calls, o'.trail = o.trail ++ calls ∧ ∀ answered ∈ calls, kind answered.call

variable {kind : Call → Prop}

theorem MakesOnly.none (trail : o'.trail = o.trail) : o.MakesOnly kind o' :=
  ⟨[], by rw [trail, List.append_nil], List.forall_mem_nil _⟩

theorem MakesOnly.trans {o'' : Outside} (h : o.MakesOnly kind o') (h' : o'.MakesOnly kind o'') :
    o.MakesOnly kind o'' := by
  obtain ⟨calls, trail, all⟩ := h
  obtain ⟨calls', trail', all'⟩ := h'
  refine ⟨calls ++ calls', by rw [trail', trail, List.append_assoc], fun answered mem => ?_⟩
  exact (List.mem_append.1 mem).elim (all answered) (all' answered)

theorem MakesOnly.mono {kind' : Call → Prop} (h : o.MakesOnly kind o')
    (imp : ∀ c, kind c → kind' c) : o.MakesOnly kind' o' := by
  obtain ⟨calls, trail, all⟩ := h
  exact ⟨calls, trail, fun answered mem => imp _ (all answered mem)⟩

/-- A script that respects a rule on calls alone makes only calls of that kind. -/
theorem makes_of_reaches {α : Type} {script rest : Script α}
    (respects : Respects (limited p) (fun _ => kind) script o)
    (reaches : Reaches (limited p) script o rest o') : o.MakesOnly kind o' :=
  respects.keeps (I := fun o' => o.MakesOnly kind o') reaches (.none rfl) fun makes made _ =>
    makes.trans ⟨[_], rfl, by simpa using made⟩

/-- A notice that was not there before was saved by one of the calls. -/
theorem MakesOnly.saved (makes : o.MakesOnly kind o') (continues : o.Continues o') {notice : Notice}
    (mem : notice ∈ o'.notices) :
    o.Stored notice.id ∨ ∃ saved, kind (.saveNotice saved) ∧ saved.id = notice.id := by
  obtain ⟨calls, trail, all⟩ := makes
  obtain ⟨entries, history, ledger⟩ := continues
  have told : entries = calls.filterMap Answered.entry? := by
    rw [Outside.history, trail, List.filterMap_append] at history
    exact (List.append_cancel_left history).symm
  obtain stored | ⟨saved, mem, same⟩ := ledger.stored_or_saved mem
  · exact .inl stored
  refine .inr ⟨saved, ?_, same⟩
  obtain ⟨⟨c, answer⟩, made, entry⟩ := List.mem_filterMap.1 (told ▸ mem)
  have h := all _ made
  unfold Answered.entry? at entry
  split at entry <;> simp_all

end Outside

/-! ## Runs -/

namespace Device

variable {start device device' later : Device}

/-- However its calls are answered, a procedure reports events only that the feed holds
unconsumed. -/
theorem Procedure.reports {α : Type} {script : Script α} (procedure : Procedure script)
    (o : Outside) : Respects (limited p) (fun _ => Reports o.feed) script o := by
  cases procedure with
  | step settings state =>
    exact (Sync.respects_step (fun _ => True) (fun _ => trivial) settings state o).mono
      Files.reports
  | load settings =>
    refine ⟨trivial, ?_⟩
    rintro (fault | _ | cursor) _
    · trivial
    · refine ⟨trivial, ?_⟩
      rintro (fault | _) _ <;> trivial
    · trivial
  | all | about | delete => exact ⟨trivial, fun _ _ => trivial⟩
  | setRead id read =>
    refine ⟨trivial, ?_⟩
    rintro (fault | _ | notice) _
    · trivial
    · trivial
    · exact ⟨trivial, fun _ _ => trivial⟩

theorem Moves.reports {new : Outside → Event → Prop} (moves : Moves new device device') :
    device.outside.MakesOnly (Reports device.outside.feed) device'.outside := by
  cases moves with
  | calls procedure reaches => exact makes_of_reaches (procedure.reports device.outside) reaches
  | append | withdraw | register => exact .none rfl

theorem Moves.appended {new : Outside → Event → Prop} (moves : Moves new device device') :
    device.outside.appended <+: device'.outside.appended := by
  cases moves with
  | calls _ reaches =>
    have later := Later.of_reaches rfl reaches
    exact later.appended ▸ List.prefix_refl _
  | append event _ => exact List.prefix_append _ _
  | withdraw | register => exact List.prefix_refl _

/-- Everything that the device has of an event is of one that was appended. -/
structure Known (device : Device) : Prop where
  feed : ∀ event ∈ device.outside.feed, event.id ∈ device.outside.appended.map (·.id)
  notices : ∀ notice ∈ device.outside.notices, notice.id ∈ device.outside.appended.map (·.id)

theorem Moves.known {new : Outside → Event → Prop} (moves : Moves new device device')
    (known : device.Known) (distinct : (device.outside.notices.map (·.id)).Nodup) :
    device'.Known where
  feed event mem := by
    cases moves with
    | calls _ reaches =>
      have later := Later.of_reaches rfl reaches
      obtain ⟨first, mem, becomes⟩ := later.origin event mem
      exact later.appended ▸ becomes.id_eq ▸ known.feed first mem
    | append new _ =>
      rw [List.map_append]
      rcases List.mem_append.1 mem with mem | mem
      · exact List.mem_append_left _ (known.feed event mem)
      · exact List.mem_append_right _ (List.mem_map_of_mem mem)
    | withdraw kept sublist => exact known.feed event (sublist.subset mem)
    | register => exact known.feed event mem
  notices notice mem := by
    refine (moves.appended.sublist.map _).subset ?_
    rcases moves.reports.saved (moves.continues distinct) mem with ⟨stored, mem, same⟩ | saved
    · exact same ▸ known.notices stored mem
    · obtain ⟨saved, ⟨event, mem, -, same⟩, heq⟩ := saved
      exact heq ▸ same ▸ known.feed event mem

theorem Run.known {new : Outside → Event → Prop} (run : Run new start device)
    (known : start.Known) (distinct : (start.outside.notices.map (·.id)).Nodup) :
    device.Known := by
  induction run with
  | refl => exact known
  | tail run moves ih =>
    exact moves.known ih ((Run.continues run distinct).nodup distinct)

theorem Moves.silent {id : String} (moves : Moves Novel device device')
    (handled : device.outside.Handled id) (known : id ∈ device.outside.appended.map (·.id)) :
    device.outside.MakesOnly (Silent id) device'.outside ∧ device'.outside.Handled id := by
  refine ⟨moves.reports.mono fun _ reports => reports.silent handled, ?_⟩
  cases moves with
  | calls _ reaches => exact handled.later (.of_reaches rfl reaches)
  | append event novel => exact handled.append known novel
  | withdraw kept sublist => exact handled.withdraw sublist
  | register => exact handled

/-- Once an event is consumed or gone, nothing is said of it any more. -/
theorem Run.silent {id : String} (run : Run Novel start device)
    (handled : start.outside.Handled id) (known : id ∈ start.outside.appended.map (·.id)) :
    start.outside.MakesOnly (Silent id) device.outside := by
  suffices start.outside.MakesOnly (Silent id) device.outside ∧ device.outside.Handled id ∧
      id ∈ device.outside.appended.map (·.id) from this.1
  induction run with
  | refl => exact ⟨.none rfl, handled, known⟩
  | tail _ moves ih =>
    obtain ⟨makes, handled, known⟩ := ih
    obtain ⟨more, handled'⟩ := moves.silent handled known
    exact ⟨makes.trans more, handled', (moves.appended.sublist.map _).subset known⟩

end Device

open Device

variable {start device : Device}

/-- At every point of every run that begins without notices and in which no id is used twice : a
step only appends unread notices under new ids; marking changes the flag of the notice with the id,
deleting takes it out, and both leave all as it is where they fail; each notice has the flag that it
was last marked with, and stays until it is deleted; and if a notice is deleted whose event is
consumed, there is never again one with its id, nor is one saved or announced. -/
theorem inbox_and_feed_apart (begins : start.Begins)
    (feed : start.outside.feed = start.outside.appended) (run : Device.Run Novel start device) :
    (∀ settings state rest o', Reaches device.behavior (Sync.step settings state) device.outside
      rest o' → device.outside.Gains o' ∧ (o'.notices.map (·.id)).Nodup) ∧
    (∀ id read result o', Ends device.behavior (Inbox.setRead id read).run device.outside
      result o' → Inbox.Marks id read device.outside result o') ∧
    (∀ id result o', Ends device.behavior (Inbox.delete id).run device.outside result o' →
      Inbox.Deletes id device.outside result o') ∧
    (∀ notice ∈ device.outside.notices,
      notice.read = device.outside.history.foldl (Entry.flag notice.id) false) ∧
    (∀ later, Device.Run Novel device later → ∃ entries,
      later.outside.history = device.outside.history ++ entries ∧
      ∀ notice ∈ device.outside.notices, Entry.deleted notice.id ∉ entries →
        ∃ read, { notice with read } ∈ later.outside.notices) ∧
    ∀ id o' later, device.outside.Stored id → device.outside.Handled id →
      Ends device.behavior (Inbox.delete id).run device.outside (.ok ()) o' →
      Device.Run Novel { device with outside := o' } later →
        ¬later.outside.Stored id ∧ o'.MakesOnly (Silent id) later.outside := by
  have ledger := run.ledger begins
  have distinct : (device.outside.notices.map (·.id)).Nodup := ledger.nodup List.nodup_nil
  refine ⟨fun settings state rest o' reaches => ⟨Sync.gains_of_reaches reaches, ?_⟩,
    fun id read result o' ends => (Inbox.ensures_marks distinct id read).ends ends,
    fun id result o' ends => (Inbox.ensures_deletes id).ends ends,
    fun notice mem => ledger.read_eq mem, fun later more => ?_, ?_⟩
  · exact (continues_of_reaches (Sync.orderly_step settings state _) distinct reaches).nodup
      distinct
  · obtain ⟨entries, history, ledger⟩ := more.continues distinct
    exact ⟨entries, history, fun notice mem undeleted => ledger.kept mem undeleted⟩
  · intro id o' later stored handled ends more
    have known : device.Known := run.known
      ⟨fun event mem => List.mem_map_of_mem (feed ▸ mem), by simp [begins.notices]⟩
      (begins.notices ▸ List.nodup_nil)
    have deletes := (Inbox.ensures_deletes id).ends ends
    obtain ⟨notices, -⟩ := deletes.done rfl
    have distinct' : (o'.notices.map (·.id)).Nodup :=
      notices ▸ (List.filter_sublist.map _).nodup distinct
    obtain ⟨notice, mem, rfl⟩ := stored
    have silent := more.silent (handled.later deletes.spares.later)
      (deletes.spares.appended ▸ known.notices notice mem)
    refine ⟨?_, silent⟩
    rintro ⟨other, mem, same⟩
    rcases silent.saved (more.continues distinct') mem with
      ⟨back, mem, same'⟩ | ⟨saved, unsaid, same'⟩
    · have out := (List.mem_filter.1 (notices ▸ mem)).2
      simp [same', same] at out
    · exact unsaid (same'.trans same)

/-- A device with a feed of two events, before anything is done. -/
def Device.fresh : Device :=
  { outside := Site.fresh.outside }

theorem Device.allows_obliging (c : Call) (o : Outside) :
    (limited (Knows {})).allows o c (o.obliging c) := by
  refine ⟨Outside.allows_obliging o c, ?_⟩
  cases c <;> trivial

/-- Two notices are stored, one is marked and the other deleted, and then the feed is read again
from its start. -/
theorem inbox_and_feed_apart_rescanned : ∃ device,
    Device.fresh.Begins ∧ Device.fresh.outside.feed = Device.fresh.outside.appended ∧
    Device.Run Novel .fresh device ∧
    device.outside.notices.map (fun notice => (notice.id, notice.read)) = [("A", true)] ∧
    (∀ settings state rest o', Reaches device.behavior (Sync.step settings state) device.outside
      rest o' → device.outside.Gains o' ∧ (o'.notices.map (·.id)).Nodup) ∧
    (∀ id read result o', Ends device.behavior (Inbox.setRead id read).run device.outside
      result o' → Inbox.Marks id read device.outside result o') ∧
    (∀ id result o', Ends device.behavior (Inbox.delete id).run device.outside result o' →
      Inbox.Deletes id device.outside result o') ∧
    (∀ notice ∈ device.outside.notices,
      notice.read = device.outside.history.foldl (Entry.flag notice.id) false) ∧
    (∀ later, Device.Run Novel device later → ∃ entries,
      later.outside.history = device.outside.history ++ entries ∧
      ∀ notice ∈ device.outside.notices, Entry.deleted notice.id ∉ entries →
        ∃ read, { notice with read } ∈ later.outside.notices) ∧
    ∀ id o' later, device.outside.Stored id → device.outside.Handled id →
      Ends device.behavior (Inbox.delete id).run device.outside (.ok ()) o' →
      Device.Run Novel { device with outside := o' } later →
        ¬later.outside.Stored id ∧ o'.MakesOnly (Silent id) later.outside := by
  have begins : Device.fresh.Begins := ⟨rfl, rfl⟩
  let step := Sync.step {} (.at .start)
  let stored := Device.fresh.after obliging step
  let marked := stored.after obliging (Inbox.setRead "A" true).run
  let deleted := marked.after obliging (Inbox.delete "B").run
  have run : Device.Run Novel .fresh (deleted.after obliging step) :=
    (((Relation.ReflTransGen.single (moves_after (.step _ _) rfl allows_obliging)).tail
      (moves_after (.setRead _ _) rfl allows_obliging)).tail
      (moves_after (.delete _) rfl allows_obliging)).tail
      (moves_after (.step _ _) rfl allows_obliging)
  exact ⟨_, begins, rfl, run, by decide +kernel, inbox_and_feed_apart begins rfl run⟩

end Feedkeeper
