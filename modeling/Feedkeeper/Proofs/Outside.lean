import Feedkeeper.Proofs.Execution
import Feedkeeper.Testbed.Answer
import Mathlib.Data.List.Basic
import Mathlib.Data.List.Nodup

/-!
# The outside of the feed loop

What surrounds the feed loop, as far as its guarantees depend on it : the feed, the stored cursors
and the stored notices, together with every call made so far (`Outside.trail`) and every event the
feed ever had (`Outside.appended`). A call that can fail may fail at any time, and changes nothing
then. A call that succeeds answers what is there and does what it says (`Outside.allows`,
`Outside.after`). Nothing is assumed of the group requests, the senders, the identifiers, the gate
and the clock : they may answer differently each time.

Calls never take an event out of the feed and never lower a flag (`Outside.Later`,
`later_after`), and what they do for good can be read off the trail (`Outside.deeds`).
-/

namespace Feedkeeper

/-! ## Events and their flags -/

/-- The second event is the first, acknowledged in between or not. -/
def Event.Becomes (first second : Event) : Prop :=
  second = first ∨ second = { first with consumed := true }

namespace Event

variable {first second third : Event}

theorem Becomes.refl (event : Event) : event.Becomes event :=
  Or.inl rfl

theorem Becomes.trans (h : first.Becomes second) (h' : second.Becomes third) :
    first.Becomes third := by
  rcases h with rfl | rfl
  · exact h'
  · rcases h' with rfl | rfl <;> exact Or.inr rfl

theorem Becomes.id_eq (h : first.Becomes second) : second.id = first.id := by
  rcases h with rfl | rfl <;> rfl

theorem Becomes.action_eq (h : first.Becomes second) : second.action = first.action := by
  rcases h with rfl | rfl <;> rfl

theorem Becomes.consumed (h : first.Becomes second) (hc : first.consumed = true) :
    second.consumed = true := by
  rcases h with rfl | rfl
  · exact hc
  · rfl

/-- An event that is not acknowledged is as it was appended. -/
theorem Becomes.eq_of_not_consumed (h : first.Becomes second) (hc : second.consumed = false) :
    second = first := by
  rcases h with rfl | rfl
  · rfl
  · cases hc

/-- An event that is acknowledged by now is what every earlier form of it becomes. -/
theorem Becomes.of_consumed (h : first.Becomes second) (h' : first.Becomes third)
    (hc : third.consumed = true) : second.Becomes third := by
  rcases h with rfl | rfl
  · exact h'
  · rcases h' with rfl | rfl
    · refine Or.inl ?_
      rw [← hc]
    · exact Or.inl rfl

end Event

namespace Testbed

theorem map_id_consumeFirst (id : String) (events : List Event) :
    (consumeFirst id events).map (·.id) = events.map (·.id) := by
  induction events with
  | nil => rfl
  | cons event rest ih =>
    by_cases h : event.id = id
    · simp [consumeFirst, h]
    · simp [consumeFirst, h, ih]

/-- Every event is one of those before, acknowledged in between or not. -/
theorem exists_becomes_of_mem_consumeFirst {id : String} {events : List Event} {event : Event}
    (h : event ∈ consumeFirst id events) : ∃ first ∈ events, first.Becomes event := by
  induction events with
  | nil => cases h
  | cons head rest ih =>
    rw [consumeFirst] at h
    split at h
    · rcases List.mem_cons.1 h with rfl | h
      · exact ⟨head, List.mem_cons_self, Or.inr rfl⟩
      · exact ⟨event, List.mem_cons_of_mem _ h, .refl _⟩
    · rcases List.mem_cons.1 h with rfl | h
      · exact ⟨event, List.mem_cons_self, .refl _⟩
      · obtain ⟨first, hf, hb⟩ := ih h
        exact ⟨first, List.mem_cons_of_mem _ hf, hb⟩

theorem mem_consumeFirst_of_ne {id : String} {events : List Event} {event : Event}
    (h : event ∈ events) (ne : event.id ≠ id) : event ∈ consumeFirst id events := by
  induction events with
  | nil => cases h
  | cons head rest ih =>
    rw [consumeFirst]
    rcases List.mem_cons.1 h with rfl | h
    · rw [if_neg ne]
      exact List.mem_cons_self
    · split
      · exact List.mem_cons_of_mem _ h
      · exact List.mem_cons_of_mem _ (ih h)

theorem mem_of_mem_consumeFirst {id : String} {events : List Event} {event : Event}
    (h : event ∈ consumeFirst id events) (ne : event.id ≠ id) : event ∈ events := by
  induction events with
  | nil => cases h
  | cons head rest ih =>
    rw [consumeFirst] at h
    split at h
    · rename_i hhead
      rcases List.mem_cons.1 h with rfl | h
      · exact absurd hhead ne
      · exact List.mem_cons_of_mem _ h
    · rcases List.mem_cons.1 h with rfl | h
      · exact List.mem_cons_self
      · exact List.mem_cons_of_mem _ (ih h)

/-- Behind the event that is consumed everything stays as it is. -/
theorem drop_consumeFirst {id : String} {events : List Event} {count : Nat}
    (h : id ∈ (events.map (·.id)).take count) :
    (consumeFirst id events).drop count = events.drop count := by
  induction events generalizing count with
  | nil => rfl
  | cons head rest ih =>
    cases count with
    | zero => cases h
    | succ count =>
      rw [consumeFirst]
      split
      · rfl
      · rename_i hhead
        rw [List.map_cons, List.take_succ_cons, List.mem_cons] at h
        exact ih (h.resolve_left fun heq => hhead heq.symm)

theorem drop_foldl_consumeFirst {ids : List String} {events : List Event} {count : Nat}
    (h : ∀ id ∈ ids, id ∈ (events.map (·.id)).take count) :
    (ids.foldl (fun events id => consumeFirst id events) events).drop count =
      events.drop count := by
  induction ids generalizing events with
  | nil => rfl
  | cons id ids ih =>
    rw [List.foldl_cons, ih, drop_consumeFirst (h id List.mem_cons_self)]
    intro other ho
    rw [map_id_consumeFirst]
    exact h other (List.mem_cons_of_mem _ ho)

/-- Among events of different ids, the one with the id is consumed afterwards. -/
theorem consumed_of_mem_consumeFirst {id : String} {events : List Event} {event : Event}
    (nodup : (events.map (·.id)).Nodup) (h : event ∈ consumeFirst id events)
    (hid : event.id = id) : event.consumed = true := by
  induction events with
  | nil => cases h
  | cons head rest ih =>
    rw [List.map_cons, List.nodup_cons] at nodup
    rw [consumeFirst] at h
    split at h
    · rename_i hhead
      rcases List.mem_cons.1 h with rfl | h
      · rfl
      · exact absurd (List.mem_map.2 ⟨event, h, hid.trans hhead.symm⟩) nodup.1
    · rename_i hhead
      rcases List.mem_cons.1 h with rfl | h
      · exact absurd hid hhead
      · exact ih nodup.2 h

theorem map_id_replaceFirst? {notice : Notice} {notices replaced : List Notice}
    (h : replaceFirst? notice notices = some replaced) :
    replaced.map (·.id) = notices.map (·.id) := by
  induction notices generalizing replaced with
  | nil => cases h
  | cons head rest ih =>
    rw [replaceFirst?] at h
    split at h
    · rename_i hid
      obtain rfl := Option.some.inj h
      simp [hid]
    · obtain ⟨others, ho, rfl⟩ := Option.map_eq_some_iff.1 h
      simp [ih ho]

end Testbed

/-! ## States and calls -/

/-- The surroundings of a feed loop. -/
structure Outside where
  /-- All events that the feed ever had, as they were when they were appended. -/
  appended : List Event := []
  feed : List Event := []
  cursors : Table Cursor := {}
  notices : List Notice := []
  /-- All calls so far. -/
  trail : List Answered := []

namespace Outside

/-- Whether a call may be answered so. A call that can fail may fail, and one that does not fail
answers what is there. -/
def allows (o : Outside) : (c : Call) → c.Answer → Prop
  | .fetch offset limit, .ok window => window = (o.feed.drop offset).take (limit - offset)
  | .loadCursor key, .ok cursor? => cursor? = o.cursors.get? key
  | .findNotice id, .ok notice? => notice? = o.notices.find? (·.id == id)
  | .noticesAbout group, .ok notices => notices = o.notices.filter (·.correlation == some group)
  | .allNotices, .ok notices => notices = o.notices
  | .updateNotice notice, .ok () => (Testbed.replaceFirst? notice o.notices).isSome
  | _, _ => True

/-- What a call that succeeded has changed. -/
def changed (o : Outside) : (c : Call) → c.Answer → Outside
  | .acknowledge id, .ok () => { o with feed := Testbed.consumeFirst id o.feed }
  | .storeCursor key cursor, .ok () => { o with cursors := o.cursors.put key cursor }
  | .saveNotice notice, .ok () => { o with notices := o.notices ++ [notice] }
  | .updateNotice notice, .ok () =>
    { o with notices := (Testbed.replaceFirst? notice o.notices).getD o.notices }
  | .deleteNotice id, .ok () => { o with notices := o.notices.filter (·.id != id) }
  | _, _ => o

/-- The state once a call was answered. -/
def after (o : Outside) (c : Call) (answer : c.Answer) : Outside :=
  { o.changed c answer with trail := o.trail ++ [⟨c, answer⟩] }

/-- Calls turn out as they can, where `p` admits it. -/
def limited (p : Outside → (c : Call) → c.Answer → Prop) : Behavior Outside :=
  ⟨fun o c answer => o.allows c answer ∧ p o c answer, after⟩

/-- Any call may fail at any time. -/
def free : Behavior Outside :=
  limited fun _ _ _ => True

variable {p : Outside → (c : Call) → c.Answer → Prop} {o o' o'' : Outside}

@[simp] theorem limited_allows {c : Call} {answer : c.Answer} :
    (limited p).allows o c answer ↔ o.allows c answer ∧ p o c answer :=
  Iff.rfl

@[simp] theorem limited_after {c : Call} {answer : c.Answer} :
    (limited p).after o c answer = o.after c answer :=
  rfl

@[simp] theorem free_allows {c : Call} {answer : c.Answer} :
    free.allows o c answer ↔ o.allows c answer :=
  and_iff_left trivial

@[simp] theorem free_after {c : Call} {answer : c.Answer} :
    free.after o c answer = o.after c answer :=
  rfl

/-- What is ensured if any call may fail is ensured if fewer may. -/
theorem ensures_limited {α : Type} {script : Script α} {Q : α → Outside → Prop}
    (h : script.Ensures free Q o) : script.Ensures (limited p) Q o :=
  Script.ensures_iff.2 fun _ _ ends =>
    h.ends (ends.mono rfl fun allowed => ⟨allowed.1, trivial⟩)

@[simp] theorem trail_after (o : Outside) (c : Call) (answer : c.Answer) :
    (o.after c answer).trail = o.trail ++ [⟨c, answer⟩] :=
  rfl

@[simp] theorem appended_after (o : Outside) (c : Call) (answer : c.Answer) :
    (o.after c answer).appended = o.appended := by
  simp only [after]
  unfold changed
  split <;> rfl

/-- An answer to every call, none of them a failure where success is possible. -/
def obliging (o : Outside) : (c : Call) → c.Answer
  | .fetch offset limit => .ok ((o.feed.drop offset).take (limit - offset))
  | .acknowledge _ => .ok ()
  | .groupRequest digest => .error (.notFound digest)
  | .sender _ => .error ⟨"exchange not found", []⟩
  | .operationStatus id => .ok ⟨id, false⟩
  | .loadCursor key => .ok (o.cursors.get? key)
  | .storeCursor .. => .ok ()
  | .saveNotice _ => .ok ()
  | .findNotice id => .ok (o.notices.find? (·.id == id))
  | .noticesAbout group => .ok (o.notices.filter (·.correlation == some group))
  | .updateNotice notice =>
    if (Testbed.replaceFirst? notice o.notices).isSome then .ok () else .error ⟨"no event", []⟩
  | .deleteNotice _ => .ok ()
  | .allNotices => .ok o.notices
  | .findIdentifier _ => .ok none
  | .setPending .. => .ok ()
  | .pendingOperations => .ok []
  | .savePending _ => .ok ()
  | .deletePending _ => .ok ()
  | .joinAuthorization _ => .ok ()
  | .startAuthorization _ => .ok ()
  | .launchAuthorization _ => ()
  | .announceNotice _ => ()
  | .announceCompletion _ => ()
  | .queued => []
  | .enqueue _ => true
  | .enqueueAll _ => 0
  | .dequeue _ => true
  | .isOnline => true
  | .isLoggedIn => true
  | .isShutDown => false
  | .now => ⟨0, 0⟩
  | .reconnect => true
  | .reconnected => ()
  | .pause _ => true
  | .sleep _ => ()
  | .awaitShutdown => ()
  | .note _ => ()
  | .reportRouting .. => ()

theorem allows_obliging (o : Outside) (c : Call) : o.allows c (o.obliging c) := by
  cases c with
  | updateNotice notice =>
    simp only [obliging]
    split
    · assumption
    · trivial
  | _ => trivial

/-- Runs a script with obliging answers. -/
def oblige {α : Type} (script : Script α) (o : Outside) : α × Outside :=
  script.run (fun c o => (o.obliging c, o.after c (o.obliging c))) o

/-- Where obliging answers are admitted, a script can end as it ends with them. -/
theorem ends_oblige {α : Type} (admitted : ∀ o c, p o c (o.obliging c)) (script : Script α)
    (o : Outside) : script.Ends (limited p) o (oblige script o).1 (oblige script o).2 :=
  Script.ends_run (b := limited p) (fun c o => o.obliging c)
    (fun c o => ⟨allows_obliging o c, admitted o c⟩) script o

/-! ## Later states -/

/-- Between the two states only calls were made : the feed has the same events in the same order,
and flags were at most raised. -/
structure Later (o o' : Outside) : Prop where
  appended : o'.appended = o.appended
  ids : o'.feed.map (·.id) = o.feed.map (·.id)
  origin : ∀ event ∈ o'.feed, ∃ first ∈ o.feed, first.Becomes event
  trail : o.trail <+: o'.trail

theorem Later.refl (o : Outside) : Later o o :=
  ⟨rfl, rfl, fun event h => ⟨event, h, .refl _⟩, List.prefix_refl _⟩

theorem Later.trans (h : Later o o') (h' : Later o' o'') : Later o o'' where
  appended := h'.appended.trans h.appended
  ids := h'.ids.trans h.ids
  origin event he := by
    obtain ⟨second, hs, hb⟩ := h'.origin event he
    obtain ⟨first, hf, hb'⟩ := h.origin second hs
    exact ⟨first, hf, hb'.trans hb⟩
  trail := h.trail.trans h'.trail

theorem later_after (o : Outside) (c : Call) (answer : c.Answer) : Later o (o.after c answer) where
  appended := appended_after o c answer
  ids := by
    simp only [after]
    unfold changed
    split <;> first | rfl | exact Testbed.map_id_consumeFirst _ _
  origin event h := by
    simp only [after] at h
    unfold changed at h
    split at h <;>
      first | exact ⟨event, h, .refl _⟩ | exact Testbed.exists_becomes_of_mem_consumeFirst h
  trail := List.prefix_append _ _

/-- Along a script only calls are made. -/
theorem Later.of_reaches {α : Type} {b : Behavior Outside} (hb : b.after = after)
    {script rest : Script α} (h : script.Reaches b o rest o') : Later o o' :=
  h.keeps (I := Later o) (.refl o) fun hl _ => hl.trans (hb ▸ later_after _ _ _)

/-- The trail grows by the calls of a script. -/
theorem exists_traces {α : Type} {script rest : Script α}
    (h : script.Reaches (limited p) o rest o') :
    ∃ trail, script.Traces trail rest ∧ o'.trail = o.trail ++ trail := by
  induction h with
  | here script o => exact ⟨[], .here _, (List.append_nil _).symm⟩
  | next _ _ ih =>
    obtain ⟨trail, traces, h⟩ := ih
    exact ⟨_ :: trail, .next traces, by simp [h]⟩

/-! ## The feed as appended -/

/-- The feed holds events that were appended, in that order, and no id was ever used twice. -/
structure Sound (o : Outside) : Prop where
  nodup : (o.appended.map (·.id)).Nodup
  sublist : (o.feed.map (·.id)).Sublist (o.appended.map (·.id))
  origin : ∀ event ∈ o.feed, ∃ first ∈ o.appended, first.Becomes event

theorem Sound.feed_nodup (h : o.Sound) : (o.feed.map (·.id)).Nodup :=
  h.sublist.nodup h.nodup

theorem Sound.later (h : o.Sound) (later : Later o o') : o'.Sound where
  nodup := later.appended ▸ h.nodup
  sublist := by rw [later.appended, later.ids]; exact h.sublist
  origin event he := by
    obtain ⟨second, hs, hb⟩ := later.origin event he
    obtain ⟨first, hf, hb'⟩ := h.origin second hs
    exact ⟨first, later.appended ▸ hf, hb'.trans hb⟩

theorem Sound.mem_appended (h : o.Sound) {event : Event} (he : event ∈ o.feed) :
    event.id ∈ o.appended.map (·.id) :=
  h.sublist.subset (List.mem_map_of_mem he)

/-- An id names one event of the feed. -/
theorem Sound.eq_of_id_eq (h : o.Sound) {event other : Event} (he : event ∈ o.feed)
    (ho : other ∈ o.feed) (hid : event.id = other.id) : event = other :=
  List.inj_on_of_nodup_map h.feed_nodup he ho hid

/-- The event with the id is consumed, or gone from the feed. -/
def Handled (o : Outside) (id : String) : Prop :=
  ∀ event ∈ o.feed, event.id = id → event.consumed = true

theorem Handled.later {id : String} (h : o.Handled id) (later : Later o o') : o'.Handled id := by
  intro event he hid
  obtain ⟨first, hf, hb⟩ := later.origin event he
  exact hb.consumed (h first hf (hb.id_eq ▸ hid))

theorem Handled.append {id : String} (h : o.Handled id) (known : id ∈ o.appended.map (·.id))
    {event : Event} (new : event.id ∉ o.appended.map (·.id)) :
    Handled { o with appended := o.appended ++ [event], feed := o.feed ++ [event] } id := by
  intro e he hid
  rcases List.mem_append.1 he with he | he
  · exact h e he hid
  · obtain rfl := List.mem_singleton.1 he
    exact absurd (hid ▸ known) new

theorem Handled.withdraw {id : String} (h : o.Handled id) {kept : List Event}
    (sublist : kept.Sublist o.feed) : Handled { o with feed := kept } id :=
  fun event he => h event (sublist.subset he)

/-! ## What was done for good -/

/-- What a call may do for good. -/
inductive Deed where
  | saved (notice : Notice)
  | announced (notice : Notice)
  | acknowledged (id : String)
  | joined (request : Group.Request)

end Outside

open Outside (Deed)

/-- What an answered call has done for good, if it did. -/
def Answered.deed? : Answered → Option Deed
  | ⟨.saveNotice notice, .ok ()⟩ => some (.saved notice)
  | ⟨.announceNotice notice, ()⟩ => some (.announced notice)
  | ⟨.acknowledge id, .ok ()⟩ => some (.acknowledged id)
  | ⟨.joinAuthorization request, .ok ()⟩ => some (.joined request)
  | _ => none

namespace Outside

variable {o o' o'' : Outside}

/-- What the calls so far have done for good, in order. -/
def deeds (o : Outside) : List Deed :=
  o.trail.filterMap Answered.deed?

/-- The notices that were saved, in order. -/
def savedNotices (deeds : List Deed) : List Notice :=
  deeds.filterMap fun
    | .saved notice => some notice
    | _ => none

/-- The notices that the application was told of, in order. -/
def announcedNotices (deeds : List Deed) : List Notice :=
  deeds.filterMap fun
    | .announced notice => some notice
    | _ => none

/-- The ids of the events that were acknowledged, in order. -/
def acknowledgedIds (deeds : List Deed) : List String :=
  deeds.filterMap fun
    | .acknowledged id => some id
    | _ => none

@[simp] theorem savedNotices_append (first second : List Deed) :
    savedNotices (first ++ second) = savedNotices first ++ savedNotices second :=
  List.filterMap_append

@[simp] theorem announcedNotices_append (first second : List Deed) :
    announcedNotices (first ++ second) = announcedNotices first ++ announcedNotices second :=
  List.filterMap_append

@[simp] theorem acknowledgedIds_append (first second : List Deed) :
    acknowledgedIds (first ++ second) = acknowledgedIds first ++ acknowledgedIds second :=
  List.filterMap_append

/-- The second state is the first after the deeds, the cursors and further calls apart. -/
structure Adds (o : Outside) (deeds : List Deed) (o' : Outside) : Prop where
  appended : o'.appended = o.appended
  feed : o'.feed =
    (acknowledgedIds deeds).foldl (fun events id => Testbed.consumeFirst id events) o.feed
  notices : o'.notices = o.notices ++ savedNotices deeds
  deeds : o'.deeds = o.deeds ++ deeds
  trail : o.trail <+: o'.trail

/-- The second state is the first after the deeds, further calls apart. -/
structure Does (o : Outside) (deeds : List Deed) (o' : Outside) : Prop
    extends o.Adds deeds o' where
  cursors : o'.cursors = o.cursors

theorem Adds.refl (o : Outside) : o.Adds [] o :=
  ⟨rfl, rfl, (List.append_nil _).symm, (List.append_nil _).symm, List.prefix_refl _⟩

theorem Adds.trans {first second : List Deed} (h : o.Adds first o') (h' : o'.Adds second o'') :
    o.Adds (first ++ second) o'' where
  appended := h'.appended.trans h.appended
  feed := by
    rw [h'.feed, h.feed, acknowledgedIds_append, List.foldl_append]
  notices := by
    rw [h'.notices, h.notices, savedNotices_append, List.append_assoc]
  deeds := by rw [h'.deeds, h.deeds, List.append_assoc]
  trail := h.trail.trans h'.trail

theorem Does.refl (o : Outside) : o.Does [] o :=
  ⟨.refl o, rfl⟩

theorem Does.trans {first second : List Deed} (h : o.Does first o') (h' : o'.Does second o'') :
    o.Does (first ++ second) o'' :=
  ⟨h.toAdds.trans h'.toAdds, h'.cursors.trans h.cursors⟩

theorem Adds.deeds_eq (h : o.Adds [] o') : o'.deeds = o.deeds :=
  h.deeds.trans (List.append_nil _)

theorem Adds.notices_eq (h : o.Adds [] o') : o'.notices = o.notices :=
  h.notices.trans (List.append_nil _)

/-- Deeds leave a later state. -/
theorem Adds.later {deeds : List Deed} (h : o.Adds deeds o') : Later o o' := by
  have key : ∀ (ids : List String) (feed : List Event),
      (ids.foldl (fun events id => Testbed.consumeFirst id events) feed).map (·.id)
          = feed.map (·.id) ∧
        ∀ event ∈ ids.foldl (fun events id => Testbed.consumeFirst id events) feed,
          ∃ first ∈ feed, first.Becomes event := by
    intro ids
    induction ids with
    | nil => exact fun feed => ⟨rfl, fun event he => ⟨event, he, .refl _⟩⟩
    | cons id ids ih =>
      intro feed
      obtain ⟨hids, horigin⟩ := ih (Testbed.consumeFirst id feed)
      refine ⟨hids.trans (Testbed.map_id_consumeFirst id feed), fun event he => ?_⟩
      obtain ⟨second, hs, hb⟩ := horigin event he
      obtain ⟨first, hf, hb'⟩ := Testbed.exists_becomes_of_mem_consumeFirst hs
      exact ⟨first, hf, hb'.trans hb⟩
  obtain ⟨hids, horigin⟩ := key (acknowledgedIds deeds) o.feed
  exact ⟨h.appended, h.feed ▸ hids, h.feed ▸ horigin, h.trail⟩

/-- Calls that change nothing but by the deeds they do. -/
def IsPlain : Call → Prop
  | .storeCursor .. | .updateNotice _ | .deleteNotice _ => False
  | _ => True

@[simp] theorem deeds_after (o : Outside) (c : Call) (answer : c.Answer) :
    (o.after c answer).deeds = o.deeds ++ (Answered.deed? ⟨c, answer⟩).toList := by
  simp only [deeds, trail_after, List.filterMap_append, List.filterMap_cons, List.filterMap_nil]
  cases Answered.deed? ⟨c, answer⟩ <;> rfl

/-- Storing a cursor does nothing for good. -/
theorem adds_storeCursor (o : Outside) (key : String) (cursor : Cursor)
    (answer : Except Fault Unit) : o.Adds [] (o.after (.storeCursor key cursor) answer) where
  appended := appended_after _ _ _
  feed := by cases answer <;> rfl
  notices := by cases answer <;> exact (List.append_nil _).symm
  deeds := deeds_after _ _ _
  trail := List.prefix_append _ _

/-- A plain call does the deed that it was answered to have done. -/
theorem does_after (c : Call) (plain : IsPlain c) (o : Outside) (answer : c.Answer) :
    o.Does (Answered.deed? ⟨c, answer⟩).toList (o.after c answer) := by
  refine ⟨⟨appended_after o c answer, ?_, ?_, deeds_after o c answer, List.prefix_append _ _⟩, ?_⟩
  all_goals
    cases c with
    | acknowledge id | saveNotice notice | joinAuthorization request =>
      cases answer <;> first | rfl | exact (List.append_nil _).symm
    | storeCursor | updateNotice | deleteNotice => exact plain.elim
    | _ => first | rfl | exact (List.append_nil _).symm

theorem Does.call {deeds : List Deed} (h : o.Does deeds o') (c : Call) (plain : IsPlain c)
    (answer : c.Answer) :
    o.Does (deeds ++ (Answered.deed? ⟨c, answer⟩).toList) (o'.after c answer) :=
  h.trans (does_after c plain o' answer)

/-- Reporting a routing does nothing for good. -/
theorem adds_reportRouting (o : Outside) (id : String) (result : Except RoutingError Verdict) :
    o.Adds [] (o.after (.reportRouting id result) ()) :=
  (does_after (.reportRouting id result) trivial o ()).toAdds

end Outside

end Feedkeeper
