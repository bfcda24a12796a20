import Feedkeeper.Inbox
import Feedkeeper.Proofs.Step

/-!
# Runs

A *run* is any sequence of moves of a feed loop and its surroundings : steps and restarts of the
loop, crashes in the middle of a step, rescans from the start, events that are appended to the feed
or withdrawn from it, and notices that are marked or discarded. A `Site` is what there is between
two moves. A statement about runs names the moves that it allows (`Run`) and what it asks of the
site at which they begin (`Site.Begins`).

`ensures_load`, `ensures_setRead` and `ensures_delete` say what the moves other than a step come to,
as `ensures_step` does for a step.
-/

namespace Feedkeeper

open Outside Script

/-- A feed loop with its surroundings. -/
structure Site where
  /-- What the loop keeps in memory, while it runs. -/
  memory : Option Sync.State := none
  outside : Outside

/-- What may happen at a site. -/
inductive Move where
  | step
  /-- The loop loads the stored cursor, whatever it had in memory. -/
  | restart
  /-- The loop ends in the middle of a step. -/
  | crash
  /-- The loop goes back to the start of the feed. -/
  | rescan
  | append
  /-- Events are taken out of the feed. -/
  | withdraw
  /-- A notice is marked read or unread. -/
  | mark
  /-- A notice is deleted whose event is consumed or gone. -/
  | discard
  deriving DecidableEq

/-- The move leads from the first site to the second, the cursor being stored under the key. -/
inductive Moves (key : String) : Move → Site → Site → Prop where
  | step {settings : Settings} {state : Sync.State} {o o' : Outside}
      {result : Except Crash (Sync.Outcome × Sync.State)} (same : settings.cursorKey = key)
      (ends : Ends free (Sync.step settings state) o result o') :
      Moves key .step ⟨some state, o⟩ ⟨result.toOption.map (·.2), o'⟩
  | restart {settings : Settings} {memory : Option Sync.State} {o o' : Outside}
      {result : Except Fault Sync.State} (same : settings.cursorKey = key)
      (ends : Ends free (Sync.load settings) o result o') :
      Moves key .restart ⟨memory, o⟩ ⟨result.toOption, o'⟩
  | crash {settings : Settings} {state : Sync.State} {o o' : Outside}
      {rest : Script (Except Crash (Sync.Outcome × Sync.State))}
      (same : settings.cursorKey = key)
      (reaches : Reaches free (Sync.step settings state) o rest o') :
      Moves key .crash ⟨some state, o⟩ ⟨none, o'⟩
  | rescan {memory : Option Sync.State} {o : Outside} :
      Moves key .rescan ⟨memory, o⟩ ⟨some (.at .start), o⟩
  | append {memory : Option Sync.State} {o : Outside} (event : Event)
      (new : event.id ∉ o.appended.map (·.id)) :
      Moves key .append ⟨memory, o⟩
        ⟨memory, { o with appended := o.appended ++ [event], feed := o.feed ++ [event] }⟩
  | withdraw {memory : Option Sync.State} {o : Outside} (kept : List Event)
      (sublist : kept.Sublist o.feed) :
      Moves key .withdraw ⟨memory, o⟩ ⟨memory, { o with feed := kept }⟩
  | mark {memory : Option Sync.State} {o o' : Outside} {id : String} {read : Bool}
      {result : Except RoutingError Unit}
      (ends : Ends free (Inbox.setRead id read).run o result o') :
      Moves key .mark ⟨memory, o⟩ ⟨memory, o'⟩
  | discard {memory : Option Sync.State} {o o' : Outside} {id : String}
      {result : Except RoutingError Unit}
      (handled : o.Handled id)
      (ends : Ends free (Inbox.delete id).run o result o') :
      Moves key .discard ⟨memory, o⟩ ⟨memory, o'⟩

/-- The site may be reached from `start` by moves that are allowed. -/
inductive Run (key : String) (allowed : Move → Prop) (start : Site) : Site → Prop where
  | here : Run key allowed start start
  | next {move : Move} {site site' : Site} (run : Run key allowed start site)
      (permitted : allowed move) (moves : Moves key move site site') : Run key allowed start site'

/-- Nothing has been done yet : no call was made, and the feed is as it was appended. -/
structure Site.Begins (site : Site) : Prop where
  memory : site.memory = none
  trail : site.outside.trail = []
  feed : site.outside.feed = site.outside.appended
  nodup : (site.outside.appended.map (·.id)).Nodup

variable {key : String} {allowed : Move → Prop} {start site site' : Site} {move : Move}
  {o o' : Outside}

/-- What the moves keep holds at the end of a run. -/
theorem Run.keeps {I : Site → Prop} (run : Run key allowed start site) (begins : I start)
    (step : ∀ {move site site'}, I site → allowed move → Moves key move site site' → I site') :
    I site := by
  induction run with
  | here => exact begins
  | next _ permitted moves ih => exact step ih permitted moves

/-! ## Moves with obliging answers -/

/-- The site after a restart. -/
def Site.restarted (settings : Settings) (site : Site) : Site :=
  ⟨(oblige (Sync.load settings) site.outside).1.toOption,
    (oblige (Sync.load settings) site.outside).2⟩

/-- The site after a step, which is as it was unless the loop runs. -/
def Site.stepped (settings : Settings) (site : Site) : Site :=
  match site.memory with
  | none => site
  | some state =>
    ⟨(oblige (Sync.step settings state) site.outside).1.toOption.map (·.2),
      (oblige (Sync.step settings state) site.outside).2⟩

/-- The site after a rescan. -/
def Site.rescanned (site : Site) : Site :=
  ⟨some (.at .start), site.outside⟩

theorem Run.rescanned (run : Run key allowed start site) (permitted : allowed .rescan) :
    Run key allowed start site.rescanned :=
  run.next permitted .rescan

theorem Run.restarted {settings : Settings} (run : Run settings.cursorKey allowed start site)
    (permitted : allowed .restart) :
    Run settings.cursorKey allowed start (site.restarted settings) :=
  run.next permitted (.restart rfl (ends_oblige (fun _ _ => trivial) _ _))

theorem Run.stepped {settings : Settings} (run : Run settings.cursorKey allowed start site)
    (permitted : allowed .step) :
    Run settings.cursorKey allowed start (site.stepped settings) := by
  obtain ⟨_ | state, o⟩ := site
  · exact run
  · exact run.next permitted (.step rfl (ends_oblige (fun _ _ => trivial) _ _))

@[simp] theorem Site.appended_restarted (settings : Settings) (site : Site) :
    (site.restarted settings).outside.appended = site.outside.appended :=
  (Later.of_reaches rfl (ends_oblige (p := fun _ _ _ => True) (fun _ _ => trivial) _ _)).appended

@[simp] theorem Site.appended_stepped (settings : Settings) (site : Site) :
    (site.stepped settings).outside.appended = site.outside.appended := by
  obtain ⟨_ | state, o⟩ := site
  · rfl
  · exact (Later.of_reaches rfl
      (ends_oblige (p := fun _ _ _ => True) (fun _ _ => trivial) _ _)).appended

/-- A credential grant that nobody has seen yet. -/
def Event.fresh (id : String) : Event :=
  { id, occurredAt := ⟨0, 0⟩, consumed := false, action := ⟨Route.credentialGrant.wire, "", []⟩ }

/-- A site with a feed of two events, before anything is done. -/
def Site.fresh : Site :=
  { outside := { appended := [.fresh "A", .fresh "B"], feed := [.fresh "A", .fresh "B"] } }

theorem Site.begins_fresh : Site.fresh.Begins :=
  ⟨rfl, rfl, rfl, by decide⟩

/-! ## Loading the cursor -/

/-- The ways in which loading the cursor can go. -/
inductive Sync.Loads (settings : Settings) (o : Outside) : Except Fault State → Outside → Prop where
  | failed {fault : Fault} {o' : Outside} (does : o.Does [] o') : Loads settings o (.error fault) o'
  | found {cursor : Cursor} {o' : Outside} (does : o.Does [] o')
      (stored : o.cursors.get? settings.cursorKey = some cursor) :
      Loads settings o (.ok (.at cursor.normalized)) o'
  | created {o' : Outside} (does : o.Does [] o') (answer : Except Fault Unit) :
      Loads settings o (answer.map fun _ => .at .start)
        (o'.after (.storeCursor settings.cursorKey .start) answer)

theorem Sync.ensures_load (settings : Settings) (o : Outside) :
    Ensures free (load settings) (Loads settings o) o := by
  rw [load, ensures_ask_bind]
  rintro (fault | _ | cursor) loaded
  · exact .failed (does_after (.loadCursor _) trivial _ _)
  · have does := does_after (.loadCursor settings.cursorKey) trivial o (.ok none)
    dsimp only
    rw [ensures_ask_bind]
    rintro (fault | _) _
    · exact .created does (.error fault)
    · exact .created does (.ok ())
  · exact .found (does_after (.loadCursor _) trivial _ _) loaded.1.symm

/-! ## The inbox -/

/-- Between the two states nothing changed but the notices, and nothing was done for good. -/
structure Outside.Spares (o o' : Outside) : Prop where
  appended : o'.appended = o.appended
  feed : o'.feed = o.feed
  cursors : o'.cursors = o.cursors
  deeds : o'.deeds = o.deeds
  trail : o.trail <+: o'.trail

theorem Outside.Spares.later (h : Spares o o') : Later o o' where
  appended := h.appended
  ids := by rw [h.feed]
  origin event he := ⟨event, h.feed ▸ he, .refl _⟩
  trail := h.trail

/-- A call that does nothing for good and changes at most the notices. -/
theorem Outside.spares_after {c : Call} {answer : c.Answer}
    (h : o.changed c answer = { o with notices := (o.changed c answer).notices })
    (hd : Answered.deed? ⟨c, answer⟩ = none) : Spares o (o.after c answer) where
  appended := appended_after o c answer
  feed := by
    change (o.changed c answer).feed = o.feed
    rw [h]
  cursors := by
    change (o.changed c answer).cursors = o.cursors
    rw [h]
  deeds := by rw [deeds_after, hd, Option.toList_none, List.append_nil]
  trail := List.prefix_append _ _

theorem Outside.Spares.trans {o'' : Outside} (h : Spares o o') (h' : Spares o' o'') :
    Spares o o'' where
  appended := h'.appended.trans h.appended
  feed := h'.feed.trans h.feed
  cursors := h'.cursors.trans h.cursors
  deeds := h'.deeds.trans h.deeds
  trail := h.trail.trans h'.trail

/-- Marking a notice changes the notices but not their ids. -/
theorem Inbox.ensures_setRead (id : String) (read : Bool) (o : Outside) :
    Ensures free (setRead id read).run (fun _ o' =>
      Spares o o' ∧ o'.notices.map (·.id) = o.notices.map (·.id)) o := by
  rw [setRead, ensures_run_bind, ensures_run_store, ensures_ask]
  rintro (fault | _ | notice) _
  · exact ⟨spares_after rfl rfl, rfl⟩
  · exact ⟨spares_after rfl rfl, rfl⟩
  · have found : Spares o (o.after (.findNotice id) (.ok (some notice))) := spares_after rfl rfl
    simp only [Except.mapError]
    rw [ensures_run_store, ensures_ask]
    rintro (fault | _) updated
    · exact ⟨found.trans (spares_after rfl rfl), rfl⟩
    · obtain ⟨replaced, hreplaced⟩ : ∃ replaced,
          Testbed.replaceFirst? { notice with read } o.notices = some replaced :=
        Option.isSome_iff_exists.1 updated.1
      refine ⟨found.trans (spares_after rfl rfl), ?_⟩
      change ((Testbed.replaceFirst? _ o.notices).getD o.notices).map _ = _
      rw [hreplaced]
      exact Testbed.map_id_replaceFirst? hreplaced

/-- Deleting a notice takes out those with the id, or fails and leaves all. -/
theorem Inbox.ensures_delete (id : String) (o : Outside) :
    Ensures free (delete id).run (fun _ o' =>
      Spares o o' ∧ (o'.notices = o.notices ∨ o'.notices = o.notices.filter (·.id != id))) o := by
  rw [delete, ensures_run_store, ensures_ask]
  rintro (fault | _) _
  · exact ⟨spares_after rfl rfl, Or.inl rfl⟩
  · exact ⟨spares_after rfl rfl, Or.inr rfl⟩

/-! ## Soundness of the feed -/

theorem Site.Begins.sound (begins : start.Begins) : start.outside.Sound where
  nodup := begins.nodup
  sublist := by rw [begins.feed]
  origin event he := ⟨event, begins.feed ▸ he, .refl _⟩

theorem Outside.Sound.append (sound : o.Sound) {event : Event}
    (new : event.id ∉ o.appended.map (·.id)) :
    Sound { o with appended := o.appended ++ [event], feed := o.feed ++ [event] } where
  nodup := by
    rw [List.map_append, List.map_singleton, ← List.concat_eq_append]
    exact sound.nodup.concat new
  sublist := by
    rw [List.map_append, List.map_append]
    exact sound.sublist.append_right _
  origin e he := by
    rcases List.mem_append.1 he with he | he
    · obtain ⟨first, hf, hb⟩ := sound.origin e he
      exact ⟨first, List.mem_append_left _ hf, hb⟩
    · exact ⟨e, List.mem_append_right _ he, .refl _⟩

theorem Outside.Sound.withdraw (sound : o.Sound) {kept : List Event}
    (sublist : kept.Sublist o.feed) : Sound { o with feed := kept } where
  nodup := sound.nodup
  sublist := (sublist.map _).trans sound.sublist
  origin event he := sound.origin event (sublist.subset he)

/-- No move uses an id again. -/
theorem Moves.sound (moves : Moves key move site site') (sound : site.outside.Sound) :
    site'.outside.Sound := by
  cases moves with
  | step _ ends | restart _ ends | mark ends | discard _ ends =>
    exact sound.later (.of_reaches rfl ends)
  | crash _ reaches => exact sound.later (.of_reaches rfl reaches)
  | rescan => exact sound
  | append event new => exact sound.append new
  | withdraw kept sublist => exact sound.withdraw sublist

theorem Run.sound (run : Run key allowed start site) (begins : start.Begins) :
    site.outside.Sound :=
  run.keeps (I := fun site => site.outside.Sound) begins.sound fun sound _ moves =>
    moves.sound sound

end Feedkeeper
