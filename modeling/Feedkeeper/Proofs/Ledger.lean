import Feedkeeper.Inbox
import Feedkeeper.Proofs.Filing

/-!
# The ledger of the notices

Every change of the stored notices is an *entry* : a notice is saved, marked or deleted. The calls
made so far give the entries in their order (`Outside.history`), and a `Ledger` says what a list of
entries makes of the notices, if each entry fits what it finds there (`Inbox.Entry.Fits`). The
procedures of the feed loop and of the inbox make only calls that fit (`Outside.Orderly`), so along
each of them the ledger goes on (`Ledger.of_reaches`).

What is said of stored notices then follows from a ledger alone : their ids are distinct
(`Ledger.nodup`), no two of them invite to one group (`Ledger.invitations_le_one`), the flag of each
is as it was last marked (`Ledger.read_eq`), and none goes but by its deletion (`Ledger.kept`).
-/

namespace Feedkeeper

namespace Inbox

/-- A change of the stored notices. -/
inductive Entry where
  | saved (notice : Notice)
  | marked (id : String) (read : Bool)
  | deleted (id : String)

/-- The notices with the flag of those set that have the id. -/
def marking (id : String) (read : Bool) (notices : List Notice) : List Notice :=
  notices.map fun notice => if notice.id = id then { notice with read } else notice

namespace Entry

/-- The notices after the change. -/
def apply (notices : List Notice) : Entry → List Notice
  | saved notice => notices ++ [notice]
  | marked id read => marking id read notices
  | deleted id => notices.filter (·.id != id)

/-- The change may be made to the notices. A saved notice is new and unread; one of an inception is
the only one about its group, and one of a reply is about some group. -/
inductive Fits (notices : List Notice) : Entry → Prop where
  | saved {notice : Notice} (unread : notice.read = false)
      (new : ∀ stored ∈ notices, stored.id ≠ notice.id)
      (inception : notice.route = .groupInception → ∃ group, notice.correlation = some group ∧
        ∀ stored ∈ notices, stored.correlation ≠ some group)
      (reply : notice.route = .groupReply → notice.correlation.isSome = true) :
      Fits notices (.saved notice)
  | marked {id : String} (read : Bool) (stored : ∃ notice ∈ notices, notice.id = id) :
      Fits notices (.marked id read)
  | deleted (id : String) : Fits notices (.deleted id)

/-- What is known of the flag of the notice with the id, after the change. -/
def flag (id : String) (read : Bool) : Entry → Bool
  | saved notice => if notice.id = id then false else read
  | marked other read' => if other = id then read' else read
  | deleted _ => read

end Entry

/-- The notices that invite to the group. -/
def invitations (group : String) (notices : List Notice) : List Notice :=
  notices.filter fun notice =>
    notice.route = .groupInception && notice.correlation == some group

end Inbox

open Inbox (Entry marking invitations)
open Outside Script

/-- From the first notices the entries lead to the second, each of them fitting what it finds. -/
inductive Ledger (start : List Notice) : List Entry → List Notice → Prop where
  | start : Ledger start [] start
  | next {entries : List Entry} {notices : List Notice} {entry : Entry}
      (ledger : Ledger start entries notices) (fits : entry.Fits notices) :
      Ledger start (entries ++ [entry]) (entry.apply notices)

namespace Ledger

variable {start notices notices' : List Notice} {entries entries' : List Entry}

theorem trans (h : Ledger start entries notices) (h' : Ledger notices entries' notices') :
    Ledger start (entries ++ entries') notices' := by
  induction h' with
  | start => rwa [List.append_nil]
  | next _ fits ih => exact List.append_assoc .. ▸ ih.next fits

theorem single {entry : Entry} (fits : entry.Fits notices) :
    Ledger notices [entry] (entry.apply notices) :=
  Ledger.start.next fits

/-- The entries make of the notices what they do one after another. -/
theorem notices_eq (h : Ledger start entries notices) :
    notices = entries.foldl Entry.apply start := by
  induction h with
  | start => rfl
  | next _ _ ih => rw [List.foldl_append, ← ih, List.foldl_cons, List.foldl_nil]

end Ledger

/-! ## Marked notices -/

section

variable {id : String} {read : Bool} {notices : List Notice} {notice : Notice}

theorem Inbox.map_id_marking (id : String) (read : Bool) (notices : List Notice) :
    (marking id read notices).map (·.id) = notices.map (·.id) := by
  rw [marking, List.map_map]
  refine List.map_congr_left fun notice _ => ?_
  dsimp only [Function.comp_apply]
  split <;> rfl

/-- A notice after the marking is one from before, the flag apart. -/
theorem Inbox.exists_of_mem_marking (h : notice ∈ marking id read notices) :
    ∃ before ∈ notices, notice = { before with read := notice.read } ∧
      notice.read = if before.id = id then read else before.read := by
  obtain ⟨before, mem, rfl⟩ := List.mem_map.1 h
  refine ⟨before, mem, ?_, ?_⟩ <;> split <;> rfl

/-- Where no notice has the id nothing is marked. -/
theorem Inbox.marking_eq_self (h : ∀ notice ∈ notices, notice.id ≠ id) :
    marking id read notices = notices := by
  rw [marking]
  exact (List.map_congr_left fun notice mem => if_neg (h notice mem)).trans (List.map_id _)

/-- Among notices of different ids, replacing one of them by itself with a flag is marking it. -/
theorem Testbed.replaceFirst?_eq_marking {stored : Notice} (mem : stored ∈ notices)
    (nodup : (notices.map (·.id)).Nodup) (read : Bool) :
    replaceFirst? { stored with read } notices = some (marking stored.id read notices) := by
  induction notices with
  | nil => cases mem
  | cons head rest ih =>
    rw [List.map_cons, List.nodup_cons] at nodup
    rw [replaceFirst?]
    rcases List.mem_cons.1 mem with rfl | mem
    · rw [if_pos rfl]
      have others : marking stored.id read rest = rest :=
        Inbox.marking_eq_self fun other ho heq => nodup.1 (heq ▸ List.mem_map_of_mem ho)
      simpa [marking] using others.symm
    · have ne : head.id ≠ stored.id := fun heq => nodup.1 (heq ▸ List.mem_map_of_mem mem)
      rw [if_neg ne, ih mem nodup.2]
      simp [marking, ne]

end

/-! ## What a ledger tells -/

namespace Ledger

variable {start notices : List Notice} {entries : List Entry}

/-- No two notices get one id. -/
theorem nodup (h : Ledger start entries notices) (distinct : (start.map (·.id)).Nodup) :
    (notices.map (·.id)).Nodup := by
  induction h with
  | start => exact distinct
  | next _ fits ih =>
    cases fits with
    | saved _ new _ _ =>
      rw [Entry.apply, List.map_append, List.map_singleton, ← List.concat_eq_append]
      refine ih.concat fun mem => ?_
      obtain ⟨stored, mem, heq⟩ := List.mem_map.1 mem
      exact new stored mem heq
    | marked read _ => exact (Inbox.map_id_marking _ read _).symm ▸ ih
    | deleted id => exact (List.filter_sublist.map _).nodup ih

/-- A notice of an inception or a reply is about some group. -/
theorem correlated (h : Ledger [] entries notices) {notice : Notice} (mem : notice ∈ notices)
    (route : notice.route = .groupInception ∨ notice.route = .groupReply) :
    notice.correlation.isSome = true := by
  induction h generalizing notice with
  | start => cases mem
  | next _ fits ih =>
    cases fits with
    | saved _ _ inception reply =>
      rcases List.mem_append.1 mem with mem | mem
      · exact ih mem route
      obtain rfl := List.mem_singleton.1 mem
      rcases route with route | route
      · obtain ⟨group, named, -⟩ := inception route
        rw [named]
        rfl
      · exact reply route
    | marked read _ =>
      obtain ⟨before, mem, same, -⟩ := Inbox.exists_of_mem_marking mem
      have correlated : before.correlation.isSome = true := ih mem (by rwa [same] at route)
      rwa [same]
    | deleted id => exact ih (List.mem_of_mem_filter mem) route

/-- Every notice was there at the start, the flag apart, or was saved since. -/
theorem stored_or_saved (h : Ledger start entries notices) {notice : Notice}
    (mem : notice ∈ notices) : (∃ before ∈ start, before.id = notice.id) ∨
      ∃ saved, Entry.saved saved ∈ entries ∧ saved.id = notice.id := by
  induction h generalizing notice with
  | start => exact Or.inl ⟨notice, mem, rfl⟩
  | @next entries notices entry _ fits ih =>
    have earlier {stored : Notice} (mem : stored ∈ notices) (same : stored.id = notice.id) :
        (∃ before ∈ start, before.id = notice.id) ∨
          ∃ saved, Entry.saved saved ∈ entries ++ [entry] ∧ saved.id = notice.id := by
      refine same ▸ (ih mem).imp_right ?_
      exact fun ⟨saved, mem, same⟩ => ⟨saved, List.mem_append_left _ mem, same⟩
    cases fits with
    | saved =>
      rcases List.mem_append.1 mem with mem | mem
      · exact earlier mem rfl
      · obtain rfl := List.mem_singleton.1 mem
        exact Or.inr ⟨notice, List.mem_append_right _ (List.mem_singleton.2 rfl), rfl⟩
    | marked read _ =>
      obtain ⟨before, mem, same, -⟩ := Inbox.exists_of_mem_marking mem
      exact earlier mem (by rw [same])
    | deleted id => exact earlier (List.mem_of_mem_filter mem) rfl

/-- At most one notice invites to a group. -/
theorem invitations_le_one (h : Ledger [] entries notices) (group : String) :
    (invitations group notices).length ≤ 1 := by
  induction h with
  | start => exact Nat.zero_le 1
  | @next _ notices _ _ fits ih =>
    cases fits with
    | @saved notice _ _ inception _ =>
      rw [Entry.apply, invitations, List.filter_append, List.length_append]
      by_cases invites : notice.route = .groupInception ∧ notice.correlation = some group
      · -- Nothing that was there is about the group of a new invitation.
        obtain ⟨group', named, others⟩ := inception invites.1
        obtain rfl : group' = group := Option.some.inj (named.symm.trans invites.2)
        have none : invitations group' notices = [] :=
          List.filter_eq_nil_iff.2 fun stored mem => by simp [others stored mem]
        rw [invitations] at none
        rw [none, List.length_nil, Nat.zero_add]
        exact List.length_filter_le _ [notice]
      · have none : [notice].filter (fun notice =>
            notice.route = .groupInception && notice.correlation == some group) = [] := by
          simpa using invites
        rw [none, List.length_nil, Nat.add_zero]
        exact ih
    | @marked id read _ =>
      have same : (invitations group (marking id read notices)).length =
          (invitations group notices).length := by
        rw [invitations, invitations, marking, List.filter_map, List.length_map]
        congr 1
        refine List.filter_congr fun notice _ => ?_
        dsimp only [Function.comp_apply]
        split <;> rfl
      exact same.symm ▸ ih
    | deleted id => exact Nat.le_trans (List.filter_sublist.filter _).length_le ih

/-- A stored notice has the flag that it was last marked with since it was saved, and is unread if
it was not. -/
theorem read_eq (h : Ledger [] entries notices) {notice : Notice} (mem : notice ∈ notices) :
    notice.read = entries.foldl (Entry.flag notice.id) false := by
  induction h generalizing notice with
  | start => cases mem
  | next _ fits ih =>
    rw [List.foldl_append, List.foldl_cons, List.foldl_nil]
    cases fits with
    | @saved added unread new _ _ =>
      rcases List.mem_append.1 mem with mem | mem
      · rw [Entry.flag, if_neg (new notice mem).symm]
        exact ih mem
      · obtain rfl := List.mem_singleton.1 mem
        rw [Entry.flag, if_pos rfl, unread]
    | @marked id read _ =>
      obtain ⟨before, mem, same, flag⟩ := Inbox.exists_of_mem_marking mem
      have hid : notice.id = before.id := by rw [same]
      rw [flag, Entry.flag, hid, ih mem]
      exact if_congr eq_comm rfl rfl
    | deleted id => exact ih (List.mem_of_mem_filter mem)

/-- A notice stays, the flag apart, until it is deleted. -/
theorem kept (h : Ledger start entries notices) {notice : Notice} (mem : notice ∈ start)
    (undeleted : Entry.deleted notice.id ∉ entries) :
    ∃ read, { notice with read } ∈ notices := by
  induction h with
  | start => exact ⟨notice.read, mem⟩
  | next _ fits ih =>
    rw [List.mem_append, not_or, List.mem_singleton] at undeleted
    obtain ⟨read, mem⟩ := ih undeleted.1
    cases fits with
    | saved => exact ⟨read, List.mem_append_left _ mem⟩
    | @marked id read' _ =>
      by_cases heq : notice.id = id
      · exact ⟨read', List.mem_map.2 ⟨_, mem, by simp [heq]⟩⟩
      · exact ⟨read, List.mem_map.2 ⟨_, mem, by simp [heq]⟩⟩
    | deleted id =>
      have ne : notice.id ≠ id := fun heq => undeleted.2 (by rw [heq])
      exact ⟨read, List.mem_filter.2 ⟨mem, by simp [ne]⟩⟩

end Ledger

/-! ## Calls as entries -/

/-- What an answered call has changed about the notices, if it has. -/
def Answered.entry? : Answered → Option Entry
  | ⟨.saveNotice notice, .ok ()⟩ => some (.saved notice)
  | ⟨.updateNotice notice, .ok ()⟩ => some (.marked notice.id notice.read)
  | ⟨.deleteNotice id, .ok ()⟩ => some (.deleted id)
  | _ => none

namespace Outside

variable {p : Outside → (c : Call) → c.Answer → Prop} {o o' : Outside}

/-- All changes of the notices so far, in order. -/
def history (o : Outside) : List Entry :=
  o.trail.filterMap Answered.entry?

/-- A call on the notices that fits them : a notice that is saved fits, and one that is updated is
stored, and changed in its flag at most. -/
def Orderly (o : Outside) : Call → Prop
  | .saveNotice notice => (Entry.saved notice).Fits o.notices
  | .updateNotice notice => ∃ stored ∈ o.notices, notice = { stored with read := notice.read }
  | _ => True

@[simp] theorem history_after (o : Outside) (c : Call) (answer : c.Answer) :
    (o.after c answer).history = o.history ++ (Answered.entry? ⟨c, answer⟩).toList := by
  simp only [history, trail_after, List.filterMap_append, List.filterMap_cons, List.filterMap_nil]
  cases Answered.entry? ⟨c, answer⟩ <;> rfl

theorem history_after_of_none {c : Call} {answer : c.Answer}
    (none : Answered.entry? ⟨c, answer⟩ = none) : (o.after c answer).history = o.history := by
  rw [history_after, none, Option.toList_none, List.append_nil]

/-- Between the two states the ledger went on. -/
def Continues (o o' : Outside) : Prop :=
  ∃ entries, o'.history = o.history ++ entries ∧ Ledger o.notices entries o'.notices

theorem Continues.refl (o : Outside) : o.Continues o :=
  ⟨[], (List.append_nil _).symm, .start⟩

theorem Continues.trans {o'' : Outside} (h : o.Continues o') (h' : o'.Continues o'') :
    o.Continues o'' := by
  obtain ⟨entries, history, ledger⟩ := h
  obtain ⟨entries', history', ledger'⟩ := h'
  exact ⟨entries ++ entries', by rw [history', history, List.append_assoc], ledger.trans ledger'⟩

theorem Continues.nodup (h : o.Continues o') (distinct : (o.notices.map (·.id)).Nodup) :
    (o'.notices.map (·.id)).Nodup := by
  obtain ⟨entries, -, ledger⟩ := h
  exact ledger.nodup distinct

/-- With a call that fits the notices the ledger goes on. -/
theorem continues_after (distinct : (o.notices.map (·.id)).Nodup) {c : Call} {answer : c.Answer}
    (orderly : o.Orderly c) : o.Continues (o.after c answer) := by
  refine ⟨_, history_after o c answer, ?_⟩
  cases c with
  | saveNotice notice =>
    cases answer with
    | error => exact .start
    | ok => exact .single orderly
  | updateNotice notice =>
    cases answer with
    | error => exact .start
    | ok =>
      obtain ⟨stored, mem, same⟩ := orderly
      have id : notice.id = stored.id := by rw [same]
      have notices : (o.after (.updateNotice notice) (.ok ())).notices =
          marking notice.id notice.read o.notices := by
        change (Testbed.replaceFirst? notice o.notices).getD o.notices = _
        rw [same, Testbed.replaceFirst?_eq_marking mem distinct, Option.getD_some]
      rw [notices]
      exact .single (.marked notice.read ⟨stored, mem, id.symm⟩)
  | deleteNotice id =>
    cases answer with
    | error => exact .start
    | ok => exact .single (.deleted id)
  | acknowledge | storeCursor => cases answer <;> exact .start
  | _ => exact .start

/-- Along a procedure whose calls fit the notices the ledger goes on. -/
theorem continues_of_reaches {α : Type} {script rest : Script α}
    (respects : Respects (limited p) Orderly script o) (distinct : (o.notices.map (·.id)).Nodup)
    (reaches : Reaches (limited p) script o rest o') : o.Continues o' :=
  respects.keeps (I := o.Continues) reaches (.refl o) fun continues orderly _ =>
    continues.trans (continues_after (continues.nodup distinct) orderly)

/-! ## Procedures -/

theorem Files.orderly {unknown : String → Prop} {before : List Answered} {events : List Event}
    {c : Call} (h : Files unknown before events o c) : o.Orderly c := by
  cases c with
  | saveNotice notice =>
    obtain ⟨⟨event, -, -, tells⟩, new, warrants⟩ := h
    refine .saved tells.unread (fun stored mem heq => new ⟨stored, mem, heq⟩) (fun route => ?_)
      warrants.reply
    obtain ⟨group, named, invites⟩ := warrants.inception route
    exact ⟨group, named, invites.unconcerned⟩
  | updateNotice notice => exact h.elim
  | _ => trivial

end Outside

variable {p : Outside → (c : Call) → c.Answer → Prop}

/-- However its calls are answered, the calls of a step fit the notices. -/
theorem Sync.orderly_step (settings : Settings) (state : State) (o : Outside) :
    Respects (limited p) Orderly (step settings state) o :=
  (respects_step (fun _ => True) (fun _ => trivial) settings state o).mono Files.orderly

theorem Sync.orderly_load (settings : Settings) (o : Outside) :
    Respects (limited p) Orderly (load settings) o := by
  refine ⟨trivial, ?_⟩
  rintro (fault | _ | cursor) _
  · trivial
  · refine ⟨trivial, ?_⟩
    rintro (fault | _) _ <;> trivial
  · trivial

/-- A notice is marked as it is stored. -/
theorem Inbox.orderly_setRead (id : String) (read : Bool) (o : Outside) :
    Respects (limited p) Orderly (setRead id read).run o := by
  refine ⟨trivial, ?_⟩
  rintro (fault | _ | notice) found
  · trivial
  · trivial
  · have stored : notice ∈ o.notices := List.mem_of_find?_eq_some found.1.symm
    exact ⟨⟨notice, stored, rfl⟩, fun _ _ => trivial⟩

theorem Inbox.orderly_delete (id : String) (o : Outside) :
    Respects (limited p) Orderly (delete id).run o :=
  ⟨trivial, fun _ _ => trivial⟩

theorem Inbox.orderly_all (o : Outside) : Respects (limited p) Orderly all.run o :=
  ⟨trivial, fun _ _ => trivial⟩

theorem Inbox.orderly_about (group : String) (o : Outside) :
    Respects (limited p) Orderly (about group).run o :=
  ⟨trivial, fun _ _ => trivial⟩

end Feedkeeper
