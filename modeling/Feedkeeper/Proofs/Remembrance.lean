import Feedkeeper.Proofs.Budget
import Feedkeeper.Proofs.Settling
import Feedkeeper.Proofs.Window
import Feedkeeper.Proofs.Withdrawal

/-!
# What is remembered of settled events

What a step settles stands in its window, behind the held event. While the cursor is held, the feed
goes on : events are appended, and events are withdrawn before the cursor, behind it, and among the
settled ones. No id is used again, so a settled event that is still in the feed stands no further
behind the cursor than it did (`Outside.Recalls.near`), and it stands behind the cursor as long as
the anchor is where it was (`Outside.Recalls.ahead`). So the next step that lines up finds it in its
window, and forgets it once the cursor moves past it.

A settled event that was withdrawn is in no window any more, and the cursor never moves past it. Its
id is remembered until the cursor is reset (`settled_after_withdrawal`). Nothing else is remembered
longer than it should be (`settled_ahead_or_withdrawn`).
-/

namespace Feedkeeper

open Outside Script

/-! ## Lists of ids that shrink -/

section

variable {ids left : List String} {n : Nat} {id : String}

theorem mem_drop_of_not_mem_take (mem : id ∈ ids) (front : id ∉ ids.take n) : id ∈ ids.drop n := by
  rw [← List.take_append_drop n ids] at mem
  exact (List.mem_append.1 mem).resolve_left front

/-- What is left of the first `n` elements is among the first `n` that are left. -/
theorem mem_take_of_sublist (nodup : ids.Nodup) (sublist : left.Sublist ids)
    (front : id ∈ ids.take n) (mem : id ∈ left) : id ∈ left.take n := by
  rw [← List.take_append_drop n ids] at nodup sublist
  obtain ⟨first, rest, rfl, hfirst, hrest⟩ := List.sublist_append_iff.1 sublist
  have short : first.length ≤ n := hfirst.length_le.trans (List.length_take_le _ _)
  rcases List.mem_append.1 mem with mem | mem
  · exact (List.prefix_take_iff.2 ⟨List.prefix_append _ _, short⟩).subset mem
  · exact absurd (hrest.subset mem) (List.disjoint_of_nodup_append nodup front)

/-- While the anchor stands where it stood, all in front of it does. -/
theorem Follows.take_eq {earlier later : List String} (h : Follows earlier later)
    (nodup : earlier.Nodup) {last : String} (moved : 0 < n) (anchor : earlier[n - 1]? = some last)
    (stands : later[n - 1]? = some last) : later.take n = earlier.take n := by
  have all := (h.anchor_iff nodup moved anchor).1 stands
  have long := (List.getElem?_eq_some_iff.1 anchor).1
  refine List.ext_getElem? fun i => ?_
  by_cases within : i < n
  · have there : earlier[i]? = some earlier[i] := List.getElem?_eq_getElem (by omega)
    rw [List.getElem?_take_of_lt within, List.getElem?_take_of_lt within, there]
    refine (h.anchor_iff nodup (Nat.succ_pos i) there).2 fun id mem => all id ?_
    exact (List.take_prefix_take_left within).subset mem
  · rw [List.getElem?_take_eq_none (Nat.not_lt.1 within),
      List.getElem?_take_eq_none (Nat.not_lt.1 within)]

end

/-! ## What lasts -/

namespace Outside

/-- The event has an id that no event had before. -/
def Unknown (o : Outside) (event : Event) : Prop :=
  event.id ∉ o.appended.map (·.id)

/-- The feed had an event with the id, and it was withdrawn. -/
def Withdrawn (o : Outside) (id : String) : Prop :=
  id ∈ o.appended.map (·.id) ∧ id ∉ o.feed.map (·.id)

/-- As long as no id is used again, calls and changes of the feed keep the property. -/
structure Lasting (I : Outside → Prop) : Prop where
  later : ∀ {o o'}, o.Sound → I o → Later o o' → I o'
  append : ∀ {o event}, o.Sound → I o → Unknown o event →
    I { o with appended := o.appended ++ [event], feed := o.feed ++ [event] }
  withdraw : ∀ {o kept}, o.Sound → I o → kept.Sublist o.feed → I { o with feed := kept }

/-- All that lasts is kept from the first state to the second. -/
def Elapses (o o' : Outside) : Prop :=
  o.Sound → o'.Sound ∧ ∀ I, Lasting I → I o → I o'

variable {I : Outside → Prop} {o o' o'' : Outside} {id : String} {upto : Nat}
  {p : Outside → (c : Call) → c.Answer → Prop} {α : Type} {script rest : Script α}
  {calls : List Answered}

theorem Elapses.trans (h : Elapses o o') (h' : Elapses o' o'') : Elapses o o'' := fun sound =>
  have first := h sound
  have second := h' first.1
  ⟨second.1, fun I lasting start => second.2 I lasting (first.2 I lasting start)⟩

theorem Later.elapses (later : Later o o') : Elapses o o' := fun sound =>
  ⟨sound.later later, fun _ lasting start => lasting.later sound start later⟩

theorem Changes.elapses (changes : Changes Unknown upto o o') : Elapses o o' := fun sound => by
  cases changes with
  | append event unknown =>
    exact ⟨sound.append unknown, fun _ lasting start => lasting.append sound start unknown⟩
  | withdraw kept sublist =>
    have left : (o.feed.take upto ++ kept).Sublist o.feed := by
      conv_rhs => rw [← List.take_append_drop upto o.feed]
      exact sublist.append_left _
    exact ⟨sound.withdraw left, fun _ lasting start => lasting.withdraw sound start left⟩

theorem elapses_of_interleaves
    (h : Interleaves (limited p) (Changes Unknown upto) script o rest o') : Elapses o o' :=
  h.keeps (I := Elapses o) (Later.refl o).elapses
    (fun elapses _ => elapses.trans (later_after _ _ _).elapses)
    fun elapses changes => elapses.trans changes.elapses

/-- An interleaving can be taken apart behind any of its calls. -/
theorem exists_split {new : Outside → Event → Prop} {first second : List Answered}
    (h : Interleaves (limited p) (Changes new upto) script o rest o')
    (trail : o'.trail = o.trail ++ (first ++ second)) : ∃ middle o₁,
      Interleaves (limited p) (Changes new upto) script o middle o₁ ∧
        o₁.trail = o.trail ++ first ∧
        Interleaves (limited p) (Changes new upto) middle o₁ rest o' := by
  induction h generalizing first with
  | here script o =>
    obtain ⟨rfl, rfl⟩ := List.append_eq_nil_iff.1 (List.self_eq_append_right.1 trail)
    exact ⟨script, o, .here _ _, (List.append_nil _).symm, .here _ _⟩
  | @called c next o o' answer rest allowed interleaves ih =>
    cases first with
    | nil => exact ⟨_, o, .here _ _, (List.append_nil _).symm, .called allowed interleaves⟩
    | cons answered first =>
      obtain ⟨calls, -, grown, -⟩ := exists_calls interleaves
      have told : answered :: (first ++ second) = ⟨c, answer⟩ :: calls := by
        rw [grown, limited_after, trail_after, List.append_assoc] at trail
        exact (List.append_cancel_left trail).symm
      obtain ⟨rfl, rfl⟩ := List.cons.inj told
      obtain ⟨middle, o₁, before, reached, behind⟩ := ih grown
      refine ⟨middle, o₁, .called allowed before, ?_, behind⟩
      rw [reached, limited_after, trail_after, List.append_assoc, List.singleton_append]
  | changed changes _ ih =>
    rw [← changes.trail_eq] at trail
    obtain ⟨middle, o₁, before, reached, behind⟩ := ih trail
    exact ⟨middle, o₁, .changed changes before, changes.trail_eq ▸ reached, behind⟩

/-- Every call of an interleaving was made at a time in between. -/
theorem exists_elapses (h : Interleaves (limited p) (Changes Unknown upto) script o rest o')
    (trail : o'.trail = o.trail ++ calls) : Traces script calls rest ∧
      ∀ answered ∈ calls, ∃ o₁, Elapses o o₁ ∧ o₁.allows answered.call answered.answer ∧
        Elapses (o₁.after answered.call answered.answer) o' := by
  obtain ⟨calls', traces, trail', made⟩ := exists_calls h
  obtain rfl : calls = calls' := List.append_cancel_left (trail.symm.trans trail')
  refine ⟨traces, fun answered mem => ?_⟩
  obtain ⟨next, o₁, before, allowed, after⟩ := made answered mem
  exact ⟨o₁, elapses_of_interleaves before, allowed.1, elapses_of_interleaves after⟩

/-- An event that is appended is none of those that there were. -/
theorem Unknown.mem_feed {event : Event} (unknown : Unknown o event)
    (known : id ∈ o.appended.map (·.id)) (mem : id ∈ (o.feed ++ [event]).map (·.id)) :
    id ∈ o.feed.map (·.id) := by
  rw [List.map_append, List.mem_append] at mem
  refine mem.resolve_right fun new => ?_
  obtain rfl := List.mem_singleton.1 new
  exact unknown known

theorem lasting_known (id : String) : Lasting fun o => id ∈ o.appended.map (·.id) where
  later _ h later := later.appended ▸ h
  append _ h _ := List.map_append ▸ List.mem_append_left _ h
  withdraw _ h _ := h

theorem lasting_handled (id : String) :
    Lasting fun o => id ∈ o.appended.map (·.id) ∧ o.Handled id where
  later _ h later := ⟨later.appended ▸ h.1, h.2.later later⟩
  append _ h unknown :=
    ⟨List.map_append ▸ List.mem_append_left _ h.1, h.2.append h.1 unknown⟩
  withdraw _ h sublist := ⟨h.1, h.2.withdraw sublist⟩

theorem lasting_withdrawn (id : String) : Lasting fun o => o.Withdrawn id where
  later _ h later := ⟨later.appended ▸ h.1, later.ids ▸ h.2⟩
  append _ h unknown :=
    ⟨List.map_append ▸ List.mem_append_left _ h.1, fun mem => h.2 (unknown.mem_feed h.1 mem)⟩
  withdraw _ h sublist := ⟨h.1, fun mem => h.2 ((sublist.map _).subset mem)⟩

/-- An event that was acknowledged is handled from then on. -/
theorem Sound.handled_after (sound : o.Sound) (id : String) :
    (o.after (.acknowledge id) (.ok ())).Handled id :=
  fun _ mem same => Testbed.consumed_of_mem_consumeFirst sound.feed_nodup mem same

/-! ## Where settled events stand -/

/-- The event with the id, if it was not withdrawn, stands in reach of a step from the cursor. It
stands behind the cursor if the anchor is where it was when the cursor was last looked at. -/
structure Recalls (o : Outside) (settings : Settings) (cursor : Cursor) (id : String) : Prop where
  known : id ∈ o.appended.map (·.id)
  near : id ∈ o.feed.map (·.id) →
    id ∈ (o.feed.map (·.id)).take (cursor.windowStart + settings.windowSize)
  ahead : cursor.nextIndex = 0 ∨ ∃ milestone, milestone.cursor = cursor ∧
    o.Remembers milestone ∧ id ∉ (milestone.feed.map (·.id)).take cursor.nextIndex

theorem lasting_recalls (settings : Settings) (cursor : Cursor) (id : String) :
    Lasting fun o => o.Recalls settings cursor id where
  later _ h later := by
    refine ⟨later.appended ▸ h.known, later.ids ▸ h.near, h.ahead.imp_right ?_⟩
    rintro ⟨milestone, same, remembers, front⟩
    exact ⟨milestone, same, remembers.later later, front⟩
  append _ h unknown := by
    refine ⟨List.map_append ▸ List.mem_append_left _ h.known, fun mem => ?_, h.ahead.imp_right ?_⟩
    · rw [List.map_append]
      exact ((List.prefix_append _ _).take _).subset (h.near (unknown.mem_feed h.known mem))
    · rintro ⟨milestone, same, remembers, front⟩
      exact ⟨milestone, same, remembers.append unknown, front⟩
  withdraw sound h sublist := by
    refine ⟨h.known, fun mem => ?_, h.ahead.imp_right ?_⟩
    · have left := sublist.map (·.id)
      exact mem_take_of_sublist sound.feed_nodup left (h.near (left.subset mem)) mem
    · rintro ⟨milestone, same, remembers, front⟩
      exact ⟨milestone, same, remembers.withdraw sublist, front⟩

end Outside

namespace Sync

variable {settings : Settings} {state state' : State} {o o₁ o' start : Outside} {cursor : Cursor}
  {window events : List Event} {handled : List Handling} {outcome : Outcome} {pass pass' : Pass}
  {calls : List Answered} {id : String} {count index : Nat}
  {result : Except Crash (Outcome × State)}

/-! ## Windows -/

theorem drop_unseen (count : Nat) : (state.unseen window).drop count =
    window.drop (state.cursor.nextIndex + count - state.cursor.windowStart) := by
  rw [State.unseen, Cursor.windowStart]
  cases start : state.cursor.isStart with
  | true =>
    have zero : state.cursor.nextIndex = 0 := beq_iff_eq.1 start
    rw [if_pos rfl, zero, Nat.zero_sub, Nat.sub_zero, Nat.zero_add]
  | false =>
    have moved : state.cursor.nextIndex ≠ 0 := beq_eq_false_iff_ne.1 start
    rw [if_neg Bool.false_ne_true, List.drop_drop]
    congr 1
    omega

/-- The new events of a window are those that stand from the cursor on, as far as it reaches. -/
theorem unseen_eq {feed : List Event}
    (read : window = (feed.drop state.cursor.windowStart).take settings.windowSize) :
    state.unseen window =
      (feed.take (state.cursor.windowStart + settings.windowSize)).drop state.cursor.nextIndex := by
  have whole : state.unseen window =
      window.drop (state.cursor.nextIndex - state.cursor.windowStart) := drop_unseen 0
  have reached : (feed.drop state.cursor.windowStart).take settings.windowSize =
      (feed.take (state.cursor.windowStart + settings.windowSize)).drop
        state.cursor.windowStart := by
    rw [List.drop_take, Nat.add_sub_cancel_left]
  have before : state.cursor.windowStart ≤ state.cursor.nextIndex := Nat.sub_le _ _
  rw [whole, read, reached, List.drop_drop, Nat.add_sub_cancel' before]

/-- While the cursor is anchored, a settled event is among the new ones or withdrawn. -/
theorem mem_unseen_of_recalls (recalls : o.Recalls settings state.cursor id)
    (read : window = (o.feed.drop state.cursor.windowStart).take settings.windowSize)
    (anchored : state.Anchored o.feed) (mem : id ∈ o.feed.map (·.id)) :
    id ∈ (state.unseen window).map (·.id) := by
  rw [unseen_eq read, List.map_drop, List.map_take]
  refine mem_drop_of_not_mem_take (recalls.near mem) fun front => ?_
  have front := ((List.take_prefix _ _).take _).subset front
  by_cases zero : state.cursor.nextIndex = 0
  · rw [zero] at front
    cases front
  obtain ⟨milestone, same, remembers, ahead⟩ := recalls.ahead.resolve_left zero
  have stands := anchored.resolve_left fun start => zero (beq_iff_eq.1 start)
  have anchor := remembers.anchor
  rw [same, ← List.getElem?_map] at anchor
  rw [← List.getElem?_map] at stands
  rw [remembers.follows.take_eq remembers.nodup (Nat.pos_of_ne_zero zero) anchor stands] at front
  exact ahead front

/-- What stands behind the cursor in its window, or was withdrawn, is recalled from there on. -/
theorem recalls_of_behind (sound : o.Sound) (anchored : state.Anchored o.feed)
    (behind : id ∈ ((o.feed.map (·.id)).take
      (state.cursor.windowStart + settings.windowSize)).drop state.cursor.nextIndex ∨
        o.Withdrawn id) : o.Recalls settings state.cursor id := by
  refine ⟨?_, fun mem => ?_, ?_⟩
  · rcases behind with mem | gone
    · exact sound.sublist.subset (List.mem_of_mem_take (List.mem_of_mem_drop mem))
    · exact gone.1
  · exact List.mem_of_mem_drop (behind.resolve_right fun gone => gone.2 mem)
  · by_cases zero : state.cursor.nextIndex = 0
    · exact Or.inl zero
    have anchor := anchored.resolve_left fun start => zero (beq_iff_eq.1 start)
    refine Or.inr ⟨⟨state.cursor, o.feed⟩, rfl,
      ⟨anchor, sound.feed_nodup, fun _ mem => sound.sublist.subset mem, .refl _⟩, fun front => ?_⟩
    rcases behind with mem | gone
    · have distinct := sound.feed_nodup
      rw [← List.take_append_drop state.cursor.nextIndex (o.feed.map (·.id))] at distinct
      exact List.disjoint_of_nodup_append distinct front
        (((List.take_prefix _ _).sublist.drop _).subset mem)
    · exact gone.2 (List.mem_of_mem_take front)

/-! ## Steps that read the feed -/

theorem Batch.moves (batch : Batch settings state window events handled count
      (.ok (outcome, state')) calls) (within : count ≤ events.length) :
    state'.cursor.nextIndex = state.cursor.nextIndex + count ∧
      (state'.cursor = state.cursor ∨ ∃ last, 0 < count ∧ events[count - 1]? = some last ∧
        state'.cursor.lastEventId = last.id) ∧
      ∃ more, calls = passing settings state window handled ++ more := by
  by_cases nothing : events = []
  · obtain ⟨same, calls⟩ := batch.idle nothing
    cases same
    rw [nothing, List.length_nil, Nat.le_zero] at within
    rw [within]
    exact ⟨rfl, Or.inl rfl, [], calls.trans (List.append_nil _).symm⟩
  rcases Nat.eq_zero_or_pos count with none | some
  · obtain ⟨first, settled, -, same, calls⟩ := batch.held nothing none
    cases same
    rw [none]
    exact ⟨rfl, Or.inl rfl, [], calls.trans (List.append_nil _).symm⟩
  · rcases Nat.lt_or_ge (state.cursor.nextIndex + count) Position.bound with fits | overflow
    · obtain ⟨last, settled, answer, ended, same, calls⟩ := batch.advanced some fits
      cases same
      exact ⟨rfl, Or.inr ⟨last, some, ended, rfl⟩, _, calls⟩
    · cases (batch.overrun some overflow).2.1

theorem Batch.anchored {feed : List Event}
    (batch : Batch settings state window events handled count (.ok (outcome, state')) calls)
    (within : count ≤ events.length) (ahead : events <+: feed.drop state.cursor.nextIndex)
    (anchored : state.Anchored feed) : state'.Anchored feed := by
  obtain ⟨index, same | ⟨last, moved, ended, named⟩, -⟩ := batch.moves within
  · rw [State.Anchored, same]
    exact anchored
  · obtain ⟨more, eq⟩ := ahead
    have stands : feed[state.cursor.nextIndex + (count - 1)]? = some last := by
      rw [← List.getElem?_drop, ← eq, List.getElem?_append_left (by omega), ended]
    refine Or.inr ?_
    rw [index, Nat.add_sub_assoc moved, stands, named]
    rfl

/-- A settled event that the cursor did not move past stands behind the held one, which is not
settled. -/
theorem mem_drop_reach
    (routed : handled.map (·.event) = events.filter fun event => !state.isSettled event.id)
    (settled : id ∈ state.settled) (mem : id ∈ events.map (·.id))
    (unpassed : id ∉ (events.take (reach handled events)).map (·.id)) :
    id ∈ (events.drop (reach handled events + 1)).map (·.id) := by
  rw [List.map_take] at unpassed
  have behind := mem_drop_of_not_mem_take mem unpassed
  rw [← List.map_drop] at behind
  by_cases within : reach handled events < events.length
  · rw [List.drop_eq_getElem_cons within, List.map_cons, List.mem_cons] at behind
    refine behind.resolve_left fun same => ?_
    obtain ⟨handling, made, matched⟩ : ∃ handling ∈ handled,
        (handling.event.id == events[reach handled events].id && handling.holds) = true :=
      List.any_eq_true.1 (List.findIdx_getElem (w := within))
    rw [Bool.and_eq_true, beq_iff_eq, ← same] at matched
    have unsettled := (List.mem_filter.1 (routed ▸ List.mem_map_of_mem made)).2
    have known : state.isSettled id = true := List.contains_iff_mem.2 settled
    rw [matched.1, known] at unsettled
    cases unsettled
  · rw [List.drop_eq_nil_of_le (Nat.not_lt.1 within)] at behind
    cases behind

/-- A step that lines up forgets what it moves past. What it still remembers stands in its window
behind the held event, or was withdrawn. -/
theorem Batch.behind (batch : Batch settings state window (state.unseen window) handled
      (reach handled (state.unseen window)) (.ok (outcome, state')) calls)
    (read : window = (o.feed.drop state.cursor.windowStart).take settings.windowSize)
    (anchored : state.Anchored o.feed)
    (recalled : ∀ id ∈ state.settled, o.Recalls settings state.cursor id) :
    ∀ id ∈ state'.settled, id ∈ (window.drop
      (state'.cursor.nextIndex + 1 - state.cursor.windowStart)).map (·.id) ∨ o.Withdrawn id := by
  intro id mem
  obtain ⟨moved, -, -⟩ := batch.moves reach_le_length
  obtain ⟨old | ⟨handling, -, -, among, same⟩, unpassed⟩ := (batch.settled _ _ rfl id).1 mem
  · by_cases left : id ∈ o.feed.map (·.id)
    · have new := mem_unseen_of_recalls (recalled id old) read anchored left
      rw [moved, Nat.add_assoc, ← drop_unseen]
      exact Or.inl (mem_drop_reach batch.routed old new unpassed)
    · exact Or.inr ⟨(recalled id old).known, left⟩
  · rw [moved, Nat.add_assoc, ← drop_unseen]
    exact Or.inl (List.mem_map.2 ⟨_, among, same⟩)

/-- What stands in the window behind the new cursor is in reach from there. -/
theorem Batch.recalls (batch : Batch settings state window (state.unseen window) handled
      (reach handled (state.unseen window)) (.ok (outcome, state')) calls) (sound : o.Sound)
    (read : window = (o.feed.drop state.cursor.windowStart).take settings.windowSize)
    (anchored : state.Anchored o.feed)
    (ahead : state.unseen window <+: o.feed.drop state.cursor.nextIndex)
    (behind : id ∈ (window.drop
      (state'.cursor.nextIndex + 1 - state.cursor.windowStart)).map (·.id) ∨ o.Withdrawn id) :
    o.Recalls settings state'.cursor id := by
  obtain ⟨moved, -, -⟩ := batch.moves reach_le_length
  refine recalls_of_behind sound (batch.anchored reach_le_length ahead anchored)
    (behind.imp_left fun mem => ?_)
  generalize reach handled (state.unseen window) = count at moved
  rw [moved, Nat.add_assoc, ← drop_unseen, unseen_eq read, List.drop_drop, List.map_drop,
    List.map_take] at mem
  have farther : state.cursor.windowStart ≤ state'.cursor.windowStart := by
    rw [Cursor.windowStart, Cursor.windowStart, moved]
    omega
  rw [moved]
  refine ((List.take_prefix_take_left (Nat.add_le_add_right farther _)).sublist.drop _).subset ?_
  exact List.drop_subset_drop_left _ (Nat.le_succ _) mem

/-! ## Settled events are handled -/

/-- A step that got the window has made these calls first. -/
theorem Rounds.exists_fetching {offset limit : Nat} (rounds : Rounds settings state result calls)
    (fetched : ⟨.fetch offset limit, .ok window⟩ ∈ calls) :
    ∃ more, calls = fetching settings state window ++ more := by
  cases rounds with
  | stopped _ waiting => exact (waiting _ fetched).elim
  | crashed => simp at fetched
  | overrun =>
    obtain rfl := eq_of_fetch_mem_passing fetched
    exact ⟨_, rfl⟩
  | reset =>
    obtain rfl := eq_of_fetch_mem_passing (mem_passing_of_mem_fetching (fetched_of_stored fetched))
    exact ⟨_, rfl⟩
  | idle =>
    obtain rfl := eq_of_fetch_mem_passing (mem_passing_of_mem_fetching fetched)
    exact ⟨[], (List.append_nil _).symm⟩
  | held =>
    obtain rfl := eq_of_fetch_mem_passing fetched
    exact ⟨_, rfl⟩
  | advanced =>
    rw [← List.append_assoc] at fetched
    obtain rfl := eq_of_fetch_mem_passing (fetched_of_stored fetched)
    exact ⟨_, rfl⟩

/-- A step leaves the state as it was, or gets a window first. -/
theorem Rounds.exists_window (rounds : Rounds settings state (.ok (outcome, state')) calls) :
    state' = state ∨ ∃ window more, calls = fetching settings state window ++ more := by
  cases rounds with
  | stopped => exact Or.inl rfl
  | @idle window => exact Or.inr ⟨window, [], (List.append_nil _).symm⟩
  | reset | held | advanced => exact Or.inr ⟨_, _, rfl⟩

/-- A step that got a window that does not line up goes back to the start. -/
theorem Rounds.reset_of_unmatched {more : List Answered}
    (rounds : Rounds settings state (.ok (outcome, state'))
      (fetching settings state window ++ more))
    (unmatched : state.cursor.matchesAnchor (window.head?.map (·.id)) = false) :
    state' = .at .start := by
  cases rounds with
  | stopped _ waiting =>
    exact (waiting _ (List.mem_append_left _ (fetch_mem_fetching settings state window))).elim
  | reset => rfl
  | idle matched | held matched | advanced matched =>
    exact absurd matched (Bool.eq_false_iff.1 unmatched)

/-- The window is what stood in the feed at some time, and all further calls came later. -/
theorem exists_read {p : Outside → (c : Call) → c.Answer → Prop} {upto : Nat} {α : Type}
    {script rest : Script α}
    (h : Interleaves (limited p) (Changes Unknown upto) script o rest o')
    (trail : o'.trail = o.trail ++ (fetching settings state window ++ calls)) :
    ∃ o₁, Elapses o o₁ ∧ Elapses o₁ o' ∧
      window = (o₁.feed.drop state.cursor.windowStart).take settings.windowSize ∧
      ∀ answered ∈ calls, ∃ o₂, Elapses o₁ o₂ ∧
        Elapses (o₂.after answered.call answered.answer) o' := by
  obtain ⟨middle, o₀, before, reached, behind⟩ := exists_split h trail
  obtain ⟨-, made⟩ := exists_elapses before reached
  obtain ⟨o₁, early, read, late⟩ := made _ (fetch_mem_fetching settings state window)
  have late := (later_after _ _ _).elapses.trans late
  refine ⟨o₁, early, late.trans (elapses_of_interleaves behind), ?_, fun answered mem => ?_⟩
  · rw [← Nat.add_sub_cancel_left (n := state.cursor.windowStart) (m := settings.windowSize)]
    exact read
  · rw [← List.append_assoc, ← reached] at trail
    obtain ⟨-, made'⟩ := exists_elapses behind trail
    obtain ⟨o₂, between, -, after⟩ := made' answered mem
    exact ⟨o₂, late.trans between, after⟩

/-- An event of the window whose routing came out well is consumed afterwards, or withdrawn. -/
theorem Handling.isHandled {handling : Handling} (clean : handling.result.isOk = true)
    (sound : o.Sound) (there : handling.event ∈ o.feed) (elapses : Elapses o o')
    (made : ∀ answered ∈ handling.calls, ∃ o₁, Elapses o o₁ ∧
      Elapses (o₁.after answered.call answered.answer) o') : o'.Handled handling.event.id := by
  have known := sound.mem_appended there
  have shows := handling.shows
  obtain ⟨verdict, result⟩ : ∃ verdict, handling.result = .ok verdict := by
    cases result : handling.result with
    | ok verdict => exact ⟨verdict, rfl⟩
    | error error =>
      rw [result] at clean
      cases clean
  rw [result] at shows
  cases consumed : handling.event.consumed with
  | true =>
    have first : o.Handled handling.event.id := fun other mem same => by
      rw [sound.eq_of_id_eq mem there same, consumed]
    exact ((elapses sound).2 _ (lasting_handled _) ⟨known, first⟩).2
  | false =>
    have called : ⟨.acknowledge handling.event.id, .ok ()⟩ ∈ handling.calls :=
      List.mem_of_mem_filter (List.mem_of_mem_filter
        (shows.acknowledged_of_ok consumed ▸ List.mem_singleton_self _))
    obtain ⟨o₁, between, after⟩ := made _ called
    obtain ⟨sound₁, lasts⟩ := between sound
    have later := later_after o₁ (.acknowledge handling.event.id) (.ok ())
    have acked := sound₁.handled_after handling.event.id
    exact ((after (sound₁.later later)).2 _ (lasting_handled _)
      ⟨later.appended ▸ lasts _ (lasting_known _) known, acked⟩).2

/-! ## What is remembered between steps -/

theorem Pass.nodup_record {result : Except RoutingError Verdict} (nodup : pass.settled.Nodup) :
    (pass.record index id result).settled.Nodup := by
  cases result with
  | error error => exact nodup
  | ok verdict =>
    rw [Pass.record]
    split
    · rename_i new
      rw [Bool.and_eq_true, Bool.not_eq_true'] at new
      have missing : id ∉ pass.settled := fun mem => by simp [mem] at new
      rw [← List.concat_eq_append]
      exact nodup.concat missing
    · exact nodup

theorem Walks.nodup_settled (walks : Walks events index pass handled pass')
    (nodup : pass.settled.Nodup) : pass'.settled.Nodup := by
  induction walks with
  | ended => exact nodup
  | settled _ _ ih => exact ih nodup
  | routed _ _ _ ih => exact ih (Pass.nodup_record nodup)

theorem Rounds.nodup_settled
    (rounds : Rounds settings state (.ok (outcome, state')) calls) (nodup : state.settled.Nodup) :
    state'.settled.Nodup := by
  cases rounds with
  | stopped | idle => exact nodup
  | reset => exact List.nodup_nil
  | held _ _ walks => exact walks.nodup_settled nodup
  | advanced _ walks => exact (walks.nodup_settled nodup).filter _

/-- Every settled event was handled, and is one that the next step can find. -/
structure Retains (settings : Settings) (state : State) (o : Outside) : Prop where
  sound : o.Sound
  distinct : state.settled.Nodup
  recalled : ∀ id ∈ state.settled, o.Recalls settings state.cursor id
  handled : ∀ id ∈ state.settled, o.Handled id

theorem Retains.elapses (h : Retains settings state o) (elapses : Elapses o o') :
    Retains settings state o' where
  sound := (elapses h.sound).1
  distinct := h.distinct
  recalled id mem := (elapses h.sound).2 _ (lasting_recalls settings state.cursor id)
    (h.recalled id mem)
  handled id mem := ((elapses h.sound).2 _ (lasting_handled id)
    ⟨(h.recalled id mem).known, h.handled id mem⟩).2

/-- A routing of the step failed and may come out well later. -/
def Holds (calls : List Answered) : Prop :=
  ∃ id error, ⟨.reportRouting id (.error error), ()⟩ ∈ calls ∧ error.isTransient = true

/-- The step held no event. -/
def HeldNone (outcome : Outcome) (calls : List Answered) : Prop :=
  ¬Holds calls ∨ outcome = .idle ∨ ∃ processed, outcome = .advanced processed 0

/-- The report of an event that holds the cursor tells so. -/
theorem Handling.holds_calls {handling : Handling} (holds : handling.holds = true)
    (mem : handling ∈ handled) : Holds (passing settings state window handled) := by
  unfold Handling.holds at holds
  cases result : handling.result with
  | ok verdict =>
    rw [result] at holds
    cases holds
  | error error =>
    rw [result] at holds
    refine ⟨handling.event.id, error, List.mem_append_right _ ?_, holds⟩
    exact List.mem_flatMap.2 ⟨handling, mem, List.mem_append_right _ (by simp [result])⟩

theorem reach_eq_length (unheld : ∀ handling ∈ handled, handling.holds = false) :
    reach handled events = events.length := by
  refine List.findIdx_eq_length.2 fun event _ => List.any_eq_false.2 fun handling mem => ?_
  rw [unheld handling mem, Bool.and_false]
  exact Bool.false_ne_true

/-- If no event is held, the step moves past all new events. -/
theorem Batch.reach_eq (batch : Batch settings state window events handled (reach handled events)
      (.ok (outcome, state')) calls) (none : HeldNone outcome calls) :
    reach handled events = events.length := by
  by_cases nothing : events = []
  · rw [nothing]
    rfl
  rcases none with unheld | ended
  · obtain ⟨-, -, more, made⟩ := batch.moves reach_le_length
    refine reach_eq_length fun handling mem => Bool.eq_false_iff.2 fun holds => unheld ?_
    obtain ⟨other, error, report, transient⟩ := Handling.holds_calls holds mem
    exact ⟨other, error, made ▸ List.mem_append_left _ report, transient⟩
  rcases Nat.eq_zero_or_pos (reach handled events) with zero | moved
  · obtain ⟨first, settled, -, same, -⟩ := batch.held nothing zero
    cases same
    rcases ended with idle | ⟨processed, advanced⟩
    · cases idle
    · cases advanced
  · rcases Nat.lt_or_ge (state.cursor.nextIndex + reach handled events) Position.bound with
      fits | overflow
    · obtain ⟨last, settled, answer, -, same, -⟩ := batch.advanced moved fits
      cases same
      rcases ended with idle | ⟨processed, advanced⟩
      · cases idle
      have clean := List.countP_eq_zero.1 (Outcome.advanced.inj advanced).2
      refine reach_eq_length fun handling mem => Bool.eq_false_iff.2 fun holds => ?_
      exact clean handling mem (by rw [Handling.isOk_of_holds holds, Bool.not_false])
    · cases (batch.overrun moved overflow).2.1

section

variable {p : Outside → (c : Call) → c.Answer → Prop} {upto offset limit : Nat}

/-- After a step that lined up with the feed, what is settled is handled, and stands behind the held
event or was withdrawn. -/
theorem Retains.lines_up (retains : Retains settings state o) (early : Elapses o o₁)
    (late : Elapses o₁ o')
    (read : window = (o₁.feed.drop state.cursor.windowStart).take settings.windowSize)
    (matched : state.cursor.matchesAnchor (window.head?.map (·.id)) = true)
    (batch : Batch settings state window (state.unseen window) handled
      (reach handled (state.unseen window)) (.ok (outcome, state')) calls)
    (nodup : state'.settled.Nodup)
    (made : ∀ answered ∈ handled.flatMap Handling.trail, ∃ o₂, Elapses o₁ o₂ ∧
        Elapses (o₂.after answered.call answered.answer) o') :
    Retains settings state' o' ∧ ∀ id ∈ state'.settled, id ∈ (window.drop
      (state'.cursor.nextIndex + 1 - state.cursor.windowStart)).map (·.id) ∨ o'.Withdrawn id := by
  have anchored := (anchored_of_matches read matched).1
  have before := retains.elapses early
  have behind := batch.behind read anchored before.recalled
  have lasts := (late before.sound).2
  refine ⟨⟨(late before.sound).1, nodup, fun id mem => ?_, fun id mem => ?_⟩, fun id mem => ?_⟩
  · exact lasts _ (lasting_recalls settings state'.cursor id)
      (batch.recalls before.sound read anchored (prefix_unseen read matched) (behind id mem))
  · obtain ⟨old | ⟨handling, routed, clean, among, rfl⟩, -⟩ := (batch.settled _ _ rfl id).1 mem
    · exact (before.elapses late).handled id old
    · have there : handling.event ∈ o₁.feed := by
        have among := mem_of_mem_unseen (List.mem_of_mem_drop among)
        rw [read] at among
        exact List.mem_of_mem_drop (List.mem_of_mem_take among)
      refine Handling.isHandled clean before.sound there late fun answered called =>
        made answered ?_
      exact List.mem_flatMap.2 ⟨handling, routed, List.mem_append_left _ called⟩
  · exact (behind id mem).imp_right (lasts _ (lasting_withdrawn id))

/-- A step that got its window retains what stands in it behind the held event, and what was
withdrawn, unless it goes back to the start. -/
theorem Retains.read (retains : Retains settings state o)
    (interleaves : Interleaves (limited p) (Changes Unknown upto) (step settings state) o
      (.done (.ok (outcome, state'))) o')
    (trail : o'.trail = o.trail ++ calls) (fetched : ⟨.fetch offset limit, .ok window⟩ ∈ calls) :
    Retains settings state' o' ∧ (state' = .at .start ∨ ∃ behind,
      behind = window.drop (state'.cursor.nextIndex + 1 - state.cursor.windowStart) ∧
      behind.length ≤ settings.windowSize - 1 ∧ (HeldNone outcome calls → behind = []) ∧
      ∀ id ∈ state'.settled, id ∈ behind.map (·.id) ∨ o'.Withdrawn id) := by
  obtain ⟨traces, -⟩ := exists_elapses interleaves trail
  have rounds := records_step settings state _ _ traces
  obtain ⟨more, rfl⟩ := rounds.exists_fetching fetched
  obtain ⟨o₁, early, late, read, made⟩ := exists_read interleaves trail
  cases matched : state.cursor.matchesAnchor (window.head?.map (·.id)) with
  | false =>
    obtain rfl := rounds.reset_of_unmatched matched
    exact ⟨⟨((early.trans late) retains.sound).1, List.nodup_nil, nofun, nofun⟩, Or.inl rfl⟩
  | true =>
    have distinct : (window.map (·.id)).Nodup := by
      have part := (List.take_sublist settings.windowSize _).trans
        (List.drop_sublist state.cursor.windowStart o₁.feed)
      exact read ▸ (part.map _).nodup (early retains.sound).1.feed_nodup
    obtain ⟨handled, batch⟩ := batch_law traces fetched matched distinct
    obtain ⟨moved, -, others, calls⟩ := batch.moves reach_le_length
    rw [passing, List.append_assoc] at calls
    have all := List.append_cancel_left calls
    obtain ⟨retains', behind⟩ := retains.lines_up early late read matched batch
      (rounds.nodup_settled retains.distinct) fun answered mem =>
        made answered (all ▸ List.mem_append_left _ mem)
    refine ⟨retains', Or.inr ⟨_, rfl, ?_, fun none => ?_, behind⟩⟩
    · have short : window.length ≤ settings.windowSize := read ▸ List.length_take_le _ _
      have before : state.cursor.windowStart ≤ state.cursor.nextIndex := Nat.sub_le _ _
      rw [List.length_drop]
      omega
    · rw [moved, Nat.add_assoc, ← drop_unseen, batch.reach_eq none]
      exact List.drop_eq_nil_of_le (Nat.le_succ _)

/-- However a step goes, it retains nothing but what the next one can find. -/
theorem Retains.step (retains : Retains settings state o)
    (interleaves : Interleaves (limited p) (Changes Unknown upto) (step settings state) o
      (.done (.ok (outcome, state'))) o') : Retains settings state' o' := by
  obtain ⟨calls, traces, trail, -⟩ := exists_calls interleaves
  rcases (records_step settings state _ _ traces).exists_window with rfl | ⟨window, more, rfl⟩
  · exact retains.elapses (elapses_of_interleaves interleaves)
  · have fetched := List.mem_append_left more (fetch_mem_fetching settings state window)
    exact (retains.read interleaves trail fetched).1

end

/-- Steps from the cursor on, with nothing settled at first, lead to the state. Events are appended
and withdrawn at any time, no id being used again. -/
inductive Rereads (settings : Settings) (cursor : Cursor) (start : Outside) :
    State → Outside → Prop where
  | here : Rereads settings cursor start (.at cursor) start
  | step {state state' : State} {outcome : Outcome} {o o' : Outside}
      (rereads : Rereads settings cursor start state o)
      (interleaves : Interleaves free (Changes Unknown 0) (Sync.step settings state) o
        (.done (.ok (outcome, state'))) o') : Rereads settings cursor start state' o'
  | change {state : State} {o o' : Outside} (rereads : Rereads settings cursor start state o)
      (changes : Changes Unknown 0 o o') : Rereads settings cursor start state o'

theorem Rereads.retains (rereads : Rereads settings cursor start state o)
    (sound : start.Sound) : Retains settings state o := by
  induction rereads with
  | here => exact ⟨sound, List.nodup_nil, nofun, nofun⟩
  | step _ interleaves ih => exact ih.step interleaves
  | change _ changes ih => exact ih.elapses changes.elapses

/-- There are no more settled events that are still in the feed than there is room for behind the
held one. -/
theorem Retains.few (retains : Retains settings state o) {behind : List Event}
    (placed : ∀ id ∈ state.settled, id ∈ behind.map (·.id) ∨ o.Withdrawn id) :
    (state.settled.filter (o.feed.map (·.id)).contains).length ≤ behind.length := by
  have ids : (behind.map (·.id)).length = behind.length := List.length_map _
  rw [← ids]
  refine ((retains.distinct.filter _).subperm fun id mem => ?_).length_le
  obtain ⟨settled, left⟩ := List.mem_filter.1 mem
  exact (placed id settled).resolve_right fun gone => gone.2 (List.contains_iff_mem.1 left)

/-- A step that resets the cursor forgets what was settled. -/
theorem Rounds.of_reset (rounds : Rounds settings state (.ok (.cursorReset, state')) calls) :
    state' = .at .start := by
  cases rounds with
  | stopped stops => simp [Outcome.stops] at stops
  | reset => rfl

end Sync

open Sync in
/-- Whatever fails, and wherever events are appended and withdrawn in the meantime, every event that
is settled after a step has read the feed is consumed and stands in the window of that step, beyond
the event that the cursor is held at, unless it was withdrawn. A reset forgets them all, and if no
event is held, all that are left were withdrawn. The others never fill the window. -/
theorem settled_ahead_or_withdrawn {settings : Settings} {cursor : Cursor} {start o o' : Outside}
    {state state' : State} {outcome : Outcome} {calls : List Answered} {offset limit : Nat}
    {window : List Event} (sound : start.Sound)
    (rereads : Rereads settings cursor start state o)
    (interleaves : Interleaves free (Changes Unknown 0) (step settings state) o
      (.done (.ok (outcome, state'))) o')
    (trail : o'.trail = o.trail ++ calls) (fetched : ⟨.fetch offset limit, .ok window⟩ ∈ calls) :
    (∀ id ∈ state'.settled, (id ∈ (window.drop
        (state'.cursor.nextIndex + 1 - state.cursor.windowStart)).map (·.id) ∨ o'.Withdrawn id) ∧
      o'.Handled id) ∧
    (outcome = .cursorReset → state'.settled = []) ∧
    (HeldNone outcome calls → ∀ id ∈ state'.settled, o'.Withdrawn id) ∧
    (state'.settled.filter (o'.feed.map (·.id)).contains).length ≤ settings.windowSize - 1 := by
  obtain ⟨retains, placed⟩ := (rereads.retains sound).read interleaves trail fetched
  have reset : outcome = .cursorReset → state'.settled = [] := by
    rintro rfl
    obtain ⟨traces, -⟩ := exists_elapses interleaves trail
    rw [(records_step settings state _ _ traces).of_reset]
    rfl
  rcases placed with rfl | ⟨behind, rfl, short, unheld, placed⟩
  · exact ⟨nofun, reset, nofun, Nat.zero_le _⟩
  · refine ⟨fun id mem => ⟨placed id mem, retains.handled id mem⟩, reset, fun none id mem => ?_,
      (retains.few placed).trans short⟩
    refine (placed id mem).resolve_left fun there => ?_
    rw [unheld none] at there
    cases there

namespace Outside

/-- A feed of three events, of which nothing has been read. -/
def unread : Outside :=
  { appended := [.fresh "A", .fresh "B", .fresh "C"], feed := [.fresh "A", .fresh "B", .fresh "C"] }

/-- The first of the three events is held, and the others are settled. Then the second one is
withdrawn. -/
def bereft : Outside :=
  let read := (unread.granted (· == "A") (.at .start)).2
  { read with feed := read.feed.take 0 ++ read.feed.eraseIdx 1 }

/-- The next step has moved past all that is left. -/
def passedOver : Outside :=
  (bereft.granted (fun _ => false) ⟨.start, ["B", "C"]⟩).2

theorem sound_unread : unread.Sound where
  nodup := by decide
  sublist := .refl _
  origin event mem := ⟨event, mem, .refl _⟩

end Outside

namespace Sync

theorem interleaves_granted {fails : String → Bool} {state state' : State} {o : Outside}
    {outcome : Outcome} (result : (o.granted fails state).1 = .ok (outcome, state')) :
    Interleaves free (Changes Unknown 0) (step {} state) o (.done (.ok (outcome, state')))
      (o.granted fails state).2 :=
  result ▸ (ends_run _ (allows_granting fails) _ _).interleaves

theorem rereads_bereft : Rereads {} .start unread ⟨.start, ["B", "C"]⟩ bereft := by
  have held : (unread.granted (· == "A") (.at .start)).1 =
      .ok (.held "A" 1, ⟨.start, ["B", "C"]⟩) := by decide +kernel
  exact (Rereads.here.step (interleaves_granted held)).change
    (.withdraw _ (List.eraseIdx_sublist _ 1))

theorem advances_bereft :
    Interleaves free (Changes Unknown 0) (step {} ⟨.start, ["B", "C"]⟩) bereft
      (.done (.ok (.advanced 2 0, ⟨⟨2, "C"⟩, ["B"]⟩))) passedOver ∧
    ∃ calls, passedOver.trail = bereft.trail ++ calls ∧
      ⟨.fetch 0 24, .ok bereft.feed⟩ ∈ calls := by
  have advanced : (bereft.granted (fun _ => false) ⟨.start, ["B", "C"]⟩).1 =
      .ok (.advanced 2 0, ⟨⟨2, "C"⟩, ["B"]⟩) := by decide +kernel
  refine ⟨interleaves_granted advanced, fetching {} ⟨.start, ["B", "C"]⟩ bereft.feed ++
    passedOver.trail.drop (bereft.trail.length + 3), rfl, ?_⟩
  exact List.mem_append_left _ (fetch_mem_fetching _ _ _)

end Sync

/-- All that is left of what was settled is the event that was withdrawn. -/
theorem settled_ahead_or_withdrawn_bereft : unread.Sound ∧
    Sync.Rereads {} .start unread ⟨.start, ["B", "C"]⟩ bereft ∧
    Interleaves free (Changes Unknown 0) (Sync.step {} ⟨.start, ["B", "C"]⟩) bereft
      (.done (.ok (.advanced 2 0, ⟨⟨2, "C"⟩, ["B"]⟩))) passedOver ∧
    (∃ calls, passedOver.trail = bereft.trail ++ calls ∧
      ⟨.fetch 0 24, .ok bereft.feed⟩ ∈ calls) ∧
    passedOver.Withdrawn "B" := by
  obtain ⟨interleaves, calls, trail, fetched⟩ := Sync.advances_bereft
  obtain ⟨-, -, unheld, -⟩ :=
    settled_ahead_or_withdrawn sound_unread Sync.rereads_bereft interleaves trail fetched
  exact ⟨sound_unread, Sync.rereads_bereft, interleaves, ⟨calls, trail, fetched⟩,
    unheld (Or.inr (Or.inr ⟨2, rfl⟩)) "B" List.mem_cons_self⟩

/-- Once all events there are have been routed and the cursor has moved past them, a settled event
that was withdrawn is settled still, though it is not in the window. -/
theorem settled_after_withdrawal : unread.Sound ∧
    Sync.Rereads {} .start unread ⟨.start, ["B", "C"]⟩ bereft ∧
    Interleaves free (Changes Unknown 0) (Sync.step {} ⟨.start, ["B", "C"]⟩) bereft
      (.done (.ok (.advanced 2 0, ⟨⟨2, "C"⟩, ["B"]⟩))) passedOver ∧
    (∃ calls, passedOver.trail = bereft.trail ++ calls ∧
      ⟨.fetch 0 24, .ok bereft.feed⟩ ∈ calls) ∧
    "B" ∉ bereft.feed.map (·.id) := by
  obtain ⟨interleaves, calls, trail, fetched⟩ := Sync.advances_bereft
  exact ⟨sound_unread, Sync.rereads_bereft, interleaves, ⟨calls, trail, fetched⟩,
    by decide +kernel⟩

end Feedkeeper
