import Feedkeeper.Proofs.Outside
import Feedkeeper.Routing

/-!
# What routing an event comes to

`Routing.Course` lists the ways in which routing one event can go, each with its result and with
what it did for good : nothing at all, an acknowledgement, a join, or a notice that is saved,
announced and then acknowledged. `ensures_route` : there are no others, whatever fails. Two facts
about all of them carry the guarantees of the feed loop : every error may be mended by a later
attempt (`Course.isTransient`), and an event whose routing came out well is consumed
(`Course.consumed`).
-/

namespace Feedkeeper

open Outside Script

/-- The notice tells of the event, on its route and with its whole action, and is unread. -/
structure Notice.Tells (notice : Notice) (event : Event) : Prop where
  id : notice.id = event.id
  route : event.route? = some notice.route
  action : notice.action = event.action
  unread : notice.read = false

/-- A notice with the id is stored. -/
def Outside.Stored (o : Outside) (id : String) : Prop :=
  ∃ notice ∈ o.notices, notice.id = id

theorem Outside.not_stored_of_find {o : Outside} {id : String}
    (h : o.notices.find? (·.id == id) = none) : ¬o.Stored id := by
  rintro ⟨notice, hmem, rfl⟩
  simpa using List.find?_eq_none.1 h notice hmem

namespace Routing

/-- The ways in which routing an event can go, `stored` saying whether a notice with its id was
there : the result, and what was done for good. -/
inductive Course (event : Event) (stored : Prop) :
    Except RoutingError Verdict → List Deed → Prop where
  /-- Something failed before anything was done. -/
  | failed {error : RoutingError} (transient : error.isTransient = true) :
      Course event stored (.error error) []
  | spared {verdict : Verdict} (consumed : event.consumed = true) :
      Course event stored (.ok verdict) []
  | joinedLater {verdict : Verdict} {request : Group.Request} (consumed : event.consumed = true) :
      Course event stored (.ok verdict) [.joined request]
  | acknowledged {verdict : Verdict} (consumed : event.consumed = false) :
      Course event stored (.ok verdict) [.acknowledged event.id]
  | joined {verdict : Verdict} {request : Group.Request} (consumed : event.consumed = false) :
      Course event stored (.ok verdict) [.acknowledged event.id, .joined request]
  /-- The join failed, the event being acknowledged. -/
  | unjoined {error : RoutingError} (consumed : event.consumed = false)
      (transient : error.isTransient = true) :
      Course event stored (.error error) [.acknowledged event.id]
  | noticed {notice : Notice} (consumed : event.consumed = false) (new : ¬stored)
      (tells : notice.Tells event) : Course event stored (.ok (.noticed notice))
        [.saved notice, .announced notice, .acknowledged event.id]
  /-- The acknowledgement failed, a notice being saved. -/
  | unacknowledged {error : RoutingError} {notice : Notice} (consumed : event.consumed = false)
      (new : ¬stored) (tells : notice.Tells event) (transient : error.isTransient = true) :
      Course event stored (.error error) [.saved notice, .announced notice]

variable {event : Event} {stored : Prop} {result : Except RoutingError Verdict}
  {deeds : List Deed}

/-- Every error of a routing may be mended by a later attempt. -/
theorem Course.isTransient {error : RoutingError}
    (h : Course event stored (.error error) deeds) : error.isTransient = true := by
  cases h <;> assumption

/-- An event whose routing came out well was consumed before or is acknowledged. -/
theorem Course.consumed {verdict : Verdict} (h : Course event stored (.ok verdict) deeds) :
    event.consumed = true ∨ event.id ∈ acknowledgedIds deeds := by
  cases h <;> first | exact Or.inl ‹_› | exact Or.inr (by simp [acknowledgedIds])

/-- Only the routed event is acknowledged, and at most once. -/
theorem Course.acknowledgedIds_eq (h : Course event stored result deeds) :
    acknowledgedIds deeds = [] ∨
      event.consumed = false ∧ acknowledgedIds deeds = [event.id] := by
  cases h <;> first | exact Or.inl rfl | exact Or.inr ⟨‹_›, rfl⟩

/-- At most a notice of the routed event is saved, and only if it is unacknowledged and there was
none. -/
theorem Course.savedNotices_eq (h : Course event stored result deeds) :
    savedNotices deeds = [] ∨ ∃ notice : Notice, notice.Tells event ∧ event.consumed = false ∧
      ¬stored ∧ savedNotices deeds = [notice] := by
  cases h <;> first | exact Or.inl rfl | exact Or.inr ⟨_, ‹_›, ‹_›, ‹_›, rfl⟩

/-- What is saved is announced. -/
theorem Course.announcedNotices_eq (h : Course event stored result deeds) :
    announcedNotices deeds = savedNotices deeds := by
  cases h <;> rfl

/-- An event that is acknowledged is consumed afterwards, or gone. -/
theorem handled_of_does {o o' : Outside} (sound : o.Sound) (does : o.Does deeds o')
    (acknowledged : acknowledgedIds deeds = [event.id]) : o'.Handled event.id := by
  intro e he hid
  have hfeed : o'.feed = Testbed.consumeFirst event.id o.feed := by
    rw [does.feed, acknowledged]
    rfl
  exact Testbed.consumed_of_mem_consumeFirst sound.feed_nodup (hfeed ▸ he) hid

/-- An event of the feed whose routing came out well is consumed afterwards. -/
theorem Course.handled {verdict : Verdict} {o o' : Outside}
    (h : Course event stored (.ok verdict) deeds) (sound : o.Sound) (current : event ∈ o.feed)
    (does : o.Does deeds o') : o'.Handled event.id := by
  rcases h.consumed with hc | hack
  · refine Handled.later (fun e he hid => ?_) does.later
    exact sound.eq_of_id_eq he current hid ▸ hc
  · rcases h.acknowledgedIds_eq with hnil | ⟨-, hone⟩
    · rw [hnil] at hack
      cases hack
    · exact handled_of_does sound does hone

/-- What a routing is said to come to, from one state to another. -/
def Comes (event : Event) (o : Outside) (result : Except RoutingError Verdict) (o' : Outside) :
    Prop :=
  ∃ deeds, Course event (o.Stored event.id) result deeds ∧ o.Does deeds o'

/-- Calls before which nothing was done change nothing about what a routing comes to. -/
theorem Comes.of_does {o o' o'' : Outside} (does : o.Does [] o') (h : Comes event o' result o'') :
    Comes event o result o'' := by
  obtain ⟨deeds, course, does'⟩ := h
  have hs : o'.Stored event.id = o.Stored event.id := by
    rw [Stored, Stored, does.notices, savedNotices, List.filterMap_nil, List.append_nil]
  exact ⟨deeds, hs ▸ course, does.trans does'⟩

/-! ## The rules -/

section

variable {p : Outside → (c : Call) → c.Answer → Prop} {o : Outside}
  {Q : Except RoutingError Unit → Outside → Prop}

theorem ensures_acknowledge_of_consumed (h : event.consumed = true) :
    Ensures (limited p) (acknowledge event).run Q o ↔ Q (.ok ()) o := by
  rw [acknowledge, if_pos h, ensures_run_pure]

theorem ensures_acknowledge (h : event.consumed = false) :
    Ensures (limited p) (acknowledge event).run Q o ↔
      ∀ answer, p o (.acknowledge event.id) answer →
        Q (answer.mapError .transport) (o.after (.acknowledge event.id) answer) := by
  rw [acknowledge, if_neg (by simp [h]), ensures_run_transport, ensures_ask]
  exact forall_congr' fun answer => ⟨fun h hp => h ⟨trivial, hp⟩, fun h hp => h hp.2⟩

end

variable {o : Outside}

/-- An acknowledgement that decides the routing. -/
theorem comes_acknowledge (event : Event) (verdict : Verdict) (o : Outside) :
    Ensures free (do acknowledge event; return verdict : Attempt Verdict).run
      (Comes event o) o := by
  rw [ensures_run_bind]
  cases hc : event.consumed with
  | true =>
    rw [free, ensures_acknowledge_of_consumed hc]
    exact ⟨[], .spared hc, .refl o⟩
  | false =>
    rw [free, ensures_acknowledge hc]
    rintro (failure | _) _
    · exact ⟨[], .failed rfl, does_after (.acknowledge _) trivial _ (.error failure)⟩
    · exact ⟨_, .acknowledged hc, does_after (.acknowledge _) trivial _ (.ok ())⟩

/-- The generic rule. -/
theorem ensures_notice {event : Event} {route : Route} (hroute : event.route? = some route)
    (group : Option String) (o : Outside) :
    Ensures free (notice event route group).run (Comes event o) o := by
  cases hc : event.consumed with
  | true =>
    rw [notice, if_pos hc]
    exact ⟨[], .spared hc, .refl o⟩
  | false =>
    rw [notice, if_neg (by simp [hc]), ensures_run_bind, ensures_run_store, ensures_ask]
    rintro (fault | _ | found) allowed
    · exact ⟨[], .failed rfl, does_after (.findNotice _) trivial _ (.error fault)⟩
    · have new : ¬o.Stored event.id := not_stored_of_find allowed.1.symm
      simp only [Except.mapError, connection, ensures_run_bind, ensures_run_lift,
        ensures_run_store, ensures_bind, ensures_pure]
      intro createdAt _ sender _ saved _
      generalize hrecord : Notice.ofEvent event route createdAt group sender.toOption = record
      have tells : record.Tells event := hrecord ▸ ⟨rfl, hroute, rfl, rfl⟩
      have before : o.Does [] (((o.after (.findNotice event.id) (.ok none)).after .now
          createdAt).after (.sender event.action.digest) sender) :=
        ((does_after (.findNotice _) trivial _ _).call .now trivial _).call (.sender _) trivial _
      rcases saved with fault | _
      · exact ⟨[], .failed rfl, before.call (.saveNotice _) trivial (.error fault)⟩
      · intro _ _
        have told := (before.call (.saveNotice record) trivial (.ok ())).call
          (.announceNotice record) trivial ()
        rw [ensures_done, free, ensures_acknowledge hc]
        rintro (failure | _) _
        · exact ⟨_, .unacknowledged hc new tells rfl,
            told.call (.acknowledge _) trivial (.error failure)⟩
        · exact ⟨_, .noticed hc new tells, told.call (.acknowledge _) trivial (.ok ())⟩
    · exact (comes_acknowledge event .duplicate _).mono fun _ _ h =>
        h.of_does (does_after (.findNotice _) trivial _ _)

/-- The lookup of a group request ends in an error, or in what the rules go on with. -/
theorem ensures_lookup {Q : Except RoutingError (Option (Group.Request × String)) → Outside → Prop}
    (failed : ∀ failure o', o.Does [] o' → Q (.error (.transport failure)) o')
    (found : ∀ request? o', o.Does [] o' → Q (.ok request?) o') :
    Ensures free (lookup event).run Q o := by
  refine ensures_bind.2 ?_
  rintro (failure | request) _
  · cases failure with
    | notFound digest => exact found _ _ (does_after (.groupRequest _) trivial _ _)
    | transport failure => exact failed _ _ (does_after (.groupRequest _) trivial _ _)
  · exact found _ _ (does_after (.groupRequest _) trivial _ _)

/-- The rule for group replies. -/
theorem ensures_reply (hroute : event.route? = some .groupReply) (o : Outside) :
    Ensures free (reply event).run (Comes event o) o := by
  rw [reply, ensures_run_bind]
  refine ensures_lookup (fun failure o' does => ⟨[], .failed rfl, does⟩) ?_
  rintro (_ | ⟨request, group⟩) o' does
  · exact (comes_acknowledge event .groupGone o').mono fun _ _ h => h.of_does does
  simp only [ensures_run_bind, ensures_run_store]
  rintro (fault | _ | identifier) _
  · exact ⟨[], .failed rfl, does.call (.findIdentifier _) trivial _⟩
  · exact (comes_acknowledge event (.unknownGroup group) _).mono fun _ _ h =>
      h.of_does (does.call (.findIdentifier _) trivial _)
  have does' := does.call (.findIdentifier group) trivial (.ok (some identifier))
  simp only [ensures_done, Except.mapError]
  cases request.grantedEndpoint? with
  | none => exact (ensures_notice hroute (some group) _).mono fun _ _ h => h.of_does does'
  | some endpoint =>
    dsimp only
    split
    · exact (comes_acknowledge event .duplicate _).mono fun _ _ h => h.of_does does'
    rw [ensures_run_bind]
    cases hc : event.consumed with
    | true =>
      rw [free, ensures_acknowledge_of_consumed hc, ensures_run_bind, ensures_run_action,
        ensures_ask]
      rintro (fault | _) _
      · exact ⟨[], .failed rfl, does'.call (.joinAuthorization _) trivial (.error fault)⟩
      · exact ⟨_, .joinedLater hc, does'.call (.joinAuthorization request) trivial (.ok ())⟩
    | false =>
      rw [free, ensures_acknowledge hc]
      rintro (failure | _) _
      · exact ⟨[], .failed rfl, does'.call (.acknowledge _) trivial (.error failure)⟩
      have does'' := does'.call (.acknowledge event.id) trivial (.ok ())
      simp only [Except.mapError, ensures_run_bind, ensures_run_action]
      rintro (fault | _) _
      · exact ⟨_, .unjoined hc rfl, does''.call (.joinAuthorization _) trivial (.error fault)⟩
      · exact ⟨_, .joined hc, does''.call (.joinAuthorization request) trivial (.ok ())⟩

/-- The rule for group inceptions. -/
theorem ensures_inception (hroute : event.route? = some .groupInception) (o : Outside) :
    Ensures free (inception event).run (Comes event o) o := by
  rw [inception, ensures_run_bind]
  refine ensures_lookup (fun failure o' does => ⟨[], .failed rfl, does⟩) ?_
  rintro (_ | ⟨request, group⟩) o' does
  · exact (comes_acknowledge event .groupGone o').mono fun _ _ h => h.of_does does
  simp only [ensures_run_bind, ensures_run_store]
  rintro (fault | known) _
  · exact ⟨[], .failed rfl, does.call (.findIdentifier _) trivial _⟩
  rintro (fault | correlated) _
  · exact ⟨[], .failed rfl,
      (does.call (.findIdentifier _) trivial _).call (.noticesAbout _) trivial _⟩
  have does' := (does.call (.findIdentifier group) trivial (.ok known)).call
    (.noticesAbout group) trivial (.ok correlated)
  simp only [ensures_done, Except.mapError]
  split
  · exact (comes_acknowledge event .duplicate _).mono fun _ _ h => h.of_does does'
  · exact (ensures_notice hroute (some group) _).mono fun _ _ h => h.of_does does'

/-- However the calls turn out, routing an event goes one of the ways listed. -/
theorem ensures_route (event : Event) (o : Outside) :
    Ensures free (route event).run (Comes event o) o := by
  unfold route
  split
  · rename_i hroute
    split
    · rename_i hc
      exact ⟨[], .spared hc, .refl o⟩
    · exact comes_acknowledge event .ignored o
  · rename_i hroute
    exact ensures_reply hroute o
  · rename_i hroute
    exact ensures_inception hroute o
  · rename_i r _ _ hroute
    split
    · rename_i hc
      exact ⟨[], .spared hc, .refl o⟩
    split
    · simp only [correlation, ensures_run_bind, ensures_run_lift, ensures_bind]
      rintro (failure | request) _ <;>
        exact (ensures_notice hroute _ _).mono fun _ _ h =>
          h.of_does (does_after (.groupRequest _) trivial _ _)
    · exact ensures_notice hroute none o

end Routing

end Feedkeeper
