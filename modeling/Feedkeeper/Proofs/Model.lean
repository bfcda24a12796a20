import Feedkeeper.Model
import Feedkeeper.Proofs.Instant
import Feedkeeper.Proofs.Json.Value

/-!
# Models come back from their texts

Every model is read as it was written, as long as its instants are of the years 0 to 9999 and in no
leap second, and its free JSON has only integers for numbers and nests within the budget
(`models_come_back`). The other members of an action share an object with its route and its digest,
and come back because none of them has one of these two names.
-/

namespace Feedkeeper

open Json (Document)

/-! ## What comes back -/

/-- The numbers in the other members of the action are integers. -/
def Action.Integral (action : Action) : Prop :=
  ∀ member ∈ action.extra, member.2.Integral

/-- The action comes back from its text, within a budget of containers. -/
structure Action.Storable (depth : Nat) (action : Action) : Prop where
  budget : 0 < depth
  ascending : Json.Ascending action.extra
  other : ∀ member ∈ action.extra, member.1 ≠ "route" ∧ member.1 ≠ "digest"
  values : ∀ member ∈ action.extra, member.2.Storable (depth - 1)

/-- The event comes back from its text, within a budget of containers. -/
structure Event.Storable (depth : Nat) (event : Event) : Prop where
  occurredAt : event.occurredAt.Storable
  action : event.action.Storable (depth - 1)

/-- The notice comes back from its text, within a budget of containers. -/
structure Notice.Storable (depth : Nat) (notice : Notice) : Prop where
  createdAt : notice.createdAt.Storable
  action : notice.action.Storable (depth - 1)

/-- The storable values come back from their texts. What is read from a text is one of them if it is
plain, and its own text is read and is written again unchanged. -/
def Model.ComesBack (α : Type) [Model α] (plain storable : α → Prop) : Prop :=
  (∀ value : α, storable value → Model.read? (Model.write value) = some value) ∧
  ∀ (text : String) (value : α), Model.read? text = some value → plain value → storable value ∧
    ∃ again : α, Model.read? (Model.write value) = some again ∧
      Model.write again = Model.write value

/-- For a model to come back it is enough that its documents do. -/
theorem Model.comesBack {α : Type} [Model α] {plain storable : α → Prop}
    (back : ∀ value : α, storable value →
      Model.decode? Document.nestingLimit (Model.encode value) = some value ∧
        (Model.encode value).Written)
    (kept : ∀ (document : Document) (value : α),
      Model.decode? Document.nestingLimit document = some value → plain value → storable value) :
    Model.ComesBack α plain storable := by
  have read (value : α) (h : storable value) : Model.read? (Model.write value) = some value := by
    obtain ⟨decoded, written⟩ := back value h
    rw [Model.read?, Model.write, Document.read?_render written, Option.bind_some, decoded]
  refine ⟨read, fun text value parsed h => ?_⟩
  obtain ⟨document, -, decoded⟩ := Option.bind_eq_some_iff.1 parsed
  have fits := kept document value decoded h
  exact ⟨fits, value, read value fits, rfl⟩

/-! ## Parts of records -/

variable {depth : Nat}

@[simp] theorem Instant.decode?_encode {instant : Instant} (h : instant.Storable) :
    Model.decode? depth (Model.encode instant) = some instant := by
  change (Document.text? (.ofText instant.text)).bind read? = _
  rw [Document.text?_ofText, Option.bind_some, read?_text h]

@[simp] theorem Route.decode?_encode (route : Route) :
    Model.decode? depth (Model.encode route) = some route :=
  parse?_wire route

@[simp] theorem Operation.Kind.decode?_encode (kind : Operation.Kind) :
    Model.decode? depth (Model.encode kind) = some kind :=
  parse?_wire kind

@[simp] theorem Instant.written_encode (instant : Instant) :
    (Model.encode instant).Written :=
  Document.written_ofText _

@[simp] theorem Route.written_encode (route : Route) : (Model.encode route).Written :=
  Document.written_ofText _

@[simp] theorem Operation.Kind.written_encode (kind : Operation.Kind) :
    (Model.encode kind).Written :=
  Document.written_ofText _

namespace Action

variable {action : Action}

/-- The other members of the action, with their documents. -/
def others (action : Action) : List (String × Document) :=
  action.extra.map fun member => (member.1, Document.ofJson member.2)

/-- All members of the action, with their documents. -/
def fields (action : Action) : List (String × Document) :=
  ("route", .ofText action.route) :: ("digest", .ofText action.digest) :: action.others

theorem encode_eq (action : Action) : Model.encode action = Document.ofFields action.fields := by
  have members (members : List (String × Json)) : Document.ofMembers members =
      members.map fun member => (some member.1, Document.ofJson member.2) := by
    induction members with
    | nil => rfl
    | cons member rest ih => rw [Document.ofMembers, ih, List.map_cons]
  change Document.object _ = Document.object _
  rw [members, fields, others, List.map_cons, List.map_cons, List.map_map]
  rfl

theorem Storable.name_ne (h : action.Storable depth) {member : String × Document}
    (mem : member ∈ action.others) : member.1 ≠ "route" ∧ member.1 ≠ "digest" := by
  obtain ⟨source, found, rfl⟩ := List.mem_map.1 mem
  exact h.other source found

/-- No two members have one name. -/
theorem Storable.distinct (h : action.Storable depth) : (action.fields.map (·.1)).Nodup := by
  have extra : (action.others.map (·.1)).Nodup := by
    rw [others, List.map_map]
    exact List.pairwise_map.2 (h.ascending.imp fun before => before.ne)
  have route : "route" ∉ action.others.map (·.1) := fun mem => by
    obtain ⟨member, found, same⟩ := List.mem_map.1 mem
    exact (h.name_ne found).1 same
  have digest : "digest" ∉ action.others.map (·.1) := fun mem => by
    obtain ⟨member, found, same⟩ := List.mem_map.1 mem
    exact (h.name_ne found).2 same
  simp [fields, extra, route, digest]

theorem Storable.filter_fields (h : action.Storable depth) :
    action.fields.filter (fun member => member.1 != "route" && member.1 != "digest") =
      action.others := by
  rw [fields, List.filter_cons_of_neg (by simp), List.filter_cons_of_neg (by simp)]
  exact List.filter_eq_self.2 fun member mem => by simpa using h.name_ne mem

theorem decode?_encode (h : action.Storable depth) :
    Model.decode? depth (Model.encode action) = some action := by
  obtain ⟨depth, rfl⟩ := Nat.exists_eq_add_one.2 h.budget
  have route : Document.field? action.fields "route" = some (some (.ofText action.route)) :=
    Document.field?_of_mem h.distinct List.mem_cons_self
  have digest : Document.field? action.fields "digest" = some (some (.ofText action.digest)) :=
    Document.field?_of_mem h.distinct (List.mem_cons_of_mem _ List.mem_cons_self)
  have values : action.others.mapM (fun member => (member.2.free? depth).map (member.1, ·)) =
      some action.extra :=
    Document.mapM_map fun member mem => by
      have storable : member.2.Storable depth := h.values member mem
      simp [Document.free?_ofJson member.2 storable]
  rw [encode_eq]
  change (Document.keyed? (action.fields.map fun field => (some field.1, field.2))).bind _ = _
  rw [Document.keyed?_map, Option.bind_some]
  simp [route, digest, h.filter_fields, values, h.ascending.sortMembers_eq]

theorem written_encode (h : action.Storable depth) : (Model.encode action).Written := by
  rw [encode_eq]
  refine Document.written_ofFields ?_
  simp only [fields, others, List.forall_mem_cons, Document.written_ofText, List.forall_mem_map,
    true_and]
  exact fun member mem => Document.written_ofJson member.2 (h.values member mem)

/-- The other members of an action are read each from one that has neither of the two names. -/
theorem exists_of_decode? {document : Document} (h : Model.decode? depth document = some action) :
    0 < depth ∧ Json.Ascending action.extra ∧ ∀ member ∈ action.extra,
      (member.1 ≠ "route" ∧ member.1 ≠ "digest") ∧
        ∃ source : Document, source.free? (depth - 1) = some member.2 := by
  cases depth with
  | zero => cases h
  | succ depth =>
    cases document with
    | object members =>
      obtain ⟨keyed, -, h⟩ := Option.bind_eq_some_iff.1 h
      obtain ⟨route?, -, h⟩ := Option.bind_eq_some_iff.1 h
      obtain ⟨route, -, h⟩ := Option.bind_eq_some_iff.1 h
      obtain ⟨digest?, -, h⟩ := Option.bind_eq_some_iff.1 h
      obtain ⟨digest, -, h⟩ := Option.bind_eq_some_iff.1 h
      obtain ⟨extra, read, h⟩ := Option.bind_eq_some_iff.1 h
      obtain rfl := Option.some.inj h
      refine ⟨Nat.succ_pos depth, Json.ascending_sortMembers extra, fun member mem => ?_⟩
      obtain ⟨source, found, value⟩ :=
        Document.exists_of_mem_mapM read (Json.mem_of_mem_sortMembers mem)
      obtain ⟨json, read, rfl⟩ := Option.map_eq_some_iff.1 value
      exact ⟨by simpa using (List.mem_filter.1 found).2, source.2, read⟩
    | _ => cases h

theorem storable_of_decode? {document : Document} (h : Model.decode? depth document = some action)
    (integral : action.Integral) : action.Storable depth := by
  obtain ⟨budget, ascending, members⟩ := exists_of_decode? h
  refine ⟨budget, ascending, fun member mem => (members member mem).1, fun member mem => ?_⟩
  obtain ⟨-, source, read⟩ := members member mem
  exact Document.storable_of_free? source read (integral member mem)

end Action

theorem Group.Reply.decode?_encode (reply : Group.Reply) :
    Model.decode? (depth + 1) (Model.encode reply) = some reply :=
  Document.bind_fields?_ofFields depth rfl (by decide) rfl

@[simp] theorem Group.Reply.written_encode (reply : Group.Reply) : (Model.encode reply).Written :=
  Document.written_ofFields (by simp)

/-! ## Records -/

theorem Cursor.comesBack :
    Model.ComesBack Cursor (fun _ => True) (fun cursor => cursor.nextIndex < Nat.pow 2 64) := by
  refine Model.comesBack (fun cursor h => ⟨?_, Document.written_ofFields (by simp)⟩)
    fun document cursor h _ => ?_
  · refine Document.bind_fields?_ofFields 126 rfl (by decide) ?_
    simp [Document.word?_ofWord h]
  · obtain ⟨fields, h⟩ := Document.exists_of_bind_fields? h
    split at h
    · obtain ⟨index, word, h⟩ := Option.bind_eq_some_iff.1 h
      obtain ⟨id, -, h⟩ := Option.bind_eq_some_iff.1 h
      obtain rfl := Option.some.inj h
      exact Document.lt_of_word? word
    · cases h

theorem Route.comesBack : Model.ComesBack Route (fun _ => True) (fun _ => True) :=
  Model.comesBack (fun route _ => ⟨decode?_encode route, written_encode route⟩)
    fun _ _ _ _ => trivial

theorem Action.comesBack :
    Model.ComesBack Action Action.Integral (Action.Storable Document.nestingLimit) :=
  Model.comesBack (fun _ h => ⟨decode?_encode h, written_encode h⟩)
    fun _ _ read integral => storable_of_decode? read integral

theorem Event.comesBack : Model.ComesBack Event
    (fun event => event.occurredAt.Storable ∧ event.action.Integral)
    (Event.Storable Document.nestingLimit) := by
  refine Model.comesBack (fun event h => ⟨?_, Document.written_ofFields ?_⟩)
    fun document event h plain => ⟨plain.1, ?_⟩
  · have action : Model.decode? 126 (Model.encode event.action) = some event.action :=
      Action.decode?_encode h.action
    refine Document.bind_fields?_ofFields 126 rfl (by decide) ?_
    simp [Document.flag?, h.occurredAt, action]
  · simp [Action.written_encode h.action]
  · obtain ⟨fields, h⟩ := Document.exists_of_bind_fields? h
    split at h
    · rename_i same
      obtain ⟨-, rfl⟩ := Prod.mk.inj same
      obtain ⟨id, -, h⟩ := Option.bind_eq_some_iff.1 h
      obtain ⟨occurredAt, -, h⟩ := Option.bind_eq_some_iff.1 h
      obtain ⟨consumed, -, h⟩ := Option.bind_eq_some_iff.1 h
      obtain ⟨action, decoded, h⟩ := Option.bind_eq_some_iff.1 h
      obtain rfl := Option.some.inj h
      exact Action.storable_of_decode? decoded plain.2
    · cases h

theorem Notice.comesBack : Model.ComesBack Notice
    (fun notice => notice.createdAt.Storable ∧ notice.action.Integral)
    (Notice.Storable Document.nestingLimit) := by
  refine Model.comesBack (fun notice h => ⟨?_, Document.written_ofFields ?_⟩)
    fun document notice h plain => ⟨plain.1, ?_⟩
  · have action : Model.decode? 126 (Model.encode notice.action) = some notice.action :=
      Action.decode?_encode h.action
    refine Document.bind_fields?_ofFields 126 rfl (by decide) ?_
    simp [Document.flag?, h.createdAt, action, Document.optional?_ofText]
  · simp [Action.written_encode h.action]
  · obtain ⟨fields, h⟩ := Document.exists_of_bind_fields? h
    split at h
    · rename_i same
      obtain ⟨-, rfl⟩ := Prod.mk.inj same
      obtain ⟨id, -, h⟩ := Option.bind_eq_some_iff.1 h
      obtain ⟨createdAt, -, h⟩ := Option.bind_eq_some_iff.1 h
      obtain ⟨route, -, h⟩ := Option.bind_eq_some_iff.1 h
      obtain ⟨read, -, h⟩ := Option.bind_eq_some_iff.1 h
      obtain ⟨correlation, -, h⟩ := Option.bind_eq_some_iff.1 h
      obtain ⟨connection, -, h⟩ := Option.bind_eq_some_iff.1 h
      obtain ⟨action, decoded, h⟩ := Option.bind_eq_some_iff.1 h
      obtain rfl := Option.some.inj h
      exact Action.storable_of_decode? decoded plain.2
    · cases h

theorem Group.Reply.comesBack :
    Model.ComesBack Group.Reply (fun _ => True) (fun _ => True) :=
  Model.comesBack (fun reply _ => ⟨decode?_encode reply, written_encode reply⟩)
    fun _ _ _ _ => trivial

theorem Group.Request.comesBack : Model.ComesBack Group.Request
    (fun request => request.exchange.Integral)
    (fun request => request.exchange.Storable (Document.nestingLimit - 1)) := by
  refine Model.comesBack (fun request h => ⟨?_, Document.written_ofFields ?_⟩)
    fun document request h integral => ?_
  · have exchange : (Document.ofJson request.exchange).free? 126 = some request.exchange :=
      Document.free?_ofJson request.exchange h
    have reply : Document.optional? (Model.decode? 126)
        (some (Document.ofOption Model.encode request.reply)) = some request.reply :=
      Document.optional?_ofOption Reply.decode?_encode (fun _ => nofun) request.reply
    refine Document.bind_fields?_ofFields 126 rfl (by decide) ?_
    simp [exchange, reply, Document.optional?_ofText]
  · simp [Document.written_ofJson request.exchange h]
  · obtain ⟨fields, h⟩ := Document.exists_of_bind_fields? h
    split at h
    · rename_i same
      obtain ⟨-, rfl⟩ := Prod.mk.inj same
      obtain ⟨group, -, h⟩ := Option.bind_eq_some_iff.1 h
      obtain ⟨reply, -, h⟩ := Option.bind_eq_some_iff.1 h
      obtain ⟨exchange, read, h⟩ := Option.bind_eq_some_iff.1 h
      obtain rfl := Option.some.inj h
      exact Document.storable_of_free? _ read integral
    · cases h

theorem Identifier.comesBack :
    Model.ComesBack Identifier (fun _ => True) (fun _ => True) := by
  refine Model.comesBack (fun identifier _ => ⟨?_, Document.written_ofFields ?_⟩)
    fun _ _ _ _ => trivial
  · refine Document.bind_fields?_ofFields 126 rfl (by decide) ?_
    simp [Document.flag?, Document.texts?_map_ofText]
  · simp [Document.written_array]

namespace Operation

theorem Kind.comesBack : Model.ComesBack Kind (fun _ => True) (fun _ => True) :=
  Model.comesBack (fun kind _ => ⟨decode?_encode kind, written_encode kind⟩)
    fun _ _ _ _ => trivial

theorem comesBack : Model.ComesBack Operation (fun _ => True) (fun _ => True) := by
  refine Model.comesBack (fun operation _ => ⟨?_, Document.written_ofFields (by simp)⟩)
    fun _ _ _ _ => trivial
  refine Document.bind_fields?_ofFields 126 rfl (by decide) ?_
  simp

theorem Status.comesBack : Model.ComesBack Status (fun _ => True) (fun _ => True) := by
  refine Model.comesBack (fun status _ => ⟨?_, Document.written_ofFields (by simp)⟩)
    fun _ _ _ _ => trivial
  exact Document.bind_fields?_ofFields 126 rfl (by decide) rfl

theorem Completion.comesBack : Model.ComesBack Completion (fun _ => True) (fun _ => True) := by
  refine Model.comesBack (fun completion _ => ⟨?_, Document.written_ofFields (by simp)⟩)
    fun _ _ _ _ => trivial
  refine Document.bind_fields?_ofFields 126 rfl (by decide) ?_
  simp

end Operation

/-! ## All models -/

/-- Every model comes back from its text: cursors with a word of 64 bits, events and notices with an
instant that can be written, and free JSON of integers that nests within the budget. What is read
from any text is written to one that comes back unchanged, and no other member of an action is read
from one with the name of its route or its digest. -/
theorem models_come_back :
    Model.ComesBack Cursor (fun _ => True) (fun cursor => cursor.nextIndex < Nat.pow 2 64) ∧
    Model.ComesBack Route (fun _ => True) (fun _ => True) ∧
    Model.ComesBack Action Action.Integral (Action.Storable 127) ∧
    (∀ (text : String) (action : Action), Model.read? text = some action →
      ∀ member ∈ action.extra, member.1 ≠ "route" ∧ member.1 ≠ "digest") ∧
    Model.ComesBack Event
      (fun event => event.occurredAt.Storable ∧ event.action.Integral) (Event.Storable 127) ∧
    Model.ComesBack Notice
      (fun notice => notice.createdAt.Storable ∧ notice.action.Integral) (Notice.Storable 127) ∧
    Model.ComesBack Group.Reply (fun _ => True) (fun _ => True) ∧
    Model.ComesBack Group.Request (fun request => request.exchange.Integral)
      (fun request => request.exchange.Storable 126) ∧
    Model.ComesBack Identifier (fun _ => True) (fun _ => True) ∧
    Model.ComesBack Operation.Kind (fun _ => True) (fun _ => True) ∧
    Model.ComesBack Operation (fun _ => True) (fun _ => True) ∧
    Model.ComesBack Operation.Status (fun _ => True) (fun _ => True) ∧
    Model.ComesBack Operation.Completion (fun _ => True) (fun _ => True) := by
  have others (text : String) (action : Action) (h : Model.read? text = some action) :
      ∀ member ∈ action.extra, member.1 ≠ "route" ∧ member.1 ≠ "digest" := by
    obtain ⟨document, -, read⟩ := Option.bind_eq_some_iff.1 h
    exact fun member mem => ((Action.exists_of_decode? read).2.2 member mem).1
  exact ⟨Cursor.comesBack, Route.comesBack, Action.comesBack, others, Event.comesBack,
    Notice.comesBack, Group.Reply.comesBack, Group.Request.comesBack, Identifier.comesBack,
    Operation.Kind.comesBack, Operation.comesBack, Operation.Status.comesBack,
    Operation.Completion.comesBack⟩

end Feedkeeper
