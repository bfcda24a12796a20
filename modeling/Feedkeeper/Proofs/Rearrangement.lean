import Feedkeeper.Proofs.Json.Layout
import Feedkeeper.Proofs.Json.Record
import Feedkeeper.Proofs.Model

/-!
# Models in other layouts

What is read of a text does not depend on how it is laid out. Two texts may differ in white space
and in how strings are spelled, in the order of members at any level, in members that a record does
not have, and in whether a record is an object or the array of its fields. If no object in them has
two members under one key, both are rejected, or both hold the same value (`models_ignore_layout`).
An action is the exception : it keeps the other members and is always an object, so that only their
order is free, and it is written with them in ascending order, like all free JSON.

Members that a record does not have are passed over under any key that is a text. A key with a
surrogate that stands alone makes the text unreadable (`unpaired_key_refused`).
-/

namespace Feedkeeper

open Json (Document)
open Json.Document (Field Rearranged Reordered)

/-! ## Actions -/

namespace Action

variable {depth : Nat} {members others : List Document.Member} {document other : Document}

/-- The member is neither the route nor the digest of an action. -/
def isOther (member : Document.Member) : Bool :=
  member.1 != some "route" && member.1 != some "digest"

/-- An action is read from its members by name, and from all others in their order. -/
theorem decode?_object (named : Document.Named members)
    (distinct : (members.filterMap (·.1)).Nodup) :
    (Model.decode? (depth + 1) (.object members) : Option Action) =
      ((Document.member? members "route").bind Document.text?).bind fun route =>
        ((Document.member? members "digest").bind Document.text?).bind fun digest =>
          ((Document.freeMembers? depth (members.filter isOther)).map Json.sortMembers).map
            fun extra => ⟨route, digest, extra⟩ := by
  obtain ⟨keyed, rfl⟩ := Document.exists_of_named named
  rw [Document.filterMap_keyed] at distinct
  have others : (keyed.filter fun member => member.1 != "route" && member.1 != "digest").mapM
        (fun member => (member.2.free? depth).map (member.1, ·)) =
      Document.freeMembers? depth
        ((keyed.map fun member => (some member.1, member.2)).filter isOther) := by
    rw [Document.freeMembers?_eq_mapM, List.filter_map, List.mapM_map]
    rfl
  change (Document.keyed? _).bind _ = _
  rw [Document.keyed?_map, Option.bind_some]
  simp only [Document.field?_eq_member? distinct, Option.bind_eq_bind, Option.bind_some, others]
  refine Option.bind_congr fun route _ => Option.bind_congr fun digest _ => ?_
  cases Document.freeMembers? depth _ <;> rfl

theorem bind_text?_eq {value value' : Option Document}
    (same : Option.Rel Reordered value value') :
    value.bind Document.text? = value'.bind Document.text? := by
  cases same with
  | none => rfl
  | some same => exact same.text?_eq

/-- An action does not depend on the order of members. -/
theorem decode?_reordered (depth : Nat) (same : document.Reordered other)
    (distinct : document.Distinct) (distinct' : other.Distinct) :
    (Model.decode? depth document : Option Action) = Model.decode? depth other := by
  cases depth with
  | zero => rfl
  | succ depth =>
    cases same with
    | null | bool | number | string | array => rfl
    | @object members middle others each order =>
      replace each := Document.reorderedMembers_iff.1 each
      by_cases named : Document.Named members
      · have named' := (Document.named_of_reordered each order).1 named
        obtain ⟨keys, values⟩ := Document.eachObject_object.1 distinct
        obtain ⟨keys', values'⟩ := Document.eachObject_object.1 distinct'
        have unique := (order.filterMap (·.1)).nodup_iff.2 keys'
        have texts (name : String) : (Document.member? members name).bind Document.text? =
            (Document.member? others name).bind Document.text? :=
          bind_text?_eq
            (Document.member?_perm order unique ▸ Document.member?_forall₂ each name)
        have extra : (Document.freeMembers? depth (members.filter isOther)).map Json.sortMembers =
            (Document.freeMembers? depth (others.filter isOther)).map Json.sortMembers := by
          have alike : List.Forall₂ Document.ReorderedMember (members.filter isOther)
              (middle.filter isOther) :=
            List.rel_filter (fun _ _ same => by simp [isOther, same.1]) each
          rw [Document.freeMembers?_reordered _ alike
              (fun member mem => values member (List.mem_of_mem_filter mem))
              fun member mem => values' member (order.subset (List.mem_of_mem_filter mem)),
            Document.sortMembers_freeMembers?_perm (order.filter _)
              (unique.sublist (List.filter_sublist.filterMap _))]
        rw [decode?_object named keys, decode?_object named' keys', texts, texts, extra]
      · have unnamed' := named ∘ (Document.named_of_reordered each order).2
        change (Document.keyed? members).bind _ = (Document.keyed? others).bind _
        rw [Document.keyed?_eq_none named, Document.keyed?_eq_none unnamed']

end Action

/-! ## Plain values -/

section

variable {document other : Document} (depth : Nat)

theorem Instant.decode?_reordered (same : document.Reordered other) :
    (Model.decode? depth document : Option Instant) = Model.decode? depth other := by
  change document.text?.bind read? = other.text?.bind read?
  rw [same.text?_eq]

theorem Route.decode?_reordered (same : document.Reordered other) :
    (Model.decode? depth document : Option Route) = Model.decode? depth other :=
  same.choice?_eq parse? depth

theorem Operation.Kind.decode?_reordered (same : document.Reordered other) :
    (Model.decode? depth document : Option Operation.Kind) = Model.decode? depth other :=
  same.choice?_eq parse? depth

end

/-! ## Records -/

variable {depth : Nat} {document other : Document}

namespace Cursor

/-- The fields of a cursor, in their order. -/
def fields : List Field :=
  [.required "nextIndex", .required "lastEventId"]

theorem decode?_rearranged (h : Rearranged fields document other) (distinct : document.Distinct)
    (distinct' : other.Distinct) :
    (Model.decode? depth document : Option Cursor) = Model.decode? depth other := by
  refine Document.bind_fields?_rearranged rfl h (Nat.le_refl 2) distinct distinct'
    fun values values' each => ?_
  obtain _ | ⟨index, _ | ⟨last, _ | _⟩⟩ := each
  obtain ⟨rfl, rfl⟩ | ⟨_, _, rfl, rfl, index, -⟩ := index.required
  · rfl
  obtain ⟨rfl, rfl⟩ | ⟨_, _, rfl, rfl, last, -⟩ := last.required
  · rfl
  simp only [index.word?_eq, last.text?_eq]

end Cursor

namespace Event

/-- The fields of an event. -/
def fields : List Field :=
  [.required "id", .required "occurred_at", .required "consumed", .required "action"]

theorem decode?_rearranged (h : Rearranged fields document other) (distinct : document.Distinct)
    (distinct' : other.Distinct) :
    (Model.decode? depth document : Option Event) = Model.decode? depth other := by
  refine Document.bind_fields?_rearranged rfl h (Nat.le_refl 4) distinct distinct'
    fun values values' each => ?_
  obtain _ | ⟨id, _ | ⟨occurredAt, _ | ⟨consumed, _ | ⟨action, _ | _⟩⟩⟩⟩ := each
  obtain ⟨rfl, rfl⟩ | ⟨_, _, rfl, rfl, id, -⟩ := id.required
  · rfl
  obtain ⟨rfl, rfl⟩ | ⟨_, _, rfl, rfl, occurredAt, -⟩ := occurredAt.required
  · rfl
  obtain ⟨rfl, rfl⟩ | ⟨_, _, rfl, rfl, consumed, -⟩ := consumed.required
  · rfl
  obtain ⟨rfl, rfl⟩ | ⟨_, _, rfl, rfl, action, keys, keys'⟩ := action.required
  · rfl
  have instant := Instant.decode?_reordered (depth - 1) occurredAt
  have action := Action.decode?_reordered (depth - 1) action keys keys'
  simp only [id.text?_eq, instant, consumed.flag?_eq, action]

end Event

namespace Notice

/-- The fields of a notice. -/
def fields : List Field :=
  [.required "id", .required "created_at", .required "route", .required "read",
    .optional "correlation_id", .optional "connection_id", .required "action"]

theorem decode?_rearranged (h : Rearranged fields document other) (distinct : document.Distinct)
    (distinct' : other.Distinct) :
    (Model.decode? depth document : Option Notice) = Model.decode? depth other := by
  refine Document.bind_fields?_rearranged rfl h (Nat.le_refl 7) distinct distinct'
    fun values values' each => ?_
  obtain _ | ⟨id, _ | ⟨createdAt, _ | ⟨route, _ | ⟨read, _ | ⟨correlation, _ | ⟨connection,
    _ | ⟨action, _ | _⟩⟩⟩⟩⟩⟩⟩ := each
  obtain ⟨rfl, rfl⟩ | ⟨_, _, rfl, rfl, id, -⟩ := id.required
  · rfl
  obtain ⟨rfl, rfl⟩ | ⟨_, _, rfl, rfl, createdAt, -⟩ := createdAt.required
  · rfl
  obtain ⟨rfl, rfl⟩ | ⟨_, _, rfl, rfl, route, -⟩ := route.required
  · rfl
  obtain ⟨rfl, rfl⟩ | ⟨_, _, rfl, rfl, read, -⟩ := read.required
  · rfl
  obtain ⟨rfl, rfl⟩ | ⟨_, _, rfl, rfl, action, keys, keys'⟩ := action.required
  · rfl
  have instant := Instant.decode?_reordered (depth - 1) createdAt
  have route := Route.decode?_reordered (depth - 1) route
  have action := Action.decode?_reordered (depth - 1) action keys keys'
  simp only [id.text?_eq, instant, route, read.flag?_eq, correlation.optional?_text?_eq,
    connection.optional?_text?_eq, action]

end Notice

namespace Group

/-- The fields of a reply. -/
def Reply.fields : List Field :=
  [.required "route", .required "endpoint_id"]

theorem Reply.decode?_rearranged (h : Rearranged fields document other)
    (distinct : document.Distinct) (distinct' : other.Distinct) :
    (Model.decode? depth document : Option Reply) = Model.decode? depth other := by
  refine Document.bind_fields?_rearranged rfl h (Nat.le_refl 2) distinct distinct'
    fun values values' each => ?_
  obtain _ | ⟨route, _ | ⟨endpoint, _ | _⟩⟩ := each
  obtain ⟨rfl, rfl⟩ | ⟨_, _, rfl, rfl, route, -⟩ := route.required
  · rfl
  obtain ⟨rfl, rfl⟩ | ⟨_, _, rfl, rfl, endpoint, -⟩ := endpoint.required
  · rfl
  simp only [route.text?_eq, endpoint.text?_eq]

/-- The reply in a request is a record itself. -/
def Request.fields : List Field :=
  [.optional "group_id", { Field.optional "reply" with varies := Rearranged Reply.fields },
    .required "exchange"]

theorem Request.decode?_rearranged (h : Rearranged fields document other)
    (distinct : document.Distinct) (distinct' : other.Distinct) :
    (Model.decode? depth document : Option Request) = Model.decode? depth other := by
  refine Document.bind_fields?_rearranged rfl h (Nat.le_refl 3) distinct distinct'
    fun values values' each => ?_
  obtain _ | ⟨group, _ | ⟨reply, _ | ⟨exchange, _ | _⟩⟩⟩ := each
  obtain ⟨rfl, rfl⟩ | ⟨_, _, rfl, rfl, exchange, keys, keys'⟩ := exchange.required
  · rfl
  have reply := reply.optional?_eq (Model.decode? (α := Reply) (depth - 1))
    (fun _ left => left) (fun _ _ => Rearranged.eq_null_iff) fun _ _ same =>
      Reply.decode?_rearranged (same.elim .reordered id)
  simp only [group.optional?_text?_eq, reply, Document.free?_reordered _ exchange keys keys']

end Group

namespace Identifier

/-- The endpoints may be left out if there are none. -/
def fields : List Field :=
  [.required "id", .required "name", .required "pending",
    { name := "authorized_endpoint_ids", absent := (· = .array []) }]

theorem decode?_rearranged (h : Rearranged fields document other) (distinct : document.Distinct)
    (distinct' : other.Distinct) :
    (Model.decode? (depth + 2) document : Option Identifier) = Model.decode? (depth + 2) other := by
  refine Document.bind_fields?_rearranged rfl h (by decide) distinct distinct'
    fun values values' each => ?_
  obtain _ | ⟨id, _ | ⟨name, _ | ⟨pending, _ | ⟨authorized, _ | _⟩⟩⟩⟩ := each
  obtain ⟨rfl, rfl⟩ | ⟨_, _, rfl, rfl, id, -⟩ := id.required
  · rfl
  obtain ⟨rfl, rfl⟩ | ⟨_, _, rfl, rfl, name, -⟩ := name.required
  · rfl
  obtain ⟨rfl, rfl⟩ | ⟨_, _, rfl, rfl, pending, -⟩ := pending.required
  · rfl
  obtain ⟨agrees, -⟩ := authorized
  cases agrees with
  | missing => simp only [id.text?_eq, name.text?_eq, pending.flag?_eq]
  | reordered same =>
    simp only [id.text?_eq, name.text?_eq, pending.flag?_eq, same.texts?_eq]
  | varied same => exact False.elim same
  | supplied left | omitted left =>
    obtain rfl := left
    simp only [id.text?_eq, name.text?_eq, pending.flag?_eq]
    rfl

end Identifier

namespace Operation

/-- The fields of an operation. -/
def fields : List Field :=
  [.required "operation_id", .required "kind", .required "local_entity_id"]

theorem decode?_rearranged (h : Rearranged fields document other) (distinct : document.Distinct)
    (distinct' : other.Distinct) :
    (Model.decode? depth document : Option Operation) = Model.decode? depth other := by
  refine Document.bind_fields?_rearranged rfl h (Nat.le_refl 3) distinct distinct'
    fun values values' each => ?_
  obtain _ | ⟨id, _ | ⟨kind, _ | ⟨entity, _ | _⟩⟩⟩ := each
  obtain ⟨rfl, rfl⟩ | ⟨_, _, rfl, rfl, id, -⟩ := id.required
  · rfl
  obtain ⟨rfl, rfl⟩ | ⟨_, _, rfl, rfl, kind, -⟩ := kind.required
  · rfl
  obtain ⟨rfl, rfl⟩ | ⟨_, _, rfl, rfl, entity, -⟩ := entity.required
  · rfl
  have kind := Kind.decode?_reordered (depth - 1) kind
  simp only [id.text?_eq, kind, entity.text?_eq]

/-- The fields of a status. -/
def Status.fields : List Field :=
  [.required "name", .required "done"]

theorem Status.decode?_rearranged (h : Rearranged fields document other)
    (distinct : document.Distinct) (distinct' : other.Distinct) :
    (Model.decode? depth document : Option Status) = Model.decode? depth other := by
  refine Document.bind_fields?_rearranged rfl h (Nat.le_refl 2) distinct distinct'
    fun values values' each => ?_
  obtain _ | ⟨name, _ | ⟨done, _ | _⟩⟩ := each
  obtain ⟨rfl, rfl⟩ | ⟨_, _, rfl, rfl, name, -⟩ := name.required
  · rfl
  obtain ⟨rfl, rfl⟩ | ⟨_, _, rfl, rfl, done, -⟩ := done.required
  · rfl
  simp only [name.text?_eq, done.flag?_eq]

/-- The fields of a completion. -/
def Completion.fields : List Field :=
  [.required "entity_id", .required "kind"]

theorem Completion.decode?_rearranged (h : Rearranged fields document other)
    (distinct : document.Distinct) (distinct' : other.Distinct) :
    (Model.decode? depth document : Option Completion) = Model.decode? depth other := by
  refine Document.bind_fields?_rearranged rfl h (Nat.le_refl 2) distinct distinct'
    fun values values' each => ?_
  obtain _ | ⟨entity, _ | ⟨kind, _ | _⟩⟩ := each
  obtain ⟨rfl, rfl⟩ | ⟨_, _, rfl, rfl, entity, -⟩ := entity.required
  · rfl
  obtain ⟨rfl, rfl⟩ | ⟨_, _, rfl, rfl, kind, -⟩ := kind.required
  · rfl
  have kind := Kind.decode?_reordered (depth - 1) kind
  simp only [entity.text?_eq, kind]

end Operation

/-! ## What is written -/

/-- The other members of an action are written in ascending order, and so are those of all objects
in them. -/
def Action.Ordered (action : Action) : Prop :=
  (Document.object (Document.ofMembers action.extra)).Ordered

theorem Action.ordered_of_decode? {action : Action}
    (h : Model.decode? depth document = some action) : action.Ordered := by
  obtain ⟨-, ascending, members⟩ := Action.exists_of_decode? h
  refine Document.ordered_object ascending fun member mem => ?_
  obtain ⟨-, source, read⟩ := members member mem
  exact Document.ordered_of_free? source read

theorem Event.ordered_of_decode? {event : Event} (h : Model.decode? depth document = some event) :
    event.action.Ordered := by
  obtain ⟨fields, h⟩ := Document.exists_of_bind_fields? h
  split at h
  · obtain ⟨id, -, h⟩ := Option.bind_eq_some_iff.1 h
    obtain ⟨occurredAt, -, h⟩ := Option.bind_eq_some_iff.1 h
    obtain ⟨consumed, -, h⟩ := Option.bind_eq_some_iff.1 h
    obtain ⟨action, decoded, h⟩ := Option.bind_eq_some_iff.1 h
    obtain rfl := Option.some.inj h
    exact Action.ordered_of_decode? decoded
  · cases h

theorem Notice.ordered_of_decode? {notice : Notice}
    (h : Model.decode? depth document = some notice) : notice.action.Ordered := by
  obtain ⟨fields, h⟩ := Document.exists_of_bind_fields? h
  split at h
  · obtain ⟨id, -, h⟩ := Option.bind_eq_some_iff.1 h
    obtain ⟨createdAt, -, h⟩ := Option.bind_eq_some_iff.1 h
    obtain ⟨route, -, h⟩ := Option.bind_eq_some_iff.1 h
    obtain ⟨read, -, h⟩ := Option.bind_eq_some_iff.1 h
    obtain ⟨correlation, -, h⟩ := Option.bind_eq_some_iff.1 h
    obtain ⟨connection, -, h⟩ := Option.bind_eq_some_iff.1 h
    obtain ⟨action, decoded, h⟩ := Option.bind_eq_some_iff.1 h
    obtain rfl := Option.some.inj h
    exact Action.ordered_of_decode? decoded
  · cases h

theorem Group.Request.ordered_of_decode? {request : Group.Request}
    (h : Model.decode? depth document = some request) :
    (Document.ofJson request.exchange).Ordered := by
  obtain ⟨fields, h⟩ := Document.exists_of_bind_fields? h
  split at h
  · obtain ⟨group, -, h⟩ := Option.bind_eq_some_iff.1 h
    obtain ⟨reply, -, h⟩ := Option.bind_eq_some_iff.1 h
    obtain ⟨exchange, read, h⟩ := Option.bind_eq_some_iff.1 h
    obtain rfl := Option.some.inj h
    exact Document.ordered_of_free? _ read
  · cases h

/-! ## All records -/

/-- Two texts without repeated keys that lay the model out in different ways are both rejected, or
hold the same value, which is then written in one way, in order. -/
def Model.IgnoresLayout (α : Type) [Model α] (rearranged : Document → Document → Prop)
    (ordered : α → Prop) : Prop :=
  ∀ (first second : String) (document other : Document), document.SpelledAs first →
    other.SpelledAs second → document.Distinct → other.Distinct → rearranged document other →
    ((Model.read? first : Option α) = none ∧ (Model.read? second : Option α) = none) ∨
      ∃ value : α, Model.read? first = some value ∧ Model.read? second = some value ∧ ordered value

/-- For a model to ignore layout it is enough that its documents are read alike. -/
theorem Model.ignoresLayout {α : Type} [Model α] {rearranged : Document → Document → Prop}
    {ordered : α → Prop}
    (alike : ∀ document other, rearranged document other → document.Distinct → other.Distinct →
      (Model.decode? Document.nestingLimit document : Option α) =
        Model.decode? Document.nestingLimit other)
    (kept : ∀ (document : Document) (value : α),
      Model.decode? Document.nestingLimit document = some value → ordered value) :
    Model.IgnoresLayout α rearranged ordered := by
  intro first second document other spelled spelled' distinct distinct' h
  have read : (Model.read? first : Option α) = Model.decode? Document.nestingLimit document := by
    rw [Model.read?, Document.read?_eq_some_iff.2 spelled, Option.bind_some]
  have read' : (Model.read? second : Option α) = Model.decode? Document.nestingLimit document := by
    rw [Model.read?, Document.read?_eq_some_iff.2 spelled', Option.bind_some,
      alike document other h distinct distinct']
  cases value : (Model.decode? Document.nestingLimit document : Option α) with
  | none => exact Or.inl ⟨read.trans value, read'.trans value⟩
  | some value' =>
    exact Or.inr ⟨value', read.trans value, read'.trans value, kept document value' value⟩

/-- No record depends on how its text is laid out. -/
theorem models_ignore_layout :
    Model.IgnoresLayout Cursor (Rearranged Cursor.fields) (fun _ => True) ∧
    Model.IgnoresLayout Action Reordered Action.Ordered ∧
    Model.IgnoresLayout Event (Rearranged Event.fields) (fun event => event.action.Ordered) ∧
    Model.IgnoresLayout Notice (Rearranged Notice.fields) (fun notice => notice.action.Ordered) ∧
    Model.IgnoresLayout Group.Reply (Rearranged Group.Reply.fields) (fun _ => True) ∧
    Model.IgnoresLayout Group.Request (Rearranged Group.Request.fields)
      (fun request => (Document.ofJson request.exchange).Ordered) ∧
    Model.IgnoresLayout Identifier (Rearranged Identifier.fields) (fun _ => True) ∧
    Model.IgnoresLayout Operation (Rearranged Operation.fields) (fun _ => True) ∧
    Model.IgnoresLayout Operation.Status (Rearranged Operation.Status.fields) (fun _ => True) ∧
    Model.IgnoresLayout Operation.Completion (Rearranged Operation.Completion.fields)
      (fun _ => True) :=
  ⟨Model.ignoresLayout (fun _ _ => Cursor.decode?_rearranged) fun _ _ _ => trivial,
    Model.ignoresLayout (fun _ _ => Action.decode?_reordered _)
      fun _ _ => Action.ordered_of_decode?,
    Model.ignoresLayout (fun _ _ => Event.decode?_rearranged) fun _ _ => Event.ordered_of_decode?,
    Model.ignoresLayout (fun _ _ => Notice.decode?_rearranged)
      fun _ _ => Notice.ordered_of_decode?,
    Model.ignoresLayout (fun _ _ => Group.Reply.decode?_rearranged) fun _ _ _ => trivial,
    Model.ignoresLayout (fun _ _ => Group.Request.decode?_rearranged)
      fun _ _ => Group.Request.ordered_of_decode?,
    Model.ignoresLayout (fun _ _ => Identifier.decode?_rearranged) fun _ _ _ => trivial,
    Model.ignoresLayout (fun _ _ => Operation.decode?_rearranged) fun _ _ _ => trivial,
    Model.ignoresLayout (fun _ _ => Operation.Status.decode?_rearranged) fun _ _ _ => trivial,
    Model.ignoresLayout (fun _ _ => Operation.Completion.decode?_rearranged)
      fun _ _ _ => trivial⟩

/-- An object with a member that a completion does not have, and the array of the fields. -/
theorem models_ignore_layout_completion : ∃ value : Operation.Completion,
    Model.read? "\x7b\"kind\":\"group_formation\",\"extra\":[],\"entity_id\":\"E\"\x7d" =
      some value ∧
    Model.read? " [ \"\\u0045\" , \"group_formation\" ]" = some value := by
  have ignored := models_ignore_layout.2.2.2.2.2.2.2.2.2
  let document := Document.object [(some "kind", .string (some "group_formation")),
    (some "extra", .array []), (some "entity_id", .string (some "E"))]
  let other := Document.array [.string (some "E"), .string (some "group_formation")]
  have spelled : document.SpelledAs
      "\x7b\"kind\":\"group_formation\",\"extra\":[],\"entity_id\":\"E\"\x7d" :=
    Document.read?_eq_some_iff.1 rfl
  have spelled' : other.SpelledAs " [ \"\\u0045\" , \"group_formation\" ]" :=
    Document.read?_eq_some_iff.1 rfl
  have rearranged : Rearranged Operation.Completion.fields document other :=
    .presented (.object (by simp [Document.Named])) .array
      (.cons (.reordered (.refl _)) (.cons (.reordered (.refl _)) .nil))
  have distinct : document.Distinct := Document.eachObject_object.2
    ⟨by decide, by simp [Document.EachObject, Document.EachObjectItems]⟩
  have distinct' : other.Distinct := Document.eachObject_array.2 (by simp [Document.EachObject])
  obtain ⟨refused, -⟩ | ⟨value, read, read', -⟩ :=
    ignored _ _ document other spelled spelled' distinct distinct' rearranged
  · cases refused
  · exact ⟨value, read, read'⟩

/-- A member that a record does not have is not passed over if its key is no text, because a
surrogate in it stands alone. -/
theorem unpaired_key_refused :
    ¬∀ (first second : String) (members : List Document.Member) (key : Option String)
      (value : Document), (Document.object members).SpelledAs first →
      (Document.object (members ++ [(key, value)])).SpelledAs second →
      (Document.object members).Distinct → (Document.object (members ++ [(key, value)])).Distinct →
      (∀ field ∈ Operation.Status.fields, key ≠ some field.name) →
      (Model.read? first : Option Operation.Status) = Model.read? second := by
  intro passedOver
  let members : List Document.Member :=
    [(some "name", .string (some "n")), (some "done", .bool true)]
  have spelled : (Document.object members).SpelledAs
      "\x7b\"name\":\"n\",\"done\":true\x7d" := Document.read?_eq_some_iff.1 rfl
  have spelled' : (Document.object (members ++ [(none, .null)])).SpelledAs
      "\x7b\"name\":\"n\",\"done\":true,\"\\ud800\":null\x7d" :=
    Document.read?_eq_some_iff.1 rfl
  have same := passedOver _ _ members none .null spelled spelled'
    (Document.eachObject_object.2 ⟨by decide, by simp [members, Document.EachObject]⟩)
    (Document.eachObject_object.2 ⟨by decide, by simp [members, Document.EachObject]⟩)
    (by simp)
  have read : Model.read? "\x7b\"name\":\"n\",\"done\":true\x7d" =
      some (⟨"n", true⟩ : Operation.Status) := rfl
  have refused : (Model.read? "\x7b\"name\":\"n\",\"done\":true,\"\\ud800\":null\x7d" :
      Option Operation.Status) = none := rfl
  rw [read, refused] at same
  cases same

end Feedkeeper
