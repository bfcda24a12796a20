import Feedkeeper.Cursor
import Feedkeeper.Event
import Feedkeeper.Group
import Feedkeeper.Json.Value
import Feedkeeper.Operation

/-!
# Stored forms

The JSON form of each kind of data that is exchanged or stored. `Model.read?` reads a text and
`Model.write` writes one. A record is written as an object with its fields in order, and read from
an object with these members, whatever others it has, or from an array of the fields. Optional
fields may be missing; an `Action` is always an object, and its other members are kept.
-/

namespace Feedkeeper

open Json (Document)

/-- Data with a JSON form, read within a budget of nested containers. -/
class Model (α : Type) where
  encode : α → Document
  decode? : Nat → Document → Option α

namespace Model

variable {α : Type} [Model α]

/-- The value that a text holds. -/
def read? (text : String) : Option α :=
  (Document.read? text).bind (decode? Document.nestingLimit)

/-- The text of a value. -/
def write (value : α) : String :=
  (encode value).render

end Model

namespace Instant

instance : Model Instant where
  encode instant := .ofText instant.text
  decode? _ document := document.text?.bind Instant.read?

end Instant

instance : Model Cursor where
  encode cursor :=
    .ofFields [("nextIndex", .ofWord cursor.nextIndex), ("lastEventId", .ofText cursor.lastEventId)]
  decode? depth document := do
    match ← document.fields? ["nextIndex", "lastEventId"] 2 depth with
    | ([some nextIndex, some lastEventId], _) => return ⟨← nextIndex.word?, ← lastEventId.text?⟩
    | _ => none

instance : Model Route where
  encode route := .ofText route.wire
  decode? depth document := document.choice? Route.parse? depth

instance : Model Action where
  encode action :=
    .object ((some "route", .ofText action.route) :: (some "digest", .ofText action.digest) ::
      Document.ofMembers action.extra)
  decode? depth document :=
    match depth, document with
    | depth + 1, .object members => do
      let members ← Document.keyed? members
      let route ← (← Document.field? members "route").bind Document.text?
      let digest ← (← Document.field? members "digest").bind Document.text?
      let others := members.filter fun member => member.1 != "route" && member.1 != "digest"
      let extra ← others.mapM fun member => (member.2.free? depth).map (member.1, ·)
      return ⟨route, digest, Json.sortMembers extra⟩
    | _, _ => none

instance : Model Event where
  encode event :=
    .ofFields [("id", .ofText event.id), ("occurred_at", Model.encode event.occurredAt),
      ("consumed", .bool event.consumed), ("action", Model.encode event.action)]
  decode? depth document := do
    match ← document.fields? ["id", "occurred_at", "consumed", "action"] 4 depth with
    | ([some id, some occurredAt, some consumed, some action], depth) =>
      return ⟨← id.text?, ← Model.decode? depth occurredAt, ← consumed.flag?,
        ← Model.decode? depth action⟩
    | _ => none

instance : Model Notice where
  encode notice :=
    .ofFields [("id", .ofText notice.id), ("created_at", Model.encode notice.createdAt),
      ("route", Model.encode notice.route), ("read", .bool notice.read),
      ("correlation_id", .ofOption .ofText notice.correlation),
      ("connection_id", .ofOption .ofText notice.connection),
      ("action", Model.encode notice.action)]
  decode? depth document := do
    match ← document.fields? ["id", "created_at", "route", "read", "correlation_id",
      "connection_id", "action"] 7 depth with
    | ([some id, some createdAt, some route, some read, correlation, connection, some action],
        depth) =>
      return ⟨← id.text?, ← Model.decode? depth createdAt, ← Model.decode? depth route,
        ← read.flag?, ← Document.optional? Document.text? correlation,
        ← Document.optional? Document.text? connection, ← Model.decode? depth action⟩
    | _ => none

namespace Group

instance : Model Reply where
  encode reply :=
    .ofFields [("route", .ofText reply.route), ("endpoint_id", .ofText reply.endpoint)]
  decode? depth document := do
    match ← document.fields? ["route", "endpoint_id"] 2 depth with
    | ([some route, some endpoint], _) => return ⟨← route.text?, ← endpoint.text?⟩
    | _ => none

instance : Model Request where
  encode request :=
    .ofFields [("group_id", .ofOption .ofText request.group),
      ("reply", .ofOption Model.encode request.reply), ("exchange", .ofJson request.exchange)]
  decode? depth document := do
    match ← document.fields? ["group_id", "reply", "exchange"] 3 depth with
    | ([group, reply, some exchange], depth) =>
      return ⟨← Document.optional? Document.text? group,
        ← Document.optional? (Model.decode? depth) reply, ← exchange.free? depth⟩
    | _ => none

end Group

instance : Model Identifier where
  encode identifier :=
    .ofFields [("id", .ofText identifier.id), ("name", .ofText identifier.name),
      ("pending", .bool identifier.pending),
      ("authorized_endpoint_ids", .array (identifier.authorized.map .ofText))]
  decode? depth document := do
    match ← document.fields? ["id", "name", "pending", "authorized_endpoint_ids"] 3 depth with
    | ([some id, some name, some pending, authorized], depth) =>
      let authorized ← match authorized with
        | some authorized => authorized.texts? depth
        | none => some []
      return ⟨← id.text?, ← name.text?, ← pending.flag?, authorized⟩
    | _ => none

namespace Operation

instance : Model Kind where
  encode kind := .ofText kind.wire
  decode? depth document := document.choice? Kind.parse? depth

instance : Model Operation where
  encode operation :=
    .ofFields [("operation_id", .ofText operation.id), ("kind", Model.encode operation.kind),
      ("local_entity_id", .ofText operation.entity)]
  decode? depth document := do
    match ← document.fields? ["operation_id", "kind", "local_entity_id"] 3 depth with
    | ([some id, some kind, some entity], depth) =>
      return ⟨← id.text?, ← Model.decode? depth kind, ← entity.text?⟩
    | _ => none

instance : Model Status where
  encode status := .ofFields [("name", .ofText status.name), ("done", .bool status.done)]
  decode? depth document := do
    match ← document.fields? ["name", "done"] 2 depth with
    | ([some name, some done], _) => return ⟨← name.text?, ← done.flag?⟩
    | _ => none

instance : Model Completion where
  encode completion :=
    .ofFields [("entity_id", .ofText completion.entity), ("kind", Model.encode completion.kind)]
  decode? depth document := do
    match ← document.fields? ["entity_id", "kind"] 2 depth with
    | ([some entity, some kind], depth) =>
      return ⟨← entity.text?, ← Model.decode? depth kind⟩
    | _ => none

end Operation

end Feedkeeper
