import Feedkeeper.Json.Document

/-!
# Values in documents

How values are held in documents. `free?` reads a document that is to be kept as free JSON, within
a budget of nested containers; an unpaired surrogate or a number beyond the range of doubles makes
it unreadable. `ofJson` writes free JSON. `fields?` reads a record: an object whose members are
found by name, or an array of the fields in order.
-/

namespace Feedkeeper.Json

namespace Document

/-- The most containers that may lie within each other in a value that is kept. -/
def nestingLimit : Nat := 127

/-! ## Free JSON -/

mutual

/-- The value of a document that nests at most `depth` containers. -/
def free? (depth : Nat) : Document → Option Json
  | .null => some .null
  | .bool value => some (.bool value)
  | .number numeral => numeral.toNumber?.map .number
  | .string text => text.map .string
  | .array items =>
    match depth with
    | 0 => none
    | depth + 1 => (freeItems? depth items).map .array
  | .object members =>
    match depth with
    | 0 => none
    | depth + 1 => (freeMembers? depth members).map .ofMembers

/-- The values of the items of an array. -/
def freeItems? (depth : Nat) : List Document → Option (List Json)
  | [] => some []
  | item :: rest =>
    match free? depth item, freeItems? depth rest with
    | some item, some rest => some (item :: rest)
    | _, _ => none

/-- The members of an object with their values, in the order of the text. -/
def freeMembers? (depth : Nat) : List (Option String × Document) → Option (List (String × Json))
  | [] => some []
  | member :: rest =>
    match member.1, free? depth member.2, freeMembers? depth rest with
    | some key, some value, some rest => some ((key, value) :: rest)
    | _, _, _ => none

end

mutual

/-- The document of a value. A double that is not finite has no numeral, and is written as null. -/
def ofJson : Json → Document
  | .null => .null
  | .bool value => .bool value
  | .number value => ((Numeral.ofNumber? value).map .number).getD .null
  | .string value => .string (some value)
  | .array items => .array (ofItems items)
  | .object members => .object (ofMembers members)

/-- The documents of the items of an array. -/
def ofItems : List Json → List Document
  | [] => []
  | item :: rest => ofJson item :: ofItems rest

/-- The members of an object with their documents. -/
def ofMembers : List (String × Json) → List (Option String × Document)
  | [] => []
  | member :: rest => (some member.1, ofJson member.2) :: ofMembers rest

end

/-! ## Plain values -/

/-- A string that is text. -/
def text? : Document → Option String
  | .string text => text
  | _ => none

/-- A truth value. -/
def flag? : Document → Option Bool
  | .bool value => some value
  | _ => none

/-- A word of 64 bits: a natural number written without fraction and exponent. -/
def word? : Document → Option Nat
  | .number numeral => numeral.toNat?.bind fun n => if n < Nat.pow 2 64 then some n else none
  | _ => none

/-- The document of a text. -/
def ofText (text : String) : Document :=
  .string (some text)

/-- The document of a word of 64 bits. -/
def ofWord (n : Nat) : Document :=
  .number (.ofNat n)

/-- The texts of an array, which is itself one container. -/
def texts? (depth : Nat) : Document → Option (List String)
  | .array items => if depth = 0 then none else items.mapM text?
  | _ => none

/-- One of the texts for which `parse?` has a value: written as a string, or as an object with
that one key and the value null. -/
def choice? {α : Type} (parse? : String → Option α) (depth : Nat) : Document → Option α
  | .string text => text.bind parse?
  | .object [(key, .null)] => if depth = 0 then none else key.bind parse?
  | _ => none

/-! ## Records -/

/-- The members of an object under their keys; `none` if a key is no text. -/
def keyed? (members : List (Option String × Document)) : Option (List (String × Document)) :=
  members.mapM fun member => member.1.map (·, member.2)

/-- The value of the member with the name: nothing if there is none, `none` if there are two. -/
def field? (members : List (String × Document)) (name : String) : Option (Option Document) :=
  match members.filter (·.1 == name) with
  | [] => some none
  | [member] => some (some member.2)
  | _ => none

/-- The fields of a record, in the order of `names`, and the budget that is left within it. An
object may have other members, but none of these twice; an array has the fields in order, and may
end early, but not before `least` of them. -/
def fields? (names : List String) (least depth : Nat) :
    Document → Option (List (Option Document) × Nat)
  | .array items =>
    if depth = 0 ∨ items.length < least ∨ names.length < items.length then none
    else some (items.map some ++ List.replicate (names.length - items.length) none, depth - 1)
  | .object members =>
    if depth = 0 then none
    else do
      let members ← keyed? members
      let fields ← names.mapM (field? members)
      return (fields, depth - 1)
  | _ => none

/-- A field that may be missing or null. -/
def optional? {α : Type} (decode? : Document → Option α) : Option Document → Option (Option α)
  | none | some .null => some none
  | some document => (decode? document).map some

/-- The document of a value that may be missing; one that is missing is null. -/
def ofOption {α : Type} (encode : α → Document) : Option α → Document
  | none => .null
  | some value => encode value

/-- The document of a record with the fields in order. -/
def ofFields (fields : List (String × Document)) : Document :=
  .object (fields.map fun field => (some field.1, field.2))

end Document

end Feedkeeper.Json
