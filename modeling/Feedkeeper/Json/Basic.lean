/-!
# JSON values

Free JSON as the library keeps it. An object's members are in ascending order of their keys, each
key once; `Json.ofMembers` brings members given in any order into that form, the last of repeated
keys winning. A number is an integer of 64 bits, signed or unsigned, or else the bits of a binary
floating-point number.
-/

namespace Feedkeeper

/-- A number: an integer, or the bits of a double. -/
inductive Json.Number where
  | int (value : Int)
  | double (bits : UInt64)
  deriving DecidableEq, Repr

/-- A JSON value. -/
inductive Json where
  | null
  | bool (value : Bool)
  | number (value : Json.Number)
  | string (value : String)
  | array (items : List Json)
  | object (members : List (String × Json))

namespace Json

/-- A member put in at its place; a member with the same key is replaced. -/
def insertMember (key : String) (value : Json) : List (String × Json) → List (String × Json)
  | [] => [(key, value)]
  | member :: rest =>
    if key = member.1 then (key, value) :: rest
    else if key < member.1 then (key, value) :: member :: rest
    else member :: insertMember key value rest

/-- The members in ascending order of their keys, the last of repeated keys winning. -/
def sortMembers (members : List (String × Json)) : List (String × Json) :=
  members.foldl (fun sorted member => insertMember member.1 member.2 sorted) []

/-- The object with the members, given in any order. -/
def ofMembers (members : List (String × Json)) : Json :=
  object (sortMembers members)

end Json

end Feedkeeper
