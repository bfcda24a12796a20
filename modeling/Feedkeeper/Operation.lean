/-!
# Operations

Remote actions that this device waits on: the formation of a group, or the assignment of
witnesses to an identifier. An operation is known by its id, which `Operation.ofEntity` makes from
the kind and the entity that it is about.
-/

namespace Feedkeeper

/-- What an operation does. -/
inductive Operation.Kind where
  | groupFormation
  | witnessAssignment
  deriving DecidableEq, Repr

namespace Operation.Kind

/-- The text of the kind in stored data. -/
def wire : Operation.Kind → String
  | groupFormation => "group_formation"
  | witnessAssignment => "witness_assignment"

/-- The word that operation ids of the kind begin with. -/
def label : Operation.Kind → String
  | groupFormation => "group"
  | witnessAssignment => "witness"

/-- The kind with the wire text, if there is one. -/
def parse? (text : String) : Option Operation.Kind :=
  if text = wire groupFormation then some groupFormation
  else if text = wire witnessAssignment then some witnessAssignment
  else none

/-- The wire text of a kind is read as the kind. -/
@[simp] theorem parse?_wire (kind : Operation.Kind) : parse? kind.wire = some kind := by
  cases kind <;> decide

end Operation.Kind

/-- A remote action that this device waits on. -/
structure Operation where
  id : String
  kind : Operation.Kind
  /-- The identifier that the operation is about. -/
  entity : String
  deriving DecidableEq, Repr

namespace Operation

/-- The operation of the kind on the entity, under the id that the two make. -/
def ofEntity (kind : Kind) (entity : String) : Operation :=
  ⟨kind.label ++ "." ++ entity, kind, entity⟩

/-- The state of an operation as the agent reports it. -/
structure Status where
  name : String
  done : Bool
  deriving DecidableEq, Repr

/-- What is announced when an operation is done. -/
structure Completion where
  entity : String
  kind : Kind
  deriving DecidableEq, Repr

/-- What is announced of the operation when it is done. -/
def completion (operation : Operation) : Completion :=
  ⟨operation.entity, operation.kind⟩

end Operation

end Feedkeeper
