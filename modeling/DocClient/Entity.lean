/-
# Entity types

An entity is a value of the domain that is stored as one document. It has a name and, once it was written, the revision
that the server gave it; a write never changes an entity but gives a new one with the new revision. An `EntityType`
says how to find the two, and how the entity is read from and written to JSON.
-/

import DocClient.Failure

namespace DocClient

/-- Where an entity stands: never written, or written at least once. -/
inductive Lifecycle where
  | new
  | persisted
deriving DecidableEq, Repr

/-- A type of entities: its name, and what a client has to know about its values. -/
structure EntityType (α : Type) where
  name : String
  id : α → DocId
  revision : α → Option Revision
  /-- The entity at another revision. -/
  withRevision : α → Revision → α
  reader : Reader α
  toJson : α → Json

namespace EntityType

variable {α : Type}

/-- Where an entity stands. -/
def lifecycle (T : EntityType α) (e : α) : Lifecycle :=
  if (T.revision e).isSome then .persisted else .new

end EntityType

/-- A document to be deleted: its name and the revision that it is deleted at. -/
structure Deletion where
  id : DocId
  revision : Revision
deriving DecidableEq, Repr

namespace Deletion

/-- The deletion of an entity, which must have been written. -/
def of {α : Type} (T : EntityType α) (e : α) : Outcome Deletion :=
  match T.revision e with
  | some revision => .ok ⟨T.id e, revision⟩
  | none => .error (.misuse (.deleteOfUnsaved (T.id e)))

/-- The document that is stored in place of a deleted one. -/
def toObject (d : Deletion) : Object :=
  Table.ofList [("_id", .str d.id.text), ("_rev", .str d.revision.text), ("_deleted", .bool true)]

end Deletion
end DocClient
