/-
# Four entity types

The entity types that sessions are made of. A field with a question mark may be missing or null.

| kind | name | fields |
| --- | --- | --- |
| test | `TestEntity` | `id`, `revision?`, `label`, `count` = 0 |
| other | `OtherEntity` | `id`, `revision?`, `title` |
| note | `Note` | `id`, `revision?`, `body?`, `tags` = [], `meta` = null |
| custom | `HTTPServer2Item` | `id`, `revision?`, `port?` |

A missing revision is written as null, but by the last type, which leaves it out.
-/

import DocClient.Entity

namespace DocClient

/-- An entity with a label and a count. -/
structure TestEntity where
  id : DocId
  revision : Option Revision := none
  label : String
  count : Int := 0
deriving DecidableEq, Repr

/-- An entity with a title. -/
structure OtherEntity where
  id : DocId
  revision : Option Revision := none
  title : String
deriving DecidableEq, Repr

/-- An entity with free-form members. -/
structure Note where
  id : DocId
  revision : Option Revision := none
  body : Option String := none
  tags : List String := []
  info : Json := .null
deriving DecidableEq, Repr

/-- An entity with a type name that is no word. -/
structure ServerItem where
  id : DocId
  revision : Option Revision := none
  port : Option Nat := none
deriving DecidableEq, Repr

namespace TestEntity

/-- Reads an entity. -/
def reader : Reader TestEntity :=
  Reader.record "struct TestEntity" <|
    TestEntity.mk
      <$> Fields.field "id" DocId.reader
      <*> Fields.optional "revision" Revision.reader
      <*> Fields.field "label" Reader.text
      <*> Fields.defaulted "count" Reader.int64 0

/-- The entity as a value. -/
def toJson (e : TestEntity) : Json :=
  Json.ofMembers
    [("id", .str e.id.text), ("revision", Json.ofRevision? e.revision), ("label", .str e.label),
      ("count", Json.ofInt e.count)]

/-- The type of these entities. -/
def type : EntityType TestEntity where
  name := "TestEntity"
  id := TestEntity.id
  revision := TestEntity.revision
  withRevision e r := { e with revision := some r }
  reader
  toJson

end TestEntity

namespace OtherEntity

/-- Reads an entity. -/
def reader : Reader OtherEntity :=
  Reader.record "struct OtherEntity" <|
    OtherEntity.mk
      <$> Fields.field "id" DocId.reader
      <*> Fields.optional "revision" Revision.reader
      <*> Fields.field "title" Reader.text

/-- The entity as a value. -/
def toJson (e : OtherEntity) : Json :=
  Json.ofMembers
    [("id", .str e.id.text), ("revision", Json.ofRevision? e.revision), ("title", .str e.title)]

/-- The type of these entities. -/
def type : EntityType OtherEntity where
  name := "OtherEntity"
  id := OtherEntity.id
  revision := OtherEntity.revision
  withRevision e r := { e with revision := some r }
  reader
  toJson

end OtherEntity

namespace Note

/-- Reads an entity. -/
def reader : Reader Note :=
  Reader.record "struct Note" <|
    Note.mk
      <$> Fields.field "id" DocId.reader
      <*> Fields.optional "revision" Revision.reader
      <*> Fields.optional "body" Reader.text
      <*> Fields.defaulted "tags" (Reader.list Reader.text) []
      <*> Fields.defaulted "meta" Reader.json .null

/-- The entity as a value. -/
def toJson (e : Note) : Json :=
  Json.ofMembers
    [("id", .str e.id.text), ("revision", Json.ofRevision? e.revision), ("body", Json.ofText? e.body),
      ("tags", Json.ofStrings e.tags), ("meta", e.info)]

/-- The type of these entities. -/
def type : EntityType Note where
  name := "Note"
  id := Note.id
  revision := Note.revision
  withRevision e r := { e with revision := some r }
  reader
  toJson

end Note

namespace ServerItem

/-- Reads an entity. -/
def reader : Reader ServerItem :=
  Reader.record "struct Custom" <|
    ServerItem.mk
      <$> Fields.field "id" DocId.reader
      <*> Fields.nullable "revision" Revision.reader
      <*> Fields.nullable "port" Reader.nat16

/-- The entity as a value. -/
def toJson (e : ServerItem) : Json :=
  Json.ofOptions
    [("id", some (.str e.id.text)), ("revision", e.revision.map fun r => .str r.text),
      ("port", some (e.port.elim .null Json.ofNat))]

/-- The type of these entities. -/
def type : EntityType ServerItem where
  name := "HTTPServer2Item"
  id := ServerItem.id
  revision := ServerItem.revision
  withRevision e r := { e with revision := some r }
  reader
  toJson

end ServerItem

/-- One of the four entity types. -/
inductive EntityKind where
  | test
  | other
  | note
  | custom
deriving DecidableEq, Repr

/-- An entity of one of the four types. -/
inductive StockEntity where
  | test (e : TestEntity)
  | other (e : OtherEntity)
  | note (e : Note)
  | custom (e : ServerItem)
deriving DecidableEq, Repr

namespace StockEntity

/-- The kind of an entity. -/
def kind : StockEntity → EntityKind
  | .test _ => .test
  | .other _ => .other
  | .note _ => .note
  | .custom _ => .custom

/-- The name of an entity. -/
def id : StockEntity → DocId
  | .test e => e.id
  | .other e => e.id
  | .note e => e.id
  | .custom e => e.id

/-- The revision of an entity. -/
def revision : StockEntity → Option Revision
  | .test e => e.revision
  | .other e => e.revision
  | .note e => e.revision
  | .custom e => e.revision

/-- The entity at another revision. -/
def withRevision : StockEntity → Revision → StockEntity
  | .test e, r => .test (TestEntity.type.withRevision e r)
  | .other e, r => .other (OtherEntity.type.withRevision e r)
  | .note e, r => .note (Note.type.withRevision e r)
  | .custom e, r => .custom (ServerItem.type.withRevision e r)

/-- The entity as a value. -/
def toJson : StockEntity → Json
  | .test e => e.toJson
  | .other e => e.toJson
  | .note e => e.toJson
  | .custom e => e.toJson

end StockEntity

namespace EntityKind

/-- The kinds by name. -/
def names : List (String × EntityKind) :=
  [("Test", .test), ("Other", .other), ("Note", .note), ("Custom", .custom)]

/-- The name of a kind. -/
def text : EntityKind → String
  | .test => "Test"
  | .other => "Other"
  | .note => "Note"
  | .custom => "Custom"

/-- The name of the type of a kind. -/
def typeName : EntityKind → String
  | .test => TestEntity.type.name
  | .other => OtherEntity.type.name
  | .note => Note.type.name
  | .custom => ServerItem.type.name

/-- Reads an entity of a kind. -/
def reader : EntityKind → Reader StockEntity
  | .test => fun o d => (TestEntity.reader o d).map .test
  | .other => fun o d => (OtherEntity.reader o d).map .other
  | .note => fun o d => (Note.reader o d).map .note
  | .custom => fun o d => (ServerItem.reader o d).map .custom

/-- The type of the entities of a kind. -/
def type (k : EntityKind) : EntityType StockEntity where
  name := k.typeName
  id := StockEntity.id
  revision := StockEntity.revision
  withRevision := StockEntity.withRevision
  reader := k.reader
  toJson := StockEntity.toJson

end EntityKind
end DocClient
