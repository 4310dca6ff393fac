/-
# Design documents

A design document holds the views, filters and update handlers of a database. It lives under a path of its own, and its
name there has a prefix that the name in the domain does not have; a name that has it anyway is taken without it.
-/

import DocClient.Store.Write

namespace DocClient

/-- A view: how keys and values are made of documents, and how values are put together. -/
structure View where
  map : String
  reduce : Option String := none
deriving DecidableEq, Repr

/-- A design document. -/
structure DesignDocument where
  id : DocId
  revision : Option Revision := none
  language : String := "javascript"
  autoupdate : Option Bool := none
  options : Option Object := none
  filters : Table String := []
  updates : Table String := []
  validateDocUpdate : Option String := none
  views : Table View := []
deriving DecidableEq, Repr

/-- A table as an object. -/
def Json.ofTable {α : Type} (toJson : α → Json) (t : Table α) : Json := .obj (t.map fun m => (m.1, toJson m.2))

/-- A table as an object, if it has entries. -/
def Json.ofTable? {α : Type} (toJson : α → Json) (t : Table α) : Option Json :=
  if t.isEmpty then none else some (Json.ofTable toJson t)

namespace View

/-- Reads a view. -/
def reader : Reader View :=
  Reader.record "struct View" <| View.mk <$> Fields.field "map" Reader.text <*> Fields.nullable "reduce" Reader.text

/-- The view as a value. -/
def toJson (v : View) : Json := Json.ofOptions [("map", some (.str v.map)), ("reduce", v.reduce.map .str)]

/-- The view with a function that puts values together. -/
def withReduce (v : View) (reduce : String) : View := { v with reduce := some reduce }

end View

namespace DesignDocument

/-- Reads a design document. -/
def reader : Reader DesignDocument :=
  Reader.record "struct DesignDocument" <|
    DesignDocument.mk
      <$> Fields.field "id" DocId.reader
      <*> Fields.nullable "revision" Revision.reader
      <*> Fields.defaulted "language" Reader.text "javascript"
      <*> Fields.nullable "autoupdate" Reader.flag
      <*> Fields.nullable "options" Reader.object
      <*> Fields.defaulted "filters" (Reader.table Reader.text) []
      <*> Fields.defaulted "updates" (Reader.table Reader.text) []
      <*> Fields.nullable "validate_doc_update" Reader.text
      <*> Fields.defaulted "views" (Reader.table View.reader) []

/-- The design document as a value, without the parts it does not have. -/
def toJson (d : DesignDocument) : Json :=
  Json.ofOptions
    [("id", some (.str d.id.text)),
      ("revision", some (Json.ofRevision? d.revision)),
      ("language", some (.str d.language)),
      ("autoupdate", d.autoupdate.map .bool),
      ("options", d.options.map .obj),
      ("filters", Json.ofTable? .str d.filters),
      ("updates", Json.ofTable? .str d.updates),
      ("validate_doc_update", d.validateDocUpdate.map .str),
      ("views", Json.ofTable? View.toJson d.views)]

/-- A design document with nothing in it. -/
def empty (id : DocId) : DesignDocument := { id }

/-- The design document with a view. -/
def withView (d : DesignDocument) (name : String) (v : View) : DesignDocument :=
  { d with views := d.views.insert name v }

/-- The design document with a filter. -/
def withFilter (d : DesignDocument) (name function : String) : DesignDocument :=
  { d with filters := d.filters.insert name function }

/-- The type of design documents. -/
def type : EntityType DesignDocument where
  name := "DesignDocument"
  id := DesignDocument.id
  revision := DesignDocument.revision
  withRevision d r := { d with revision := some r }
  reader
  toJson

end DesignDocument

/-- The name of a design document without its prefix; it must not be blank. -/
def designName (id : DocId) : Outcome String := do
  requireId id
  let name := (Envelope.dropPrefix? Envelope.designPrefix id.text).getD id.text
  forbid (Text.isBlank name) .blankDesignName
  return name

namespace Client

/-- The path of a design document in a database. -/
def designPath (db : DatabaseName) (name : String) : List String := [db.text, "_design", name]

/-- Reads a design document with the server's members. -/
def getDesignWithSystem (c : Client) (db : DatabaseName) (id : DocId) (options : ReadOptions) :
    Plan (SystemFields × Option DesignDocument) :=
  .of do
    let name ← .of (designName id)
    return (c.readDocument (designPath db name) options).andThen
      (decodeFound (Envelope.decodeDesign DesignDocument.reader))

/-- Reads a design document. -/
def getDesign (c : Client) (db : DatabaseName) (id : DocId) : Plan (Option DesignDocument) := fun routes =>
  let (call, routes) := c.getDesignWithSystem db id {} routes
  (call.andThen fun found => .ok found.2, routes)

/-- Creates or updates a design document; its revision decides which. -/
def upsertDesign (c : Client) (db : DatabaseName) (d : DesignDocument) : Plan (Written DesignDocument) :=
  .of do
    let name ← .of (designName d.id)
    let body ← .of (Envelope.encodeDesign d.toJson)
    return c.putDocument DesignDocument.type (designPath db name) body {} d

/-- Deletes a design document at a revision. -/
def deleteDesign (c : Client) (db : DatabaseName) (id : DocId) (revision : Revision) (batch : Bool) :
    Plan WriteReply :=
  .of do
    let name ← .of (designName id)
    .of (forbid revision.isBlank (.deleteDesignWithoutRevision id))
    return c.deleteDocument (designPath db name) revision batch

end Client
end DocClient
