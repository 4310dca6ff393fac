/-
# Asking a view

A view of a design document is asked by a request whose body says which rows are wanted; an option that is not set is
not sent. The rows of the reply can be taken as they are, or with the document or value of each decoded:

| documents asked for | the row has | value of the row |
| --- | --- | --- |
| yes | a document | the document, decoded |
| yes | none | a failure |
| no | a null value | nothing |
| no | another value | the value, decoded |
-/

import DocClient.Store.Design

namespace DocClient

/-- Whether a view is brought up to date before it answers. -/
inductive ViewUpdate where
  | always
  | never
  | afterwards
deriving DecidableEq, Repr

/-- Which rows of a view are wanted, and how. -/
structure ViewRequest where
  conflicts : Bool := false
  descending : Bool := false
  startkey : Option Json := none
  startkeyDocid : Option DocId := none
  endkey : Option Json := none
  endkeyDocid : Option DocId := none
  group : Option Bool := none
  groupLevel : Option Nat := none
  includeDocs : Bool := false
  attachments : Bool := false
  attEncodingInfo : Bool := false
  inclusiveEnd : Option Bool := none
  key : Option Json := none
  keys : List Json := []
  limit : Option Nat := none
  reduce : Option Bool := none
  skip : Option Nat := none
  sorted : Option Bool := none
  stable : Option Bool := none
  update : Option ViewUpdate := none
  updateSeq : Bool := false
deriving DecidableEq, Repr

/-- A row of a view as it comes. -/
structure RawRow where
  id : Option DocId
  key : Json
  value : Json
  doc : Option Object
deriving DecidableEq, Repr

/-- The rows of a view as they come. -/
structure RawRows where
  rows : List RawRow
  offset : Option Nat
  totalRows : Option Nat
  updateSeq : Option Sequence
deriving DecidableEq, Repr

/-- A row of a view with its document or value decoded. -/
structure ViewRow (β : Type) where
  id : Option DocId
  key : Json
  value : Option β
deriving DecidableEq, Repr

/-- The rows of a view with their documents or values decoded. -/
structure ViewRows (β : Type) where
  rows : List (ViewRow β)
  offset : Option Nat
  totalRows : Option Nat
  updateSeq : Option Sequence
deriving DecidableEq, Repr

/-- A document's name that may be missing, as a string or null. -/
def Json.ofId? (id : Option DocId) : Json := id.elim .null fun id => .str id.text

namespace ViewUpdate

/-- The ways to bring a view up to date, by name. -/
def names : List (String × ViewUpdate) := [("true", .always), ("false", .never), ("lazy", .afterwards)]

/-- Reads a way to bring a view up to date. -/
def reader : Reader ViewUpdate := Reader.choice names

/-- A way to bring a view up to date, as a value. -/
def toJson : ViewUpdate → Json
  | .always => .str "true"
  | .never => .str "false"
  | .afterwards => .str "lazy"

end ViewUpdate

namespace ViewRequest

/-- Reads a request; every member may be left out. -/
def reader : Reader ViewRequest :=
  Reader.record "struct ViewRequest" <|
    ViewRequest.mk
      <$> Fields.defaulted "conflicts" Reader.flag false
      <*> Fields.defaulted "descending" Reader.flag false
      <*> Fields.nullable "startkey" Reader.json
      <*> Fields.nullable "startkey_docid" DocId.reader
      <*> Fields.nullable "endkey" Reader.json
      <*> Fields.nullable "endkey_docid" DocId.reader
      <*> Fields.nullable "group" Reader.flag
      <*> Fields.nullable "group_level" Reader.nat32
      <*> Fields.defaulted "include_docs" Reader.flag false
      <*> Fields.defaulted "attachments" Reader.flag false
      <*> Fields.defaulted "att_encoding_info" Reader.flag false
      <*> Fields.nullable "inclusive_end" Reader.flag
      <*> Fields.nullable "key" Reader.json
      <*> Fields.defaulted "keys" (Reader.list Reader.json) []
      <*> Fields.nullable "limit" Reader.nat64
      <*> Fields.nullable "reduce" Reader.flag
      <*> Fields.nullable "skip" Reader.nat64
      <*> Fields.nullable "sorted" Reader.flag
      <*> Fields.nullable "stable" Reader.flag
      <*> Fields.nullable "update" ViewUpdate.reader
      <*> Fields.defaulted "update_seq" Reader.flag false

/-- A switch, if it is on. -/
def switch (on : Bool) : Option Json := if on then some (.bool true) else none

/-- The request as a value, without what is not set. -/
def toJson (r : ViewRequest) : Json :=
  Json.ofOptions
    [("conflicts", switch r.conflicts),
      ("descending", switch r.descending),
      ("startkey", r.startkey),
      ("startkey_docid", r.startkeyDocid.map fun id => .str id.text),
      ("endkey", r.endkey),
      ("endkey_docid", r.endkeyDocid.map fun id => .str id.text),
      ("group", r.group.map .bool),
      ("group_level", r.groupLevel.map Json.ofNat),
      ("include_docs", switch r.includeDocs),
      ("attachments", switch r.attachments),
      ("att_encoding_info", switch r.attEncodingInfo),
      ("inclusive_end", r.inclusiveEnd.map .bool),
      ("key", r.key),
      ("keys", if r.keys.isEmpty then none else some (.arr r.keys)),
      ("limit", r.limit.map Json.ofNat),
      ("reduce", r.reduce.map .bool),
      ("skip", r.skip.map Json.ofNat),
      ("sorted", r.sorted.map .bool),
      ("stable", r.stable.map .bool),
      ("update", r.update.map ViewUpdate.toJson),
      ("update_seq", switch r.updateSeq)]

/-- The request with documents. -/
def withIncludeDocs (r : ViewRequest) : ViewRequest := { r with includeDocs := true }

/-- The request for one key. -/
def withKey (r : ViewRequest) (key : Json) : ViewRequest := { r with key := some key }

/-- The request for so many rows at most. -/
def withLimit (r : ViewRequest) (limit : Nat) : ViewRequest := { r with limit := some limit }

/-- The request with values put together, or not. -/
def withReduce (r : ViewRequest) (reduce : Bool) : ViewRequest := { r with reduce := some reduce }

end ViewRequest

namespace RawRow

/-- Reads a row. -/
def reader : Reader RawRow :=
  Reader.record "struct RawViewRow" <|
    RawRow.mk
      <$> Fields.nullable "id" DocId.reader
      <*> Fields.defaulted "key" Reader.json .null
      <*> Fields.defaulted "value" Reader.json .null
      <*> Fields.nullable "doc" Reader.object

/-- The row as a value. -/
def toJson (r : RawRow) : Json :=
  Json.ofMembers
    [("id", Json.ofId? r.id), ("key", r.key), ("value", r.value), ("doc", r.doc.elim .null .obj)]

/-- The document or value of a row, decoded. -/
def decode {β : Type} (r : Reader β) (classField : String) (includeDocs : Bool) (row : RawRow) :
    Outcome (ViewRow β) :=
  if includeDocs then
    match row.doc with
    | some doc => (Envelope.decode r classField doc).map fun b => ⟨row.id, row.key, some b⟩
    | none => .error (.missingDocument ((row.id.map DocId.text).getD ""))
  else if row.value.isNull then .ok ⟨row.id, row.key, none⟩
  else (Envelope.decodeValue r classField row.value).map fun b => ⟨row.id, row.key, some b⟩

end RawRow

namespace RawRows

/-- Reads the rows of a view. -/
def reader : Reader RawRows :=
  Reader.record "struct RawViewResult" <|
    RawRows.mk
      <$> Fields.field "rows" (Reader.list RawRow.reader)
      <*> Fields.nullable "offset" Reader.nat64
      <*> Fields.nullable "total_rows" Reader.nat64
      <*> Fields.nullable "update_seq" Sequence.reader

/-- The rows of a view as a value. -/
def toJson (r : RawRows) : Json :=
  Json.ofMembers
    [("rows", .arr (r.rows.map RawRow.toJson)),
      ("offset", r.offset.elim .null Json.ofNat),
      ("total_rows", r.totalRows.elim .null Json.ofNat),
      ("update_seq", r.updateSeq.elim .null fun s => .str s.text)]

end RawRows

/-- The values of the rows that have one, in order. -/
def ViewRows.values {β : Type} (v : ViewRows β) : List β := v.rows.filterMap ViewRow.value

/-- The statuses that a view documents. -/
def viewStatuses : List Nat := [304, 400, 401, 403, 404]

namespace Client

/-- The rows of a view from its reply. -/
def viewReply (reply : Reply) : Outcome RawRows :=
  if reply.status = 200 then Outcome.ofRead (Reader.ofText RawRows.reader reply.text.toList)
  else .error (.ofStatus viewStatuses reply.status reply.text)

/-- Asks a view for its rows as they come. -/
def rawView (c : Client) (db : DatabaseName) (design : DocId) (view : String) (request : ViewRequest) :
    Plan RawRows :=
  .of do
    let name ← .of (designName design)
    .of (forbid (Text.isBlank view) .blankViewName)
    return c.call .post (designPath db name ++ ["_view", view]) none (some request.toJson) viewReply

/-- The rows of a view, decoded; the first that cannot be decoded is the failure of all. -/
def decodeRows {β : Type} (c : Client) (r : Reader β) (includeDocs : Bool) (raw : RawRows) :
    Outcome (ViewRows β) := do
  let rows ← raw.rows.mapM (RawRow.decode r c.settings.classField includeDocs)
  return ⟨rows, raw.offset, raw.totalRows, raw.updateSeq⟩

/-- Asks a view for its rows and decodes them. -/
def view {β : Type} (c : Client) (r : Reader β) (db : DatabaseName) (design : DocId) (view : String)
    (request : ViewRequest) : Plan (ViewRows β) := fun routes =>
  let (call, routes) := c.rawView db design view request routes
  (call.andThen (c.decodeRows r request.includeDocs), routes)

end Client
end DocClient
