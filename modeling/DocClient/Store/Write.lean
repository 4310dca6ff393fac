/-
# Writing and deleting one document

A new entity has no revision and is created; one that was written carries the revision that it was read at, and the
server refuses the write with a conflict if that is no longer the latest. A write never changes the entity: the new
revision comes in a copy.

| call | asks of the entity |
| --- | --- |
| `insert` | a name, no revision |
| `update` | a name, a revision that is not blank |
| `upsert` | a name |
| `deleteEntity` | a name, a revision that is not blank |

| status | write | delete |
| --- | --- | --- |
| 200 | unsupported | a reply |
| 201 | a reply | unsupported |
| 202 | a reply | a reply |
| 400, 401, 404, 409 | the failure of that status | the same |
| any other | unsupported | unsupported |
-/

import DocClient.Store.Read

namespace DocClient

/-- How a document is to be written. -/
structure WriteOptions where
  rev : Option Revision := none
  /-- The server may put the write off. -/
  batch : Bool := false
  newEdits : Option Bool := none
deriving DecidableEq, Repr

namespace WriteOptions

/-- The options as members; one that is not set gives none. -/
def toJson (o : WriteOptions) : Json :=
  Json.ofOptions
    [("rev", o.rev.map fun rev => .str rev.text), ("batch", if o.batch then some (.str "ok") else none),
      ("new_edits", o.newEdits.map .bool)]

/-- The options as the pairs of a query; one that is not set gives none. -/
def query (o : WriteOptions) : List (String × String) :=
  (o.rev.map fun rev => ("rev", rev.text)).toList
    ++ (if o.batch then [("batch", "ok")] else [])
    ++ (o.newEdits.map fun on => ("new_edits", if on then "true" else "false")).toList

end WriteOptions

/-- The statuses that a write documents. -/
def writeStatuses : List Nat := [400, 401, 404, 409]

/-- What a write came to: the reply, and the entity at its new revision if the write was acknowledged. -/
structure Written (α : Type) where
  reply : WriteReply
  entity : Option α
deriving DecidableEq, Repr

namespace Written

variable {α : Type}

/-- The entity at its new revision. A write that was not acknowledged is a failure if `strict`, and else gives
nothing. -/
def updated (w : Written α) (strict : Bool) : Outcome (Option α) :=
  match w.entity with
  | some e => if w.reply.ok then .ok (some e) else missing
  | none => missing
where
  /-- There is no entity. -/
  missing : Outcome (Option α) := if strict then .error (.writeFailed w.reply) else .ok none

/-- What a write of an entity came to, given its reply. -/
def ofReply (T : EntityType α) (e : α) (reply : WriteReply) : Outcome (Written α) :=
  if reply.ok then
    match reply.rev with
    | some rev => .ok ⟨reply, some (T.withRevision e rev)⟩
    | none => .error (.responseRevisionMissing reply.id)
  else .ok ⟨reply, none⟩

end Written

/-- The reply to a write or to a deletion, which succeed with statuses of their own. -/
def writeReply (successes : List Nat) (reply : Reply) : Outcome WriteReply :=
  if successes.contains reply.status then Outcome.ofRead (Reader.ofText WriteReply.reader reply.text.toList)
  else .error (.ofStatus writeStatuses reply.status reply.text)

namespace Client

variable {α : Type}

/-- Writes the stored form of an entity to a path. -/
def putDocument (c : Client) (T : EntityType α) (path : List String) (body : Object) (options : WriteOptions)
    (e : α) : Call (Written α) :=
  c.call .put path (some options.query) (some (.obj body)) fun reply => do
    Written.ofReply T e (← writeReply [201, 202] reply)

/-- Deletes the document at a path. -/
def deleteDocument (c : Client) (path : List String) (revision : Revision) (batch : Bool) : Call WriteReply :=
  c.call .delete path (some (("rev", revision.text) :: if batch then [("batch", "ok")] else [])) none
    (writeReply [200, 202])

/-- Writes an entity as it is, with options. -/
def upsertWith (c : Client) (T : EntityType α) (e : α) (options : WriteOptions) : Plan (Written α) :=
  .of do
    .of (requireId (T.id e))
    let route ← Routes.require T.name
    let body ← .of (Envelope.encode c.style route.className (T.toJson e))
    return c.putDocument T [route.database.text, (T.id e).text] body options e

/-- Writes an entity as it is: it is created without a revision and updated with one. -/
def upsert (c : Client) (T : EntityType α) (e : α) : Plan (Written α) := c.upsertWith T e {}

/-- A plan that is made only if its arguments are as they should be. -/
def guarded {β : Type} (checks : Outcome Unit) (p : Plan β) : Plan β := fun routes =>
  match checks with
  | .ok () => p routes
  | .error e => (.done (.error e), routes)

/-- Creates the document of an entity, which must have no revision. -/
def insert (c : Client) (T : EntityType α) (e : α) : Plan (Written α) :=
  guarded (do
    requireId (T.id e)
    forbid (T.revision e).isSome (.insertWithRevision (T.id e)))
    (c.upsert T e)

/-- Writes a new version of an entity, which must have a revision. -/
def update (c : Client) (T : EntityType α) (e : α) : Plan (Written α) :=
  guarded (do
    requireId (T.id e)
    forbid ((T.revision e).all Revision.isBlank) (.updateWithoutRevision (T.id e)))
    (c.upsert T e)

/-- Deletes a document at a revision. -/
def delete (c : Client) (db : DatabaseName) (id : DocId) (revision : Revision) (batch : Bool) :
    Plan WriteReply :=
  guarded (do
    requireId id
    forbid revision.isBlank (.deleteWithoutRevision id))
    fun routes => (c.deleteDocument [db.text, id.text] revision batch, routes)

/-- Deletes the document of an entity, which must have a revision. -/
def deleteEntity (c : Client) (T : EntityType α) (e : α) (batch : Bool) : Plan WriteReply := fun routes =>
  let prepared : Prepared (Route × Deletion) := do
    .of (requireId (T.id e))
    let deletion ← .of (Deletion.of T e)
    return (← Routes.require T.name, deletion)
  match prepared.run.run routes with
  | (.ok (route, deletion), routes) => c.delete route.database deletion.id deletion.revision batch routes
  | (.error e, routes) => (.done (.error e), routes)

end Client
end DocClient
