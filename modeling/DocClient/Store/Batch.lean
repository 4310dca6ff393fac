/-
# Writing and reading many documents at once

A batch of writes is one request: the documents to be written and then the deletions, in the order in which they are
given. The reply has one outcome for each, in the same order; outcomes belong to documents by position, never by name,
since one name may stand in a batch more than once.

A batch of reads is one request too. Each entry of the reply is a live document, a document that only says that it was
deleted, or an error; the three are told apart and kept in the order of the reply.
-/

import DocClient.Dispatch
import DocClient.Store.Write

namespace DocClient

/-- The statuses that a batch of writes documents. -/
def batchWriteStatuses : List Nat := [400, 401, 404]

/-- The statuses that a batch of reads documents. -/
def batchReadStatuses : List Nat := [400, 401, 404, 415]

/-- What a batch of writes came to: the outcomes, and what they belong to. -/
structure BatchWritten (α : Type) where
  /-- The outcomes in order, those of the upserts first. -/
  outcomes : List BulkOutcome
  upserts : List α
  deletions : List Deletion
deriving Repr

namespace BatchWritten

variable {α : Type}

/-- The outcomes of the upserts. -/
def upsertOutcomes (b : BatchWritten α) : List BulkOutcome := b.outcomes.take b.upserts.length

/-- The outcomes of the deletions. -/
def deletionOutcomes (b : BatchWritten α) : List BulkOutcome := b.outcomes.drop b.upserts.length

/-- The deletions that the server made. -/
def deleted (b : BatchWritten α) : List Deletion :=
  ((b.deletions.zip b.deletionOutcomes).filter fun p => p.2.isOk).map Prod.fst

/-- The outcomes of what was not written. -/
def failed (b : BatchWritten α) : List BulkOutcome := b.outcomes.filter fun o => !o.isOk

/-- All was written. -/
def isOk (b : BatchWritten α) : Bool := b.failed.isEmpty

/-- The entities of those pairs whose outcome is good, at their new revisions. -/
def renewed (T : EntityType α) : List (α × BulkOutcome) → Outcome (List α)
  | [] => .ok []
  | (e, o) :: rest =>
    if o.isOk then
      match o.rev with
      | some rev => (renewed T rest).map fun es => T.withRevision e rev :: es
      | none => .error (.responseRevisionMissing o.id)
    else renewed T rest

/-- The entities that were written, at their new revisions. If `strict`, anything that was not written is a
failure. -/
def updated (b : BatchWritten α) (T : EntityType α) (strict : Bool) : Outcome (List α) :=
  if strict && !b.isOk then .error (.bulkFailed b.failed) else renewed T (b.upserts.zip b.upsertOutcomes)

end BatchWritten

/-- The outcomes of a batch do not belong to its documents. -/
inductive Misalignment where
  | count (submitted outcomes : Nat)
  | stray (position : Nat) (found expected : String)
deriving DecidableEq, Repr

namespace Misalignment

/-- The misalignment in words. -/
def words : Misalignment → String
  | .count submitted outcomes =>
    "submitted " ++ toString submitted ++ " documents, got " ++ toString outcomes ++ " outcomes"
  | .stray position found expected =>
    "outcome " ++ toString position ++ " is for " ++ Text.quoted found ++ ", expected " ++ Text.quoted expected

/-- The first outcome that is not for the document in its place. -/
def firstStray? : Nat → List (BulkOutcome × DocId) → Option Misalignment
  | _, [] => none
  | position, (o, id) :: rest =>
    if o.id = id.text then firstStray? (position + 1) rest else some (.stray position o.id id.text)

/-- Why the outcomes do not belong to the documents, if they do not. -/
def find? (outcomes : List BulkOutcome) (submitted : List DocId) : Option Misalignment :=
  if outcomes.length = submitted.length then firstStray? 0 (outcomes.zip submitted)
  else some (.count submitted.length outcomes.length)

end Misalignment

/-- One entry of the reply to a batch of reads. -/
inductive BatchEntry where
  | document (d : Object)
  | error (e : BulkReadError)
deriving DecidableEq, Repr

/-- The entries for one name. -/
structure BatchItem where
  id : String
  entries : List BatchEntry
deriving DecidableEq, Repr

namespace BatchEntry

/-- Reads an entry. -/
def reader : Reader BatchEntry :=
  Reader.cases
    [("ok", fun o d => (Reader.object o d).map .document), ("error", fun o d => (BulkReadError.reader o d).map .error)]

end BatchEntry

namespace BatchItem

/-- Reads the entries for one name. -/
def reader : Reader BatchItem :=
  Reader.record "struct BulkGetItem" <|
    BatchItem.mk <$> Fields.field "id" Reader.text <*> Fields.field "docs" (Reader.list BatchEntry.reader)

/-- Reads the reply to a batch of reads. -/
def listReader : Reader (List BatchItem) :=
  Reader.record "struct BulkGetResponse" (Fields.field "results" (Reader.list BatchItem.reader))

end BatchItem

/-- What a batch of reads came to. -/
structure BatchRead (ε : Type) where
  entities : List ε := []
  errors : List BulkReadError := []
  /-- The names of the documents that only say that they were deleted. -/
  deleted : List DocId := []
deriving Repr

namespace BatchRead

variable {ε : Type}

/-- Puts one entry, which stands under a name, before the others. -/
def cons (D : Dispatch ε) (classField id : String) (entry : BatchEntry) (rest : Outcome (BatchRead ε)) :
    Outcome (BatchRead ε) :=
  match entry with
  | .error e => rest.map fun r => { r with errors := e :: r.errors }
  | .document d =>
    if Envelope.isTombstone d then rest.map fun r => { r with deleted := ⟨id⟩ :: r.deleted }
    else do
      let e ← D.decode d classField
      let r ← rest
      return { r with entities := e :: r.entities }

/-- The entries of a reply, each with the name it stands under. -/
def entries (items : List BatchItem) : List (String × BatchEntry) :=
  items.flatMap fun item => item.entries.map fun entry => (item.id, entry)

/-- Tells the entries of a reply apart. The first live document that cannot be decoded is the failure of all. -/
def ofItems (D : Dispatch ε) (classField : String) (items : List BatchItem) : Outcome (BatchRead ε) :=
  (entries items).foldr (fun entry rest => cons D classField entry.1 entry.2 rest) (.ok {})

end BatchRead

namespace Client

variable {α ε : Type}

/-- A document to be deleted has a name and a revision. -/
def checkDeletion (d : Deletion) : Outcome Unit := do
  requireId d.id
  forbid d.revision.isBlank (.deleteWithoutRevision d.id)

/-- The body of a batch of writes. -/
def batchBody (docs : List Json) : Json := Json.ofMembers [("docs", .arr docs), ("new_edits", .bool true)]

/-- What a batch of writes came to, given its reply. -/
def batchWritten (T : EntityType α) (upserts : List α) (deletions : List Deletion) (reply : Reply) :
    Outcome (BatchWritten α) :=
  if reply.status = 201 then do
    let outcomes ← Outcome.ofRead (Reader.ofText (Reader.list BulkOutcome.reader) reply.text.toList)
    match Misalignment.find? outcomes (upserts.map T.id ++ deletions.map Deletion.id) with
    | some m => .error (.bulkMismatch m.words)
    | none => .ok ⟨outcomes, upserts, deletions⟩
  else .error (.ofStatus batchWriteStatuses reply.status reply.text)

/-- Writes entities and deletes documents in a database. -/
def writeBatchIn (c : Client) (T : EntityType α) (db : DatabaseName) (upserts : List α)
    (deletions : List Deletion) : Plan (BatchWritten α) :=
  .of do
    .of (upserts.forM fun e => requireId (T.id e))
    .of (deletions.forM checkDeletion)
    if upserts.isEmpty && deletions.isEmpty then return .done (.ok ⟨[], upserts, deletions⟩)
    let route ← Routes.require T.name
    let docs ← .of (upserts.mapM fun e => Envelope.encode c.style route.className (T.toJson e))
    return c.call .post [db.text, "_bulk_docs"] none
      (some (batchBody ((docs ++ deletions.map Deletion.toObject).map .obj))) (batchWritten T upserts deletions)

/-- Writes entities and deletes documents in the database of their type. -/
def writeBatch (c : Client) (T : EntityType α) (upserts : List α) (deletions : List Deletion) :
    Plan (BatchWritten α) := fun routes =>
  match (Routes.require T.name).run.run routes with
  | (.ok route, routes) => c.writeBatchIn T route.database upserts deletions routes
  | (.error e, routes) => (.done (.error e), routes)

/-- What a batch of reads came to, given its reply. -/
def batchRead (c : Client) (D : Dispatch ε) (reply : Reply) : Outcome (BatchRead ε) :=
  if reply.status = 200 then do
    let items ← Outcome.ofRead (Reader.ofText BatchItem.listReader reply.text.toList)
    BatchRead.ofItems D c.settings.classField items
  else .error (.ofStatus batchReadStatuses reply.status reply.text)

/-- The body of a batch of reads. -/
def batchIds (ids : List DocId) : Json :=
  Json.ofMembers [("docs", .arr (ids.map fun id => Json.ofMembers [("id", .str id.text)]))]

/-- Reads documents of several types from a database. -/
def readBatchIn (c : Client) (db : DatabaseName) (ids : List DocId) (D : Dispatch ε) : Plan (BatchRead ε) :=
  guarded (ids.forM requireId) fun routes =>
    (if ids.isEmpty then .done (.ok {})
      else c.call .post [db.text, "_bulk_get"] none (some (batchIds ids)) (c.batchRead D), routes)

/-- Reads entities of one type from its database. -/
def readBatch (c : Client) (T : EntityType α) (ids : List DocId) : Plan (BatchRead α) := fun routes =>
  match (Routes.require T.name).run.run routes with
  | (.ok route, routes) => c.readBatchIn route.database ids (Dispatch.single T route) routes
  | (.error e, routes) => (.done (.error e), routes)

end Client
end DocClient
