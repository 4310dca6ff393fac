/-
# What a server says about documents

The records that replies are made of: the body of an error, the answer to a write, the outcome for one document of a
bulk write, the error entry of a bulk read, and the members of a document that the server looks after.
-/

import DocClient.Identifier
import DocClient.Json.Record

namespace DocClient

/-- The body of an error reply. -/
structure ErrorBody where
  error : String := ""
  reason : Option String := none
deriving DecidableEq, Repr

/-- The answer to the write of one document. -/
structure WriteReply where
  id : String := ""
  ok : Bool := false
  rev : Option Revision := none
  error : Option String := none
  reason : Option String := none
deriving DecidableEq, Repr

/-- What became of one document of a bulk write. -/
structure BulkOutcome where
  id : String := ""
  rev : Option Revision := none
  ok : Bool := false
  error : Option String := none
  reason : Option String := none
deriving DecidableEq, Repr

/-- An entry of a bulk read that holds no document. -/
structure BulkReadError where
  id : String
  rev : Option String
  error : String
  reason : Option String
deriving DecidableEq, Repr

/-- The revisions that led to a document, newest first, and how many there were. -/
structure RevisionPath where
  ids : List String
  start : Nat
deriving DecidableEq, Repr

/-- A revision and whether the server still has it. -/
structure RevisionStatus where
  rev : Revision
  status : String
deriving DecidableEq, Repr

/-- The members of a document that the server looks after, and the body of a reply that there is no document. -/
structure SystemFields where
  deleted : Option Bool := none
  attachments : Option Object := none
  conflicts : Option (List Revision) := none
  deletedConflicts : Option (List Revision) := none
  localSeq : Option Sequence := none
  revsInfo : Option (List RevisionStatus) := none
  revisions : Option RevisionPath := none
  error : Option String := none
  reason : Option String := none
deriving DecidableEq, Repr

namespace Json

/-- A text that may be missing, as a string or null. -/
def ofText? (s : Option String) : Json := s.elim .null .str

/-- A revision that may be missing, as a string or null. -/
def ofRevision? (r : Option Revision) : Json := r.elim .null fun rev => .str rev.text

/-- Revisions as an array of strings. -/
def ofRevisions (revs : List Revision) : Json := ofStrings (revs.map Revision.text)

end Json

namespace ErrorBody

/-- Reads the body of an error reply. -/
def reader : Reader ErrorBody :=
  Reader.record "struct ErrorResponse" <|
    ErrorBody.mk <$> Fields.field "error" Reader.text <*> Fields.nullable "reason" Reader.text

/-- The body as a value. -/
def toJson (b : ErrorBody) : Json :=
  Json.ofMembers [("error", .str b.error), ("reason", Json.ofText? b.reason)]

/-- The error, and after a colon its reason if there is one. -/
def text (b : ErrorBody) : String :=
  match b.reason with
  | some reason => b.error ++ ": " ++ reason
  | none => b.error

end ErrorBody

namespace WriteReply

/-- Reads the answer to a write; every member may be left out. -/
def reader : Reader WriteReply :=
  Reader.record "struct PutResponse" <|
    WriteReply.mk
      <$> Fields.defaulted "id" Reader.text ""
      <*> Fields.defaulted "ok" Reader.flag false
      <*> Fields.nullable "rev" Revision.reader
      <*> Fields.nullable "error" Reader.text
      <*> Fields.nullable "reason" Reader.text

/-- The answer as a value, without the members it does not have. -/
def toJson (r : WriteReply) : Json :=
  Json.ofOptions
    [("id", some (.str r.id)), ("ok", some (.bool r.ok)), ("rev", r.rev.map fun rev => .str rev.text),
      ("error", r.error.map .str), ("reason", r.reason.map .str)]

/-- A text that may be missing, as a message shows it; `wrap` is put around the quoted text. -/
def shownOption (wrap : String → String) : Option String → String
  | none => "None"
  | some s => "Some(" ++ wrap (Text.quoted s) ++ ")"

/-- The answer in full, as a message shows it. -/
def shown (r : WriteReply) : String :=
  "PutResponse \x7b id: " ++ Text.quoted r.id ++ ", ok: " ++ (if r.ok then "true" else "false")
    ++ ", rev: " ++ shownOption (fun t => "Revision(" ++ t ++ ")") (r.rev.map Revision.text)
    ++ ", error: " ++ shownOption (fun t => t) r.error ++ ", reason: " ++ shownOption (fun t => t) r.reason ++ " \x7d"

end WriteReply

namespace BulkOutcome

/-- Reads an outcome; every member may be left out. -/
def reader : Reader BulkOutcome :=
  Reader.record "struct BulkOutcome" <|
    BulkOutcome.mk
      <$> Fields.defaulted "id" Reader.text ""
      <*> Fields.nullable "rev" Revision.reader
      <*> Fields.defaulted "ok" Reader.flag false
      <*> Fields.nullable "error" Reader.text
      <*> Fields.nullable "reason" Reader.text

/-- The outcome as a value, without the members it does not have. -/
def toJson (r : BulkOutcome) : Json :=
  Json.ofOptions
    [("id", some (.str r.id)), ("rev", r.rev.map fun rev => .str rev.text), ("ok", some (.bool r.ok)),
      ("error", r.error.map .str), ("reason", r.reason.map .str)]

/-- The document was written: there is no error, and there is a revision or an explicit `ok`. -/
def isOk (r : BulkOutcome) : Bool := r.error.isNone && (r.ok || r.rev.isSome)

/-- The document was refused because its revision is not the latest. -/
def isConflict (r : BulkOutcome) : Bool := r.error == some "conflict"

end BulkOutcome

namespace BulkReadError

/-- Reads an entry. -/
def reader : Reader BulkReadError :=
  Reader.record "struct BulkGetError" <|
    BulkReadError.mk
      <$> Fields.field "id" Reader.text
      <*> Fields.nullable "rev" Reader.text
      <*> Fields.field "error" Reader.text
      <*> Fields.nullable "reason" Reader.text

/-- The entry as a value. -/
def toJson (e : BulkReadError) : Json :=
  Json.ofMembers
    [("id", .str e.id), ("rev", Json.ofText? e.rev), ("error", .str e.error), ("reason", Json.ofText? e.reason)]

end BulkReadError

namespace RevisionPath

/-- Reads a path of revisions. -/
def reader : Reader RevisionPath :=
  Reader.record "struct Revisions" <|
    RevisionPath.mk <$> Fields.field "ids" (Reader.list Reader.text) <*> Fields.field "start" Reader.nat64

/-- The path as a value. -/
def toJson (p : RevisionPath) : Json :=
  Json.ofMembers [("ids", Json.ofStrings p.ids), ("start", Json.ofNat p.start)]

end RevisionPath

namespace RevisionStatus

/-- Reads a revision with its status. -/
def reader : Reader RevisionStatus :=
  Reader.record "struct RevisionInfo" <|
    RevisionStatus.mk <$> Fields.field "rev" Revision.reader <*> Fields.field "status" Reader.text

/-- The revision with its status, as a value. -/
def toJson (s : RevisionStatus) : Json :=
  Json.ofMembers [("rev", .str s.rev.text), ("status", .str s.status)]

end RevisionStatus

namespace SystemFields

/-- Reads the members that the server looks after; every one may be left out. -/
def reader : Reader SystemFields :=
  Reader.record "struct SystemFields" <|
    SystemFields.mk
      <$> Fields.nullable "_deleted" Reader.flag
      <*> Fields.nullable "_attachments" Reader.object
      <*> Fields.nullable "_conflicts" (Reader.list Revision.reader)
      <*> Fields.nullable "_deleted_conflicts" (Reader.list Revision.reader)
      <*> Fields.nullable "_local_seq" Sequence.reader
      <*> Fields.nullable "_revs_info" (Reader.list RevisionStatus.reader)
      <*> Fields.nullable "_revisions" RevisionPath.reader
      <*> Fields.nullable "error" Reader.text
      <*> Fields.nullable "reason" Reader.text

/-- The members as a value; those that are missing are null. -/
def toJson (s : SystemFields) : Json :=
  Json.ofMembers
    [("_deleted", s.deleted.elim .null .bool),
      ("_attachments", s.attachments.elim .null .obj),
      ("_conflicts", s.conflicts.elim .null Json.ofRevisions),
      ("_deleted_conflicts", s.deletedConflicts.elim .null Json.ofRevisions),
      ("_local_seq", s.localSeq.elim .null fun seq => .str seq.text),
      ("_revs_info", s.revsInfo.elim .null fun l => .arr (l.map RevisionStatus.toJson)),
      ("_revisions", s.revisions.elim .null RevisionPath.toJson),
      ("error", Json.ofText? s.error),
      ("reason", Json.ofText? s.reason)]

end SystemFields
end DocClient
