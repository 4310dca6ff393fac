/-
# How a call fails

A call fails in one of four ways: the caller misused it, the metadata or the document does not fit, the server answered
with a status other than success, or the exchange itself went wrong.

| status | failure, where the call documents it |
| ---: | --- |
| 304 | not modified |
| 400 | bad request |
| 401 | unauthorized |
| 403 | forbidden |
| 404 | not found |
| 409 | conflict |
| 412 | precondition failed |
| 415 | unsupported media type |

A status that the call does not document is an unsupported one, whatever the table says.
-/

import DocClient.Reply

namespace DocClient

/-- A reply with a status other than success. -/
structure ServerReply where
  status : Nat
  /-- The error that the reply names, if its text can be read as one. -/
  body : Option ErrorBody
  text : String
deriving DecidableEq, Repr

namespace ServerReply

/-- A reply of a status and a text. -/
def of (status : Nat) (text : String) : ServerReply where
  status
  body := (Reader.ofText ErrorBody.reader text.toList).toOption
  text

/-- The reason that the server gave. -/
def reason? (r : ServerReply) : Option String := r.body.bind ErrorBody.reason

/-- The status, and the error named or else the text. -/
def shown (r : ServerReply) : String :=
  toString r.status ++ " " ++ (match r.body with | some body => body.text | none => r.text)

end ServerReply

/-- What a status says. -/
inductive StatusFailure where
  | badRequest
  | unauthorized
  | forbidden
  | notFound
  | conflict
  | notModified
  | preconditionFailed
  | unsupportedMediaType
  | unsupportedStatus
deriving DecidableEq, Repr

namespace StatusFailure

/-- The failure that a status stands for. -/
def ofStatus (status : Nat) : StatusFailure :=
  match status with
  | 400 => .badRequest
  | 401 => .unauthorized
  | 403 => .forbidden
  | 404 => .notFound
  | 409 => .conflict
  | 304 => .notModified
  | 412 => .preconditionFailed
  | 415 => .unsupportedMediaType
  | _ => .unsupportedStatus

/-- The failure in words. -/
def words : StatusFailure → String
  | .badRequest => "bad request"
  | .unauthorized => "unauthorized"
  | .forbidden => "forbidden"
  | .notFound => "not found"
  | .conflict => "conflict"
  | .notModified => "not modified"
  | .preconditionFailed => "precondition failed"
  | .unsupportedMediaType => "unsupported media type"
  | .unsupportedStatus => "unsupported status"

end StatusFailure

/-- What a caller did that a call does not allow. -/
inductive Misuse where
  | blankId
  | insertWithRevision (id : DocId)
  | updateWithoutRevision (id : DocId)
  | deleteWithoutRevision (id : DocId)
  | deleteOfUnsaved (id : DocId)
  | blankDesignName
  | deleteDesignWithoutRevision (id : DocId)
  | blankViewName
  | blankDatabase
  | blankFollowedId
deriving DecidableEq, Repr

namespace Misuse

/-- The misuse in words. -/
def words : Misuse → String
  | .blankId => "document id must not be blank"
  | .insertWithRevision id => "insert of " ++ id.text ++ " requires an entity without revision"
  | .updateWithoutRevision id => "update of " ++ id.text ++ " requires an entity with revision"
  | .deleteWithoutRevision id => "delete of " ++ id.text ++ " requires a revision"
  | .deleteOfUnsaved id => "delete of " ++ id.text ++ " requires an entity with revision"
  | .blankDesignName => "design document name must not be blank"
  | .deleteDesignWithoutRevision id => "delete of design " ++ id.text ++ " requires a revision"
  | .blankViewName => "view name must not be blank"
  | .blankDatabase => "database name must not be blank"
  | .blankFollowedId => "change feed doc_ids must not contain blank ids"

end Misuse

/-- How a call fails. -/
inductive ClientError where
  /-- The caller misused the call; nothing was sent. -/
  | invariantViolation (text : String)
  /-- The server answered with a status other than success. -/
  | status (failure : StatusFailure) (reply : ServerReply)
  /-- The entity type was never registered. -/
  | missingMetadata (typeName : String)
  | invalidMetadata (text : String)
  /-- The class of a document is none that was expected. -/
  | unknownClass (className id : String)
  /-- A document does not say what class it has. -/
  | missingClassField (id field : String)
  /-- A write was acknowledged without a revision. -/
  | responseRevisionMissing (id : String)
  /-- A write was not acknowledged. -/
  | writeFailed (reply : WriteReply)
  /-- Some documents of a bulk write were not written. -/
  | bulkFailed (failed : List BulkOutcome)
  /-- The outcomes of a bulk write are not those of its documents. -/
  | bulkMismatch (text : String)
  /-- A row of a view lacks its document. -/
  | missingDocument (id : String)
  /-- A value cannot be put into an envelope. -/
  | codec (text : String)
  /-- The connection of a change feed was lost; the feed goes on. -/
  | streamTransient (text : String)
  /-- The worker of a change feed ended abnormally. -/
  | workerFailed (text : String)
  /-- A reply or a document has the wrong shape. -/
  | serialization (error : ReadError)
  /-- The exchange with the server went wrong. -/
  | http
  /-- The settings cannot be used. -/
  | config (text : String)
deriving DecidableEq, Repr

namespace ClientError

/-- A misuse as a failure. -/
def misuse (m : Misuse) : ClientError := .invariantViolation m.words

/-- The failure of a call that documents the given statuses. -/
def ofStatus (documented : List Nat) (status : Nat) (text : String) : ClientError :=
  .status (if documented.contains status then StatusFailure.ofStatus status else .unsupportedStatus)
    (ServerReply.of status text)

/-- The failure in words. -/
def message : ClientError → String
  | .invariantViolation text => "invariant violation: " ++ text
  | .status failure reply => failure.words ++ ": " ++ reply.shown
  | .missingMetadata name => "no metadata registered for entity type " ++ name
  | .invalidMetadata text => "invalid metadata: " ++ text
  | .unknownClass className id =>
    "unknown class discriminator " ++ Text.quoted className ++ " on document " ++ id
  | .missingClassField id field => "document " ++ id ++ " has no " ++ Text.quoted field ++ " discriminator"
  | .responseRevisionMissing id => "write response carried no revision: " ++ id
  | .writeFailed reply => "write failed: " ++ reply.shown
  | .bulkFailed failed => "bulk write failed for " ++ toString failed.length ++ " document(s)"
  | .bulkMismatch text => "bulk response does not line up with request: " ++ text
  | .missingDocument id => "view row has no embedded document: " ++ id
  | .codec text => "envelope error: " ++ text
  | .streamTransient text => "change feed interrupted: " ++ text
  | .workerFailed text => "change feed worker stopped abnormally: " ++ text
  | .serialization error => "serialization error: " ++ error.message
  | .http => "HTTP error"
  | .config text => "invalid configuration: " ++ text

/-- The server reply behind a failure. -/
def reply? : ClientError → Option ServerReply
  | .status _ reply => some reply
  | _ => none

/-- The status behind a failure. -/
def status? (e : ClientError) : Option Nat := e.reply?.map ServerReply.status

/-- A revision was not the latest. -/
def isConflict : ClientError → Bool
  | .status .conflict _ => true
  | _ => false

/-- There is no such document or database. -/
def isNotFound : ClientError → Bool
  | .status .notFound _ => true
  | _ => false

/-- The caller misused the call. -/
def isInvariantViolation : ClientError → Bool
  | .invariantViolation _ => true
  | _ => false

end ClientError

/-- The result of a call, or how it failed. -/
abbrev Outcome (α : Type) := Except ClientError α

/-- A value read, or the failure that its shape is. -/
def Outcome.ofRead {α : Type} (r : Except ReadError α) : Outcome α := r.mapError .serialization

end DocClient
