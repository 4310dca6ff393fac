/-
# Reading one document

A document is read by its name. It comes as the entity, or as nothing where there is no document of that name, and with
the members that the server looks after.

| status | result |
| ---: | --- |
| 200 | the document |
| 404 | nothing; the error and its reason stand among the server's members |
| 304, 400, 401, 403 | the failure of that status |
| any other | an unsupported status |
-/

import DocClient.Client
import DocClient.Entity

namespace DocClient

/-- What a read asks for besides the document. -/
structure ReadOptions where
  attachments : Bool := false
  attEncodingInfo : Bool := false
  /-- Attachments only of revisions after these. -/
  attsSince : List Revision := []
  conflicts : Bool := false
  deletedConflicts : Bool := false
  latest : Bool := false
  localSeq : Bool := false
  metadata : Bool := false
  /-- The leaf revisions to read. -/
  openRevs : List Revision := []
  /-- The revision to read. -/
  rev : Option Revision := none
  revs : Bool := false
  revsInfo : Bool := false
deriving DecidableEq, Repr

namespace ReadOptions

/-- The switches, by their names in a query. -/
def switches (o : ReadOptions) : List (String × Bool) :=
  [("attachments", o.attachments), ("att_encoding_info", o.attEncodingInfo), ("conflicts", o.conflicts),
    ("deleted_conflicts", o.deletedConflicts), ("latest", o.latest), ("local_seq", o.localSeq), ("meta", o.metadata),
    ("revs", o.revs), ("revs_info", o.revsInfo)]

/-- A list of revisions, if it is not empty, as a JSON array. -/
def revisionList (name : String) (revs : List Revision) : List (String × String) :=
  if revs.isEmpty then [] else [(name, (Json.ofRevisions revs).compact)]

/-- The options as the pairs of a query; an option that is not set gives none. -/
def query (o : ReadOptions) : List (String × String) :=
  (o.switches.filter Prod.snd).map (fun s => (s.1, "true"))
    ++ revisionList "atts_since" o.attsSince
    ++ revisionList "open_revs" o.openRevs
    ++ (o.rev.map fun rev => ("rev", rev.text)).toList

end ReadOptions

/-- The statuses that a read documents. -/
def readStatuses : List Nat := [304, 400, 401, 403]

/-- A document is named by a text that is not blank. -/
def requireId (id : DocId) : Outcome Unit := forbid id.isBlank .blankId

/-- What the server says of a document that it does not have. -/
def SystemFields.absent (text : String) : SystemFields :=
  let body := (Reader.ofText ErrorBody.reader text.toList).toOption.getD {}
  { error := if body.error = "" then none else some body.error, reason := body.reason }

/-- The server's members of a document and the others, from the reply to a read. -/
def readReply (reply : Reply) : Outcome (SystemFields × Option Object) :=
  match reply.status with
  | 200 => do
    let document ← Outcome.ofRead (Reader.ofText Reader.object reply.text.toList)
    let (system, fields) := Envelope.split document
    return (← Outcome.ofRead (SystemFields.reader.ofJson (.obj system)), some fields)
  | 404 => .ok (.absent reply.text, none)
  | status => .error (.ofStatus readStatuses status reply.text)

/-- What is decoded of a document that may be missing. -/
def decodeFound {α : Type} (decode : Object → Outcome α) (found : SystemFields × Option Object) :
    Outcome (SystemFields × Option α) :=
  match found with
  | (system, some fields) => (decode fields).map fun e => (system, some e)
  | (system, none) => .ok (system, none)

namespace Client

variable {α : Type}

/-- Reads the document at a path. -/
def readDocument (c : Client) (path : List String) (options : ReadOptions) :
    Call (SystemFields × Option Object) :=
  c.call .get path (some options.query) none readReply

/-- Reads an entity with the server's members of its document. -/
def getWithSystem (c : Client) (T : EntityType α) (id : DocId) (options : ReadOptions) :
    Plan (SystemFields × Option α) :=
  .of do
    .of (requireId id)
    let route ← Routes.require T.name
    return (c.readDocument [route.database.text, id.text] options).andThen
      (decodeFound (Envelope.decode T.reader c.settings.classField))

/-- Reads an entity. -/
def get (c : Client) (T : EntityType α) (id : DocId) (options : ReadOptions) : Plan (Option α) := fun routes =>
  let (call, routes) := c.getWithSystem T id options routes
  (call.andThen fun found => .ok found.2, routes)

end Client
end DocClient
