/-
# The changes of a feed

A line of a feed is a change if it is a JSON object of the right shape. All other lines are passed over:

| line | what becomes of it |
| --- | --- |
| blank | nothing: it is a sign of life |
| no JSON object | passed over |
| an object with `error` | passed over |
| an object with `last_seq` | passed over |
| an object of another shape | passed over |
| a change | delivered |
| a change whose document was asked for and cannot be decoded | the feed fails |

The document of a change is decoded if it was asked for, the change is no deletion, and the document names a class.
-/

import DocClient.Dispatch
import DocClient.Feed.Log
import DocClient.Feed.Request

namespace DocClient

/-- A change of a database. -/
structure Change (ε : Type) where
  /-- The position after the change; a server may leave it out. -/
  seq : Option Sequence
  id : DocId
  /-- The leaf revisions after the change. -/
  revisions : List Revision
  deleted : Bool
  doc : Option ε
deriving DecidableEq, Repr

/-- The change with another document. -/
def Change.map {ε δ : Type} (f : ε → δ) (c : Change ε) : Change δ :=
  ⟨c.seq, c.id, c.revisions, c.deleted, c.doc.map f⟩

/-- A change as its line has it. -/
structure ChangeRecord where
  seq : Option Sequence
  id : DocId
  revisions : List Revision
  deleted : Bool
  doc : Option Object
deriving DecidableEq, Repr

namespace ChangeRecord

/-- Reads a revision of a change. -/
def revisionReader : Reader Revision :=
  Reader.record "struct ChangeRev" (Fields.field "rev" Revision.reader)

/-- Reads a change. -/
def reader : Reader ChangeRecord :=
  Reader.record "struct ChangeLine" <|
    ChangeRecord.mk
      <$> Fields.nullable "seq" Sequence.reader
      <*> Fields.field "id" DocId.reader
      <*> Fields.defaulted "changes" (Reader.list revisionReader) []
      <*> Fields.defaulted "deleted" Reader.flag false
      <*> Fields.nullable "doc" Reader.object

/-- The change with its document decoded or left out. -/
def withDoc {ε : Type} (r : ChangeRecord) (doc : Option ε) : Change ε := ⟨r.seq, r.id, r.revisions, r.deleted, doc⟩

end ChangeRecord

/-- What a line comes to. -/
inductive Verdict (ε : Type) where
  /-- Nothing; perhaps it is logged. -/
  | skip (entry : Option LogEntry)
  /-- A change; perhaps something is logged. -/
  | deliver (entry : Option LogEntry) (change : Change ε)
  /-- The feed fails. -/
  | fail (e : ClientError)

/-- How the lines of a feed are read: whether documents were asked for, and how they are decoded. -/
structure LineReader (ε : Type) where
  includeDocs : Bool
  classField : String
  dispatch : Dispatch ε

namespace LineReader

variable {ε : Type}

/-- The verdict on a change. -/
def judgeRecord (l : LineReader ε) (r : ChangeRecord) : Verdict ε :=
  match r.doc with
  | some document =>
    if l.includeDocs && !r.deleted then
      match Envelope.classOf? l.classField document with
      | some _ =>
        match l.dispatch.decode document l.classField with
        | .ok e => .deliver none (r.withDoc (some e))
        | .error e => .fail e
      | none => .deliver (some (.noClass r.id)) (r.withDoc none)
    else .deliver none (r.withDoc none)
  | none => .deliver none (r.withDoc none)

/-- The verdict on an object. -/
def judgeObject (l : LineReader ε) (o : Object) : Verdict ε :=
  match o.get? "error" with
  | some value => .skip (some (.reportedError value))
  | none =>
    if o.contains "last_seq" then .skip (some .endMarker)
    else
      match ChangeRecord.reader.ofJson (.obj o) with
      | .ok r => l.judgeRecord r
      | .error e => .skip (some (.malformedChange e))

/-- The verdict on a line. -/
def judge (l : LineReader ε) (line : List Char) : Verdict ε :=
  let line := Text.trim line
  if line.isEmpty then .skip none
  else
    match Reader.ofText Reader.object line with
    | .ok o => l.judgeObject o
    | .error _ => .skip (some .malformedLine)

end LineReader
end DocClient
