/-
# Identifiers and positions in the change log

Documents, revisions, databases and classes are named by texts, each in a type of its own. Any text makes a name; one
that has to mean something must not be blank. A position in the change log is a text too: a server sends it as a string
or as an integer, and an integer is kept as its decimal text.
-/

import DocClient.Json.Reader
import DocClient.Text.Blank

namespace DocClient

/-- The name of a stored document. -/
structure DocId where
  text : String
deriving DecidableEq, Repr, Inhabited

/-- A version of a document, given out by the server. -/
structure Revision where
  text : String
deriving DecidableEq, Repr, Inhabited

/-- The name of a database. -/
structure DatabaseName where
  text : String
deriving DecidableEq, Repr, Inhabited

/-- The name that tells the documents of one entity type from those of others. -/
structure ClassName where
  text : String
deriving DecidableEq, Repr, Inhabited

/-- A position in the change log of a database. -/
structure Sequence where
  text : String
deriving DecidableEq, Repr, Inhabited

/-- The four sorts of names. -/
inductive NameSort where
  | document
  | revision
  | database
  | className
deriving DecidableEq, Repr

namespace NameSort

/-- A sort of names in words. -/
def words : NameSort → String
  | .document => "document id"
  | .revision => "revision"
  | .database => "database name"
  | .className => "class name"

/-- What is said of a blank name. -/
def blankMessage (s : NameSort) : String := s.words ++ " must not be blank"

end NameSort

/-- A text as a name of a sort, or the sort whose names must not be blank. -/
def checkName (sort : NameSort) (s : String) : Except NameSort String :=
  if Text.isBlank s then .error sort else .ok s

namespace DocId

/-- A name is blank when its text is. -/
def isBlank (id : DocId) : Bool := Text.isBlank id.text

/-- Reads a name. -/
def reader : Reader DocId := fun o d => (Reader.text o d).map DocId.mk

end DocId

namespace Revision

/-- A revision is blank when its text is. -/
def isBlank (r : Revision) : Bool := Text.isBlank r.text

/-- Reads a revision. -/
def reader : Reader Revision := fun o d => (Reader.text o d).map Revision.mk

end Revision

namespace DatabaseName

/-- A name is blank when its text is. -/
def isBlank (db : DatabaseName) : Bool := Text.isBlank db.text

/-- Reads a name. -/
def reader : Reader DatabaseName := fun o d => (Reader.text o d).map DatabaseName.mk

end DatabaseName

namespace ClassName

/-- A name is blank when its text is. -/
def isBlank (c : ClassName) : Bool := Text.isBlank c.text

end ClassName

namespace Sequence

/-- Only what changes from this moment on. -/
def now : Sequence := ⟨"now"⟩

/-- The whole log from its beginning. -/
def zero : Sequence := ⟨"0"⟩

/-- Reads a position: a string, or an integer kept as its decimal text. -/
def reader : Reader Sequence
  | _, .str s => .ok ⟨s⟩
  | _, .num (.int n) => .ok ⟨String.ofList (Json.intText n)⟩
  | _, d => Reader.mismatch "a string or integer sequence" d

end Sequence
end DocClient
