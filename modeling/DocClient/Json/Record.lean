/-
# Reading records

A record is declared by its fields, in order: the name of each, the reader of its value, and what stands for it when it
is missing. The same declaration reads two forms.

| form | fields | surplus | missing, with nothing to stand for it |
| --- | --- | --- | --- |
| an object | by name, in the order of the members | passed over | `missing field`, after all members were read |
| a sequence | by position | an error | `invalid length`, when its turn comes |

A field named twice in an object is an error where the second name stands. A field may be optional without being
defaulted: then an object may leave it out and a sequence may not.
-/

import DocClient.Json.Reader

namespace DocClient

/-- The parts of a record as they are found. -/
structure Cells where
  /-- The part under a name. -/
  find : String → Option Draft
  /-- The error for a part that is missing. -/
  missing : String → ReadError
  /-- The parts are found by position. -/
  positional : Bool
  origin : Origin

/-- The fields of a record, and the record made of them. -/
structure Fields (α : Type) where
  /-- The names in order, each with a reader that only says whether a part will do. -/
  table : List (String × Reader Unit)
  /-- The record made of its parts, read in the order of the fields. -/
  build : Cells → Except ReadError α

namespace Fields

variable {α β : Type}

/-- The names of the fields. -/
def names (f : Fields α) : List String := f.table.map Prod.fst

/-- One field; `absent` says what a missing part stands for. -/
def single (name : String) (r : Reader α) (absent : Cells → Except ReadError α) : Fields α where
  table := [(name, fun o d => (r o d).map fun _ => ())]
  build cells :=
    match cells.find name with
    | some d => r cells.origin d
    | none => absent cells

/-- A field that has to be there. -/
def field (name : String) (r : Reader α) : Fields α :=
  single name r fun cells => .error (cells.missing name)

/-- A field that an object may leave out. -/
def optional (name : String) (r : Reader α) : Fields (Option α) :=
  single name (Reader.option r) fun cells =>
    if cells.positional then .error (cells.missing name) else .ok none

/-- A field with a value to stand for it. -/
def defaulted (name : String) (r : Reader α) (value : α) : Fields α :=
  single name r fun _ => .ok value

/-- A field that may be left out or null. -/
def nullable (name : String) (r : Reader α) : Fields (Option α) :=
  defaulted name (Reader.option r) none

instance : Applicative Fields where
  pure a := { table := [], build := fun _ => .ok a }
  seq f x := { table := f.table ++ (x ()).table, build := fun cells => do return (← f.build cells) (← (x ()).build cells) }

end Fields

namespace Reader

variable {α : Type}

/-- Looks at the members of an object in order: a field named twice, a part of the wrong shape, or a place where the
text breaks off is an error. -/
def checkMembers (fields : List (String × Reader Unit)) (o : Origin) :
    List String → List (Option String × Draft) → Except ReadError Unit
  | _, [] => .ok ()
  | seen, (k, d) :: rest => do
    let k ← key k
    match fields.lookup k with
    | some check =>
      if seen.contains k then .error (.duplicateField k)
      else do
        check o d
        checkMembers fields o (k :: seen) rest
    | none => do
      whole d.intact
      checkMembers fields o seen rest

/-- Items beyond the last field. -/
def surplus (o : Origin) (items fields : Nat) : ReadError :=
  match o with
  | .text _ => .malformed
  | .value => .invalidLength items "fewer elements in array"
  | .kept => .invalidLength items (toString fields ++ (if fields = 1 then " element" else " elements") ++ " in sequence")

/-- A record: `expected` names it in errors. -/
def record (expected : String) (f : Fields α) : Reader α
  | o, .obj members closed => do
    let o ← o.enter
    checkMembers f.table o [] members
    whole closed
    f.build
      { find := fun name => members.lookup (some name)
        missing := .missingField
        positional := false
        origin := o }
  | o, .arr items closed => do
    let o ← o.enter
    let count := f.table.length
    let due := expected ++ " with " ++ toString count ++ (if count = 1 then " element" else " elements")
    let found := f.names.zip (if closed then items else items ++ [.broken])
    let a ← f.build
      { find := fun name => found.lookup name
        missing := fun name => .invalidLength (f.names.idxOf name) due
        positional := true
        origin := o }
    if count < items.length then .error (surplus o items.length count)
    whole closed
    return a
  | _, d => mismatch expected d

end Reader
end DocClient
