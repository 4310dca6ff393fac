/-
# Reading values of a type from JSON

A `Reader α` makes an `α` of a draft or says why it cannot. The first fault in reading order wins: the order of the
text for a draft of a text, the order of the keys for a draft of a value. Where the text breaks off before any other
fault the answer is `malformed`, which has no wording of its own here.

Some rules depend on where the draft comes from (`Origin`): a text bounds how deep a value may nest and has no place
for a surplus item, a value has neither bound, and a value kept aside while its tag was looked for words the surplus
in its own way.
-/

import DocClient.Json.Draft
import DocClient.Json.Printer
import DocClient.Text.Quoted

namespace DocClient

/-- What stands where something else was expected. -/
inductive Found where
  | null
  | bool (b : Bool)
  | num (n : Number)
  | str (s : String)
  | sequence
  | map
  /-- A bare name where a name with content was expected. -/
  | bareVariant
deriving DecidableEq, Repr

namespace Found

/-- What was found, in words. -/
def text : Found → String
  | .null => "null"
  | .bool b => "boolean `" ++ (if b then "true" else "false") ++ "`"
  | .num (.int n) => "integer `" ++ String.ofList (Json.intText n) ++ "`"
  | .num (.float x) => "floating point `" ++ String.ofList x.text ++ "`"
  | .str s => "string " ++ Text.quoted s
  | .sequence => "sequence"
  | .map => "map"
  | .bareVariant => "unit variant"

end Found

/-- Why a draft has no value of a type. -/
inductive ReadError where
  /-- The text breaks off, nests too deep, or has a number or string without a value. -/
  | malformed
  | invalidType (found : Found) (expected : String)
  | invalidValue (found : Found) (expected : String)
  | invalidLength (length : Nat) (expected : String)
  | unknownVariant (name : String) (known : List String)
  | missingField (name : String)
  | duplicateField (name : String)
deriving DecidableEq, Repr

namespace ReadError

/-- A list of names in backquotes: `a`; `a` or `b`; one of `a`, `b`, `c`. -/
def oneOf (names : List String) : String :=
  match names.map fun name => "`" ++ name ++ "`" with
  | [] => "nothing"
  | [a] => a
  | [a, b] => a ++ " or " ++ b
  | all => "one of " ++ ", ".intercalate all

/-- The error in words. -/
def message : ReadError → String
  | .malformed => "malformed JSON"
  | .invalidType found expected => "invalid type: " ++ found.text ++ ", expected " ++ expected
  | .invalidValue found expected => "invalid value: " ++ found.text ++ ", expected " ++ expected
  | .invalidLength n expected => "invalid length " ++ toString n ++ ", expected " ++ expected
  | .unknownVariant name known => "unknown variant `" ++ name ++ "`, expected " ++ oneOf known
  | .missingField name => "missing field `" ++ name ++ "`"
  | .duplicateField name => "duplicate field `" ++ name ++ "`"

end ReadError

/-- Where a draft comes from. -/
inductive Origin where
  /-- A text, with so many levels of nesting left. -/
  | text (room : Nat)
  /-- A value. -/
  | value
  /-- A value that was kept aside while its tag was looked for. -/
  | kept
deriving DecidableEq, Repr

/-- Goes one level of nesting down. -/
def Origin.enter : Origin → Except ReadError Origin
  | .text 0 => .error .malformed
  | .text (room + 1) => .ok (.text room)
  | other => .ok other

/-- The levels of nesting that a text may have. -/
def nestingLimit : Nat := 127

/-- Makes a value of a type of a draft, or says why it cannot. -/
abbrev Reader (α : Type) := Origin → Draft → Except ReadError α

namespace Draft

/-- What a draft is found to be; `none` where it has no value. -/
def found? : Draft → Option Found
  | .null => some .null
  | .bool b => some (.bool b)
  | .num n => some (.num n)
  | .str s => some (.str s)
  | .arr .. => some .sequence
  | .obj .. => some .map
  | .unreadable | .broken => none

end Draft

namespace Reader

variable {α : Type}

/-- The error for a draft of the wrong shape. -/
def mismatch (expected : String) (d : Draft) : Except ReadError α :=
  match d.found? with
  | some found => .error (.invalidType found expected)
  | none => .error .malformed

/-- Fails where the text breaks off. -/
def whole (closed : Bool) : Except ReadError Unit := if closed then .ok () else .error .malformed

/-- A string. -/
def text : Reader String
  | _, .str s => .ok s
  | _, d => mismatch "a string" d

/-- A boolean. -/
def flag : Reader Bool
  | _, .bool b => .ok b
  | _, d => mismatch "a boolean" d

/-- An integer between two bounds. -/
def integer (low high : Int) (expected : String) : Reader Int
  | _, .num (.int n) => if low ≤ n ∧ n ≤ high then .ok n else .error (.invalidValue (.num (.int n)) expected)
  | _, d => mismatch expected d

/-- The least integer of 64 bits. -/
def minInt64 : Int := -0x8000000000000000

/-- The greatest integer of 64 bits. -/
def maxInt64 : Int := 0x7FFFFFFFFFFFFFFF

/-- A signed integer of 64 bits. -/
def int64 : Reader Int := integer minInt64 maxInt64 "i64"

/-- A natural number up to a bound. -/
def natural (high : Nat) (expected : String) : Reader Nat :=
  fun o d => (integer 0 high expected o d).map Int.toNat

/-- An unsigned integer of 64 bits. -/
def nat64 : Reader Nat := natural 0xFFFFFFFFFFFFFFFF "u64"

/-- An unsigned integer of 32 bits. -/
def nat32 : Reader Nat := natural 0xFFFFFFFF "u32"

/-- An unsigned integer of 16 bits. -/
def nat16 : Reader Nat := natural 0xFFFF "u16"

/-- Nothing but null. -/
def unit : Reader Unit
  | _, .null => .ok ()
  | _, d => mismatch "unit" d

/-- Null, or a value of a type. -/
def option (r : Reader α) : Reader (Option α)
  | _, .null => .ok none
  | o, d => (r o d).map some

/-- A sequence, read item by item. -/
def list (r : Reader α) : Reader (List α)
  | o, .arr items closed => do
    let o ← o.enter
    let values ← items.mapM (r o)
    whole closed
    return values
  | _, d => mismatch "a sequence" d

/-- The key of a member, if it can be read. -/
def key : Option String → Except ReadError String
  | some k => .ok k
  | none => .error .malformed

/-- A map from texts, read member by member; of two under one key the later one stays. -/
def table (r : Reader α) : Reader (Table α)
  | o, .obj members closed => do
    let o ← o.enter
    let entries ← members.mapM fun m => do return (← key m.1, ← r o m.2)
    whole closed
    return Table.ofList entries
  | _, d => mismatch "a map" d

mutual

/-- Any value. -/
def json (o : Origin) : Draft → Except ReadError Json
  | .null => .ok .null
  | .bool b => .ok (.bool b)
  | .num n => .ok (.num n)
  | .str s => .ok (.str s)
  | .arr items closed => do
    let o ← o.enter
    let values ← jsonItems o items
    whole closed
    return .arr values
  | .obj members closed => do
    let o ← o.enter
    let entries ← jsonMembers o members
    whole closed
    return .obj (Table.ofList entries)
  | .unreadable => .error .malformed
  | .broken => .error .malformed

/-- Any items. -/
def jsonItems (o : Origin) : List Draft → Except ReadError (List Json)
  | [] => .ok []
  | d :: rest => do
    let v ← json o d
    return v :: (← jsonItems o rest)

/-- Any members. -/
def jsonMembers (o : Origin) : List (Option String × Draft) → Except ReadError (List (String × Json))
  | [] => .ok []
  | (k, d) :: rest => do
    let k ← key k
    let v ← json o d
    return (k, v) :: (← jsonMembers o rest)

end

/-- Any object. -/
def object : Reader Object
  | o, .obj members closed => do
    let o ← o.enter
    let entries ← jsonMembers o members
    whole closed
    return Table.ofList entries
  | _, d => mismatch "a map" d

/-- What stands for a name, out of a list of known names. -/
def named (known : List (String × α)) (name : String) : Except ReadError α :=
  match known.lookup name with
  | some a => .ok a
  | none => .error (.unknownVariant name (known.map Prod.fst))

/-- One of several names with content: `bare` reads a name on its own, and each known name comes with the reader of what
stands beside it in an object of one member. -/
def variant (known : List (String × Reader α)) (bare : Reader α → Except ReadError α) : Reader α
  | _, .str name => do bare (← named known name)
  | .text room, .obj members closed => do
    let o ← (Origin.text room).enter
    match members with
    | [] => .error .malformed
    | (k, d) :: rest =>
      let r ← named known (← key k)
      let a ← r o d
      whole (rest.isEmpty && closed)
      return a
  | .text _, _ => .error .malformed
  | o, .obj [(some k, d)] _ => do
    let r ← named known k
    r o d
  | _, .obj .. => .error (.invalidValue .map "map with a single key")
  | _, d => mismatch "string or map" d

/-- One of several names; in an object of one member the name stands beside null. -/
def choice (known : List (String × α)) : Reader α :=
  variant (known.map fun k => (k.1, fun o d => (unit o d).map fun _ => k.2)) fun r => r .value .null

/-- One of several names, each with content. -/
def cases (known : List (String × Reader α)) : Reader α :=
  variant known fun _ => .error (.invalidType .bareVariant "newtype variant")

/-- The name under which a tagged value is found: a string. -/
def tagName : Draft → Except ReadError String
  | .str name => .ok name
  | d => mismatch "variant identifier" d

/-- The members of a tagged object: what its tag stands for, if it is there, and the other members, kept aside. -/
def splitTag (tag : String) (known : List (String × Reader α)) (o : Origin) :
    List (Option String × Draft) → Except ReadError (Option (Reader α) × List (Option String × Draft))
  | [] => .ok (none, [])
  | members => members.foldlM (fun (found, others) m => do
      let k ← key m.1
      if k = tag then
        if found.isSome then .error (.duplicateField tag)
        else do
          let r ← named known (← tagName m.2)
          return (some r, others)
      else do
        let _ ← json o m.2
        return (found, others ++ [m])) (none, [])

/-- An object with a tag among its members, or a sequence that starts with it; the tag names the reader of the rest. -/
def tagged (expected tag : String) (known : List (String × Reader α)) : Reader α
  | o, .obj members closed => do
    let o ← o.enter
    let (found, others) ← splitTag tag known o members
    whole closed
    match found with
    | some r => r .kept (.obj others true)
    | none => .error (.missingField tag)
  | o, .arr items closed => do
    let o ← o.enter
    match items with
    | [] =>
      whole closed
      .error (.missingField tag)
    | first :: rest =>
      let r ← named known (← tagName first)
      let _ ← jsonItems o rest
      whole closed
      r .kept (.arr rest true)
  | _, d => mismatch expected d

/-- The rest of a tagged value whose tag stands for itself: members are passed over, items are too many. -/
def nothing (a : α) : Reader α
  | _, .arr (d :: rest) _ => .error (.invalidLength (d :: rest).length "0 elements in sequence")
  | _, _ => .ok a

/-- Reads a value of a type from a text, after which nothing but white space may follow. -/
def ofText (r : Reader α) (cs : List Char) : Except ReadError α := do
  let doc := Draft.ofText cs
  let a ← r (.text nestingLimit) doc.root
  whole doc.ended
  return a

/-- Reads a value of a type from a value. -/
def ofJson (r : Reader α) (v : Json) : Except ReadError α := r .value (Draft.ofJson v)

end Reader

/-- The value of a JSON text. -/
def Json.parse (s : String) : Except ReadError Json := Reader.ofText Reader.json s.toList

end DocClient
