/-
# JSON values

A value is null, a boolean, a number, a string, an array or an object. A number is an integer or a binary64 number,
never both: `1` and `1.0` differ. An object keeps its members in ascending order of their keys by code point, which is
also their order by UTF-8 bytes, each key once; `Json.Canonical` says so of a whole value, and every operation here
keeps it.
-/

import DocClient.Number.Binary64
import DocClient.Table

namespace DocClient

/-- A JSON number: an integer, or a number written with a fraction, an exponent or too many digits. -/
inductive Number where
  | int (n : Int)
  | float (x : Double)
deriving DecidableEq, Repr

/-- A JSON value; the members of an object stand in ascending order of their keys. -/
inductive Json where
  | null
  | bool (b : Bool)
  | num (n : Number)
  | str (s : String)
  | arr (items : List Json)
  | obj (members : List (String × Json))
deriving Repr, Inhabited

/-- The members of an object, in ascending order of their keys. -/
abbrev Object := Table Json

namespace Json

/-- An integer as a value. -/
def ofInt (n : Int) : Json := .num (.int n)

/-- A natural number as a value. -/
def ofNat (n : Nat) : Json := .num (.int n)

/-- The object with given members; of two under one key the later one stays. -/
def ofMembers (members : List (String × Json)) : Json := .obj (Table.ofList members)

/-- The object with those of the given members that have a value. -/
def ofOptions (members : List (String × Option Json)) : Json := .obj (Table.ofOptions members)

/-- An array of strings. -/
def ofStrings (texts : List String) : Json := .arr (texts.map .str)

/-- A value is null. -/
def isNull : Json → Bool
  | .null => true
  | _ => false

/-- The text of a string value. -/
def str? : Json → Option String
  | .str s => some s
  | _ => none

/-- The truth value of a boolean value. -/
def bool? : Json → Option Bool
  | .bool b => some b
  | _ => none

/-- The members of an object value. -/
def obj? : Json → Option Object
  | .obj o => some o
  | _ => none

/-- What sort of value it is, in one word. -/
def sort : Json → String
  | .null => "null"
  | .bool _ => "boolean"
  | .num _ => "number"
  | .str _ => "string"
  | .arr _ => "array"
  | .obj _ => "object"

mutual

/-- Two values are the same. -/
def same : Json → Json → Bool
  | .null, .null => true
  | .bool a, .bool b => a == b
  | .num a, .num b => a == b
  | .str a, .str b => a == b
  | .arr a, .arr b => sameItems a b
  | .obj a, .obj b => sameMembers a b
  | _, _ => false

/-- Two lists of items are the same, item by item. -/
def sameItems : List Json → List Json → Bool
  | [], [] => true
  | a :: as, b :: bs => same a b && sameItems as bs
  | _, _ => false

/-- Two lists of members are the same, key by key and value by value. -/
def sameMembers : List (String × Json) → List (String × Json) → Bool
  | [], [] => true
  | (k, a) :: as, (l, b) :: bs => k == l && same a b && sameMembers as bs
  | _, _ => false

end

instance : BEq Json := ⟨same⟩

mutual

/-- Every object inside a value has its keys in ascending order, each once. -/
def Canonical : Json → Prop
  | .arr items => CanonicalItems items
  | .obj members => Table.Sorted members ∧ CanonicalMembers members
  | _ => True

/-- Every item is canonical. -/
def CanonicalItems : List Json → Prop
  | [] => True
  | v :: rest => Canonical v ∧ CanonicalItems rest

/-- Every member holds a canonical value. -/
def CanonicalMembers : List (String × Json) → Prop
  | [] => True
  | (_, v) :: rest => Canonical v ∧ CanonicalMembers rest

end

mutual

/-- A value is the same as another exactly when they are equal. -/
theorem same_iff : ∀ a b : Json, same a b = true ↔ a = b
  | .arr a, b => by cases b <;> simp [same, sameItems_iff a]
  | .obj a, b => by cases b <;> simp [same, sameMembers_iff a]
  | .null, b => by cases b <;> simp [same]
  | .bool _, b => by cases b <;> simp [same]
  | .num _, b => by cases b <;> simp [same]
  | .str _, b => by cases b <;> simp [same]

/-- Lists of items are the same exactly when they are equal. -/
theorem sameItems_iff : ∀ a b : List Json, sameItems a b = true ↔ a = b
  | [], b => by cases b <;> simp [sameItems]
  | a :: as, b => by cases b <;> simp [sameItems, same_iff a, sameItems_iff as]

/-- Lists of members are the same exactly when they are equal. -/
theorem sameMembers_iff : ∀ a b : List (String × Json), sameMembers a b = true ↔ a = b
  | [], b => by cases b <;> simp [sameMembers]
  | (k, a) :: as, b => by
    rcases b with _ | ⟨⟨l, b⟩, bs⟩ <;> simp [sameMembers, same_iff a, sameMembers_iff as, and_assoc]

end

instance : DecidableEq Json := fun a b => decidable_of_iff _ (same_iff a b)

end Json
end DocClient
