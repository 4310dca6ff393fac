/-
# The envelope of a stored document

In the domain a document has an `id` and a `revision`; the server stores them as `_id` and `_rev`, keeps members of its
own under names with an underscore, and an entity carries the name of its class under the class field.

| member | going out | coming in |
| --- | --- | --- |
| `id` | `_id` | kept |
| `revision` | `_rev`, left out if null | kept |
| `_id`, `_rev` | kept | `id`, `revision` |
| the class field | set last, over what was there | left out, after `_id` and `_rev` |
| another with an underscore | kept | left out |
| any other | kept, or left out if null and the policy says so | kept |

The members are gone through in the order of their keys, and where two end up under one name the later one stays.
-/

import DocClient.Failure
import DocClient.Settings

namespace DocClient
namespace Envelope

/-- The prefix of the names of design documents. -/
def designPrefix : String := "_design/"

/-- The text without a prefix, if it has it. -/
def dropPrefix? (lead s : String) : Option String :=
  if lead.toList.isPrefixOf s.toList then some (String.ofList (s.toList.drop lead.length)) else none

/-- The domain value as an object. -/
def members (v : Json) : Outcome Object :=
  match v with
  | .obj o => .ok o
  | other => .error (.codec ("expected a JSON object, got " ++ other.sort))

/-- The name under which a member goes out; `none` if it is left out. -/
def outgoing? (policy : NullPolicy) (key : String) (value : Json) : Option String :=
  if key = "id" then some "_id"
  else if key = "revision" then if value.isNull then none else some "_rev"
  else if value.isNull ∧ policy = .omit then none
  else some key

/-- An object with its members under the names that `rename` gives them. -/
def rename (name? : String → Json → Option String) (o : Object) : Object :=
  Table.ofList (o.filterMap fun m => (name? m.1 m.2).map fun name => (name, m.2))

/-- How documents of a client are written: the class field and the null policy. -/
structure Style where
  classField : String
  nullFields : NullPolicy
deriving DecidableEq, Repr

/-- The style that settings ask for. -/
def Style.ofSettings (s : Settings) : Style := ⟨s.classField, s.nullFields⟩

/-- The stored form of an entity. -/
def encode (style : Style) (className : ClassName) (entity : Json) : Outcome Object := do
  let wire := rename (outgoing? style.nullFields) (← members entity)
  if !wire.contains "_id" then .error (.codec "entity has no \"id\" field")
  return wire.insert style.classField (.str className.text)

/-- The stored form of a design document: nulls are left out, and the name has its prefix. -/
def encodeDesign (design : Json) : Outcome Object := do
  let wire := rename (outgoing? .omit) (← members design)
  match wire.get? "_id" with
  | some (.str id) =>
    return if (dropPrefix? designPrefix id).isSome then wire else wire.insert "_id" (.str (designPrefix ++ id))
  | _ => .error (.codec "design document id must be a string")

/-- A name starts with an underscore. -/
def isSystem (key : String) : Bool := key.toList.head? == some '_'

/-- The name under which a member comes in; `none` if it is left out. -/
def incoming? (classField : Option String) (key : String) : Option String :=
  if key = "_id" then some "id"
  else if key = "_rev" then some "revision"
  else if some key = classField then none
  else if isSystem key then none
  else some key

/-- The domain form of a stored document. -/
def domain (classField : Option String) (wire : Object) : Object :=
  rename (fun key _ => incoming? classField key) wire

/-- Reads an entity from its stored form. -/
def decode {α : Type} (r : Reader α) (classField : String) (wire : Object) : Outcome α :=
  .ofRead (r.ofJson (.obj (domain (some classField) wire)))

/-- Reads a design document from its stored form; its name loses one prefix. -/
def decodeDesign {α : Type} (r : Reader α) (wire : Object) : Outcome α :=
  let o := domain none wire
  let o := match o.get? "id" with
    | some (.str id) =>
      match dropPrefix? designPrefix id with
      | some name => o.insert "id" (.str name)
      | none => o
    | _ => o
  .ofRead (r.ofJson (.obj o))

/-- Reads a value of a view: an object as the stored form of an entity, any other value as it is. -/
def decodeValue {α : Type} (r : Reader α) (classField : String) (value : Json) : Outcome α :=
  match value with
  | .obj wire => decode r classField wire
  | other => .ofRead (r.ofJson other)

/-- The members that the server looks after, and the others; `_id` and `_rev` are among the others. -/
def split (document : Object) : Object × Object :=
  document.partition fun m => isSystem m.1 && m.1 != "_id" && m.1 != "_rev"

/-- The class that a stored document names. -/
def classOf? (classField : String) (document : Object) : Option String :=
  (document.get? classField).bind Json.str?

/-- The name of a stored document, or nothing if it has none. -/
def idOf (document : Object) : String := ((document.get? "_id").bind Json.str?).getD ""

/-- A stored document only says that it was deleted. -/
def isTombstone (document : Object) : Bool := ((document.get? "_deleted").bind Json.bool?).getD false

end Envelope
end DocClient
