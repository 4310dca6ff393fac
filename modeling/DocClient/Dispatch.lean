/-
# Documents of several entity types

A dispatch says for each class how a document of that class is decoded, and perhaps what becomes of a document of any
other class. A document that names no class is refused even then.
-/

import DocClient.Entity
import DocClient.Envelope
import DocClient.Routing

namespace DocClient

/-- Decodes a stored document, given the class field. -/
abbrev Decoder (ε : Type) := Object → String → Outcome ε

/-- How the documents of each class are decoded. -/
structure Dispatch (ε : Type) where
  decoders : Table (Decoder ε) := []
  /-- What becomes of the documents of other classes. -/
  fallback : Option (Object → ε) := none

namespace Dispatch

variable {ε α : Type}

/-- Decodes the documents of a class as entities of a type; of two types under one class the later one stays. -/
def insert (d : Dispatch ε) (T : EntityType α) (wrap : α → ε) (className : ClassName) : Dispatch ε :=
  { d with
    decoders := d.decoders.insert className.text fun document classField =>
      (Envelope.decode T.reader classField document).map wrap }

/-- Decodes the documents of all other classes by a function. -/
def withFallback (d : Dispatch ε) (f : Object → ε) : Dispatch ε := { d with fallback := some f }

/-- One entity type, under the class that its route names. -/
def single (T : EntityType α) (route : Route) : Dispatch α := insert {} T (fun e => e) route.className

/-- The documents of a class are decoded by a type. -/
def contains (d : Dispatch ε) (className : String) : Bool := d.decoders.contains className

/-- How many classes have a type. -/
def size (d : Dispatch ε) : Nat := d.decoders.length

/-- No class has a type. -/
def isEmpty (d : Dispatch ε) : Bool := d.decoders.isEmpty

/-- Decodes a stored document by the class that it names. -/
def decode (d : Dispatch ε) (document : Object) (classField : String) : Outcome ε :=
  match Envelope.classOf? classField document with
  | none => .error (.missingClassField (Envelope.idOf document) classField)
  | some className =>
    match d.decoders.get? className, d.fallback with
    | some decoder, _ => decoder document classField
    | none, some f => .ok (f document)
    | none, none => .error (.unknownClass className (Envelope.idOf document))

/-- The dispatch as a message shows it: its classes in order, and whether other classes are taken. -/
def shown (d : Dispatch ε) : String :=
  "TypeRegistry \x7b classes: [" ++ ", ".intercalate (d.decoders.map fun m => Text.quoted m.1)
    ++ "], fallback: " ++ (if d.fallback.isSome then "true" else "false") ++ " \x7d"

end Dispatch
end DocClient
