/-
# Where the documents of an entity type live

An entity type is registered before it is used; what its registration leaves open follows from conventions:

| | registered | else |
| --- | --- | --- |
| database | the registered one | the shared database, or else one named after the type |
| class | the registered one | the name of the type |

The first resolution of a type that succeeds settles its route for good: later resolutions find it, and the type can no
longer be registered. Each of the two operations is made of sections that look at the routes or change them once
(`isSettled`, `enroll`, `propose`, `settle`), so that operations of several callers may come between one another's
sections.

A type is told apart from all others by a key, and its name is what conventions go by. The key is the name wherever no
two types have one name.
-/

import DocClient.Failure
import DocClient.Routing.Convention
import DocClient.Settings

namespace DocClient

/-- Where the documents of an entity type live and which class they name. -/
structure Route where
  database : DatabaseName
  className : ClassName
deriving DecidableEq, Repr

/-- What is registered of an entity type; the rest follows from conventions. -/
structure Registration where
  database : Option DatabaseName := none
  className : Option ClassName := none
deriving DecidableEq, Repr

/-- An entity type as its routes know it: what tells it apart from all others, and its name. -/
structure TypeTag where
  key : String
  name : String
deriving DecidableEq, Repr

/-- Why an entity type has no route. -/
inductive RouteFault where
  | alreadySettled (typeName : String)
  | blankDatabase (typeName : String)
  | blankClass (typeName : String)
deriving DecidableEq, Repr

namespace RouteFault

/-- The fault in words. -/
def words : RouteFault → String
  | .alreadySettled typeName => typeName ++ " is already resolved; register entity types at startup"
  | .blankDatabase typeName => "database name is blank for " ++ typeName
  | .blankClass typeName => "class name is blank for " ++ typeName

/-- The fault as the failure of a call. -/
def toError (f : RouteFault) : ClientError := .invalidMetadata f.words

end RouteFault

/-- The route that a registration gives to a type of a name. -/
def Registration.route (naming : DatabaseNaming) (typeName : String) (r : Registration) : Outcome Route :=
  let database := r.database.getD (naming.shared?.getD ⟨Convention.snakeCase typeName⟩)
  let className := r.className.getD ⟨typeName⟩
  if database.isBlank then .error (RouteFault.blankDatabase typeName).toError
  else if className.isBlank then .error (RouteFault.blankClass typeName).toError
  else .ok ⟨database, className⟩

/-- The registered entity types and the routes settled so far, by the keys that tell the types apart. -/
structure Routes where
  naming : DatabaseNaming
  registered : Table Registration := []
  settled : Table Route := []
deriving DecidableEq, Repr

namespace Routes

/-- The settled route of a type. -/
def settled? (s : Routes) (key : String) : Option Route := s.settled.get? key

/-- A type has a settled route. -/
def isSettled (s : Routes) (key : String) : Bool := (s.settled? key).isSome

/-- A type is registered. -/
def isRegistered (s : Routes) (key : String) : Bool := s.registered.contains key

/-- Puts a registration in place of the one that was there. -/
def enroll (s : Routes) (key : String) (r : Registration) : Routes :=
  { s with registered := s.registered.insert key r }

/-- The route that the registration of a type gives to it. -/
def propose (s : Routes) (typeName : String) (key : String := typeName) : Outcome Route :=
  match s.registered.get? key with
  | some r => r.route s.naming typeName
  | none => .error (.missingMetadata typeName)

/-- Settles the route of a type, unless it is settled already; the settled route comes with it. -/
def settle (s : Routes) (key : String) (route : Route) : Route × Routes :=
  match s.settled? key with
  | some there => (there, s)
  | none => (route, { s with settled := s.settled.insert key route })

/-- Registers a type. -/
def register (s : Routes) (typeName : String) (r : Registration) (key : String := typeName) : Outcome Routes :=
  if s.isSettled key then .error (RouteFault.alreadySettled typeName).toError
  else .ok (s.enroll key r)

/-- Resolves a type: its route, and the routes with it settled. -/
def resolve (s : Routes) (typeName : String) (key : String := typeName) : Outcome (Route × Routes) :=
  match s.settled? key with
  | some route => .ok (route, s)
  | none => (s.propose typeName key).map (s.settle key)

/-- A type that was enrolled is registered with what it was enrolled with; other types are as before. -/
theorem registered_enroll (s : Routes) (typeName other : String) (r : Registration) :
    (s.enroll typeName r).registered.get? other = if other = typeName then some r else s.registered.get? other :=
  Table.get?_insert typeName other r s.registered

/-- A route that is settled stays, whatever route is settled for the type later. -/
theorem settle_of_settled {s : Routes} {typeName : String} {there : Route} (h : s.settled? typeName = some there)
    (route : Route) : s.settle typeName route = (there, s) := by
  simp [settle, h]

/-- A type that is settled has the route that came with it. -/
theorem settled?_settle (s : Routes) (typeName : String) (route : Route) :
    (s.settle typeName route).2.settled? typeName = some (s.settle typeName route).1 := by
  unfold settle
  split
  · rename_i h
    exact h
  · simp [settled?, Table.get?_insert]

end Routes
end DocClient
