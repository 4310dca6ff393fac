/-
# Registrations and resolutions side by side

Several callers register and resolve one entity type at the same time. Each operation goes through its sections one by
one, and between any two of them the others may go on:

| operation | sections |
| --- | --- |
| register | is the type settled? then put the registration in place |
| resolve | is the type settled? then read the registration and work out the route, then settle it if it is still open |

`Race.run` lets the callers take their sections in any given order.
-/

import DocClient.Routing

namespace DocClient

/-- An operation of one caller, between two of its sections. -/
inductive RouteTask where
  /-- A registration that has not begun. -/
  | register (r : Registration)
  /-- A registration that found the type open. -/
  | enroll (r : Registration)
  /-- A registration that is over. -/
  | registered (result : Outcome Unit)
  /-- A resolution that has not begun. -/
  | resolve
  /-- A resolution that found the type open. -/
  | propose
  /-- A resolution with a route worked out. -/
  | settle (route : Route)
  /-- A resolution that is over. -/
  | resolved (result : Outcome Route)
deriving Repr

namespace RouteTask

/-- The next section of an operation on a type. -/
def step (T : TypeTag) (s : Routes) : RouteTask → RouteTask × Routes
  | .register r =>
    if s.isSettled T.key then (.registered (.error (RouteFault.alreadySettled T.name).toError), s)
    else (.enroll r, s)
  | .enroll r => (.registered (.ok ()), s.enroll T.key r)
  | .resolve =>
    match s.settled? T.key with
    | some route => (.resolved (.ok route), s)
    | none => (.propose, s)
  | .propose =>
    match s.propose T.name T.key with
    | .ok route => (.settle route, s)
    | .error e => (.resolved (.error e), s)
  | .settle route =>
    let (there, s) := s.settle T.key route
    (.resolved (.ok there), s)
  | other => (other, s)

end RouteTask

/-- Several operations on one type under way. -/
structure Race where
  routes : Routes
  tasks : List RouteTask
deriving Repr

namespace Race

/-- Some registrations and resolutions, none of which has begun. -/
def start (routes : Routes) (registrations : List Registration) (resolutions : Nat) : Race where
  routes
  tasks := registrations.map .register ++ List.replicate resolutions .resolve

/-- The next section of one of the operations. -/
def step (T : TypeTag) (race : Race) (turn : Nat) : Race :=
  match race.tasks[turn]? with
  | some task =>
    let (task, routes) := task.step T race.routes
    { routes, tasks := race.tasks.set turn task }
  | none => race

/-- The operations after so many turns. -/
def run (T : TypeTag) (race : Race) (turns : List Nat) : Race := turns.foldl (step T) race

end Race
end DocClient
