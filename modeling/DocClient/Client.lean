/-
# Clients and their calls

A client is made of settings that can be used. Every call of a client first looks at its arguments and at the routes of
the entity types, and then either is done or sends one request: that is a `Call`, a value, so that what would be sent
can be seen without sending it. A `Plan` is a call that looks at the routes and may settle some.

| a call | sends | its result |
| --- | --- | --- |
| `done` | nothing | is there |
| `send` | one request | is made of the reply, or is a failed exchange |
-/

import DocClient.Envelope
import DocClient.Http.Exchange
import DocClient.Routing

namespace DocClient

/-- A client: settings that can be used. -/
structure Client where
  settings : Settings
  usable : settings.refusal? = none

/-- A call: its result, or the one request that it sends and what it makes of the reply. -/
inductive Call (α : Type) where
  | done (result : Outcome α)
  | send (request : Request) (receive : Reply → Outcome α)

namespace Call

variable {α β : Type}

/-- Goes on with the result of a call, without another request. -/
def andThen (f : α → Outcome β) : Call α → Call β
  | .done result => .done (result.bind f)
  | .send request receive => .send request fun reply => (receive reply).bind f

/-- The request that a call sends. -/
def request? : Call α → Option Request
  | .done _ => none
  | .send request _ => some request

/-- The result of a call, given what becomes of its request. -/
def result (answer : Answer) : Call α → Outcome α
  | .done result => result
  | .send _ receive =>
    match answer.reply? with
    | some reply => receive reply
    | none => .error .http

/-- Going on with the result does not change what is sent. -/
theorem request?_andThen (f : α → Outcome β) (c : Call α) : (c.andThen f).request? = c.request? := by
  cases c <;> rfl

/-- Going on with the result of a call is going on with what it comes to. -/
theorem result_andThen (f : α → Outcome β) (c : Call α) (answer : Answer) :
    (c.andThen f).result answer = (c.result answer).bind f := by
  cases c with
  | done result => rfl
  | send request receive =>
    simp only [andThen, result]
    cases answer.reply? <;> rfl

end Call

/-- Looks at the routes of the entity types and may settle some; what was settled stays so even if it fails later. -/
abbrev Prepared (α : Type) := ExceptT ClientError (StateM Routes) α

/-- A call that looks at the routes. -/
abbrev Plan (α : Type) := Routes → Call α × Routes

/-- A call after its preparation; a preparation that fails sends nothing. -/
def Plan.of {α : Type} (p : Prepared (Call α)) : Plan α := fun routes =>
  match p.run.run routes with
  | (.ok call, routes) => (call, routes)
  | (.error e, routes) => (.done (.error e), routes)

/-- A preparation that does not look at the routes. -/
def Prepared.of {α : Type} (r : Outcome α) : Prepared α := ExceptT.mk (pure r)

/-- The route of an entity type, settled if it was not. -/
def Routes.require (typeName : String) : Prepared Route := do
  match (← get).resolve typeName with
  | .ok (route, routes) =>
    set routes
    return route
  | .error e => throw e

/-- Fails where a caller does what a call does not allow. -/
def forbid (misused : Bool) (m : Misuse) : Outcome Unit := if misused then .error (.misuse m) else .ok ()

namespace Client

/-- A client with given settings, if they can be used. -/
def ofSettings (s : Settings) : Outcome Client :=
  match h : s.refusal? with
  | none => .ok ⟨s, h⟩
  | some text => .error (.config text)

/-- The routes of a new client: no entity type is registered. -/
def routes (c : Client) : Routes := { naming := c.settings.databaseNaming }

/-- How the documents of a client are written. -/
def style (c : Client) : Envelope.Style := Envelope.Style.ofSettings c.settings

/-- The URL of a path below the base URL. -/
def locate (c : Client) (path : List String) : List Char :=
  c.settings.server.toList ++ path.flatMap fun segment => '/' :: Percent.segment segment

/-- The user of the client. -/
def user? (c : Client) : Option (String × Option String) :=
  c.settings.username.map fun user => (user, c.settings.password)

/-- The request for a path below the base URL; none where the base URL is no absolute http URL. -/
def request? (c : Client) (method : Method) (path : List String) (options : Option (List (String × String)))
    (body : Option Json) : Option Request :=
  (Url.parse? (c.locate path)).map fun url =>
    (match options with | some pairs => url.addPairs pairs | none => url).request method c.user? body

/-- A call that sends a request for a path below the base URL. -/
def call {α : Type} (c : Client) (method : Method) (path : List String) (options : Option (List (String × String)))
    (body : Option Json) (receive : Reply → Outcome α) : Call α :=
  match c.request? method path options body with
  | some request => .send request receive
  | none => .done (.error .http)

end Client
end DocClient
