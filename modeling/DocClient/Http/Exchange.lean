/-
# Requests and what becomes of them

A request names a method and a target on a server. What becomes of it is an `Answer`: the server cannot be reached, or
it stays silent, or it answers with a status and as much of a body as arrives before the answer ends.

A single exchange needs a whole body: only an answer that ends by itself, or that has no body, makes a `Reply`. A body
that is not UTF-8 is read with U+FFFD in place of what is not.
-/

import DocClient.Http.BasicAuth
import DocClient.Http.Url
import DocClient.Json.Basic

namespace DocClient

/-- The method of a request. -/
inductive Method where
  | get
  | put
  | post
  | delete
deriving DecidableEq, Repr

/-- The method as it is sent. -/
def Method.text : Method → String
  | .get => "GET"
  | .put => "PUT"
  | .post => "POST"
  | .delete => "DELETE"

/-- A request; a body is sent as JSON. -/
structure Request where
  method : Method
  /-- The host, and the port if it is not the scheme's own. -/
  server : String
  target : String
  authorization : Option String
  body : Option Json
deriving DecidableEq

/-- How an answer ends. -/
inductive Ending where
  /-- By itself: the body is whole. -/
  | closed
  /-- The connection breaks. -/
  | cut
  /-- Nothing more arrives, and the connection stays. -/
  | stalled
deriving DecidableEq, Repr

/-- An answer of one of these statuses has no body, so its status is all that arrives of it. -/
def bodilessStatuses : List Nat := [204, 304]

/-- What becomes of a request. -/
inductive Answer where
  /-- The server cannot be reached. -/
  | refused
  /-- The request arrives, and nothing comes back. -/
  | silent
  /-- A status, a body as far as it arrives, and how it ends. -/
  | answered (status : Nat) (body : List UInt8) (ending : Ending)
deriving DecidableEq, Repr

/-- A whole answer. -/
structure Reply where
  status : Nat
  text : String
deriving DecidableEq, Repr

namespace Answer

/-- The request reaches the server. -/
def arrived : Answer → Bool
  | .refused => false
  | _ => true

/-- The reply that a single exchange makes of an answer. -/
def reply? : Answer → Option Reply
  | .answered status body .closed => some ⟨status, String.ofList (Text.decodeReplacing body)⟩
  | .answered status _ _ => if status ∈ bodilessStatuses then some ⟨status, ""⟩ else none
  | _ => none

end Answer

/-- The request for a URL; a user that the client has goes before one in the URL. -/
def Url.request (u : Url) (method : Method) (user : Option (String × Option String)) (body : Option Json) :
    Request where
  method
  server := u.address
  target := u.target
  authorization := (user <|> u.credentials?).map fun c => BasicAuth.header c.1 c.2
  body

end DocClient
