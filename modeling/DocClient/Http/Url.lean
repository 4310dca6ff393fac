/-
# Absolute http URLs

A URL is read after the controls and spaces around it, and the tabs and line ends inside it, are dropped. Its parts:

| part | from | to |
| --- | --- | --- |
| scheme | the start | the first `:`; `http` or `https` in any case |
| user and password | the slashes of either kind after it | the last `@` before the path |
| host and port | there | the next `/`, `\`, `?` or `#`; the port after the first `:` outside brackets |
| path | there | the next `?` or `#` |
| query | after the `?` | the next `#` |

The rest is dropped. The path is a list of segments: a `.` segment, also one written `%2e`, goes away, and a `..`
segment takes the one before it along; either leaves an empty segment behind where it is the last one.
-/

import DocClient.Http.Percent

namespace DocClient

/-- An absolute http URL. -/
structure Url where
  /-- The scheme is `https`. -/
  secure : Bool
  /-- The user, and after a colon a password that is not empty. -/
  user : List Char
  password : Option (List Char)
  host : List Char
  /-- The port, where it is not the scheme's own. -/
  port : Option Nat
  path : List (List Char)
  query : Option (List Char)
deriving DecidableEq, Repr

namespace Url

/-- A control or a space, which may surround a URL. -/
def isPadding (c : Char) : Bool := c.toNat ≤ 0x20

/-- A tab or line end, which is dropped wherever it stands. -/
def isBreak (c : Char) : Bool := c = '\t' || c = '\n' || c = '\r'

/-- The characters of a URL that count. -/
def clean (cs : List Char) : List Char :=
  (((cs.dropWhile isPadding).reverse.dropWhile isPadding).reverse).filter fun c => !isBreak c

/-- A slash of either kind. -/
def isSlash (c : Char) : Bool := c = '/' || c = '\\'

/-- A character that ends the authority. -/
def endsAuthority (c : Char) : Bool := isSlash c || c = '?' || c = '#'

/-- A byte beyond printable ASCII. -/
def isControl (b : UInt8) : Bool := b.toNat < 0x20 || 0x7e < b.toNat

/-- The bytes that stand for themselves in the path of a base URL. -/
def isPathPlain (b : UInt8) : Bool :=
  !(isControl b || b == 0x20 || b == 0x22 || b == 0x23 || b == 0x3c || b == 0x3e || b == 0x3f || b == 0x60
    || b == 0x7b || b == 0x7d)

/-- The bytes that stand for themselves in the query of a base URL. -/
def isQueryPlain (b : UInt8) : Bool :=
  !(isControl b || b == 0x20 || b == 0x22 || b == 0x23 || b == 0x27 || b == 0x3c || b == 0x3e)

/-- A segment is `.`, be it escaped. -/
def isSingleDot (segment : List Char) : Bool :=
  let s := segment.map Char.toLower
  s == ['.'] || s == ['%', '2', 'e']

/-- A segment is `..`, either dot be it escaped. -/
def isDoubleDot (segment : List Char) : Bool :=
  let s := segment.map Char.toLower
  s == ['.', '.'] || s == ['.', '%', '2', 'e'] || s == ['%', '2', 'e', '.'] || s == ['%', '2', 'e', '%', '2', 'e']

/-- Adds a segment to a path, the segments of which stand in reverse order; `last` says that none follows. -/
def pushSegment (path : List (List Char)) (segment : List Char) (last : Bool) : List (List Char) :=
  if isDoubleDot segment then if last then [] :: path.drop 1 else path.drop 1
  else if isSingleDot segment then if last then [] :: path else path
  else Percent.encode isPathPlain (Text.encode segment) :: path

/-- Adds segments to a path in reverse order. -/
def pushSegments : List (List Char) → List (List Char) → List (List Char)
  | path, [] => path
  | path, segment :: rest => pushSegments (pushSegment path segment rest.isEmpty) rest

/-- The segments of a path after its first slash. -/
def segments (cs : List Char) : List (List Char) :=
  (pushSegments [] (cs.splitOnP isSlash)).reverse

/-- A character that no host name has. -/
def isForbiddenInHost (c : Char) : Bool :=
  c.toNat ≤ 0x20 || c.toNat = 0x7f ||
    ['#', '%', '/', ':', '<', '>', '?', '@', '[', '\\', ']', '^', '|'].contains c

/-- The host and what stands after the colon behind it. -/
def splitHost (cs : List Char) : List Char × Option (List Char) :=
  match cs with
  | '[' :: _ =>
    let inside := cs.takeWhile (· != ']')
    match cs.drop inside.length with
    | ']' :: ':' :: port => (inside ++ [']'], some port)
    | rest => (inside ++ rest, none)
  | _ =>
    let host := cs.takeWhile (· != ':')
    match cs.drop host.length with
    | [] => (host, none)
    | _ :: port => (host, some port)

/-- A host: a name, or an address in brackets; in lower case, its escapes undone. -/
def host? (cs : List Char) : Option (List Char) :=
  match cs with
  | [] => none
  | '[' :: inside =>
    let address := inside.takeWhile fun c => c.isDigit || c.isAlpha || c = ':' || c = '.'
    if inside.drop address.length == [']'] && address.contains ':' then some (cs.map Char.toLower) else none
  | _ =>
    let name := (Text.decodeReplacing (Percent.decode cs)).map Char.toLower
    if name.isEmpty || name.any isForbiddenInHost then none else some name

/-- A port: digits for a number of sixteen bits, or nothing. -/
def port? (cs : List Char) : Option (Option Nat) :=
  if cs.all Char.isDigit then
    if cs.isEmpty then some none
    else
      let n := Nat.ofDigitChars 10 cs 0
      if n < 65536 then some (some n) else none
  else none

/-- The part before the last `@`, if there is one, and the part after it. -/
def splitUser (cs : List Char) : Option (List Char) × List Char :=
  let after := (cs.reverse.takeWhile (· != '@')).reverse
  let before := cs.take (cs.length - after.length)
  if before.isEmpty then (none, cs) else (some before.dropLast, after)

/-- The scheme in lower case, and what follows its colon. -/
def splitScheme (cs : List Char) : List Char × List Char :=
  let scheme := cs.takeWhile (· != ':')
  (scheme.map Char.toLower, cs.drop (scheme.length + 1))

/-- Reads an absolute http URL. -/
def parse? (text : List Char) : Option Url := do
  let (scheme, rest) := splitScheme (clean text)
  let secure ← if scheme = "https".toList then some true else if scheme = "http".toList then some false else none
  let rest := rest.dropWhile isSlash
  let authority := rest.takeWhile fun c => !endsAuthority c
  let rest := rest.drop authority.length
  let (user, address) := splitUser authority
  let user := user.getD []
  let name := user.takeWhile (· != ':')
  let password := user.drop (name.length + 1)
  let (hostText, portText) := splitHost address
  let host ← host? hostText
  let port ← port? (portText.getD [])
  let place := rest.takeWhile (· != '#')
  let path := place.takeWhile (· != '?')
  let query := place.drop path.length
  return {
    secure
    user := name
    password := if password.isEmpty then none else some password
    host
    port := if port = some (if secure then 443 else 80) then none else port
    path := segments (path.drop 1)
    query := match query with
      | [] => none
      | _ :: q => some (Percent.encode isQueryPlain (Text.encode q)) }

/-- Adds pairs to the query. A query that stays empty goes away. -/
def addPairs (u : Url) (pairs : List (String × String)) : Url :=
  let there := u.query.getD []
  let added := Percent.query pairs
  let query := if pairs.isEmpty then there else if there.isEmpty then added else there ++ '&' :: added
  { u with query := if query.isEmpty then none else some query }

/-- The host, and the port after a colon. -/
def address (u : Url) : String :=
  String.ofList u.host ++ (match u.port with | some p => ":" ++ toString p | none => "")

/-- The path and the query, as they are sent. -/
def target (u : Url) : String :=
  String.ofList (u.path.flatMap (fun s => '/' :: s) ++ (match u.query with | some q => '?' :: q | none => []))

/-- The user and the password, their escapes undone; none where there is neither or the user is not UTF-8. -/
def credentials? (u : Url) : Option (String × Option String) := do
  let user ← Text.decode? (Percent.decode u.user)
  let password := u.password.bind fun p => Text.decode? (Percent.decode p)
  if user.isEmpty && password.isNone then none
  else some (String.ofList user, password.map String.ofList)

example : (parse? "HTTP:\\\\u:p@Host:80/a/../b%2E/%2e/x y?q='#f".toList).map (fun u => (u.address, u.target))
    = some ("host", "/b%2E/x%20y?q=%27") := by decide +kernel

example : (parse? "http://h/db/..".toList).map target = some "/" := by decide +kernel

example : parse? "ftp://h/".toList = none ∧ parse? "http://".toList = none ∧ parse? "h:5984".toList = none := by
  decide +kernel

end Url
end DocClient
