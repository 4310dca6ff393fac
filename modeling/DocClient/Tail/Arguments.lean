/-
# The command line of the tail

The tail takes one argument, the database, and these options:

| option | value | default |
| --- | --- | --- |
| `--url` | the server | `http://localhost:5984` |
| `--user`, `-u` | the user | none |
| `--password`, `-p` | the password | none |
| `--since` | where to start | `now` |
| `--include-docs` | | off |
| `--doc-id` | a wanted document; may be repeated | none |
| `--filter` | a filter of the server | none |
| `--all-docs` | | off |
| `--heartbeat-ms` | an interval in milliseconds | 60000 |
| `--class-field` | the class field | `class__` |
| `--max-events`, `-n` | how many changes to print | no bound |
| `--verbose`, `-v` | | off |
| `--help`, `-h` | | |

A value stands in the next argument, or after `=`, or right behind a short name; short names without values may be
joined. After `--` every argument stands for itself. An option whose value stands in an argument of its own is looked
at only when the next option or the end comes, so that an unknown option in between is reported first.
-/

import DocClient.Feed.Request
import DocClient.Settings

namespace DocClient

/-- What is wrong with a command line. -/
inductive UsageError where
  | unknownArgument
  /-- A value for an option that has none. -/
  | tooManyValues
  /-- An option given twice. -/
  | argumentConflict
  /-- An option without its value. -/
  | invalidValue
  /-- A value that is no number of the right size. -/
  | valueValidation
  | missingRequiredArgument
  /-- Nothing is wrong: the help was asked for. -/
  | displayHelp
deriving DecidableEq, Repr

/-- The argument and the options. -/
inductive Flag where
  | database
  | url
  | user
  | password
  | since
  | includeDocs
  | docId
  | filter
  | allDocs
  | heartbeatMs
  | classField
  | maxEvents
  | verbose
  | help
deriving DecidableEq, Repr

/-- The arguments of the tail. -/
structure TailArguments where
  database : String
  url : String := "http://localhost:5984"
  user : Option String := none
  password : Option String := none
  since : String := "now"
  includeDocs : Bool := false
  docIds : List String := []
  filter : Option String := none
  allDocs : Bool := false
  heartbeatMs : Nat := 60000
  classField : String := "class__"
  maxEvents : Option Nat := none
  verbose : Bool := false
deriving DecidableEq, Repr

namespace Flag

/-- The options by their long names. -/
def longNames : List (String × Flag) :=
  [("url", .url), ("user", .user), ("password", .password), ("since", .since), ("include-docs", .includeDocs),
    ("doc-id", .docId), ("filter", .filter), ("all-docs", .allDocs), ("heartbeat-ms", .heartbeatMs),
    ("class-field", .classField), ("max-events", .maxEvents), ("verbose", .verbose), ("help", .help)]

/-- The options by their short names. -/
def shortNames : List (Char × Flag) :=
  [('u', .user), ('p', .password), ('n', .maxEvents), ('v', .verbose), ('h', .help)]

/-- An option has a value. -/
def takesValue : Flag → Bool
  | .includeDocs | .allDocs | .verbose | .help => false
  | _ => true

/-- An option may be repeated. -/
def repeats : Flag → Bool
  | .docId => true
  | _ => false

/-- A numeral of 64 bits: digits, after a plus sign or not. -/
def number? (s : String) : Option Nat :=
  let digits := match s.toList with
    | '+' :: rest => rest
    | all => all
  if digits.isEmpty || !digits.all Char.isDigit then none
  else
    let n := Nat.ofDigitChars 10 digits 0
    if n ≤ 0xFFFFFFFFFFFFFFFF then some n else none

/-- A value will do for an option. -/
def accepts (f : Flag) (value : String) : Bool :=
  match f with
  | .heartbeatMs | .maxEvents => (number? value).isSome
  | _ => true

end Flag

/-- A command line part way through. -/
structure ArgumentScan where
  /-- What was given, in order; an option without a value is given with an empty one. -/
  given : List (Flag × String) := []
  /-- An option or the argument that was not looked at yet, and its value if that was read. -/
  pending : Option (Flag × Option String) := none
  /-- Every argument stands for itself from here on. -/
  trailing : Bool := false
deriving DecidableEq, Repr

namespace ArgumentScan

/-- The values that were given for an option. -/
def values (s : ArgumentScan) (f : Flag) : List String := (s.given.filter fun g => g.1 = f).map Prod.snd

/-- Takes an option with its value, if it has one. -/
def take (s : ArgumentScan) (f : Flag) (value : Option String) : Except UsageError ArgumentScan :=
  if f = .help then .error .displayHelp
  else if f.takesValue && value.isNone then .error .invalidValue
  else if !f.repeats && !(s.values f).isEmpty then .error .argumentConflict
  else if !f.accepts (value.getD "") then .error .valueValidation
  else .ok { s with given := s.given ++ [(f, value.getD "")] }

/-- Takes what was not looked at yet. -/
def settle (s : ArgumentScan) : Except UsageError ArgumentScan :=
  match s.pending with
  | some (f, value) => take { s with pending := none } f value
  | none => .ok s

/-- An option, with a value that stands in the same argument or not. -/
def option (s : ArgumentScan) (f : Flag) (value : Option String) : Except UsageError ArgumentScan := do
  let s ← s.settle
  if f.takesValue && value.isNone then return { s with pending := some (f, none) }
  s.take f value

/-- An argument that starts with two dashes. -/
def long (s : ArgumentScan) (cs : List Char) : Except UsageError ArgumentScan :=
  let name := cs.takeWhile (· != '=')
  match Flag.longNames.lookup (String.ofList name), cs.drop name.length with
  | none, _ => .error .unknownArgument
  | some f, [] => s.option f none
  | some f, _ :: value => if f.takesValue then s.option f (some (String.ofList value)) else .error .tooManyValues

/-- An argument that starts with one dash: short names, the last of which may have its value behind it. -/
def short (s : ArgumentScan) : List Char → Except UsageError ArgumentScan
  | [] => .ok s
  | c :: rest =>
    match Flag.shortNames.lookup c with
    | none => .error .unknownArgument
    | some f =>
      if f.takesValue then
        match rest with
        | [] => s.option f none
        | '=' :: value => s.option f (some (String.ofList value))
        | value => s.option f (some (String.ofList value))
      else do
        let s ← s.option f none
        s.short rest

/-- An argument that stands for itself. -/
def positional (s : ArgumentScan) (arg : String) : Except UsageError ArgumentScan :=
  let known := !(s.values .database).isEmpty || s.pending.any fun p => p.1 = .database
  if known then .error .unknownArgument
  else do
    let s ← s.settle
    return { s with pending := some (.database, some arg) }

/-- An argument that is no option: the value that is due, or one that stands for itself. -/
def plain (s : ArgumentScan) (arg : String) : Except UsageError ArgumentScan :=
  match s.pending with
  | some (f, none) => .ok { s with pending := some (f, some arg) }
  | _ => s.positional arg

/-- One argument. -/
def step (s : ArgumentScan) (arg : String) : Except UsageError ArgumentScan :=
  if s.trailing then s.positional arg
  else
    match arg.toList with
    | ['-', '-'] => .ok { s with trailing := true }
    | '-' :: '-' :: rest => s.long rest
    | ['-'] => s.plain arg
    | '-' :: rest => s.short rest
    | _ => s.plain arg

end ArgumentScan

namespace TailArguments

/-- The arguments of what was given. -/
def ofScan (s : ArgumentScan) : Except UsageError TailArguments :=
  let value? (f : Flag) : Option String := (s.values f).head?
  let on (f : Flag) : Bool := !(s.values f).isEmpty
  match value? .database with
  | none => .error .missingRequiredArgument
  | some database => .ok {
      database
      url := (value? .url).getD "http://localhost:5984"
      user := value? .user
      password := value? .password
      since := (value? .since).getD "now"
      includeDocs := on .includeDocs
      docIds := s.values .docId
      filter := value? .filter
      allDocs := on .allDocs
      heartbeatMs := ((value? .heartbeatMs).bind Flag.number?).getD 60000
      classField := (value? .classField).getD "class__"
      maxEvents := (value? .maxEvents).bind Flag.number?
      verbose := on .verbose }

/-- Reads a command line. -/
def parse (args : List String) : Except UsageError TailArguments := do
  ofScan (← (← args.foldlM ArgumentScan.step {}).settle)

/-- The settings of the client. -/
def settings (a : TailArguments) : Settings :=
  { Settings.forServer a.url with username := a.user, password := a.password, classField := a.classField }

/-- The changes that are wanted. -/
def request (a : TailArguments) : FeedRequest :=
  { FeedRequest.withHeartbeat {} a.heartbeatMs with
    since := ⟨a.since⟩
    includeDocs := a.includeDocs
    docIds := a.docIds.map DocId.mk
    filter := a.filter
    style := if a.allDocs then .allDocs else .mainOnly }

end TailArguments
end DocClient
