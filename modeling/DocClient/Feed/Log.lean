/-
# What a change feed logs

Every connection of a feed is logged with the position it starts at, and with the delay before the next one when it is
given up. Lines that are no changes are logged and passed over.
-/

import DocClient.Failure
import DocClient.Http.Status

namespace DocClient

/-- Why a connection was given up before the server closed it. -/
inductive Interruption where
  | noResponse (milliseconds : Nat)
  | connectFailed
  | unexpectedStatus (status : Nat) (text : String)
  | noData (milliseconds : Nat)
  | readFailed
deriving DecidableEq, Repr

namespace Interruption

/-- The reason in words. -/
def words : Interruption → String
  | .noResponse ms => "no response for " ++ toString ms ++ " ms"
  | .connectFailed => "connect failed"
  | .unexpectedStatus status text => "unexpected status " ++ Status.text status ++ ": " ++ text
  | .noData ms => "no data for " ++ toString ms ++ " ms"
  | .readFailed => "read failed"

end Interruption

/-- How much an entry of a log matters. -/
inductive LogLevel where
  | debug
  | info
  | warn
  | error
deriving DecidableEq, Repr

/-- The name of a level. -/
def LogLevel.text : LogLevel → String
  | .debug => "DEBUG"
  | .info => "INFO"
  | .warn => "WARN"
  | .error => "ERROR"

/-- An entry of the log of a feed. -/
inductive LogEntry where
  | connecting (since : Sequence)
  | cancelled
  | consumerGone
  | closedByServer (delay : Nat)
  | interrupted (delay : Nat) (reason : Interruption)
  | stopped (e : ClientError)
  /-- A line that is no JSON object. -/
  | malformedLine
  /-- An object that reports an error. -/
  | reportedError (value : Json)
  /-- The line that names the last position. -/
  | endMarker
  /-- An object that is no change. -/
  | malformedChange (e : ReadError)
  /-- A change whose document names no class. -/
  | noClass (id : DocId)
deriving DecidableEq

namespace LogEntry

/-- How much an entry matters. -/
def level : LogEntry → LogLevel
  | .connecting _ | .cancelled | .closedByServer _ => .info
  | .consumerGone | .endMarker | .noClass _ => .debug
  | .interrupted .. | .malformedLine | .reportedError _ | .malformedChange _ => .warn
  | .stopped _ => .error

/-- The message of an entry. -/
def message : LogEntry → String
  | .connecting _ => "connecting change feed"
  | .cancelled => "change feed cancelled"
  | .consumerGone => "change feed receiver dropped"
  | .closedByServer _ => "change feed closed by server"
  | .interrupted .. => "change feed interrupted, reconnecting"
  | .stopped _ => "change feed stopped"
  | .malformedLine => "skipping malformed change line"
  | .reportedError _ => "change feed reported an error"
  | .endMarker => "change feed end marker"
  | .malformedChange _ => "skipping malformed change"
  | .noClass _ => "change without discriminator"

/-- What else an entry says, by name. -/
def fields : LogEntry → List (String × Json)
  | .connecting since => [("since", .str since.text)]
  | .closedByServer delay => [("delay_ms", Json.ofNat delay)]
  | .interrupted delay reason => [("delay_ms", Json.ofNat delay), ("error", .str reason.words)]
  | .stopped e => [("error", .str e.message)]
  | .reportedError value => [("error", .str value.compact)]
  | .malformedChange e => [("error", .str e.message)]
  | .noClass id => [("id", .str id.text)]
  | .cancelled | .consumerGone | .malformedLine | .endMarker => []

/-- An entry as a value. -/
def toJson (e : LogEntry) : Json :=
  Json.ofMembers ([("level", .str e.level.text), ("message", .str e.message)] ++ e.fields)

end LogEntry
end DocClient
