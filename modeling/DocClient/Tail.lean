/-
# Printing a feed

The tail follows a database and prints one line of compact JSON for each change, until it has printed as many as were
asked for, the feed fails, the output fails, or it is told to stop. Documents are printed as they are stored, whatever
class they name.
-/

import DocClient.Feed.Worker
import DocClient.Tail.Arguments

namespace DocClient

/-- How the output fails at a line. -/
inductive OutputFault where
  /-- The line is not written as a whole. -/
  | write (text : String)
  /-- The line is written, but does not get any further. -/
  | flush (text : String)
deriving DecidableEq, Repr

/-- The fault in words. -/
def OutputFault.message : OutputFault → String
  | .write text => "failed to write output: " ++ text
  | .flush text => "failed to flush output: " ++ text

/-- What is left of a line at which the output fails. -/
def OutputFault.left? (line : String) : OutputFault → Option String
  | .write _ => none
  | .flush _ => some line

/-- Why the tail fails. -/
inductive TailError where
  | settings (e : ClientError)
  | database (sort : NameSort)
  | start (e : ClientError)
  | output (fault : OutputFault)
  | feed (e : ClientError)
deriving DecidableEq

/-- The failure in words. -/
def TailError.message : TailError → String
  | .settings e => "invalid client settings: " ++ e.message
  | .database sort => "database name: " ++ sort.blankMessage
  | .start e => "failed to start change feed: " ++ e.message
  | .output fault => fault.message
  | .feed e => "change feed stopped with an error: " ++ e.message

namespace Tail

/-- A change as a value; its document is there only if it has one. -/
def format (c : Change Object) : Json :=
  Json.ofOptions
    [("seq", some (c.seq.elim .null fun s => .str s.text)), ("id", some (.str c.id.text)),
      ("changes", some (Json.ofRevisions c.revisions)), ("deleted", some (.bool c.deleted)),
      ("doc", c.doc.map .obj)]

/-- The line of a change. -/
def line (c : Change Object) : String := (format c).compact

/-- The documents of a tail are taken as they are. -/
def dispatch : Dispatch Object := { fallback := some fun document => document }

/-- The feed that a tail follows. -/
def feed (a : TailArguments) : Except TailError (Feed Object) := do
  let client ← (Client.ofSettings a.settings).mapError .settings
  let database ← (checkName .database a.database).mapError .database
  (client.follow ⟨database⟩ a.request dispatch {}).mapError .start

/-- How a tail ends. -/
inductive Ended where
  /-- It printed so many changes. -/
  | printed (count : Nat)
  | failed (e : TailError)
  /-- It waits for the next change. -/
  | waiting (count : Nat)
deriving DecidableEq

/-- A tail: the lines that it wrote, the requests that it sent, and how it ends. -/
structure Run where
  /-- The lines that got through. -/
  lines : List String
  /-- The line that was written when the output could not be flushed. -/
  unflushed : Option String
  requests : List Request
  ending : Ended
deriving DecidableEq

/-- Whether the output fails at the line after so many lines, and how. -/
abbrev Output := Nat → Option OutputFault

/-- Writes lines as long as the output does not fail; `done` of them were written before. The lines that got through,
and the one at which the output failed. -/
def write (output : Output) : Nat → List String → List String × Option (String × OutputFault)
  | _, [] => ([], none)
  | done, line :: rest =>
    match output done with
    | some fault => ([], some (line, fault))
    | none => let (written, failure) := write output (done + 1) rest; (line :: written, failure)

/-- So many changes are as many as were asked for. -/
def isEnough (limit : Option Nat) (count : Nat) : Bool :=
  match limit with
  | some n => n ≤ count
  | none => false

/-- The changes that are to be printed. -/
def due (limit : Option Nat) (changes : List (Change Object)) : List (Change Object) :=
  match limit with
  | some n => changes.take n
  | none => changes

/-- How a tail ends that printed so many lines, given how the output failed and where the worker of the feed stands. -/
def ending (limit : Option Nat) (printed : Nat) (fault : Option OutputFault) (phase : WorkerPhase) : Ended :=
  match fault with
  | some fault => .failed (.output fault)
  | none =>
    if isEnough limit printed then .printed printed
    else
      match phase with
      | .failed e => .failed (.feed e)
      | _ => .waiting printed

/-- A tail of a feed whose connections get the given answers; `stopped` says that it is told to stop at once. -/
def run (f : Feed Object) (limit : Option Nat) (stopped : Bool) (output : Output) (answers : List Answer) : Run :=
  if stopped then ⟨[], none, [], .printed 0⟩
  else
    let w := f.runUntil (fun w => isEnough limit w.delivered.length) answers
    let (lines, failure) := write output 0 ((due limit w.delivered).map line)
    { lines
      unflushed := failure.bind fun f => f.2.left? f.1
      requests := w.requests
      ending := ending limit lines.length (failure.map Prod.snd) w.phase }

end Tail
end DocClient
