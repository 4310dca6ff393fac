/-
# The tail as a program

The program follows a database whose change feed comes on standard input: what arrives there is the body of the one
connection, and its end the end of the feed. The lines of the changes go to standard output. A wrong command line, or a
feed that fails, is reported on standard error.
-/

import DocClient.Tail

namespace DocClient
namespace Program

/-- What a wrong command line is told. -/
def usage : String :=
  "usage: tail [--url URL] [-u USER] [-p PASSWORD] [--since POSITION] [--include-docs] [--doc-id ID]... "
    ++ "[--filter NAME] [--all-docs] [--heartbeat-ms MS] [--class-field NAME] [-n COUNT] [-v] DATABASE"

/-- The lines to print, what to report, and whether the program succeeds. -/
structure Effect where
  lines : List String
  report : Option String
  success : Bool

/-- What the program does, given its arguments and what arrives. -/
def effect (args : List String) (body : List UInt8) : Effect :=
  match TailArguments.parse args with
  | .error .displayHelp => ⟨[usage], none, true⟩
  | .error _ => ⟨[], some usage, false⟩
  | .ok a =>
    match Tail.feed a with
    | .error e => ⟨[], some e.message, false⟩
    | .ok feed =>
      let run := Tail.run feed a.maxEvents false (fun _ => none) [.answered 200 body .closed]
      match run.ending with
      | .failed e => ⟨run.lines, some e.message, false⟩
      | _ => ⟨run.lines, none, true⟩

/-- Reads a stream to its end. -/
partial def readAll (input : IO.FS.Stream) (done : ByteArray) : IO ByteArray := do
  let chunk ← input.read 65536
  if chunk.isEmpty then return done else readAll input (done ++ chunk)

end Program
end DocClient

/-- The program. -/
def main (args : List String) : IO UInt32 := do
  let body ← DocClient.Program.readAll (← IO.getStdin) ByteArray.empty
  let effect := DocClient.Program.effect args body.toList
  for line in effect.lines do
    IO.println line
  match effect.report with
  | some text => IO.eprintln text
  | none => pure ()
  return if effect.success then 0 else 1
