/-
# The lines of a feed

The body of a feed comes as bytes and is read line by line. A line ends with its newline; what is left at the end counts
as a line only if the body ends by itself. A line has to be UTF-8: the first that is not ends the reading, as does a
connection that breaks.

| the body | how the reading ends |
| --- | --- |
| has a line that is not UTF-8 | failed, at that line |
| ends by itself | closed |
| breaks off | failed |
| stalls | nothing more comes |
-/

import DocClient.Http.Exchange

namespace DocClient

/-- How the reading of a body ends. -/
inductive StreamEnd where
  | closed
  | failed
  | quiet
deriving DecidableEq, Repr

/-- The lines of a body as far as they can be read, and how the reading ends. -/
structure LineStream where
  lines : List (List Char)
  ending : StreamEnd
deriving DecidableEq, Repr

namespace LineStream

/-- The byte that ends a line. -/
def newline : UInt8 := 0x0a

/-- The lines of a byte string that end with their newline, without it, and what is left. -/
def cut : List UInt8 → List (List UInt8) × List UInt8
  | [] => ([], [])
  | b :: bs =>
    match cut bs with
    | (lines, rest) =>
      if b = newline then ([] :: lines, rest)
      else
        match lines with
        | [] => ([], b :: rest)
        | line :: lines => ((b :: line) :: lines, rest)

/-- The lines up to the first that is not UTF-8, and whether there is one. -/
def decodeLines : List (List UInt8) → List (List Char) × Bool
  | [] => ([], false)
  | line :: rest =>
    match Text.decode? line with
    | some cs => let (lines, bad) := decodeLines rest; (cs :: lines, bad)
    | none => ([], true)

/-- Reads a body. -/
def ofBody (body : List UInt8) (ending : Ending) : LineStream :=
  let (whole, rest) := cut body
  let due := match ending with
    | .closed => if rest.isEmpty then whole else whole ++ [rest]
    | _ => whole
  let (lines, bad) := decodeLines due
  if bad then ⟨lines, .failed⟩
  else
    match ending with
    | .closed => ⟨lines, .closed⟩
    | .cut => ⟨lines, .failed⟩
    | .stalled => ⟨lines, .quiet⟩

example : ofBody (Text.encode "a\n\nb".toList) .closed = ⟨[['a'], [], ['b']], .closed⟩ := by decide +kernel

example : ofBody (Text.encode "a\n\nb".toList) .cut = ⟨[['a'], []], .failed⟩ := by decide +kernel

example : ofBody [0x61, 0x0a, 0xff, 0x0a, 0x62, 0x0a] .stalled = ⟨[['a']], .failed⟩ := by decide +kernel

end LineStream
end DocClient
