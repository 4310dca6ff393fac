/-
# JSON text as far as it goes

A text is read one character at a time by a machine with a stack of the containers it is inside of, so reading a text is
a fold over its characters. The machine stops at the first character that no JSON text could have there. What it has
read by then is a `Draft`: a value that may break off, with the members of its objects in the order of the text,
repeated keys included. A reader of drafts can therefore report a value of the wrong shape that stands before the place
where the text goes wrong.

Two things are settled only when a value is used. A number out of range and a string with half a surrogate pair are
`unreadable`: passed over, they do no harm. Nesting has no bound here; the bound is the reader's.
-/

import DocClient.Json.Numeral

namespace DocClient

/-- A JSON text as far as it goes. -/
inductive Draft where
  | null
  | bool (b : Bool)
  | num (n : Number)
  | str (s : String)
  /-- Items up to the closing bracket, or up to where the text breaks off. -/
  | arr (items : List Draft) (closed : Bool)
  /-- Members in the order of the text; a key with half a surrogate pair is `none`. -/
  | obj (members : List (Option String × Draft)) (closed : Bool)
  /-- A whole number or string that has no value. -/
  | unreadable
  /-- The text goes wrong or ends inside this value. -/
  | broken
deriving Repr, Inhabited

namespace Draft

/-- A string part way through: its characters so far, last first, whether one of them was half a surrogate pair, and
the first half of a pair whose second half is due. -/
structure Quote where
  done : List Char := []
  halved : Bool := false
  high : Option Nat := none
deriving Repr

/-- Where the machine stands inside a string. -/
inductive Within where
  | plain
  | escape
  | hex (left value : Nat)
deriving Repr

namespace Quote

/-- Adds a character; a first half that waits for its second half is given up. -/
def push (q : Quote) (c : Char) : Quote := ⟨c :: q.done, q.halved || q.high.isSome, none⟩

/-- Adds a code unit written in hex, which may be one half of a pair. -/
def pushUnit (q : Quote) (u : Nat) : Quote :=
  if 0xd800 ≤ u ∧ u < 0xdc00 then ⟨q.done, q.halved || q.high.isSome, some u⟩
  else if 0xdc00 ≤ u ∧ u < 0xe000 then
    match q.high with
    | some h => ⟨Char.ofNat (0x10000 + (h - 0xd800) * 0x400 + (u - 0xdc00)) :: q.done, q.halved, none⟩
    | none => ⟨q.done, true, none⟩
  else q.push (Char.ofNat u)

/-- The text of a finished string; `none` if half a pair stands alone in it. -/
def text? (q : Quote) : Option String :=
  if q.halved || q.high.isSome then none else some (String.ofList q.done.reverse)

/-- The character that a one-letter escape stands for. -/
def escaped? (c : Char) : Option Char :=
  if c = '"' ∨ c = '\\' ∨ c = '/' then some c
  else if c = 'b' then some '\x08'
  else if c = 'f' then some '\x0c'
  else if c = 'n' then some '\n'
  else if c = 'r' then some '\r'
  else if c = 't' then some '\t'
  else none

/-- The value of a hex digit. -/
def hexDigit? (c : Char) : Option Nat :=
  if c.isDigit then some (c.toNat - '0'.toNat)
  else if 'a' ≤ c ∧ c ≤ 'f' then some (c.toNat - 'a'.toNat + 10)
  else if 'A' ≤ c ∧ c ≤ 'F' then some (c.toNat - 'A'.toNat + 10)
  else none

/-- One character of a string other than the closing quote; `none` where a string cannot hold it. -/
def step? (q : Quote) (w : Within) (c : Char) : Option (Quote × Within) :=
  match w with
  | .plain =>
    if c = '\\' then some (q, .escape)
    else if c.toNat < 0x20 then none
    else some (q.push c, .plain)
  | .escape =>
    if c = 'u' then some (q, .hex 4 0)
    else (escaped? c).map fun c => (q.push c, .plain)
  | .hex left value =>
    (hexDigit? c).map fun d =>
      if left ≤ 1 then (q.pushUnit (value * 16 + d), .plain) else (q, .hex (left - 1) (value * 16 + d))

end Quote

/-- A container that the machine is inside of, with what it holds so far, last first. -/
inductive Frame where
  | items (done : List Draft)
  | members (done : List (Option String × Draft))
  /-- The key of a member is read; its value is due or under way. -/
  | member (done : List (Option String × Draft)) (key : Option String)
deriving Repr

/-- What the machine is in the middle of. -/
inductive Mode where
  /-- A value is due. -/
  | value
  /-- An item or the closing bracket is due. -/
  | itemOrEnd
  /-- A key or the closing brace is due. -/
  | keyOrEnd
  /-- A key is due. -/
  | key
  /-- The colon after a key is due. -/
  | colon
  /-- A value is read; a comma or the end of its container is due. -/
  | next
  /-- Inside `null`, `true` or `false`, with the letters due. -/
  | word (due : List Char) (value : Draft)
  /-- Inside a string. -/
  | quote (isKey : Bool) (q : Quote) (w : Within)
  /-- Inside a number. -/
  | numeral (n : Numeral)
  /-- Stopped; `unfinished` says that a value was due or under way. -/
  | stopped (unfinished : Bool)
deriving Repr

/-- The machine: its open containers, innermost first, the outermost value once it is read, and its mode. -/
structure Scan where
  stack : List Frame := []
  root : Option Draft := none
  mode : Mode := .value
deriving Repr

namespace Scan

/-- White space between the parts of a JSON text. -/
def isSpace (c : Char) : Bool := c = ' ' || c = '\n' || c = '\t' || c = '\r'

/-- A value was due or under way in a mode. -/
def unfinished : Mode → Bool
  | .value | .word .. | .numeral _ => true
  | .quote isKey .. => !isKey
  | .stopped u => u
  | _ => false

/-- Stops the machine. -/
def stop (s : Scan) : Scan := { s with mode := .stopped (unfinished s.mode) }

/-- Puts a value that is read in its place. -/
def finish (s : Scan) (v : Draft) : Scan :=
  match s.stack with
  | [] => { s with root := some v, mode := .next }
  | .items done :: rest => { s with stack := .items (v :: done) :: rest, mode := .next }
  | .member done key :: rest => { s with stack := .members ((key, v) :: done) :: rest, mode := .next }
  | .members _ :: _ => s.stop

/-- A character at which a value is due. -/
def begin (s : Scan) (c : Char) : Scan :=
  if c = '"' then { s with mode := .quote false {} .plain }
  else if c = '[' then { s with stack := .items [] :: s.stack, mode := .itemOrEnd }
  else if c = '\x7b' then { s with stack := .members [] :: s.stack, mode := .keyOrEnd }
  else if c = 'n' then { s with mode := .word ['u', 'l', 'l'] .null }
  else if c = 't' then { s with mode := .word ['r', 'u', 'e'] (.bool true) }
  else if c = 'f' then { s with mode := .word ['a', 'l', 's', 'e'] (.bool false) }
  else
    match Numeral.start? c with
    | some n => { s with mode := .numeral n }
    | none => { s with mode := .stopped true }

/-- A character at which a key is due. -/
def beginKey (s : Scan) (c : Char) : Scan :=
  if c = '"' then { s with mode := .quote true {} .plain } else s.stop

/-- The closing bracket or brace of the innermost container. -/
def close (s : Scan) (c : Char) : Scan :=
  match s.stack with
  | .items done :: rest =>
    if c = ']' then { s with stack := rest }.finish (.arr done.reverse true) else s.stop
  | .members done :: rest =>
    if c = '\x7d' then { s with stack := rest }.finish (.obj done.reverse true) else s.stop
  | _ => s.stop

/-- A character after a value. -/
def afterValue (s : Scan) (c : Char) : Scan :=
  if isSpace c then s
  else if c = ',' then
    match s.stack with
    | .items _ :: _ => { s with mode := .value }
    | .members _ :: _ => { s with mode := .key }
    | _ => s.stop
  else s.close c

/-- The end of a string, be it a key or a value. -/
def endQuote (s : Scan) (isKey : Bool) (q : Quote) : Scan :=
  if isKey then
    match s.stack with
    | .members done :: rest => { s with stack := .member done q.text? :: rest, mode := .colon }
    | _ => s.stop
  else s.finish (match q.text? with | some t => .str t | none => .unreadable)

/-- The draft of a numeral that has ended. -/
def ofNumeral (n : Numeral) : Draft :=
  match n.value? with
  | some v => .num v
  | none => .unreadable

/-- One character. -/
def step (s : Scan) (c : Char) : Scan :=
  match s.mode with
  | .value => if isSpace c then s else s.begin c
  | .itemOrEnd => if isSpace c then s else if c = ']' then s.close c else s.begin c
  | .keyOrEnd => if isSpace c then s else if c = '\x7d' then s.close c else s.beginKey c
  | .key => if isSpace c then s else s.beginKey c
  | .colon => if isSpace c then s else if c = ':' then { s with mode := .value } else s.stop
  | .next => s.afterValue c
  | .word due v =>
    match due with
    | [] => s.stop
    | [d] => if c = d then s.finish v else s.stop
    | d :: more => if c = d then { s with mode := .word more v } else s.stop
  | .quote isKey q w =>
    match w with
    | .plain => if c = '"' then s.endQuote isKey q else
        match q.step? .plain c with
        | some (q, w) => { s with mode := .quote isKey q w }
        | none => s.stop
    | w =>
        match q.step? w c with
        | some (q, w) => { s with mode := .quote isKey q w }
        | none => s.stop
  | .numeral n =>
    match n.step? c with
    | some n => { s with mode := .numeral n }
    | none => if n.complete && !n.refuses c then (s.finish (ofNumeral n)).afterValue c else s.stop
  | .stopped _ => s

/-- The machine after a text. -/
def run (s : Scan) (cs : List Char) : Scan := cs.foldl step s

/-- Reading a text in two parts is reading it at once. -/
theorem run_append (s : Scan) (cs ds : List Char) : s.run (cs ++ ds) = (s.run cs).run ds := by
  simp [run, List.foldl_append]

/-- The value of the open containers, from the innermost outwards, around what they hold unfinished. -/
def unwind : Option Draft → List Frame → Draft
  | inner, [] => inner.getD .broken
  | inner, .items done :: rest => unwind (some (.arr (inner.toList ++ done).reverse false)) rest
  | inner, .member done key :: rest =>
    unwind (some (.obj ((key, inner.getD .broken) :: done).reverse false)) rest
  | _, .members done :: rest => unwind (some (.obj done.reverse false)) rest

/-- The end of the text: a number that may end is whole. -/
def conclude (s : Scan) : Scan :=
  match s.mode with
  | .numeral n => if n.complete then s.finish (ofNumeral n) else s
  | _ => s

end Scan

/-- A text read to its end: its value, and whether nothing but white space follows it. -/
structure Document where
  root : Draft
  ended : Bool
deriving Repr

/-- Reads a text as far as it goes. -/
def ofText (cs : List Char) : Document :=
  let s := (Scan.run {} cs).conclude
  match s.root with
  | some root => ⟨root, match s.mode with | .next => true | _ => false⟩
  | none => ⟨Scan.unwind (if Scan.unfinished s.mode then some .broken else none) s.stack, false⟩

mutual

/-- A value as a draft that does not break off. -/
def ofJson : Json → Draft
  | .null => .null
  | .bool b => .bool b
  | .num n => .num n
  | .str s => .str s
  | .arr items => .arr (ofItems items) true
  | .obj members => .obj (ofMembers members) true

/-- Items as drafts. -/
def ofItems : List Json → List Draft
  | [] => []
  | v :: rest => ofJson v :: ofItems rest

/-- Members as drafts. -/
def ofMembers : List (String × Json) → List (Option String × Draft)
  | [] => []
  | (k, v) :: rest => (some k, ofJson v) :: ofMembers rest

end

mutual

/-- A draft is intact when the text does not break off inside it. -/
def intact : Draft → Bool
  | .arr items closed => intactItems items && closed
  | .obj members closed => intactMembers members && closed
  | .broken => false
  | _ => true

/-- All items are intact. -/
def intactItems : List Draft → Bool
  | [] => true
  | d :: rest => intact d && intactItems rest

/-- All members are intact. -/
def intactMembers : List (Option String × Draft) → Bool
  | [] => true
  | (_, d) :: rest => intact d && intactMembers rest

end

end Draft
end DocClient
