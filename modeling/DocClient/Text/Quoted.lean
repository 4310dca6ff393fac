/-
# Texts quoted in messages

An error message shows a text between double quotes so that its ends and its invisible characters can be seen:

| character | written |
| --- | --- |
| `"` and `\` | after a backslash |
| newline, carriage return, tab, NUL | `\n`, `\r`, `\t`, `\0` |
| combining or unprintable | `\u` and the code point in lower-case hex, in braces |
| any other | as it is |
-/

import DocClient.Text.Combining
import DocClient.Text.Unprintable

namespace DocClient
namespace Text

/-- A number in lower-case hexadecimal, without leading zeros. -/
def hex (n : Nat) : List Char := Nat.toDigits 16 n

/-- How one character is written inside a quoted text. -/
def quotedChar (c : Char) : List Char :=
  match c with
  | '\x00' => ['\\', '0']
  | '\t' => ['\\', 't']
  | '\n' => ['\\', 'n']
  | '\r' => ['\\', 'r']
  | '\\' => ['\\', '\\']
  | '"' => ['\\', '"']
  | c =>
    if isCombining c || isUnprintable c then ['\\', 'u', '\x7b'] ++ hex c.toNat ++ ['\x7d'] else [c]

/-- A text between double quotes, each character as `quotedChar` writes it. -/
def quoted (s : String) : String :=
  String.ofList (['"'] ++ s.toList.flatMap quotedChar ++ ['"'])

end Text
end DocClient
