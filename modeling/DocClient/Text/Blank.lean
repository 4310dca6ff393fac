/-
# White space and blank texts

The twenty-five characters with the property of being white space, and the two notions built on them: a text is
blank when it holds nothing else, and trimming drops them from both ends.
-/

namespace DocClient
namespace Text

/-- The code points that are white space: the ASCII controls `09` to `0d`, the space, and the spaces and line
separators beyond ASCII. -/
def isBlankChar (c : Char) : Bool :=
  let n := c.toNat
  (0x09 ≤ n && n ≤ 0x0d) || n == 0x20 || n == 0x85 || n == 0xa0 || n == 0x1680 ||
    (0x2000 ≤ n && n ≤ 0x200a) || n == 0x2028 || n == 0x2029 || n == 0x202f || n == 0x205f || n == 0x3000

/-- A text is blank when it is empty or all white space. -/
def isBlank (s : String) : Bool := s.toList.all isBlankChar

/-- Drops white space from both ends. -/
def trim (cs : List Char) : List Char :=
  ((cs.dropWhile isBlankChar).reverse.dropWhile isBlankChar).reverse

example : isBlank " \t\u3000" ∧ ¬ isBlank "\u200b" ∧ ¬ isBlank " a " := by decide

end Text
end DocClient
