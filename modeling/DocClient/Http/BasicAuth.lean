/-
# Names and passwords in a header

The two are joined by a colon and written in base 64: three bytes give four characters, and what is missing of the last
three bytes is filled up with `=`.
-/

import DocClient.Text.Utf8

namespace DocClient
namespace BasicAuth

/-- The characters of base 64 in order. -/
def alphabet : List Char :=
  "ABCDEFGHIJKLMNOPQRSTUVWXYZabcdefghijklmnopqrstuvwxyz0123456789+/".toList

/-- The character for six bits. -/
def sixBits (n : Nat) : Char := (alphabet[n % 64]?).getD '='

/-- Bytes in base 64. -/
def base64 : List UInt8 → List Char
  | [] => []
  | [a] =>
    let n := a.toNat * 65536
    [sixBits (n / 262144), sixBits (n / 4096), '=', '=']
  | [a, b] =>
    let n := a.toNat * 65536 + b.toNat * 256
    [sixBits (n / 262144), sixBits (n / 4096), sixBits (n / 64), '=']
  | a :: b :: c :: rest =>
    let n := a.toNat * 65536 + b.toNat * 256 + c.toNat
    sixBits (n / 262144) :: sixBits (n / 4096) :: sixBits (n / 64) :: sixBits n :: base64 rest

/-- The header for a user; without a password nothing stands after the colon. -/
def header (user : String) (password : Option String) : String :=
  "Basic " ++ String.ofList (base64 (Text.encode (user ++ ":" ++ password.getD "").toList))

example : header "user" (some "pass") = "Basic dXNlcjpwYXNz" := by decide +kernel

example : header "" none = "Basic Og==" := by decide +kernel

end BasicAuth
end DocClient
