/-
# The name of a type as the name of a database

A database that nobody named is named after its entity type: the words of the type's name, told apart by their capital
letters, in lower case with underscores between them. Only ASCII letters count as letters.
-/

namespace DocClient
namespace Convention

/-- The characters of a name in lower case, with an underscore before every capital that follows a letter;
`afterLetter` says whether a letter stands before them. -/
def snakeChars (afterLetter : Bool) : List Char → List Char
  | [] => []
  | c :: cs =>
    if c.isUpper && afterLetter then '_' :: c.toLower :: snakeChars c.isAlpha cs
    else c.toLower :: snakeChars c.isAlpha cs

/-- The name of a type as the name of a database. -/
def snakeCase (name : String) : String := String.ofList (snakeChars false name.toList)

example : snakeCase "TestEntity" = "test_entity" ∧ snakeCase "userProfile2Data" = "user_profile2data" := by decide

example : snakeCase "ABC" = "a_b_c" ∧ snakeCase "" = "" := by decide

end Convention
end DocClient
