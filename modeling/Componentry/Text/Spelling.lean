import Componentry.Text.LetterCase
import Componentry.Text.Word

/-!
# Spellings of a name

A name may be written with dashes (`todo-item`), as a camel name (`todoItem`) or as a class name
(`TodoItem`). These functions go from one spelling to another.

- `camelize`, `hyphenate`, `capitalize`: the spellings under which props and assets are looked up.
- `classify`: the spelling under which a component is shown to people.
-/

namespace Componentry.Text

/-- Drops each dash before a word character and raises that character. -/
def camelizeChars : List Char → List Char
  | [] => []
  | '-' :: c :: cs =>
    if isWordChar c then upperChar c ++ camelizeChars cs else '-' :: camelizeChars (c :: cs)
  | c :: cs => c :: camelizeChars cs

/-- `my-prop` becomes `myProp`. -/
def camelize (s : String) : String := String.ofList (camelizeChars s.toList)

/-- Puts a dash before each ASCII capital that follows a word character; `inWord` says whether
the character before was one. -/
def dashCapitals (inWord : Bool) : List Char → List Char
  | [] => []
  | c :: cs =>
    if inWord && c.isUpper then '-' :: c :: dashCapitals true cs
    else c :: dashCapitals (isWordChar c) cs

/-- `myProp` becomes `my-prop`. -/
def hyphenate (s : String) : String :=
  String.ofList (lowerFrom [] (dashCapitals false s.toList))

/-- Raises the first character. -/
def capitalize (s : String) : String :=
  match s.toList with
  | [] => ""
  | c :: cs => String.ofList (upperChar c ++ cs)

/-- Drops each dash or underscore before a word character and raises that character. -/
def classifyRest : List Char → List Char
  | [] => []
  | [c] => [c]
  | d :: c :: cs =>
    if (d == '-' || d == '_') && isWordChar c then upperChar c ++ classifyRest cs
    else d :: classifyRest (c :: cs)

/-- `todo-item` becomes `TodoItem`. -/
def classify (s : String) : String :=
  match s.toList with
  | [] => ""
  | c :: cs =>
    String.ofList (if isWordChar c then upperChar c ++ classifyRest cs else classifyRest (c :: cs))

end Componentry.Text
