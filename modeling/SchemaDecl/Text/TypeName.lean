/-
Type names from arbitrary text.

A title, an identifier or a property key becomes a type name in steps, each of them a function on
lists of characters.

* `blankForeign`: characters that no name contains become blanks.
* `raiseLead`, `joinSnake`: a lower case letter after an underscore is raised, and an underscore
  inside the text goes.
* `raiseAfterDigit`, `joinWords`: a letter after a digit or a blank is raised, and blanks go.
* `typeName`: all steps, after accents are taken off and before the first letter is raised.
-/
import SchemaDecl.Text.Accent
import SchemaDecl.Text.Digit
import SchemaDecl.Text.Space

namespace SchemaDecl.Text

/-- A character that may begin a name: a basic letter, `_` or `$`. -/
def beginsName (c : Char) : Bool := c.isAlpha || c == '_' || c == '$'

/-- A character that a name may go on with; decimal digits of every script count. -/
def continuesName (c : Char) : Bool := beginsName c || isDigit c

/-- A character that no name contains gives way to a blank. -/
def blankUnlessName (c : Char) : Char := if continuesName c then c else ' '

/-- Characters that no name contains become blanks. White space at the front becomes a single
blank, and the first character after it is drawn into that blank unless it may begin a name. -/
def blankForeign (s : List Char) : List Char :=
  match s.dropWhile isSpace with
  | [] => if s.isEmpty then [] else [' ']
  | c :: cs =>
    if !beginsName c then ' ' :: cs.map blankUnlessName
    else if isSpace (s.headD c) then ' ' :: c :: cs.map blankUnlessName
    else c :: cs.map blankUnlessName

/-- An underscore at the very front keeps its place and raises the letter after it. -/
def raiseLead : List Char → List Char
  | '_' :: c :: cs => if c.isLower then '_' :: c.toUpper :: cs else '_' :: c :: cs
  | s => s

/-- An underscore before a lower case letter goes, and the letter is raised. -/
def joinSnake : List Char → List Char
  | [] => []
  | [c] => [c]
  | c :: d :: cs =>
    if c == '_' && d.isLower then d.toUpper :: joinSnake cs else c :: joinSnake (d :: cs)

/-- A letter right after a digit or a dollar sign is raised; `after` says whether such a character
stands in front of the text. -/
def raiseAfterDigit (after : Bool) : List Char → List Char
  | [] => []
  | c :: cs =>
    (if after && c.isAlpha then c.toUpper else c) :: raiseAfterDigit (isDigit c || c == '$') cs

/-- White space goes, and a letter right after it is raised; `after` says whether white space
stands in front of the text. -/
def joinWords (after : Bool) : List Char → List Char
  | [] => []
  | c :: cs =>
    if isSpace c then joinWords true cs
    else (if after && c.isAlpha then c.toUpper else c) :: joinWords false cs

/-- The first letter is raised. -/
def raiseFirst : List Char → List Char
  | [] => []
  | c :: cs => c.toUpper :: cs

/-- The type name made of the characters `s`. -/
def typeNameChars (s : List Char) : List Char :=
  raiseFirst (joinWords false (raiseAfterDigit false (joinSnake (raiseLead
    (blankForeign (unaccented s))))))

/-- The type name made of a text: `pet owner`, `pet_owner` and `pet-owner` all give `PetOwner`. A
text without any character of a name gives the empty text. -/
def typeName (s : String) : String := String.ofList (typeNameChars s.toList)

end SchemaDecl.Text
