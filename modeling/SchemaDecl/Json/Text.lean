/-
The compact text of JSON values.

* `quote`: a string between quotes; quotes, backslashes and control characters are escaped and
  every other character stands for itself.
* `Json.text`: a value without any blanks.
-/
import SchemaDecl.Json.Basic
import SchemaDecl.Json.Decimal

namespace SchemaDecl.Json

/-- The hexadecimal digit of a number below sixteen, in lower case. -/
def hexDigit (n : Nat) : Char := Nat.digitChar n

/-- One character of a quoted string. -/
def quoteChar (c : Char) : List Char :=
  if c == '"' then ['\\', '"']
  else if c == '\\' then ['\\', '\\']
  else if c == '\n' then ['\\', 'n']
  else if c == '\r' then ['\\', 'r']
  else if c == '\t' then ['\\', 't']
  else if c.toNat = 8 then ['\\', 'b']
  else if c.toNat = 12 then ['\\', 'f']
  else if c.toNat < 32 then
    ['\\', 'u', '0', '0', hexDigit (c.toNat / 16), hexDigit (c.toNat % 16)]
  else [c]

/-- The characters of a quoted string. -/
def quoteChars (s : List Char) : List Char := '"' :: s.flatMap quoteChar ++ ['"']

/-- A string as JSON text. -/
def quote (s : String) : String := String.ofList (quoteChars s.toList)

/-- A number as JSON text. -/
def Number.text : Number → String
  | .int n => toString n
  | .real x => Decimal.text x

/-- A scalar as JSON text. -/
def Scalar.text : Scalar → String
  | .null => "null"
  | .bool b => if b then "true" else "false"
  | .number n => n.text
  | .string s => quote s

mutual

/-- A value as compact JSON text. -/
def text : Json → String
  | .scalar s => s.text
  | .array items => "[" ++ String.intercalate "," (itemTexts items) ++ "]"
  | .object members => "\x7b" ++ String.intercalate "," (memberTexts members) ++ "\x7d"

/-- The texts of the items of a list. -/
def itemTexts : List Json → List String
  | [] => []
  | item :: rest => text item :: itemTexts rest

/-- The texts of the members of an object, each a quoted key and a value. -/
def memberTexts : List (String × Json) → List String
  | [] => []
  | (key, value) :: rest => (quote key ++ ":" ++ text value) :: memberTexts rest

end

end SchemaDecl.Json
