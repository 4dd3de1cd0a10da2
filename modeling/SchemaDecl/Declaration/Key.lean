/-
Property keys in declarations.

* `indexKey`: the key text of the field that stands for all further properties.
* `fieldKey`: an identifier or the index key as it is, any other key quoted.
-/
import SchemaDecl.Json.Text

namespace SchemaDecl

/-- The key text of an index signature. -/
def indexKey : String := "[k: string]"

/-- The characters make up an identifier of ASCII letters, digits, `_` and `$`, not beginning with
a digit. -/
def isIdentifier : List Char → Bool
  | [] => false
  | c :: cs =>
    (c.isAlpha || c == '_' || c == '$') && cs.all fun d => d.isAlphanum || d == '_' || d == '$'

/-- A property key as it is written in a record. -/
def fieldKey (key : String) : String :=
  if key == indexKey || isIdentifier key.toList then key else Json.quote key

end SchemaDecl
