/-
Faults in JSON text: what is wrong, where, and on the way to which value.

* `Cause`: what is wrong, with its wording in `Cause.text`.
* `Segment`, `pathText`: the way from the root to the value being read.
* `Fault`: a cause at a byte index, with a path; `Fault.message` is the whole report.
-/
import SchemaDecl.Text.Visible
import SchemaDecl.Json.Text

namespace SchemaDecl.Json

/-- What stands in the text where a value of another kind is wanted. -/
inductive Found where
  | null
  | bool (b : Bool)
  | number (n : Number)
  | string (s : String)
  | list
  | object

/-- The wording of what was found. -/
def Found.text : Found → String
  | .null => "null"
  | .bool b => "boolean `" ++ (if b then "true" else "false") ++ "`"
  | .number (.int n) => "integer `" ++ toString n ++ "`"
  | .number (.real x) => "floating point `" ++ Decimal.text x ++ "`"
  | .string s => "string " ++ Text.visible s
  | .list => "sequence"
  | .object => "map"

/-- What is wrong with a text. -/
inductive Cause where
  | endInValue
  | endInList
  | endInObject
  | endInString
  | notValue
  | notWord
  | notColon
  | notListEnd
  | notObjectEnd
  | commaBeforeEnd
  | afterLast
  | keyNotString
  | control
  | badEscape
  | loneSurrogate
  | cutSurrogate
  | badUtf8
  | badNumber
  | tooLarge
  | tooDeep
  | wrongType (found : Found) (wanted : String)
  | wrongValue (found : Found) (wanted : String)
  | repeatedField (name : String)

/-- The wording of a cause. -/
def Cause.text : Cause → String
  | .endInValue => "EOF while parsing a value"
  | .endInList => "EOF while parsing a list"
  | .endInObject => "EOF while parsing an object"
  | .endInString => "EOF while parsing a string"
  | .notValue => "expected value"
  | .notWord => "expected ident"
  | .notColon => "expected `:`"
  | .notListEnd => "expected `,` or `]`"
  | .notObjectEnd => "expected `,` or `\x7d`"
  | .commaBeforeEnd => "trailing comma"
  | .afterLast => "trailing characters"
  | .keyNotString => "key must be a string"
  | .control => "control character (\\u0000-\\u001F) found while parsing a string"
  | .badEscape => "invalid escape"
  | .loneSurrogate => "lone leading surrogate in hex escape"
  | .cutSurrogate => "unexpected end of hex escape"
  | .badUtf8 => "invalid unicode code point"
  | .badNumber => "invalid number"
  | .tooLarge => "number out of range"
  | .tooDeep => "recursion limit exceeded"
  | .wrongType found wanted => "invalid type: " ++ found.text ++ ", expected " ++ wanted
  | .wrongValue found wanted => "invalid value: " ++ found.text ++ ", expected " ++ wanted
  | .repeatedField name => "duplicate field `" ++ name ++ "`"

/-- One step from a value to one of its parts; `unknown` is a member whose key is not read yet. -/
inductive Segment where
  | key (name : String)
  | index (i : Nat)
  | unknown
deriving DecidableEq, Repr

/-- The rest of a path, after at least one step. -/
def pathRest : List Segment → String
  | [] => ""
  | .key name :: rest => "." ++ name ++ pathRest rest
  | .index i :: rest => "[" ++ toString i ++ "]" ++ pathRest rest
  | .unknown :: rest => ".?" ++ pathRest rest

/-- A path from the root, which itself is a dot. -/
def pathText : List Segment → String
  | [] => "."
  | .key name :: rest => name ++ pathRest rest
  | .index i :: rest => "[" ++ toString i ++ "]" ++ pathRest rest
  | .unknown :: rest => "?" ++ pathRest rest

/-- A cause, the number of bytes before the place it is found at, and the path to it. -/
structure Fault where
  cause : Cause
  index : Nat
  path : List Segment := []

/-- The line, from one, and the number of bytes before a place in its line. -/
def lineColumn (source : List UInt8) (index : Nat) : Nat × Nat :=
  let before := source.take index
  (before.count 10 + 1, (before.reverse.takeWhile (· != 10)).length)

/-- The report of a fault in a text. -/
def Fault.message (f : Fault) (source : List UInt8) : String :=
  let (line, column) := lineColumn source f.index
  "at JSON path " ++ pathText f.path ++ " → " ++ f.cause.text ++
    " at line " ++ toString line ++ " column " ++ toString column

end SchemaDecl.Json
