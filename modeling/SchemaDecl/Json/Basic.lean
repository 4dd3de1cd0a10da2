/-
JSON values.

* `Number`: an integer that fits 64 bits, or a double.
* `Scalar`: null, a truth value, a number or a string.
* `Json`: a scalar, a list, or an object with its members in order.
-/
import SchemaDecl.Keyed
import SchemaDecl.Json.Double

namespace SchemaDecl

/-- A number. Integers lie between `-2 ^ 63` and `2 ^ 64 - 1`. -/
inductive Json.Number where
  | int (n : Int)
  | real (x : Json.Double)
deriving DecidableEq, Repr

/-- A value without parts. -/
inductive Json.Scalar where
  | null
  | bool (b : Bool)
  | number (n : Json.Number)
  | string (s : String)
deriving DecidableEq, Repr

/-- A JSON value. -/
inductive Json where
  | scalar (s : Json.Scalar)
  | array (items : List Json)
  | object (members : List (String × Json))
deriving Repr

namespace Json

/-- The null value. -/
def null : Json := .scalar .null

/-- A truth value. -/
def bool (b : Bool) : Json := .scalar (.bool b)

/-- An integer value. -/
def int (n : Int) : Json := .scalar (.number (.int n))

/-- A string value. -/
def string (s : String) : Json := .scalar (.string s)

/-- A number as a double. -/
def Number.toDouble : Number → Double
  | .int n => Double.ofInt n
  | .real x => x

namespace Scalar

/-- The text of a string. -/
def string? : Scalar → Option String
  | .string s => some s
  | _ => none

/-- The value of a number, as a double. -/
def double? : Scalar → Option Double
  | .number n => some n.toDouble
  | _ => none

/-- The value of a truth value. -/
def bool? : Scalar → Option Bool
  | .bool b => some b
  | _ => none

/-- The scalar is null. -/
def isNull : Scalar → Bool
  | .null => true
  | _ => false

/-- The scalar is a truth value. -/
def isBool (s : Scalar) : Bool := s.bool?.isSome

/-- The scalar is a number. -/
def isNumber : Scalar → Bool
  | .number _ => true
  | _ => false

/-- The scalar is a string. -/
def isString (s : Scalar) : Bool := s.string?.isSome

end Scalar

end Json

end SchemaDecl
