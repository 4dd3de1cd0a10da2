/-
Numbers in double precision, exactly.

Every finite double is a whole multiple of the smallest positive one, `2 ^ (-1074)`. A double is
its sign and that multiple, so that comparing two doubles is comparing integers, and rounding is
the only operation that needs thought.

* `Double.nearestUnits`: the magnitude of a double nearest to a quotient, a tie going to the even
  significand.
* `Double.ofInt`, `mul?`, `div`: rounded conversions and operations.
* `Double.le`: the order of the values.
* `Double.toBound`: the value as a count below `2 ^ 64`, cut off at both ends.
-/

namespace SchemaDecl.Json

/-- A finite double: `± units · 2 ^ (-1074)`. There are two zeros. -/
structure Double where
  negative : Bool
  units : Nat
deriving DecidableEq, Repr, Inhabited

namespace Double

/-- How many smallest doubles make one. -/
def one : Nat := Nat.pow 2 1074

/-- The least magnitude, in units, that is too large for a double. -/
def limit : Nat := Nat.pow 2 2098

/-- The whole number nearest to `num / den`, a tie going to the even one. -/
def roundHalfEven (num den : Nat) : Nat :=
  let q := num / den
  let twice := 2 * (num % den)
  if twice < den then q else if den < twice then q + 1 else q + q % 2

/-- The step between neighbouring doubles of magnitude `n` units: one unit below `2 ^ 53` units,
and above that the power of two that leaves 53 binary digits. -/
def step (n : Nat) : Nat := if n < Nat.pow 2 53 then 1 else Nat.pow 2 (n.log2 - 52)

/-- The magnitude of a double nearest to `num / den` units, as if there were no largest one. -/
def nearestUnits (num den : Nat) : Nat :=
  let s := step (num / den)
  roundHalfEven num (den * s) * s

/-- The double nearest to an integer; in range for every integer below `2 ^ 1023`. -/
def ofInt (n : Int) : Double := ⟨n < 0, nearestUnits (n.natAbs * one) 1⟩

/-- The product, unless it is too large. -/
def mul? (x y : Double) : Option Double :=
  let n := nearestUnits (x.units * y.units) one
  if n < limit then some ⟨x.negative != y.negative, n⟩ else none

/-- The quotient by a double that is not zero and not below one, which is never too large. -/
def div (x y : Double) : Double :=
  ⟨x.negative != y.negative, nearestUnits (x.units * one) y.units⟩

/-- The value is zero. -/
def isZero (x : Double) : Bool := x.units == 0

/-- The same value with the other sign. -/
def neg (x : Double) : Double := ⟨!x.negative, x.units⟩

/-- The value in units, as an integer. -/
def toUnits (x : Double) : Int := if x.negative then -(x.units : Int) else x.units

/-- The order of the values; the two zeros are equal in it. -/
def le (x y : Double) : Bool := x.toUnits ≤ y.toUnits

/-- The whole part of the value, cut off below at zero and above at `2 ^ 64 - 1`. -/
def toBound (x : Double) : Nat :=
  if x.negative then 0 else min (x.units / one) (Nat.pow 2 64 - 1)

end Double

end SchemaDecl.Json
