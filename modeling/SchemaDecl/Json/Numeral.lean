/-
Numbers from their digits.

Digits are gathered into a significand below `2 ^ 64`. Whole digits that no longer fit raise the
decimal exponent, and the first digit of the fraction that does not fit ends the fraction. The
significand is then taken as a double and multiplied or divided by powers of ten, with a rounding
at each of these steps; so the result can differ from the double nearest to the written number.

* `Numeral`: a sign, digits before and after the point, and an exponent.
* `Numeral.value?`: the number; none if it is too large.
-/
import SchemaDecl.Json.Basic

namespace SchemaDecl.Json

/-- A number as it is written. -/
structure Numeral where
  negative : Bool
  whole : List Nat
  fraction : Option (List Nat) := none
  exponent : Option Int := none

namespace Numeral

/-- The least number that is no significand. -/
def significandLimit : Nat := Nat.pow 2 64

/-- Gathers whole digits: a significand, and how many digits are dropped. -/
def gatherWhole (digits : List Nat) : Nat × Nat :=
  digits.foldl (fun (s, dropped) d =>
    if dropped = 0 ∧ s * 10 + d < significandLimit then (s * 10 + d, 0) else (s, dropped + 1))
    (0, 0)

/-- Goes on gathering digits of the fraction: a significand, and how many digits were taken. -/
def gatherFraction (significand : Nat) : List Nat → Nat × Nat
  | [] => (significand, 0)
  | d :: rest =>
    if significand * 10 + d < significandLimit then
      let (s, taken) := gatherFraction (significand * 10 + d) rest
      (s, taken + 1)
    else (significand, 0)

/-- A power of ten as a double. -/
def powerOfTen (k : Nat) : Double := ⟨false, Double.nearestUnits (Nat.pow 10 k * Double.one) 1⟩

/-- The largest power of ten that is a double. -/
def lastPower : Nat := 308

/-- Divides by `10 ^ k`, in steps of the largest power; nothing remains to be done at zero. -/
def divideByPower : (steps : Nat) → Double → (k : Nat) → Double
  | 0, x, _ => x
  | steps + 1, x, k =>
    if k ≤ lastPower then x.div (powerOfTen k)
    else if x.isZero then x
    else divideByPower steps (x.div (powerOfTen lastPower)) (k - lastPower)

/-- The significand times `10 ^ exponent`; none if it is too large. -/
def scaled? (significand : Nat) (exponent : Int) : Option Double :=
  let x := Double.ofInt significand
  if 0 ≤ exponent then
    if exponent.toNat ≤ lastPower then x.mul? (powerOfTen exponent.toNat)
    else if x.isZero then some x
    else none
  else
    let k := (-exponent).toNat
    some (divideByPower (k / lastPower + 1) x k)

/-- The number that a numeral denotes; none if it is too large for a double. -/
def value? (n : Numeral) : Option Number :=
  let (significand, dropped) := gatherWhole n.whole
  match n.fraction, n.exponent, dropped with
  | none, none, 0 =>
    if !n.negative then some (.int significand)
    else if 0 < significand ∧ significand ≤ Nat.pow 2 63 then some (.int (-(significand : Int)))
    else some (.real (Double.ofInt significand).neg)
  | fraction, exponent, dropped =>
    let (significand, taken) := gatherFraction significand (fraction.getD [])
    let shift := (dropped : Int) - taken + exponent.getD 0
    (scaled? significand shift).map fun x => .real (if n.negative then x.neg else x)

/-- The significand of a numeral is zero. -/
def isZero (n : Numeral) : Bool :=
  (gatherFraction (gatherWhole n.whole).1 (n.fraction.getD [])).1 == 0

end Numeral

end SchemaDecl.Json
