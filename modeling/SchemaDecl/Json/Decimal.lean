/-
Decimal text of doubles.

* `Decimal.shortest`: the fewest decimal digits that still name the double, and of those the
  nearest, a tie going to the even digit.
* `Decimal.Layout`: where positional notation ends and how an exponent is written.
* `Decimal.text`: the digits laid out; zero keeps its sign.
-/
import SchemaDecl.Json.Double

namespace SchemaDecl.Json.Decimal

/-- Decimal digits and the place of the first of them: `d₁.d₂d₃… · 10 ^ exponent`. -/
structure Digits where
  digits : List Char
  exponent : Int
deriving DecidableEq, Repr

/-- Enough decimal places to make every positive double at least one. -/
def places : Nat := 400

/-- The place of the first decimal digit of `units` units: `0` for values from one up to ten. -/
def leadingPlace (units : Nat) : Int :=
  ((Nat.toDigits 10 (units * Nat.pow 10 places / Double.one)).length : Int) - 1 - places

/-- Twice the distance, in units, from a magnitude to the next smaller double. Below a power of two
the doubles stand closer together. -/
def gapBelow (units : Nat) : Nat :=
  let s := Double.step units
  if 1 < s ∧ units = Nat.pow 2 52 * s then s / 2 else s

/-- The decimal `d · 10 ^ place` is nearer to the double of magnitude `units` than to its
neighbours; an even significand also takes the two midpoints. Everything is scaled so that it is
whole. -/
def names (units d : Nat) (place : Int) : Bool :=
  let scaleUp := Nat.pow 10 place.toNat
  let scaleDown := Nat.pow 10 (-place).toNat
  let candidate := 2 * d * scaleUp * Double.one
  let low := (2 * units - gapBelow units) * scaleDown
  let high := (2 * units + Double.step units) * scaleDown
  if units / Double.step units % 2 = 0 then low ≤ candidate && candidate ≤ high
  else low < candidate && candidate < high

/-- The best decimal with `count` digits for a double, if one of its two neighbours on that grid
names the double. -/
def withDigits (units : Nat) (count : Nat) : Option (Nat × Int) :=
  let place := leadingPlace units - (count - 1 : Nat)
  let num := units * Nat.pow 10 (-place).toNat
  let den := Double.one * Nat.pow 10 place.toNat
  let down := num / den
  let downFits := names units down place
  let upFits := names units (down + 1) place
  if downFits && upFits then some (Double.roundHalfEven num den, place)
  else if downFits then some (down, place)
  else if upFits then some (down + 1, place)
  else none

/-- The fewest digits that name a double of positive magnitude; seventeen are always enough. -/
def shortest (units : Nat) : Digits :=
  match (List.range' 1 17).findSome? (withDigits units) with
  | some (d, place) =>
    let digits := Nat.toDigits 10 d
    let kept := (digits.reverse.dropWhile (· == '0')).reverse
    ⟨kept, place + ((digits.length - 1 : Nat) : Int)⟩
  | none => ⟨['0'], 0⟩

/-- How a double is laid out: the first digit's places that are written positionally, and the
signs of the other exponents. -/
structure Layout where
  positionalFrom : Int
  positionalBelow : Int
  plus : String
  minus : String

/-- Positional from `0.00001` up to sixteen whole digits, always with a point; beyond that one
digit before the point and a signed exponent. -/
def jsonLayout : Layout := ⟨-5, 16, "e+", "e-"⟩

/-- Lays digits out. -/
def Layout.write (l : Layout) (d : Digits) : String :=
  let n := d.digits.length
  if l.positionalFrom ≤ d.exponent ∧ d.exponent < l.positionalBelow then
    if d.exponent < 0 then
      "0." ++ String.ofList (List.replicate (-d.exponent - 1).toNat '0' ++ d.digits)
    else
      let whole := d.exponent.toNat + 1
      if n ≤ whole then String.ofList (d.digits ++ List.replicate (whole - n) '0') ++ ".0"
      else String.ofList (d.digits.take whole) ++ "." ++ String.ofList (d.digits.drop whole)
  else
    let mantissa := match d.digits with
      | [] => ""
      | [c] => String.singleton c
      | c :: cs => String.singleton c ++ "." ++ String.ofList cs
    let mark := if d.exponent < 0 then l.minus else l.plus
    mantissa ++ mark ++ toString d.exponent.natAbs

/-- The text of a double. -/
def text (x : Double) : String :=
  (if x.negative then "-" else "") ++
    if x.units = 0 then "0.0" else jsonLayout.write (shortest x.units)

end SchemaDecl.Json.Decimal
