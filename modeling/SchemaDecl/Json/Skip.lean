/-
Passing over JSON values.

A value that nobody asks for is read only to find its end. Numbers may be of any size, containers
may stand inside one another to any depth, and strings may hold bytes that are no characters.

* `Reader.skipValue`: passes over a value.
-/
import SchemaDecl.Json.Reader

namespace SchemaDecl.Json.Reader

/-- Passes over an exponent, from its mark on. -/
def skipExponent : Reader Unit := do
  skip
  match ← peek with
  | some 43 => skip
  | some 45 => skip
  | _ => pure ()
  match ← next with
  | some b => if isDigit b then let _ ← run isDigit else fail .badNumber
  | none => fail .badNumber

/-- Passes over an exponent if one follows. -/
def skipOptionalExponent : Reader Unit := do
  match ← peek with
  | some 101 => skipExponent
  | some 69 => skipExponent
  | _ => pure ()

/-- Passes over a fraction, from its point on. -/
def skipFraction : Reader Unit := do
  skip
  if (← run isDigit).isEmpty then failAhead .badNumber else skipOptionalExponent

/-- Passes over a number after its sign. -/
def skipNumber : Reader Unit := do
  match ← next with
  | none => fail .badNumber
  | some first =>
    if !isDigit first then fail .badNumber
    else
      if first != 48 then let _ ← run isDigit
      match ← peek with
      | some 46 => skipFraction
      | some b => if isDigit b then failAhead .badNumber else skipOptionalExponent
      | none => pure ()

/-- Passes over a string after its opening quote. -/
def skipString : (fuel : Nat) → Reader Unit
  | 0 => fail .endInString
  | fuel + 1 => do
    let _ ← run isPlain
    match ← peek with
    | none => fail .endInString
    | some 34 => skip
    | some 92 =>
      skip
      match ← next with
      | none => fail .endInString
      | some 117 => do
        let _ ← hexEscape
        skipString fuel
      | some b => if (letterEscape? b).isSome then skipString fuel else fail .badEscape
    | some _ => fail .control

/-- Passes over the items of a list, with the closing bracket. -/
def skipItems (item : Reader Unit) : (fuel : Nat) → (first : Bool) → Reader Unit
  | 0, _ => failAhead .endInList
  | fuel + 1, first => do
    match ← peekPart with
    | none => failAhead .endInList
    | some 93 => skip
    | some b =>
      if !first then if b == 44 then skip else failAhead .notListEnd
      item
      skipItems item fuel false

/-- Passes over the members of an object, with the closing brace. -/
def skipMembers (value : Reader Unit) : (fuel : Nat) → (first : Bool) → Reader Unit
  | 0, _ => failAhead .endInObject
  | fuel + 1, first => do
    match ← peekPart with
    | none => failAhead .endInObject
    | some 125 => skip
    | some b =>
      if !first then if b == 44 then skip else failAhead .notObjectEnd
      match ← peekPart with
      | none => failAhead .endInObject
      | some 34 => do
        skip
        skipString ((← remaining) + 1)
        colon
        value
        skipMembers value fuel false
      | some _ => failAhead .keyNotString

/-- Passes over a value, given how to do so one container further inside. -/
def skipValueWith (inner : Reader Unit) : Reader Unit := do
  match ← peekPart with
  | none => failAhead .endInValue
  | some 110 => skip; word ull
  | some 116 => skip; word rue
  | some 102 => skip; word alse
  | some 45 => skip; skipNumber
  | some 34 => do skip; skipString ((← remaining) + 1)
  | some 91 => do skip; skipItems inner ((← remaining) + 1) true
  | some 123 => do skip; skipMembers inner ((← remaining) + 1) true
  | some b => if isDigit b then skipNumber else failAhead .notValue

/-- Passes over a value in which fewer than `depth` containers stand inside one another. -/
def skipValueTo : (depth : Nat) → Reader Unit
  | 0 => failAhead .endInValue
  | depth + 1 => skipValueWith (skipValueTo depth)

/-- Passes over a value. Every container takes a byte, so that the number of bytes left bounds the
depth. -/
def skipValue : Reader Unit := do skipValueTo ((← remaining) + 1)

end SchemaDecl.Json.Reader
