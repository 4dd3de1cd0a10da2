/-
Reading JSON text, byte by byte.

The reader stops at the end of the first value. What it finds wrong it reports at one of two
places: a fault seen by looking ahead stands after the byte looked at, a fault in what was read
stands after the last byte read.

* `Reader`: reading from a cursor, with faults.
* `string`, `number`, `word`: the parts without structure.
* `value`: a value in which a given number of containers may still open.
* `parse`: the first value of a text.
-/
import SchemaDecl.Text.Utf8
import SchemaDecl.Json.Fault
import SchemaDecl.Json.Numeral

namespace SchemaDecl.Json

/-- The bytes still to be read and how many have been read. -/
structure Cursor where
  rest : List UInt8
  index : Nat := 0

/-- Reading from a cursor. -/
abbrev Reader := StateT Cursor (Except Fault)

namespace Reader

variable {α : Type}

/-- A fault in what was read. -/
def fail (cause : Cause) : Reader α := fun c => .error ⟨cause, c.index, []⟩

/-- A fault in the byte ahead, or at the end. -/
def failAhead (cause : Cause) : Reader α :=
  fun c => .error ⟨cause, if c.rest.isEmpty then c.index else c.index + 1, []⟩

/-- The byte ahead. -/
def peek : Reader (Option UInt8) := fun c => .ok (c.rest.head?, c)

/-- Reads one byte, if there is one. -/
def next : Reader (Option UInt8)
  | ⟨[], i⟩ => .ok (none, ⟨[], i⟩)
  | ⟨b :: rest, i⟩ => .ok (some b, ⟨rest, i + 1⟩)

/-- Passes over a byte. -/
def skip : Reader Unit := do let _ ← next

/-- Reads the longest run of bytes of a class. -/
def run (p : UInt8 → Bool) : Reader (List UInt8) :=
  fun c => .ok (c.rest.takeWhile p, ⟨c.rest.dropWhile p, c.index + (c.rest.takeWhile p).length⟩)

/-- How many bytes are still to be read. -/
def remaining : Reader Nat := fun c => .ok (c.rest.length, c)

/-- Blank, line feed, carriage return and tab stand between the parts of a value. -/
def isBlank (b : UInt8) : Bool := b == 32 || b == 10 || b == 13 || b == 9

/-- Passes over blanks and looks at the byte after them. -/
def peekPart : Reader (Option UInt8) := do
  let _ ← run isBlank
  peek

/-- Reads a part of a value; a fault in it lies one step further from the root. -/
def inside (segment : Segment) (r : Reader α) : Reader α := fun c =>
  match r c with
  | .ok result => .ok result
  | .error f => .error { f with path := segment :: f.path }

/-- An ASCII digit. -/
def isDigit (b : UInt8) : Bool := 48 ≤ b && b ≤ 57

/-- The value of an ASCII digit. -/
def digitValue (b : UInt8) : Nat := b.toNat - 48

/-! ### Words and numbers -/

/-- Reads the given bytes, which spell a word after its first letter. -/
def word : List UInt8 → Reader Unit
  | [] => pure ()
  | expected :: rest => do
    match ← next with
    | none => fail .endInValue
    | some b => if b == expected then word rest else fail .notWord

/-- The rest of `null`. -/
def ull : List UInt8 := [117, 108, 108]

/-- The rest of `true`. -/
def rue : List UInt8 := [114, 117, 101]

/-- The rest of `false`. -/
def alse : List UInt8 := [97, 108, 115, 101]

/-- How many digits of an exponent are read when it first exceeds `2 ^ 31 - 1`. -/
def exponentOverflow (read value : Nat) : List Nat → Option Nat
  | [] => none
  | d :: rest =>
    if Nat.pow 2 31 ≤ value * 10 + d then some (read + 1)
    else exponentOverflow (read + 1) (value * 10 + d) rest

/-- Reads the exponent of a numeral, from its mark on. -/
def exponent (n : Numeral) : Reader Numeral := do
  skip
  let sign ← peek
  let downward := sign == some 45
  if sign == some 43 || downward then skip
  match ← next with
  | none => fail .endInValue
  | some first =>
    if !isDigit first then fail .badNumber
    else
      let start ← get
      let digits := digitValue first :: (← run isDigit).map digitValue
      match exponentOverflow 0 0 digits with
      | some read =>
        if n.isZero || downward then
          pure { n with whole := [0], fraction := none, exponent := some 0 }
        else
          set { start with index := start.index + read - 1 }
          fail .tooLarge
      | none =>
        let size : Nat := digits.foldl (fun v d => v * 10 + d) 0
        pure { n with exponent := some (if downward then -(size : Int) else size) }

/-- Reads an exponent if one follows. -/
def optionalExponent (n : Numeral) : Reader Numeral := do
  match ← peek with
  | some 101 => exponent n
  | some 69 => exponent n
  | _ => pure n

/-- Reads the fraction of a numeral, from its point on. -/
def fraction (n : Numeral) : Reader Numeral := do
  skip
  let digits ← run isDigit
  if digits.isEmpty then
    match ← peek with
    | none => failAhead .endInValue
    | some _ => failAhead .badNumber
  else optionalExponent { n with fraction := some (digits.map digitValue) }

/-- Reads a numeral after its sign. -/
def numeral (negative : Bool) : Reader Numeral := do
  match ← next with
  | none => fail .endInValue
  | some first =>
    if !isDigit first then fail .badNumber
    else
      let more ← if first == 48 then pure [] else run isDigit
      let n : Numeral := { negative, whole := (first :: more).map digitValue }
      match ← peek with
      | some 46 => fraction n
      | some b => if isDigit b then failAhead .badNumber else optionalExponent n
      | none => pure n

/-- Reads a number after its sign. -/
def number (negative : Bool) : Reader Number := do
  let n ← numeral negative
  match n.value? with
  | some v => pure v
  | none => fail .tooLarge

/-! ### Strings -/

/-- The value of a hexadecimal digit. -/
def hexValue? (b : UInt8) : Option Nat :=
  if 48 ≤ b && b ≤ 57 then some (b.toNat - 48)
  else if 97 ≤ b && b ≤ 102 then some (b.toNat - 87)
  else if 65 ≤ b && b ≤ 70 then some (b.toNat - 55)
  else none

/-- Reads the four hexadecimal digits of an escape. -/
def hexEscape : Reader Nat := fun c =>
  match c.rest with
  | a :: b :: d :: e :: rest =>
    match hexValue? a, hexValue? b, hexValue? d, hexValue? e with
    | some a, some b, some d, some e =>
      .ok (((a * 16 + b) * 16 + d) * 16 + e, ⟨rest, c.index + 4⟩)
    | _, _, _, _ => .error ⟨.badEscape, c.index + 4, []⟩
  | rest => .error ⟨.endInString, c.index + rest.length, []⟩

/-- Reads one byte of the second half of a surrogate pair. -/
def pairByte (expected : UInt8) : Reader Unit := do
  match ← next with
  | none => fail .endInString
  | some b => if b == expected then pure () else fail .cutSurrogate

/-- Reads a character given by its code; a character beyond the first plane takes two escapes. -/
def codeEscape : Reader Char := do
  let first ← hexEscape
  if 0xDC00 ≤ first && first < 0xE000 then fail .loneSurrogate
  else if 0xD800 ≤ first && first < 0xDC00 then
    pairByte 92
    pairByte 117
    let second ← hexEscape
    if 0xDC00 ≤ second && second < 0xE000 then
      pure (Char.ofNat (0x10000 + (first - 0xD800) * 1024 + (second - 0xDC00)))
    else fail .loneSurrogate
  else pure (Char.ofNat first)

/-- The character that a letter after a backslash stands for. -/
def letterEscape? (b : UInt8) : Option Char :=
  if b == 34 then some '"'
  else if b == 92 then some '\\'
  else if b == 47 then some '/'
  else if b == 98 then some (Char.ofNat 8)
  else if b == 102 then some (Char.ofNat 12)
  else if b == 110 then some '\n'
  else if b == 114 then some '\r'
  else if b == 116 then some '\t'
  else none

/-- Reads the rest of an escape, after the backslash. -/
def escape : Reader Char := do
  match ← next with
  | none => fail .endInString
  | some 117 => codeEscape
  | some b =>
    match letterEscape? b with
    | some c => pure c
    | none => fail .badEscape

/-- A byte that stands for itself in a string. -/
def isPlain (b : UInt8) : Bool := 32 ≤ b && b != 34 && b != 92

/-- Reads the bytes of a string up to its closing quote; an escape gives the bytes of its character.
Each round but the last reads an escape, so that `fuel` bytes are enough for as many rounds. -/
def stringBytes : (fuel : Nat) → Reader (List UInt8)
  | 0 => fail .endInString
  | fuel + 1 => do
    let plain ← run isPlain
    match ← next with
    | none => fail .endInString
    | some 34 => pure plain
    | some 92 => do
      let c ← escape
      pure (plain ++ Text.utf8 (String.singleton c) ++ (← stringBytes fuel))
    | some _ => fail .control

/-- Reads a string after its opening quote. Bytes that make no character are a fault, which stands
as many bytes before the end of the string as there are from the first of them on. -/
def string : Reader String := do
  let bytes ← stringBytes ((← remaining) + 1)
  match Text.decodeUtf8 bytes with
  | .ok cs => pure (String.ofList cs)
  | .error good => fun c => .error ⟨.badUtf8, c.index - (bytes.length - good), []⟩

/-! ### Containers -/

/-- Looks for the next item of a list, of which `first` says whether it is the first one. -/
def nextItem (first : Bool) : Reader Bool := do
  match ← peekPart with
  | none => failAhead .endInList
  | some 93 => pure false
  | some b =>
    if first then pure true
    else if b == 44 then
      skip
      match ← peekPart with
      | none => failAhead .endInValue
      | some 93 => failAhead .commaBeforeEnd
      | some _ => pure true
    else failAhead .notListEnd

/-- Looks for the next key of an object, of which `first` says whether it is the first one. -/
def nextKey (first : Bool) : Reader Bool := do
  match ← peekPart with
  | none => failAhead .endInObject
  | some 125 => pure false
  | some b =>
    if first then if b == 34 then pure true else failAhead .keyNotString
    else if b == 44 then
      skip
      match ← peekPart with
      | none => failAhead .endInValue
      | some 34 => pure true
      | some 125 => failAhead .commaBeforeEnd
      | some _ => failAhead .keyNotString
    else failAhead .notObjectEnd

/-- Looks for a key and reads it. -/
def optionalKey (first : Bool) : Reader (Option String) := inside .unknown do
  if ← nextKey first then
    skip
    pure (some (← string))
  else pure none

/-- Reads the colon between a key and its value. -/
def colon : Reader Unit := do
  match ← peekPart with
  | some 58 => skip
  | some _ => failAhead .notColon
  | none => failAhead .endInObject

/-- Reads the items of a list from the `i`-th on, with the closing bracket. Every item takes a byte,
so that `fuel` bytes are enough for as many items. -/
def items (item : Reader Json) : (fuel : Nat) → (i : Nat) → Reader (List Json)
  | 0, _ => failAhead .endInList
  | fuel + 1, i => do
    if ← nextItem (i == 0) then
      let v ← inside (.index i) item
      pure (v :: (← items item fuel (i + 1)))
    else
      skip
      pure []

/-- Reads the members of an object after those in `found`, with the closing brace. -/
def members (value : Reader Json) : (fuel : Nat) → (first : Bool) → Keyed Json →
    Reader (Keyed Json)
  | 0, _, _ => failAhead .endInObject
  | fuel + 1, first, found => do
    match ← optionalKey first with
    | some key =>
      colon
      let v ← inside (.key key) value
      members value fuel false (found.insert key v)
    | none =>
      skip
      pure found

/-- Reads a value, given how to read a value one container further inside, if that is allowed. -/
def valueWith (inner : Option (Reader Json)) : Reader Json := do
  match ← peekPart with
  | none => failAhead .endInValue
  | some 110 => skip; word ull; pure .null
  | some 116 => skip; word rue; pure (.bool true)
  | some 102 => skip; word alse; pure (.bool false)
  | some 45 => skip; pure (.scalar (.number (← number true)))
  | some 34 => skip; pure (.string (← string))
  | some 91 =>
    match inner with
    | none => failAhead .tooDeep
    | some item => skip; pure (.array (← items item ((← remaining) + 1) 0))
  | some 123 =>
    match inner with
    | none => failAhead .tooDeep
    | some item => skip; pure (.object (← members item ((← remaining) + 1) true []))
  | some b =>
    if isDigit b then pure (.scalar (.number (← number false))) else failAhead .notValue

/-- Reads a value in which at most `depth` containers stand inside one another. -/
def value : (depth : Nat) → Reader Json
  | 0 => valueWith none
  | depth + 1 => valueWith (some (value depth))

/-- How many containers may stand inside one another. -/
def depthLimit : Nat := 127

end Reader

/-- The first value of a text. -/
def parse (source : List UInt8) : Except Fault Json :=
  (Reader.value Reader.depthLimit ⟨source, 0⟩).map (·.1)

end SchemaDecl.Json
