/-
Settings from JSON text.

Settings are an object whose members may be missing, or a list of values in a fixed order that may
end early. Members with other keys are passed over.

* `Settings.Member`: the members, in the order of the list.
* `Settings.decode`: the settings of a text.
-/
import SchemaDecl.Json.Skip
import SchemaDecl.Settings

namespace SchemaDecl.Settings

open Json (Reader Fault Found)
open Json.Reader

/-- The members of settings, in the order in which a list gives them. -/
inductive Member where
  | bannerComment
  | additionalProperties
  | declareReferenced
  | constEnums
  | ignoreBounds
  | maxItems
  | strictIndex
  | unreachableDefinitions
  | unknownTop
deriving DecidableEq, Repr

namespace Member

/-- The members in order. -/
def all : List Member :=
  [.bannerComment, .additionalProperties, .declareReferenced, .constEnums, .ignoreBounds, .maxItems,
   .strictIndex, .unreachableDefinitions, .unknownTop]

/-- The key of a member. -/
def key : Member → String
  | .bannerComment => "bannerComment"
  | .additionalProperties => "additionalProperties"
  | .declareReferenced => "declareExternallyReferenced"
  | .constEnums => "enableConstEnums"
  | .ignoreBounds => "ignoreMinAndMaxItems"
  | .maxItems => "maxItems"
  | .strictIndex => "strictIndexSignatures"
  | .unreachableDefinitions => "unreachableDefinitions"
  | .unknownTop => "unknownAny"

/-- The member with a key. -/
def ofKey? (key : String) : Option Member := all.find? fun m => m.key == key

end Member

/-- Reads what stands in place of a value of another kind, and reports it. A container is not
read. -/
def mismatch {α : Type} (wanted : String) : Reader α := do
  match ← peekPart with
  | some 110 => skip; word ull; fail (.wrongType .null wanted)
  | some 116 => skip; word rue; fail (.wrongType (.bool true) wanted)
  | some 102 => skip; word alse; fail (.wrongType (.bool false) wanted)
  | some 45 => skip; fail (.wrongType (.number (← number true)) wanted)
  | some 34 => skip; fail (.wrongType (.string (← string)) wanted)
  | some 91 => fail (.wrongType .list wanted)
  | some 123 => fail (.wrongType .object wanted)
  | some b =>
    if isDigit b then fail (.wrongType (.number (← number false)) wanted) else failAhead .notValue
  | none => failAhead .endInValue

/-- Reads a string. -/
def text : Reader String := do
  match ← peekPart with
  | some 34 => skip; string
  | _ => mismatch "a string"

/-- Reads a truth value. -/
def flag : Reader Bool := do
  match ← peekPart with
  | some 116 => skip; word rue; pure true
  | some 102 => skip; word alse; pure false
  | _ => mismatch "a boolean"

/-- A number as an integer of 64 bits with a sign. -/
def asInteger : Json.Number → Reader Int
  | .int n => if n < Nat.pow 2 63 then pure n else fail (.wrongValue (.number (.int n)) "i64")
  | .real x => fail (.wrongType (.number (.real x)) "i64")

/-- Reads an integer of 64 bits with a sign. -/
def integer : Reader Int := do
  match ← peekPart with
  | some 45 => skip; asInteger (← number true)
  | some b => if isDigit b then asInteger (← number false) else mismatch "i64"
  | none => mismatch "i64"

/-- Reads the value of a member into settings. -/
def member (s : Settings) : Member → Reader Settings
  | .bannerComment => do return { s with bannerComment := ← text }
  | .additionalProperties => do return { s with additionalProperties := ← flag }
  | .declareReferenced => do return { s with declareReferenced := ← flag }
  | .constEnums => do return { s with constEnums := ← flag }
  | .ignoreBounds => do return { s with ignoreBounds := ← flag }
  | .maxItems => do return { s with maxItems := ← integer }
  | .strictIndex => do return { s with strictIndex := ← flag }
  | .unreachableDefinitions => do return { s with unreachableDefinitions := ← flag }
  | .unknownTop => do return { s with unknownTop := ← flag }

/-- Reports a key that stands twice. The place is after the key and blanks, and past the brace if
the object ends there. -/
def repeated {α : Type} (m : Member) : Reader α := do
  if (← peekPart) == some 125 then skip
  fail (.repeatedField m.key)

/-- Reads the members of an object; `seen` holds those that have been read. -/
def members : (fuel : Nat) → (first : Bool) → (seen : List Member) → Settings → Reader Settings
  | 0, _, _, _ => failAhead .endInObject
  | fuel + 1, first, seen, s => do
    match ← optionalKey first with
    | none => skip; pure s
    | some key =>
      match Member.ofKey? key with
      | none =>
        colon
        inside (.key key) skipValue
        members fuel false seen s
      | some m =>
        if seen.contains m then repeated m
        else
          colon
          let s ← inside (.key key) (member s m)
          members fuel false (m :: seen) s

/-- Reads the end of a list all of whose values have been read. -/
def listEnd : Reader Unit := do
  match ← peekPart with
  | none => failAhead .endInList
  | some 93 => skip
  | some 44 =>
    skip
    if (← peekPart) == some 93 then failAhead .commaBeforeEnd else failAhead .afterLast
  | some _ => failAhead .afterLast

/-- Reads the values of a list from the `i`-th on. -/
def values : List Member → (i : Nat) → Settings → Reader Settings
  | [], _, s => do listEnd; pure s
  | m :: rest, i, s => do
    if ← nextItem (i == 0) then
      let s ← inside (.index i) (member s m)
      values rest (i + 1) s
    else skip; pure s

/-- Reads settings. -/
def reader : Reader Settings := do
  match ← peekPart with
  | some 91 => skip; values Member.all 0 {}
  | some 123 => skip; members ((← remaining) + 1) true [] {}
  | _ => mismatch "struct Options"

/-- The settings of a text. -/
def decode (source : List UInt8) : Except Fault Settings := (reader ⟨source, 0⟩).map (·.1)

end SchemaDecl.Settings
