/-
Settings of a compilation.

* `Settings`: what can be chosen, with the defaults.
* `Settings.ceiling?`: the largest span of bounds that is kept.
* `Settings.isValid`: the limit on bounds makes sense.
-/

namespace SchemaDecl

/-- The text after the last slash of a reference, slashes at its end left aside. -/
def lastSegment (reference : String) : String :=
  let trimmed := reference.toList.reverse.dropWhile (· == '/')
  String.ofList (trimmed.takeWhile (· != '/')).reverse

/-- What can be chosen for a compilation. -/
structure Settings where
  /-- Text above the declarations of a document. -/
  bannerComment : String := ""
  /-- Object schemas that do not say so accept further properties. -/
  additionalProperties : Bool := false
  /-- Named types that the root refers to are declared too. -/
  declareReferenced : Bool := true
  /-- Enums are declared as constants. -/
  constEnums : Bool := false
  /-- Bounds on the number of items are left aside. -/
  ignoreBounds : Bool := false
  /-- The largest difference of bounds that is written out; `-1` if there is no such limit. -/
  maxItems : Int := 20
  /-- The type of an index signature is followed by a blank. -/
  strictIndex : Bool := false
  /-- Definitions are declared even if nothing refers to them. -/
  unreachableDefinitions : Bool := false
  /-- The type of what nothing describes is `unknown`, not `any`. -/
  unknownTop : Bool := true
  /-- The name of the type that a reference stands for. -/
  refName : String → String := lastSegment

namespace Settings

/-- The largest difference of bounds that is written out. -/
def ceiling? (s : Settings) : Option Nat :=
  if 0 ≤ s.maxItems then some s.maxItems.toNat else none

/-- The limit on bounds is a count, or `-1`. -/
def isValid (s : Settings) : Bool := -1 ≤ s.maxItems

/-- The text of the type of what nothing describes. -/
def top (s : Settings) : String := if s.unknownTop then "unknown" else "any"

end Settings

end SchemaDecl
