/-
Structural rules of schemas.

* `Rule`: the six rules, with their wording in `Rule.text`.
* `Rule.check`: a rule is violated, satisfied, or does not apply.
* `Diagnostic`: a violation, with the key it was found under and the name of the document.
* `Document.violations`: all violations of a document.
-/
import SchemaDecl.Document.Position

namespace SchemaDecl

/-- The longest list of positions that is written out. -/
def tupleLimit : Nat := 65535

/-- What a rule says about a schema. -/
inductive Verdict where
  | violated
  | satisfied
  | notApplicable
deriving DecidableEq, Repr

/-- Whether something required holds. -/
def Verdict.ofBool (ok : Bool) : Verdict := if ok then .satisfied else .violated

/-- The rules. -/
inductive Rule where
  | enumNamesLength
  | enumNamesStrings
  | maxItemsAtLeastMinItems
  | maxItemsNonNegative
  | minItemsNonNegative
  | minItemsWithinLimit
deriving DecidableEq, Repr

namespace Rule

/-- The rules in the order in which violations are reported. -/
def all : List Rule :=
  [.enumNamesLength, .enumNamesStrings, .maxItemsAtLeastMinItems, .maxItemsNonNegative,
   .minItemsNonNegative, .minItemsWithinLimit]

/-- The wording of a rule. -/
def text : Rule → String
  | .enumNamesLength => "Enum members and tsEnumNames must be of the same length"
  | .enumNamesStrings => "tsEnumNames must be an array of strings"
  | .maxItemsAtLeastMinItems =>
    "When both maxItems and minItems are present, maxItems >= minItems"
  | .maxItemsNonNegative => "When maxItems exists, maxItems >= 0"
  | .minItemsNonNegative => "When minItems exists, minItems >= 0"
  | .minItemsWithinLimit => "When minItems exists, minItems <= 65535"

/-- Judges a number under a key, if there is one. -/
def ofNumber (d : Document) (id : NodeId) (key : String) (ok : Json.Double → Bool) : Verdict :=
  match d.double? id key with
  | some x => .ofBool (ok x)
  | none => .notApplicable

/-- Judges a schema. -/
def check (d : Document) (id : NodeId) : Rule → Verdict
  | .enumNamesLength =>
    match d.get? id "enum", d.get? id "tsEnumNames" with
    | some values, some labels =>
      match d.items? values, d.items? labels with
      | some values, some labels => .ofBool (values.length == labels.length)
      | _, _ => .violated
    | _, _ => .notApplicable
  | .enumNamesStrings =>
    match d.get? id "tsEnumNames" with
    | some labels =>
      match d.items? labels with
      | some labels => .ofBool (labels.all fun label => (d.leafString? label).isSome)
      | none => .violated
    | none => .notApplicable
  | .maxItemsAtLeastMinItems =>
    match d.double? id "maxItems", d.double? id "minItems" with
    | some most, some least => .ofBool (least.le most)
    | _, _ => .notApplicable
  | .maxItemsNonNegative => ofNumber d id "maxItems" fun most => (Json.Double.ofInt 0).le most
  | .minItemsNonNegative => ofNumber d id "minItems" fun least => (Json.Double.ofInt 0).le least
  | .minItemsWithinLimit =>
    ofNumber d id "minItems" fun least => least.le (Json.Double.ofInt tupleLimit)

end Rule

/-- A violated rule. -/
structure Diagnostic where
  rule : Rule
  key : Option String
  source : String
deriving DecidableEq, Repr

/-- The wording of a violation. -/
def Diagnostic.text (v : Diagnostic) : String :=
  "error at key \"" ++ v.key.getD "null" ++ "\" in \"" ++ v.source ++ "\": " ++ v.rule.text

/-- The rules that a schema violates. -/
def Document.violatedAt (d : Document) (id : NodeId) : List Rule :=
  Rule.all.filter fun rule => rule.check d id == .violated

/-- All violations of a document, schema by schema in visiting order. -/
def Document.violations (d : Document) (root : NodeId) (source : String) : List Diagnostic :=
  (d.schemas root).flatMap fun e =>
    (d.violatedAt e.2).map fun rule => { rule, key := e.1, source }

end SchemaDecl
