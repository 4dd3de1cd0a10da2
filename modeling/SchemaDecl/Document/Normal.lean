/-
The normal form of schemas.

Lowering to types relies on it: keywords have one spelling, object schemas say whether they accept
further properties, and array schemas carry their bounds and, if these are narrow, a list of
positions.

* `Document.normalize`: brings every schema of a document to normal form.
* `Document.bound?`: a bound as a count.
-/
import SchemaDecl.Document.Position
import SchemaDecl.Document.Rule
import SchemaDecl.Document.Value
import SchemaDecl.Settings
import SchemaDecl.Text.Split

namespace SchemaDecl.Document

/-- A string `id` becomes `$id`, and `definitions` become `$defs`, unless those are there. -/
def canonicalKeywords (d : Document) (id : NodeId) : Document :=
  let d := if (d.string? id "id").isSome then d.rename id "id" "$id" else d
  d.rename id "definitions" "$defs"

/-- A single extended schema becomes a list of one, and an empty list goes. -/
def wrapExtends (d : Document) (id : NodeId) : Document :=
  match d.get? id "extends" with
  | none => d
  | some extended =>
    match d.items? extended with
    | some [] => d.erase id "extends"
    | some _ => d
    | none => d.setList id "extends" [extended]

/-- A constant becomes a list of one value, unless values are listed. -/
def constToEnum (d : Document) (id : NodeId) : Document :=
  if d.has id "enum" then d
  else match d.get? id "const" with
    | none => d
    | some value => (d.erase id "const").setList id "enum" [value]

/-- A blank goes between the characters that would end a comment. -/
def escapeDescription (d : Document) (id : NodeId) : Document :=
  match d.string? id "description" with
  | none => d
  | some text =>
    let escaped := Text.replacePair '*' '/' ['*', ' ', '/'] text.toList
    if escaped == text.toList then d
    else d.setValue id "description" (.string (String.ofList escaped))

/-- The root takes the name of the declaration as its identifier, unless it has one. -/
def defaultRootId (d : Document) (id : NodeId) (name : Option String) : Document :=
  match name with
  | some name =>
    if name.isEmpty || d.has id "$id" then d else d.setValue id "$id" (.string name)
  | none => d

/-- The schema describes objects. -/
def describesObjects (d : Document) (id : NodeId) : Bool :=
  d.hasType id "object" || d.has id "properties"

/-- The schema describes arrays. -/
def describesArrays (d : Document) (id : NodeId) : Bool :=
  d.hasType id "array" || d.has id "items"

/-- Object schemas say whether they accept further properties. -/
def defaultAdditionalProperties (s : Settings) (d : Document) (id : NodeId) : Document :=
  if d.describesObjects id && !d.has id "additionalProperties" && !d.has id "patternProperties"
  then d.setValue id "additionalProperties" (.bool s.additionalProperties)
  else d

/-- A bound as a count. -/
def bound? (d : Document) (id : NodeId) (key : String) : Option Nat :=
  (d.double? id key).map Json.Double.toBound

/-- A maximum is kept if it is not too far above the minimum and not above the limit. -/
def keepsMaximum (s : Settings) (least most : Nat) : Bool :=
  (s.ceiling?.all fun ceiling => decide (most - least ≤ ceiling)) && decide (most ≤ tupleLimit)

/-- Writes out the positions of an array schema with the bounds `least` and `most`. -/
def expandItems (d : Document) (id : NodeId) (least : Nat) (most : Option Nat) : Document :=
  match d.get? id "items" with
  | none => d
  | some items =>
    match d.node items with
    | .object _ =>
      if most.isSome || 0 < least then
        let d := d.setList id "items" (List.replicate (max (most.getD 0) least) items)
        if most.isNone then d.set id "additionalItems" items else d
      else d
    | .array list =>
      match most with
      | some most => if most < list.length then d.setList id "items" (list.take most) else d
      | none => d
    | .leaf _ => d

/-- Array schemas carry a minimum, a maximum that is not too large, and positions between. -/
def boundArrays (s : Settings) (d : Document) (id : NodeId) : Document :=
  if !d.describesArrays id then d
  else if s.ignoreBounds then (d.erase id "minItems").erase id "maxItems"
  else
    let d := if d.has id "minItems" then d else d.setValue id "minItems" (.int 0)
    let least := (d.bound? id "minItems").getD 0
    let most := (d.bound? id "maxItems").filter (keepsMaximum s least)
    let d := if (d.bound? id "maxItems").isSome && most.isNone then d.erase id "maxItems" else d
    if tupleLimit < least then d else d.expandItems id least most

/-- Spelling of one schema. -/
def normalizeSpelling (d : Document) (id : NodeId) : Document :=
  (d.canonicalKeywords id).wrapExtends id

/-- Contents of one schema. -/
def normalizeContents (s : Settings) (root : NodeId) (name : Option String) (d : Document)
    (id : NodeId) : Document :=
  let d := (d.constToEnum id).escapeDescription id
  let d := if id == root then d.defaultRootId id name else d
  boundArrays s (defaultAdditionalProperties s d id) id

/-- The document with every schema below the root in normal form. The spelling comes first, because
it has a say in where schemas stand. -/
def normalize (s : Settings) (d : Document) (root : NodeId) (name : Option String) : Document :=
  let d := (d.schemaIds root).foldl normalizeSpelling d
  (d.schemaIds root).foldl (normalizeContents s root name) d

end SchemaDecl.Document
