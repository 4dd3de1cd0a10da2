/-
From schemas to types: one way for each category.

* `Lower.shapeOf`: the shape of a schema under a category.
* `Lower.schema`: the type of a node; a schema of several categories becomes an intersection.
* `TypeGraph.ofDocument`: the types of a document.
-/
import SchemaDecl.Document.Normal
import SchemaDecl.Types.Record

namespace SchemaDecl

namespace Lower

variable (s : Settings) (down : Descent)

/-- The types of the items of the list under a key. -/
def list (id : NodeId) (key : String) : Lower (List TypeId) := do
  ((← document).listAt id key).mapM fun item => down item none

/-- The enumeration of a schema that labels its values. -/
def enumeration (id : NodeId) : Lower Shape := do
  let d ← document
  let members ← ((d.listAt id "enum").zip (d.strings id "tsEnumNames")).mapM
    fun (value, label) => do return (label, ← down value none)
  return .enumeration members

/-- A bound as a count, never above the limit. -/
def tupleBound? (d : Document) (id : NodeId) (key : String) : Option Nat :=
  (d.bound? id key).map (min · tupleLimit)

/-- The type of items beyond the listed positions. -/
def restType? (id : NodeId) : Lower (Option TypeId) := do
  let d ← document
  match d.get? id "additionalItems" with
  | none => return none
  | some extra =>
    if d.isObject extra then return some (← down extra none)
    else if d.leafIs extra true then return some (← allocTop s none)
    else return none

/-- The array or tuple of a schema that describes its items. -/
def typedArray (id : NodeId) : Lower Shape := do
  let d ← document
  match d.get? id "items" with
  | none => return .array (← allocTop s none)
  | some items =>
    match d.node items with
    | .array _ =>
      let params ← list down id "items"
      let rest ← restType? s down id
      return .tuple {
        params
        least := (tupleBound? d id "minItems").getD 0
        most := tupleBound? d id "maxItems"
        rest }
    | .object _ => return .array (← down items none)
    | .leaf _ => return .array (← allocTop s none)

/-- The array or tuple of a schema that does not describe its items. -/
def untypedArray (id : NodeId) : Lower Shape := do
  let d ← document
  let least := (tupleBound? d id "minItems").getD 0
  let most := tupleBound? d id "maxItems"
  let top ← allocTop s none
  if least == 0 && most.isNone then return .array top
  else return .tuple {
    params := List.replicate (max (most.getD 0) least) top
    least
    most
    rest := if most.isNone then some top else none }

/-- The default of a schema is a value of the named type, or there is none. -/
def defaultFits (d : Document) (id : NodeId) (name : String) : Bool :=
  match d.get? id "default" with
  | none => true
  | some value =>
    match d.node value with
    | .array _ => name == "array"
    | .object _ => name == "object"
    | .leaf v =>
      if name == "boolean" then v.isBool
      else if name == "integer" || name == "number" then v.isNumber
      else if name == "string" then v.isString
      else if name == "null" then v.isNull
      else false

/-- A copy of a schema with one of its listed types alone, without a name or description of its own.
A default that is no value of the type goes. -/
def withType (d : Document) (id : NodeId) (name : String) : NodeId × Document :=
  let (copy, d) := d.copyWithout id ["$id", "description", "title"]
  let d := d.setValue copy "type" (.string name)
  (copy, if defaultFits d copy name then d else d.erase copy "default")

/-- The type of a schema under one of the types that it lists. -/
def alternative (id : NodeId) (name : String) : Lower TypeId := do
  let (copy, d) := withType (← document) id name
  setDocument d
  down copy none

/-- The union of a schema that lists types. -/
def typeUnion (id : NodeId) : Lower Shape := do
  return .union (← ((← document).strings id "type").mapM (alternative down id))

/-- The shape of a schema under a category, for a type that is called `name`. -/
def shapeOf (id : NodeId) (name : Option String) : Category → Lower Shape
  | .allOf => return .intersection (← list down id "allOf")
  | .any => return .top s.unknownTop
  | .anyOf => return .union (← list down id "anyOf")
  | .oneOf => return .union (← list down id "oneOf")
  | .boolean => return .boolean
  | .null => return .null
  | .number => return .number
  | .object => return .object
  | .string => return .string
  | .customType => return .custom (((← document).string? id "tsType").getD "")
  | .reference => return .custom (s.refName (((← document).string? id "$ref").getD ""))
  | .namedEnum => enumeration down id
  | .unnamedEnum => return .union (← list down id "enum")
  | .namedSchema => record s down id name
  | .unnamedSchema => record s down id name
  | .typedArray => typedArray s down id
  | .untypedArray => untypedArray s id
  | .union => typeUnion down id

/-- The type of a schema under a category. Only an enumeration may be called after its key. -/
def under (id : NodeId) (category : Category) (key : Option String) : Lower TypeId :=
  once (id, some category) do
    let name ← claimName id (if category = .namedEnum then key else none)
    finish id (← shapeOf s down id name category) key name

/-- The type of a schema of several categories: an intersection that has the name and the comment.
Its members are made from a copy without those, so that they do not claim a name again. -/
def intersection (id : NodeId) (categories : List Category) (key : Option String) : Lower TypeId :=
  once (id, none) do
    let name ← claimName id none
    let (copy, d) := (← document).copyWithout id ["$id", "title", "description", "name"]
    setDocument d
    let members ← categories.mapM fun category => under s down copy category key
    finish id (.intersection members) key name

/-- The literal type of a node that is no schema. -/
def literal (id : NodeId) (key : Option String) : Lower TypeId := do
  alloc { shape := .literal ((← document).toJson id), key }

/-- The type of a node, given how to go on below it. -/
def schemaWith (id : NodeId) (key : Option String) : Lower TypeId := do
  let d ← document
  if d.isObject id then
    match d.categories id with
    | [category] => under s down id category key
    | categories => intersection s down id categories key
  else literal id key

/-- The type of a node, with `beyond` for what lies deeper than `fuel`. -/
def schemaBeyond (beyond : Descent) : (fuel : Nat) → Descent
  | 0 => beyond
  | fuel + 1 => fun id key => answering id (schemaWith s (schemaBeyond beyond fuel) id key)

/-- The type of a node. Types under way are not made again, and a copy made on the way is of a node
of the document or of one such copy, so that `fuel` twice the size of the document is enough. -/
def schema (fuel : Nat) : Descent := schemaBeyond s (fun _ _ => reserve) fuel

end Lower

/-- The state after a document has been lowered, with the type of its root. -/
def Lowering.ofDocument (s : Settings) (d : Document) (root : NodeId) : TypeId × Lowering :=
  Lower.schema s (2 * d.size + 2) root none { document := d }

/-- The types of a document in normal form, with the type of its root. -/
def TypeGraph.ofDocument (s : Settings) (d : Document) (root : NodeId) : TypeId × TypeGraph :=
  let (id, st) := Lowering.ofDocument s d root
  (id, st.types)

end SchemaDecl
