/-
Schema positions: the places of a document where schemas stand.

* `Document.positions`: the nodes at the positions inside a schema, each with the key or the index
  it is found under.
* `Document.schemas`: all schemas of a document in visiting order, each once.
-/
import SchemaDecl.Document.Basic
import SchemaDecl.Walk

namespace SchemaDecl.Document

/-- Keywords that hold no schemas, or that `positions` names by themselves. Any other keyword may
hold schemas under names of its own. -/
def knownKeywords : List String :=
  ["id", "$defs", "$id", "$schema", "title", "description", "default", "multipleOf", "maximum",
   "exclusiveMaximum", "minimum", "exclusiveMinimum", "maxLength", "minLength", "pattern",
   "additionalItems", "items", "maxItems", "minItems", "uniqueItems", "maxProperties",
   "minProperties", "required", "additionalProperties", "definitions", "properties",
   "patternProperties", "dependencies", "enum", "type", "allOf", "anyOf", "oneOf", "not", "const",
   "tsEnumNames", "tsType", "$ref", "extends"]

/-- The items of a list, each with its index; nothing of other nodes. -/
def indexed (d : Document) (id : NodeId) : List (Option String × NodeId) :=
  ((d.items? id).getD []).zipIdx.map fun (item, i) => (some (toString i), item)

/-- The members of an object with their keys, or the items of a list with their indices. -/
def named (d : Document) (id : NodeId) : List (Option String × NodeId) :=
  match d.node id with
  | .object members => members.map fun e => (some e.1, e.2)
  | _ => d.indexed id

/-- The items of a list with their indices, or any other node by itself. -/
def oneOrMany (d : Document) (id : NodeId) : List (Option String × NodeId) :=
  if d.isArray id then d.indexed id else [(none, id)]

/-- The nodes at the positions inside an object, keyword by keyword. -/
def positions (d : Document) (id : NodeId) : List (Option String × NodeId) :=
  let under (keys : List String) (f : NodeId → List (Option String × NodeId)) :=
    keys.flatMap fun key => ((d.get? id key).map f).getD []
  under ["anyOf", "allOf", "oneOf"] d.indexed ++
  under ["properties", "patternProperties"] d.named ++
  under ["additionalProperties", "additionalItems", "not"] (fun child => [(none, child)]) ++
  under ["items", "extends"] d.oneOrMany ++
  under ["dependencies", "definitions", "$defs"] d.named ++
  ((d.members? id).getD []).flatMap fun e =>
    if knownKeywords.contains e.1 then [] else d.named e.2

/-- The schemas at the positions inside a schema: only objects are schemas. -/
def schemaEdges (d : Document) (id : NodeId) : List (Option String × NodeId) :=
  (d.positions id).filter fun e => d.isObject e.2

/-- The schemas that can be reached from a root through schema positions, each once, a schema before
those first found inside it, with the key or index it is first found under. -/
def schemas (d : Document) (root : NodeId) : List (Option String × NodeId) :=
  if d.isObject root then Walk.entered d.schemaEdges d.size (none, root) else []

/-- The schemas without their keys. -/
def schemaIds (d : Document) (root : NodeId) : List NodeId := (d.schemas root).map (·.2)

end SchemaDecl.Document
