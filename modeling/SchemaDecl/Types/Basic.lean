/-
Types: pools of type nodes with identity.

Types refer to one another by number, so that a schema that contains itself becomes a type that
refers to itself.

* `Shape`: what a type is made of.
* `TypeNode`: a shape with a comment, the key it was found under, and a name.
* `TypeGraph`: the nodes; `TypeGraph.children` are the types that a type is made of.
-/
import SchemaDecl.Json.Basic

namespace SchemaDecl

/-- The number of a type. -/
abbrev TypeId := Nat

/-- A sequence with a type for each of its first positions, bounds on its length, and a type for
further items. -/
structure TupleType where
  params : List TypeId
  least : Nat
  most : Option Nat
  rest : Option TypeId
deriving DecidableEq, Repr

/-- A field of a record. A field that stands for the keys of a pattern, or only for a definition, is
not written. -/
structure Field where
  key : String
  required : Bool := false
  isPattern : Bool := false
  isDefinition : Bool := false
  type : TypeId
deriving DecidableEq, Repr

/-- A record with fields and the types it extends. -/
structure RecordType where
  fields : List Field
  supers : List TypeId := []
deriving DecidableEq, Repr

/-- What a type is made of. A `pending` type is one whose making is under way. -/
inductive Shape where
  | any
  | unknown
  | null
  | boolean
  | number
  | string
  | object
  | literal (value : Json)
  | array (element : TypeId)
  | tuple (t : TupleType)
  | record (r : RecordType)
  | union (members : List TypeId)
  | intersection (members : List TypeId)
  | enumeration (members : List (String × TypeId))
  | custom (text : String)
  | pending
deriving Repr

namespace Shape

/-- The type of what nothing describes. -/
def top (unknownTop : Bool) : Shape := if unknownTop then .unknown else .any

/-- The shape is `any`. -/
def isAny : Shape → Bool
  | .any => true
  | _ => false

/-- The shape is `unknown`. -/
def isUnknown : Shape → Bool
  | .unknown => true
  | _ => false

/-- The shape is one of the two types of what nothing describes. -/
def isTop (s : Shape) : Bool := s.isAny || s.isUnknown

/-- The shape is an enumeration. -/
def isEnumeration : Shape → Bool
  | .enumeration _ => true
  | _ => false

/-- The shape is a record. -/
def isRecord : Shape → Bool
  | .record _ => true
  | _ => false

/-- The shape is an array. -/
def isArray : Shape → Bool
  | .array _ => true
  | _ => false

/-- The shape is a union or an intersection. -/
def isSet : Shape → Bool
  | .union _ => true
  | .intersection _ => true
  | _ => false

/-- The types that a type is made of: of a record, those of its fields and then those it extends. -/
def children : Shape → List TypeId
  | .array element => [element]
  | .tuple t => t.params ++ t.rest.toList
  | .record r => r.fields.map Field.type ++ r.supers
  | .union members => members
  | .intersection members => members
  | .enumeration members => members.map (·.2)
  | _ => []

/-- The types that a type is made of, but nothing for an enumeration, whose values belong to it. -/
def parts : Shape → List TypeId
  | .enumeration _ => []
  | shape => shape.children

/-- A union or intersection with other members. -/
def withMembers (members : List TypeId) : Shape → Shape
  | .union _ => .union members
  | .intersection _ => .intersection members
  | shape => shape

end Shape

/-- A type. -/
structure TypeNode where
  shape : Shape
  comment : Option String := none
  key : Option String := none
  name : Option String := none
deriving Repr

namespace TypeNode

/-- The name under which a type is declared; an empty one does not count. -/
def declared? (t : TypeNode) : Option String := t.name.filter (!·.isEmpty)

/-- The type has a name. -/
def isNamed (t : TypeNode) : Bool := t.declared?.isSome

/-- The comment on a type; an empty one does not count. -/
def remark? (t : TypeNode) : Option String := t.comment.filter (!·.isEmpty)

end TypeNode

/-- A pool of types. -/
structure TypeGraph where
  nodes : Array TypeNode := #[]
deriving Repr

namespace TypeGraph

/-- How many types there are. -/
def size (g : TypeGraph) : Nat := g.nodes.size

/-- The type with a number; a number without a type counts as pending. -/
def node (g : TypeGraph) (id : TypeId) : TypeNode := g.nodes[id]?.getD { shape := .pending }

/-- The shape of a type. -/
def shape (g : TypeGraph) (id : TypeId) : Shape := (g.node id).shape

/-- The types that a type is made of. -/
def children (g : TypeGraph) (id : TypeId) : List TypeId := (g.shape id).children

/-- Adds a type. -/
def alloc (g : TypeGraph) (t : TypeNode) : TypeId × TypeGraph := (g.size, ⟨g.nodes.push t⟩)

/-- Puts a type in the place of another. -/
def set (g : TypeGraph) (id : TypeId) (t : TypeNode) : TypeGraph := ⟨g.nodes.modify id fun _ => t⟩

/-- Changes the shape of a type. -/
def setShape (g : TypeGraph) (id : TypeId) (shape : Shape) : TypeGraph :=
  g.set id { g.node id with shape }

end TypeGraph

end SchemaDecl
