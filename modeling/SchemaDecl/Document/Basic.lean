/-
Documents: pools of schema nodes with identity.

Two slots of a document that hold the same number share one node; that is how the target of a
reference, and a schema that contains itself, are expressed.

* `Node`: a scalar, a list of nodes, or nodes under keys.
* `Link`: what is known of the container through which a node was reached first.
* `Document`: the nodes with their links; operations that look at a node, add one or change one.
-/
import SchemaDecl.Json.Basic

namespace SchemaDecl

/-- The number of a node in a document. -/
abbrev NodeId := Nat

/-- A node of a document. -/
inductive Node where
  | leaf (value : Json.Scalar)
  | array (items : List NodeId)
  | object (members : Keyed NodeId)
deriving Repr

/-- The place of a node in the tree of first visits: not known, at the root, or inside a node. -/
inductive Link where
  | free
  | root
  | under (parent : NodeId)
deriving DecidableEq, Repr

/-- A node with its link. -/
structure Slot where
  node : Node
  link : Link := .free
deriving Repr

/-- A pool of nodes. -/
structure Document where
  slots : Array Slot := #[]
deriving Repr

namespace Node

/-- The nodes that a node holds, in order. -/
def children : Node → List NodeId
  | .leaf _ => []
  | .array items => items
  | .object members => members.map (·.2)

/-- The node can hold other nodes. -/
def isContainer : Node → Bool
  | .leaf _ => false
  | _ => true

/-- Changes the nodes that a node holds. -/
def map (f : NodeId → NodeId) : Node → Node
  | .leaf v => .leaf v
  | .array items => .array (items.map f)
  | .object members => .object (members.map fun e => (e.1, f e.2))

end Node

namespace Document

/-! ### Looking at nodes -/

/-- How many nodes there are. -/
def size (d : Document) : Nat := d.slots.size

/-- The node with a number; a number without a node counts as a null leaf. -/
def node (d : Document) (id : NodeId) : Node :=
  match d.slots[id]? with
  | some slot => slot.node
  | none => .leaf .null

/-- The link of a node. -/
def link (d : Document) (id : NodeId) : Link :=
  match d.slots[id]? with
  | some slot => slot.link
  | none => .free

/-- The members of an object. -/
def members? (d : Document) (id : NodeId) : Option (Keyed NodeId) :=
  match d.node id with
  | .object members => some members
  | _ => none

/-- The items of a list. -/
def items? (d : Document) (id : NodeId) : Option (List NodeId) :=
  match d.node id with
  | .array items => some items
  | _ => none

/-- The value of a leaf. -/
def leaf? (d : Document) (id : NodeId) : Option Json.Scalar :=
  match d.node id with
  | .leaf value => some value
  | _ => none

/-- The node is an object. -/
def isObject (d : Document) (id : NodeId) : Bool := (d.members? id).isSome

/-- The node is a list. -/
def isArray (d : Document) (id : NodeId) : Bool := (d.items? id).isSome

/-- The member of an object under a key. -/
def get? (d : Document) (id : NodeId) (key : String) : Option NodeId := do
  Keyed.get? (← d.members? id) key

/-- The object has a member under the key. -/
def has (d : Document) (id : NodeId) (key : String) : Bool := (d.get? id key).isSome

/-- The scalar under a key. -/
def scalar? (d : Document) (id : NodeId) (key : String) : Option Json.Scalar := do
  d.leaf? (← d.get? id key)

/-- The string under a key. -/
def string? (d : Document) (id : NodeId) (key : String) : Option String := do
  (← d.scalar? id key).string?

/-- The number under a key, as a double. -/
def double? (d : Document) (id : NodeId) (key : String) : Option Json.Double := do
  (← d.scalar? id key).double?

/-- The truth value under a key. -/
def bool? (d : Document) (id : NodeId) (key : String) : Option Bool := do
  (← d.scalar? id key).bool?

/-- The items of the list under a key; none if there is no list. -/
def listAt (d : Document) (id : NodeId) (key : String) : List NodeId :=
  (d.get? id key).bind d.items? |>.getD []

/-- The members of the object under a key; none if there is no object. -/
def membersAt (d : Document) (id : NodeId) (key : String) : Keyed NodeId :=
  (d.get? id key).bind d.members? |>.getD []

/-- The string that a leaf holds. -/
def leafString? (d : Document) (id : NodeId) : Option String := do
  (← d.leaf? id).string?

/-- The strings among the items of the list under a key. -/
def strings (d : Document) (id : NodeId) (key : String) : List String :=
  (d.listAt id key).filterMap d.leafString?

/-- The leaf holds the truth value. -/
def leafIs (d : Document) (id : NodeId) (b : Bool) : Bool :=
  (d.leaf? id).bind Json.Scalar.bool? == some b

/-- The member under the key `type` is the name, or a list that contains it. -/
def hasType (d : Document) (id : NodeId) (name : String) : Bool :=
  d.string? id "type" == some name || (d.strings id "type").contains name

/-- The container in which a node was reached first. -/
def parent? (d : Document) (id : NodeId) : Option NodeId :=
  match d.link id with
  | .under parent => some parent
  | _ => none

/-- The node has been linked. -/
def isLinked (d : Document) (id : NodeId) : Bool := d.link id != .free

/-! ### Adding and changing nodes -/

/-- Adds a node. -/
def alloc (d : Document) (node : Node) (link : Link := .free) : NodeId × Document :=
  (d.size, ⟨d.slots.push ⟨node, link⟩⟩)

/-- Puts a node in the place of another; the link stays. -/
def setNode (d : Document) (id : NodeId) (node : Node) : Document :=
  ⟨d.slots.modify id fun slot => { slot with node }⟩

/-- Links a node, unless it has been linked before. -/
def linkIfFree (d : Document) (id : NodeId) (link : Link) : Document :=
  if d.isLinked id then d else ⟨d.slots.modify id fun slot => { slot with link }⟩

/-- Changes the members of an object; other nodes stay as they are. -/
def changeMembers (d : Document) (id : NodeId) (f : Keyed NodeId → Keyed NodeId) : Document :=
  match d.node id with
  | .object members => d.setNode id (.object (f members))
  | _ => d

/-- Sets the member of an object under a key. -/
def set (d : Document) (id : NodeId) (key : String) (child : NodeId) : Document :=
  d.changeMembers id (Keyed.insert · key child)

/-- Takes the member under a key out of an object. -/
def erase (d : Document) (id : NodeId) (key : String) : Document :=
  d.changeMembers id (Keyed.erase · key)

/-- An entry under `source` can be put under `target`: the first is there, the second is not. -/
def canRename (d : Document) (id : NodeId) (source target : String) : Bool :=
  d.has id source && !d.has id target

/-- Puts the member under `source` under `target`, at the same position, if that is possible. -/
def rename (d : Document) (id : NodeId) (source target : String) : Document :=
  if d.canRename id source target then d.changeMembers id (Keyed.rename · source target) else d

/-- Adds an item at the end of a list. -/
def push (d : Document) (id : NodeId) (child : NodeId) : Document :=
  match d.node id with
  | .array items => d.setNode id (.array (items ++ [child]))
  | _ => d

/-- Sets an item of a list that is long enough. -/
def setItem (d : Document) (id : NodeId) (index : Nat) (child : NodeId) : Document :=
  match d.node id with
  | .array items => d.setNode id (.array (items.set index child))
  | _ => d

/-- The link that a copy of a node has: the same parent, or the root if there is none. -/
def copiedLink (d : Document) (id : NodeId) : Link :=
  match d.link id with
  | .under parent => .under parent
  | _ => .root

/-- A copy of a node that shares its children; an object is copied without some of its keys. -/
def copyWithout (d : Document) (id : NodeId) (keys : List String) : NodeId × Document :=
  let node := match d.node id with
    | .object members => .object (members.filter fun e => !keys.contains e.1)
    | other => other
  d.alloc node (d.copiedLink id)

/-- Adds a list of nodes as the member of an object under a key. -/
def setList (d : Document) (id : NodeId) (key : String) (items : List NodeId) : Document :=
  let (list, d) := d.alloc (.array items) (.under id)
  d.set id key list

end Document

end SchemaDecl
