/-
References inside a document.

An object whose member `$ref` is a string that begins with `#` is a local reference. Slots that hold
one are redirected to the first node at the end of the chain of references that is none itself. A
chain that leads nowhere or runs in a circle leaves the slot as it is.

* `Document.follow`: the end of a chain of references.
* `Document.redirect`: the new content of a slot.
* `Document.resolveReferences`: all slots that can be reached, redirected.
* `Document.unresolved`: what is found wrong on the way, in order.
* `Document.ofJson`: the document of a value.
-/
import SchemaDecl.Document.Pointer
import SchemaDecl.Document.Value
import SchemaDecl.Walk

namespace SchemaDecl

/-- A reference that stays in place. -/
inductive Unresolved where
  | circular (pointer : String)
  | dangling (pointer : String)
deriving DecidableEq, Repr

/-- The end of a chain of references. -/
inductive ChainEnd where
  | target (id : NodeId)
  | circular (pointer : String)
  | dangling
deriving DecidableEq, Repr

namespace Document

/-- The pointer of a local reference. -/
def localPointer? (d : Document) (id : NodeId) : Option String :=
  (d.string? id "$ref").filter fun r => r.toList.head? == some '#'

/-- Follows a chain of references after the nodes of `hops`. A chain repeats a node after at most as
many hops as there are nodes, so that one more is enough `fuel`. -/
def followFrom (d : Document) (root : NodeId) : (fuel : Nat) → (hops : List NodeId) → NodeId →
    ChainEnd
  | 0, _, _ => .dangling
  | fuel + 1, hops, id =>
    match d.localPointer? id with
    | none => .target id
    | some pointer =>
      if hops.contains id then .circular pointer
      else match d.resolve? root pointer with
        | none => .dangling
        | some next => d.followFrom root fuel (id :: hops) next

/-- The end of the chain of references that begins at a node. -/
def follow (d : Document) (root id : NodeId) : ChainEnd := d.followFrom root (d.size + 2) [] id

/-- The node that a slot holding `id` is to hold. -/
def redirect (d : Document) (root id : NodeId) : NodeId :=
  match d.follow root id with
  | .target target => target
  | _ => id

/-- Where the search for references goes on below a slot: to the redirected node, or nowhere if the
slot holds a reference that stays. -/
def searchBelow (d : Document) (root id : NodeId) : List NodeId :=
  match d.follow root id with
  | .target target => [target]
  | _ => []

/-- The nodes whose slots are searched, in order; the last child of a node comes first. -/
def searched (d : Document) (root : NodeId) : List NodeId :=
  (Walk.entered (fun id => ((d.node id).children.flatMap (d.searchBelow root)).reverse.map ((), ·))
    d.size ((), root)).map (·.2)

/-- What is wrong with the reference in a slot. -/
def unresolvedAt (d : Document) (root id : NodeId) : List Unresolved :=
  match d.localPointer? id, d.follow root id with
  | some pointer, .circular last => [.circular last, .dangling pointer]
  | some pointer, .dangling => [.dangling pointer]
  | _, _ => []

/-- The references that stay in place, in the order of the search. -/
def unresolved (d : Document) (root : NodeId) : List Unresolved :=
  (d.searched root).flatMap fun id => (d.node id).children.flatMap (d.unresolvedAt root)

/-- Redirects the slots of all nodes that are searched. Every slot is judged by the document as it
was before. -/
def resolveReferences (d : Document) (root : NodeId) : Document :=
  (d.searched root).foldl (fun e id => e.setNode id ((d.node id).map (d.redirect root))) d

/-- The document of a value before references are resolved, with its root. -/
def inserted (value : Json) : NodeId × Document := insert {} value

/-- The document of a value, with its root. -/
def ofJson (value : Json) : NodeId × Document :=
  let (root, d) := inserted value
  (root, d.resolveReferences root)

end Document

end SchemaDecl
