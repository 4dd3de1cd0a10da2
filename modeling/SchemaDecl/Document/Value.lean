/-
Documents and JSON values.

* `Document.insert`: adds the nodes of a value, parts before wholes, without any sharing.
* `Document.toJson`: the value at a node. Where a node would stand inside itself the value is null.
* `Document.setValue`: sets a member to new nodes of a value.
-/
import SchemaDecl.Document.Basic

namespace SchemaDecl.Document

mutual

/-- Adds the nodes of a value. -/
def insert (d : Document) : Json → NodeId × Document
  | .scalar s => d.alloc (.leaf s)
  | .array items =>
    let (ids, d) := insertItems d items
    d.alloc (.array ids)
  | .object members =>
    let (entries, d) := insertMembers d members
    d.alloc (.object entries)

/-- Adds the nodes of the items of a list. -/
def insertItems (d : Document) : List Json → List NodeId × Document
  | [] => ([], d)
  | item :: rest =>
    let (id, d) := insert d item
    let (ids, d) := insertItems d rest
    (id :: ids, d)

/-- Adds the nodes of the members of an object. -/
def insertMembers (d : Document) : List (String × Json) → Keyed NodeId × Document
  | [] => ([], d)
  | (key, value) :: rest =>
    let (id, d) := insert d value
    let (entries, d) := insertMembers d rest
    ((key, id) :: entries, d)

end

/-- The value at a node inside the nodes of `path`. A path repeats no node, so that it is never
longer than there are nodes, and that much `fuel` is enough. -/
def toJsonInside (d : Document) : (fuel : Nat) → (path : List NodeId) → NodeId → Json
  | 0, _, _ => .null
  | fuel + 1, path, id =>
    if path.contains id then .null
    else match d.node id with
      | .leaf value => .scalar value
      | .array items => .array (items.map (d.toJsonInside fuel (id :: path)))
      | .object members =>
        .object (members.map fun e => (e.1, d.toJsonInside fuel (id :: path) e.2))

/-- The value at a node; a node inside itself counts as null. -/
def toJson (d : Document) (id : NodeId) : Json := d.toJsonInside (d.size + 1) [] id

/-- Sets the member of an object under a key to new nodes of a value. -/
def setValue (d : Document) (id : NodeId) (key : String) (value : Json) : Document :=
  let (child, d) := d.insert value
  (d.linkIfFree child (.under id)).set id key child

end SchemaDecl.Document
