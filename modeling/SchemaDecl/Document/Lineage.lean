/-
The tree of first visits.

* `Document.linkFrom`: links every container that can be reached from a node to the container that
  reached it first. Containers with a link stop the walk.
* `Document.rootOf`: the end of the chain of parents.
-/
import SchemaDecl.Document.Basic
import SchemaDecl.Walk

namespace SchemaDecl.Document

/-- The node is a container without a link. -/
def isOpen (d : Document) (id : NodeId) : Bool := (d.node id).isContainer && !d.isLinked id

/-- The containers without a link that a node holds, each to be linked under it. -/
def openChildren (d : Document) (id : NodeId) : List (Link × NodeId) :=
  ((d.node id).children.filter d.isOpen).map (.under id, ·)

/-- The links that a walk from a node makes, in order. -/
def newLinks (d : Document) (id : NodeId) (link : Link) : List (Link × NodeId) :=
  if d.isOpen id then Walk.entered d.openChildren d.size (link, id) else []

/-- Links the containers that can be reached from a node. -/
def linkFrom (d : Document) (id : NodeId) (link : Link) : Document :=
  (d.newLinks id link).foldl (fun e new => e.linkIfFree new.2 new.1) d

/-- Climbs to the parent until there is none, or until a node is met again. -/
def climb (d : Document) : (fuel : Nat) → (seen : List NodeId) → NodeId → NodeId
  | 0, _, id => id
  | fuel + 1, seen, id =>
    match d.parent? id with
    | none => id
    | some parent => if seen.contains id then id else d.climb fuel (id :: seen) parent

/-- The node that the chain of parents ends at. -/
def rootOf (d : Document) (id : NodeId) : NodeId := d.climb (d.size + 2) [] id

end SchemaDecl.Document
