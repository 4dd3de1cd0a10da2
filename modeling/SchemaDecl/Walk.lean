/-
Depth-first walks over graphs whose nodes are numbered.

A walk starts at a node and follows labelled edges in order. It enters every node it reaches once,
under the label of the edge that first led to it, and leaves the node when all that can be reached
from there has been entered.

* `Walk.record`: the steps of a walk, oldest first.
* `Walk.entered`: the nodes in the order of entering, with their labels.
* `Walk.left`: the nodes in the order of leaving.
-/

namespace SchemaDecl.Walk

variable {κ : Type}

/-- A step of a walk. -/
inductive Step (κ : Type) where
  | enter (label : κ) (id : Nat)
  | leave (id : Nat)
deriving Repr

namespace Step

/-- The step enters the node. -/
def enters (id : Nat) : Step κ → Bool
  | .enter _ i => i == id
  | .leave _ => false

/-- The label and the node of a step that enters. -/
def entered? : Step κ → Option (κ × Nat)
  | .enter label id => some (label, id)
  | .leave _ => none

/-- The node of a step that leaves. -/
def left? : Step κ → Option Nat
  | .enter _ _ => none
  | .leave id => some id

end Step

/-- Goes on with a walk along an edge; `log` holds the steps so far, latest first. A walk enters no
node twice, so that it is never deeper inside than there are nodes, and that many calls inside one
another are enough `fuel`. -/
def visit (next : Nat → List (κ × Nat)) : (fuel : Nat) → (log : List (Step κ)) → κ × Nat →
    List (Step κ)
  | 0, log, _ => log
  | fuel + 1, log, (label, id) =>
    if log.any (Step.enters id) then log
    else .leave id :: (next id).foldl (visit next fuel) (.enter label id :: log)

/-- The steps of a walk over at most `size` nodes that have edges. -/
def record (next : Nat → List (κ × Nat)) (size : Nat) (start : κ × Nat) : List (Step κ) :=
  (visit next (size + 1) [] start).reverse

/-- The nodes that a walk enters, in order, with the labels under which it does. -/
def entered (next : Nat → List (κ × Nat)) (size : Nat) (start : κ × Nat) : List (κ × Nat) :=
  (record next size start).filterMap Step.entered?

/-- The nodes that a walk leaves, in order. -/
def left (next : Nat → List (κ × Nat)) (size : Nat) (start : κ × Nat) : List Nat :=
  (record next size start).filterMap Step.left?

end SchemaDecl.Walk
