/-
Pools of types: what is there after a type has been added or put in the place of another.

* `TypeGraph.node_set_self`, `TypeGraph.node_set_of_ne`: a type is put in the place of another.
* `TypeGraph.node_alloc_self`, `TypeGraph.node_alloc_of_ne`: a type is added.
* `TypeGraph.Child`, `TypeGraph.Closed`: what types are made of, and that it is there.
-/
import Mathlib.Tactic.Common
import SchemaDecl.Types.Basic

namespace SchemaDecl.TypeGraph

variable {g : TypeGraph} {id x : TypeId} {t : TypeNode}

lemma node_of_size_le (h : g.size ≤ id) : g.node id = { shape := .pending } := by
  rw [node, Array.getElem?_eq_none h, Option.getD_none]

/-- A number with a shape other than `pending` has a type. -/
lemma lt_size_of_shape_ne (h : g.shape id ≠ .pending) : id < g.size := by
  by_contra hsize
  exact h (congrArg TypeNode.shape (node_of_size_le (Nat.le_of_not_lt hsize)))

@[simp] lemma size_set : (g.set id t).size = g.size := by
  rw [size, size, set, Array.size_modify]

lemma node_set_self (h : id < g.size) : (g.set id t).node id = t := by
  rw [node, set, Array.getElem?_modify, if_pos rfl, Array.getElem?_eq_getElem h, Option.map_some,
    Option.getD_some]

lemma node_set_of_ne (h : x ≠ id) : (g.set id t).node x = g.node x := by
  rw [node, set, Array.getElem?_modify, if_neg (Ne.symm h), node]

lemma set_of_size_le (h : g.size ≤ id) : g.set id t = g := by
  refine congrArg TypeGraph.mk (Array.ext_getElem? fun x => ?_)
  rw [Array.getElem?_modify]
  split
  case isTrue hx => rw [← hx, Array.getElem?_eq_none h, Option.map_none]
  case isFalse => rfl

/-- A type is put in the place of another, or nothing changes. -/
lemma node_set (g : TypeGraph) (id : TypeId) (t : TypeNode) (x : TypeId) :
    x = id ∧ (g.set id t).node x = t ∨ (g.set id t).node x = g.node x := by
  by_cases hlt : id < g.size
  · by_cases hx : x = id
    · exact Or.inl ⟨hx, by rw [hx, node_set_self hlt]⟩
    · exact Or.inr (node_set_of_ne hx)
  · exact Or.inr (by rw [set_of_size_le (Nat.le_of_not_lt hlt)])

lemma shape_set (g : TypeGraph) (id : TypeId) (t : TypeNode) (x : TypeId) :
    x = id ∧ (g.set id t).shape x = t.shape ∨ (g.set id t).shape x = g.shape x :=
  (node_set g id t x).imp (And.imp_right (congrArg TypeNode.shape)) (congrArg TypeNode.shape)

lemma shape_set_of_eq (h : t.shape = g.shape id) : (g.set id t).shape x = g.shape x := by
  rcases shape_set g id t x with ⟨rfl, hshape⟩ | hshape
  · rw [hshape, h]
  · exact hshape

/-- A new shape leaves a type its name. -/
lemma declared?_setShape (shape : Shape) :
    ((g.setShape id shape).node x).declared? = (g.node x).declared? := by
  rw [setShape]
  by_cases hlt : id < g.size
  · by_cases hx : x = id
    · rw [hx, node_set_self hlt]
      rfl
    · rw [node_set_of_ne hx]
  · rw [set_of_size_le (Nat.le_of_not_lt hlt)]

@[simp] lemma size_alloc : (g.alloc t).2.size = g.size + 1 := by
  rw [alloc, size, size, Array.size_push]

lemma node_alloc_self : (g.alloc t).2.node g.size = t := by
  rw [node, alloc, Array.getElem?_push, size, if_pos rfl, Option.getD_some]

lemma node_alloc_of_ne (h : x ≠ g.size) : (g.alloc t).2.node x = g.node x := by
  rw [size] at h
  rw [node, alloc, Array.getElem?_push, if_neg h, node]

/-- `b` is one of the types that `a` is made of. -/
def Child (g : TypeGraph) (a b : TypeId) : Prop := b ∈ g.children a

/-- Only numbers of types are made of something. -/
lemma Child.lt_size {a b : TypeId} (h : g.Child a b) : a < g.size := by
  refine lt_size_of_shape_ne fun hpending => ?_
  simp [Child, children, hpending, Shape.children] at h

/-- Types are made of types that are there. -/
def Closed (g : TypeGraph) : Prop := ∀ id, ∀ c ∈ g.children id, c < g.size

lemma Closed.alloc (h : g.Closed) (ht : ∀ c ∈ t.shape.children, c < g.size) :
    (g.alloc t).2.Closed := by
  intro x c hc
  rw [size_alloc]
  rw [children, shape] at hc
  by_cases hx : x = g.size
  · subst hx
    rw [node_alloc_self] at hc
    exact Nat.lt_succ_of_lt (ht c hc)
  · rw [node_alloc_of_ne hx] at hc
    exact Nat.lt_succ_of_lt (h x c hc)

lemma Closed.set (h : g.Closed) (ht : ∀ c ∈ t.shape.children, c < g.size) :
    (g.set id t).Closed := by
  intro x c hc
  rw [size_set]
  rw [children] at hc
  rcases shape_set g id t x with ⟨-, hshape⟩ | hshape
  · exact ht c (hshape ▸ hc)
  · rw [hshape] at hc
    exact h x c hc

end SchemaDecl.TypeGraph
