/-
Documents without doubled keys.

The members of an object are a map: no key stands twice among them. If this is so for the objects in
a value, then it is so for the document that comes from the value.

* `Document.Distinct`: no object of a document has a key twice.
* `Json.Distinct`: no object of a value has.
* `Document.Distinct.insert`, `Document.Distinct.resolveReferences`, `Document.Distinct.linkFrom`:
  the steps that come before rules are checked.
* `Document.distinct_linked_ofJson`: what rules are checked for is distinct.
-/
import SchemaDecl.Proofs.Document.Alteration

namespace SchemaDecl

/-- No key stands twice in any object of the value. -/
inductive Json.Distinct : Json → Prop
  | scalar (value : Json.Scalar) : Distinct (.scalar value)
  | array {items : List Json} (h : ∀ item ∈ items, Distinct item) : Distinct (.array items)
  | object {members : List (String × Json)} (hkeys : Keyed.Distinct members)
      (h : ∀ e ∈ members, Distinct e.2) : Distinct (.object members)

/-- No key of the node stands twice. -/
def Node.Distinct : Node → Prop
  | .object members => members.Distinct
  | _ => True

/-- Keys stay where they are when other nodes are held under them. -/
lemma Node.Distinct.map {n : Node} (h : n.Distinct) (f : NodeId → NodeId) : (n.map f).Distinct := by
  cases n with
  | object members =>
      have hkeys : (members.map fun e => (e.1, f e.2)).map Prod.fst = members.map Prod.fst := by
        simp
      rw [Node.Distinct, Keyed.Distinct] at h
      rwa [Node.map, Node.Distinct, Keyed.Distinct, hkeys]
  | _ => trivial

namespace Document

variable {d : Document} {id root x : NodeId} {n : Node} {l : Link}

/-- No key stands twice in any object. -/
def Distinct (d : Document) : Prop := ∀ id, d.DistinctAt id

lemma distinctAt_of_not_isObject (h : d.isObject id = false) : d.DistinctAt id := by
  rw [isObject, Option.isSome_eq_false_iff, Option.isNone_iff_eq_none] at h
  rw [DistinctAt, h]
  exact List.nodup_nil

instance (d : Document) : Decidable d.Distinct :=
  decidable_of_iff (∀ id < d.size, d.DistinctAt id) <| by
    refine ⟨fun h id => ?_, fun h id _ => h id⟩
    cases hobject : d.isObject id with
    | true => exact h id (lt_size_of_isObject hobject)
    | false => exact distinctAt_of_not_isObject hobject

lemma distinctAt_iff : d.DistinctAt x ↔ (d.node x).Distinct := by
  rw [DistinctAt, members?]
  cases d.node x with
  | object members => rfl
  | _ => exact ⟨fun _ => trivial, fun _ => List.nodup_nil⟩

namespace Distinct

lemma alloc (h : d.Distinct) (hn : n.Distinct) : (d.alloc n l).2.Distinct := by
  intro x
  have halters : d.AltersAt (d.alloc n l).2 x [] := altersAt_alloc
  rcases Nat.lt_trichotomy x d.size with hx | rfl | hx
  · exact halters.distinct x hx (h x)
  · rwa [distinctAt_iff, node_alloc_self]
  · have hsize : (d.alloc n l).2.size ≤ x := Nat.le_trans (Nat.le_of_eq (Array.size_push _)) hx
    rw [distinctAt_iff, node_of_size_le hsize]
    trivial

lemma setNode (h : d.Distinct) (hn : n.Distinct) : (d.setNode id n).Distinct := by
  intro x
  by_cases hx : x = id
  · subst hx
    rcases Nat.lt_or_ge x d.size with hlt | hle
    · rwa [distinctAt_iff, node_setNode_self hlt]
    · rw [distinctAt_iff, node_of_size_le (size_setNode.trans_le hle)]
      trivial
  · rw [distinctAt_iff, node_setNode_of_ne hx, ← distinctAt_iff]
    exact h x

/-! ### Values -/

lemma map_fst_insertMembers (d : Document) (members : List (String × Json)) :
    (d.insertMembers members).1.map Prod.fst = members.map Prod.fst := by
  induction members generalizing d with
  | nil => rfl
  | cons e members ih =>
      obtain ⟨key, value⟩ := e
      rw [insertMembers, List.map_cons, List.map_cons, ih]

mutual

/-- The nodes of a value hold the keys that the value holds. -/
lemma insert : (value : Json) → {d : Document} → value.Distinct → d.Distinct →
    (d.insert value).2.Distinct
  | .scalar value, d, _, h => by
      rw [Document.insert]
      exact h.alloc trivial
  | .array items, d, .array hitems, h => by
      rw [Document.insert]
      exact (insertItems items hitems h).alloc trivial
  | .object members, d, .object hkeys hmembers, h => by
      rw [Document.insert]
      refine (insertMembers members hmembers h).alloc ?_
      rwa [Node.Distinct, Keyed.Distinct, map_fst_insertMembers]

lemma insertItems : (items : List Json) → {d : Document} → (∀ item ∈ items, item.Distinct) →
    d.Distinct → (d.insertItems items).2.Distinct
  | [], d, _, h => h
  | item :: rest, d, hitems, h => by
      obtain ⟨hitem, hrest⟩ := List.forall_mem_cons.mp hitems
      rw [Document.insertItems]
      exact insertItems rest hrest (insert item hitem h)

lemma insertMembers : (members : List (String × Json)) → {d : Document} →
    (∀ e ∈ members, e.2.Distinct) → d.Distinct → (d.insertMembers members).2.Distinct
  | [], d, _, h => h
  | (key, value) :: rest, d, hmembers, h => by
      obtain ⟨hvalue, hrest⟩ := List.forall_mem_cons.mp hmembers
      rw [Document.insertMembers]
      exact insertMembers rest hrest (insert value hvalue h)

end

/-! ### References and links -/

lemma resolveReferences (h : d.Distinct) : (d.resolveReferences root).Distinct := by
  refine List.foldlRecOn (d.searched root) _ h fun e he id _ => ?_
  exact he.setNode ((distinctAt_iff.mp (h id)).map _)

lemma linkFrom (h : d.Distinct) : (d.linkFrom id l).Distinct := by
  refine List.foldlRecOn (d.newLinks id l) _ h fun e he new _ x => ?_
  rw [distinctAt_iff, node_linkIfFree, ← distinctAt_iff]
  exact he x

end Distinct

/-- **What rules are checked for is distinct**, if it comes from a value that is. -/
theorem distinct_linked_ofJson {value : Json} (h : value.Distinct) :
    ((ofJson value).2.linkFrom (ofJson value).1 .root).Distinct := by
  have hempty : Distinct {} := fun id => distinctAt_iff.mpr trivial
  rw [ofJson, inserted]
  exact (hempty.insert value h).resolveReferences.linkFrom

end Document

end SchemaDecl
