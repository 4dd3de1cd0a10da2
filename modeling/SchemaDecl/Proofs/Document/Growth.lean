/-
Documents that grow.

Lowering adds nodes to a document: copies of schemas, and names of types. It never changes a node
that was there, and so a schema stays of the same categories.

* `Document.Extends`: all nodes of a document are still there, as they were.
* `Document.aspect`: a schema under its only category, or under all of them. It stays the same when
  a closed document grows (`Document.Extends.aspect_eq`).
* `Document.adding`: a document with further nodes. The copies that lowering makes are of this kind
  (`Document.copyWithout_eq_adding`, `Document.withType_eq_adding`).
-/
import Mathlib.Tactic.Common
import SchemaDecl.Proofs.Document.Closed
import SchemaDecl.Types.Build

namespace SchemaDecl

namespace Document

variable {d d' : Document} {id c : NodeId} {key : String}

/-- All nodes of `d` are still there in `d'`, as they were. -/
structure Extends (d d' : Document) : Prop where
  size_le : d.size ≤ d'.size
  slots : ∀ id < d.size, d'.slots[id]? = d.slots[id]?

namespace Extends

lemma refl (d : Document) : d.Extends d := ⟨Nat.le_refl _, fun _ _ => rfl⟩

lemma trans {d'' : Document} (h : d.Extends d') (h' : d'.Extends d'') : d.Extends d'' where
  size_le := Nat.le_trans h.size_le h'.size_le
  slots id hid := (h'.slots id (Nat.lt_of_lt_of_le hid h.size_le)).trans (h.slots id hid)

lemma node_eq (h : d.Extends d') (hid : id < d.size) : d'.node id = d.node id := by
  rw [node, node, h.slots id hid]

lemma link_eq (h : d.Extends d') (hid : id < d.size) : d'.link id = d.link id := by
  rw [link, link, h.slots id hid]

end Extends

/-! ### Categories stay -/

/-- A schema under its only category, or under all of them together. -/
def aspect (d : Document) (id : NodeId) : Aspect :=
  match d.categories id with
  | [category] => (id, some category)
  | _ => (id, none)

namespace Extends

lemma isObject_eq (h : d.Extends d') (hid : id < d.size) : d'.isObject id = d.isObject id := by
  rw [isObject, isObject, members?, members?, h.node_eq hid]

lemma get?_eq (h : d.Extends d') (hid : id < d.size) : d'.get? id key = d.get? id key := by
  rw [get?, get?, members?, members?, h.node_eq hid]

/-- What is said about the member under a key stays, if the document is closed. -/
lemma get?_map_eq (h : d.Extends d') (hd : d.Closed) (hid : id < d.size) (key : String) {α : Type}
    (f : Document → NodeId → α) (hf : ∀ c < d.size, f d' c = f d c) :
    (d'.get? id key).map (f d') = (d.get? id key).map (f d) := by
  rw [h.get?_eq hid]
  cases hget : d.get? id key with
  | none => rfl
  | some c => exact congrArg some (hf c (hd.get?_lt hget))

lemma scalar?_eq (h : d.Extends d') (hd : d.Closed) (hid : id < d.size) :
    d'.scalar? id key = d.scalar? id key := by
  have hleaf := h.get?_map_eq hd hid key leaf? fun c hc => by
    rw [leaf?, leaf?, h.node_eq hc]
  have hjoin (d : Document) : d.scalar? id key = ((d.get? id key).map d.leaf?).join := by
    rw [scalar?]
    cases d.get? id key <;> rfl
  rw [hjoin, hjoin, hleaf]

lemma string?_eq (h : d.Extends d') (hd : d.Closed) (hid : id < d.size) :
    d'.string? id key = d.string? id key := by
  rw [string?, string?, h.scalar?_eq hd hid]

lemma has_eq (h : d.Extends d') (hid : id < d.size) : d'.has id key = d.has id key := by
  rw [has, has, h.get?_eq hid]

lemma typeIsList_eq (h : d.Extends d') (hd : d.Closed) (hid : id < d.size) :
    Category.typeIsList d' id = Category.typeIsList d id := by
  rw [Category.typeIsList, Category.typeIsList]
  congr 1
  refine h.get?_map_eq hd hid "type" isArray fun c hc => ?_
  rw [isArray, isArray, items?, items?, h.node_eq hc]

/-- **A schema stays of the same categories** when a closed document grows. -/
lemma categories_eq (h : d.Extends d') (hd : d.Closed) (hid : id < d.size) :
    d'.categories id = d.categories id := by
  have hobject := h.get?_map_eq hd hid "additionalProperties" isObject fun c hc => h.isObject_eq hc
  have hmembers : d'.members? id = d.members? id := by rw [members?, members?, h.node_eq hid]
  have hholds : Category.holds d' id = Category.holds d id := by
    funext category
    cases category <;>
      simp only [Category.holds, Category.isScalar, Category.isCompound, Category.untypedOr,
        h.has_eq hid, h.string?_eq hd hid, h.scalar?_eq hd hid, h.typeIsList_eq hd hid, hmembers,
        hobject]
  rw [categories, categories, h.has_eq hid, hholds]

lemma aspect_eq (h : d.Extends d') (hd : d.Closed) (hid : id < d.size) :
    d'.aspect id = d.aspect id := by
  rw [aspect, aspect, h.categories_eq hd hid]

end Extends

/-! ### Adding nodes -/

section Adding

/-- A document with further nodes. -/
def adding (d : Document) (new : List Slot) : Document := ⟨d.slots ++ new.toArray⟩

variable {new : List Slot} {slot : Slot}

@[simp] lemma size_adding : (d.adding new).size = d.size + new.length := by
  simp [adding, size]

lemma slots_adding_of_lt (h : id < d.size) :
    (d.adding new).slots[id]? = d.slots[id]? := Array.getElem?_append_left h

lemma slots_adding_add (i : Nat) : (d.adding new).slots[d.size + i]? = new[i]? := by
  rw [adding, size, Array.getElem?_append_right (Nat.le_add_right _ _), Nat.add_sub_cancel_left,
    List.getElem?_toArray]

lemma adding_alloc (n : Node) (l : Link) :
    (d.adding new).alloc n l = (d.size + new.length, d.adding (new ++ [⟨n, l⟩])) := by
  simp [alloc, adding, size]

lemma modify_adding (i : Nat) (f : Slot → Slot) :
    (⟨(d.adding new).slots.modify (d.size + i) f⟩ : Document) = d.adding (new.modify i f) := by
  have hslots : (d.adding new).slots.modify (d.size + i) f = (d.adding (new.modify i f)).slots := by
    refine Array.ext_getElem? fun x => ?_
    rw [Array.getElem?_modify]
    by_cases hx : x < d.size
    · rw [if_neg (by omega), slots_adding_of_lt hx, slots_adding_of_lt hx]
    · obtain ⟨j, rfl⟩ := Nat.exists_eq_add_of_le (Nat.le_of_not_lt hx)
      rw [slots_adding_add, slots_adding_add, List.getElem?_modify]
      by_cases hij : i = j
      · simp [hij]
      · rw [if_neg (by omega)]
        simp [hij]
  exact congrArg Document.mk hslots

lemma node_adding_add (i : Nat) :
    (d.adding new).node (d.size + i) = ((new[i]?).map Slot.node).getD (.leaf .null) := by
  rw [node, slots_adding_add]
  cases new[i]? <;> rfl

lemma changeMembers_adding {members : Keyed NodeId} {l : Link} (f : Keyed NodeId → Keyed NodeId) :
    (d.adding (⟨.object members, l⟩ :: new)).changeMembers d.size f
      = d.adding (⟨.object (f members), l⟩ :: new) := by
  have hnode : (d.adding (⟨.object members, l⟩ :: new)).node d.size = .object members :=
    node_adding_add 0
  rw [changeMembers, hnode]
  exact modify_adding 0 _

lemma linkIfFree_adding {n : Node} (l : Link) :
    (d.adding [slot, ⟨n, .free⟩]).linkIfFree (d.size + 1) l = d.adding [slot, ⟨n, l⟩] := by
  have hlink : (d.adding [slot, ⟨n, .free⟩]).isLinked (d.size + 1) = false := by
    rw [isLinked, link, slots_adding_add]
    rfl
  rw [linkIfFree, hlink]
  exact modify_adding 1 _

lemma copyWithout_eq_adding {members : Keyed NodeId} (h : d.node id = .object members)
    (keys : List String) : d.copyWithout id keys = (d.size,
      d.adding [⟨.object (members.filter fun e => !keys.contains e.1), d.copiedLink id⟩]) := by
  rw [copyWithout, h]
  rfl

/-- The copy of a schema under one of its types has the type as a member, and members of the
schema. -/
lemma withType_eq_adding {members : Keyed NodeId} (h : d.node id = .object members)
    (name : String) : ∃ members' : Keyed NodeId, Lower.withType d id name = (d.size,
        d.adding [⟨.object members', d.copiedLink id⟩, ⟨.leaf (.string name), .under d.size⟩]) ∧
      Keyed.get? members' "type" = some (d.size + 1) ∧
      ∀ e ∈ members', e.2 ∈ (d.node id).children ∨ e.2 = d.size + 1 := by
  set kept : Keyed NodeId :=
    members.filter fun e => !(["$id", "description", "title"].contains e.1) with hkept
  have hset : (d.adding [⟨.object kept, d.copiedLink id⟩]).setValue d.size "type" (.string name)
      = d.adding [⟨.object (Keyed.insert kept "type" (d.size + 1)), d.copiedLink id⟩,
        ⟨.leaf (.string name), .under d.size⟩] := by
    rw [setValue, Json.string, insert, adding_alloc]
    dsimp only
    rw [List.singleton_append, List.length_singleton, linkIfFree_adding, set, changeMembers_adding]
  have hmem : ∀ e ∈ Keyed.insert kept "type" (d.size + 1),
      e.2 ∈ (d.node id).children ∨ e.2 = d.size + 1 := fun e he => by
    refine (Keyed.mem_insert he).imp_left fun he => ?_
    rw [h]
    exact List.mem_map_of_mem (List.mem_filter.mp he).1
  rw [Lower.withType, copyWithout_eq_adding h, ← hkept]
  simp only [hset]
  split
  · exact ⟨_, rfl, Keyed.get?_insert_self, hmem⟩
  · refine ⟨Keyed.erase (Keyed.insert kept "type" (d.size + 1)) "default", ?_, ?_,
      fun e he => hmem e (Keyed.mem_erase he)⟩
    · rw [erase, changeMembers_adding]
    · rw [Keyed.get?_erase_of_ne (by decide)]
      exact Keyed.get?_insert_self

/-- The type of the copy is the name. -/
lemma exists_type_withType (h : d.isObject id = true) (name : String) :
    ∃ leaf, (Lower.withType d id name).2.get? (Lower.withType d id name).1 "type" = some leaf ∧
      (Lower.withType d id name).2.node leaf = .leaf (.string name) := by
  obtain ⟨members, hnode⟩ := exists_members_of_isObject h
  obtain ⟨members', hrun, htype, -⟩ := withType_eq_adding hnode name
  rw [hrun]
  refine ⟨d.size + 1, ?_, node_adding_add 1⟩
  rw [get?, members?, show (d.adding _).node d.size = .object members' from node_adding_add 0]
  exact htype

lemma string?_withType (h : d.isObject id = true) (name : String) :
    (Lower.withType d id name).2.string? (Lower.withType d id name).1 "type" = some name := by
  obtain ⟨leaf, hget, hleaf⟩ := exists_type_withType h name
  rw [string?, scalar?_of_get? hget, leaf?, hleaf]
  rfl

lemma extends_adding : d.Extends (d.adding new) where
  size_le := by rw [size_adding]; exact Nat.le_add_right _ _
  slots _ hid := slots_adding_of_lt hid

lemma Closed.adding (h : d.Closed) (hnew : ∀ slot ∈ new, slot.Within (d.size + new.length)) :
    (d.adding new).Closed := by
  intro slot hslot
  rw [size_adding]
  rcases Array.mem_append.mp hslot with hslot | hslot
  · exact (h slot hslot).mono (Nat.le_add_right _ _)
  · exact hnew slot (List.mem_toArray.mp hslot)

end Adding

/-! ### Documents derived from others -/

/-- The document comes from `d₀` by adding copies: nodes that hold nodes of `d₀` and leaves. -/
structure DerivedFrom (d d₀ : Document) : Prop where
  base_closed : d₀.Closed
  base : d₀.Extends d
  closed : d.Closed
  copies : ∀ id, d₀.size ≤ id → ∀ c ∈ (d.node id).children,
    c < d₀.size ∨ (d.node c).isContainer = false

/-- The node is one of `d₀`, or no schema. -/
def Plain (d₀ d : Document) (id : NodeId) : Prop :=
  id < d.size ∧ (id < d₀.size ∨ d.isObject id = false)

lemma isObject_eq_false_of_leaf (h : (d.node id).isContainer = false) : d.isObject id = false := by
  rw [isObject, members?]
  cases hnode : d.node id with
  | object members => simp [hnode, Node.isContainer] at h
  | _ => rfl

namespace DerivedFrom

variable {d₀ : Document}

lemma refl (h : d.Closed) : d.DerivedFrom d where
  base_closed := h
  base := .refl d
  closed := h
  copies _ _ _ hc := Or.inl (h.child_lt hc)

/-- What a node holds is a node of `d₀` or a leaf. -/
lemma child (h : d.DerivedFrom d₀) (hc : c ∈ (d.node id).children) :
    c < d₀.size ∨ (d.node c).isContainer = false := by
  by_cases hid : id < d₀.size
  · rw [h.base.node_eq hid] at hc
    exact Or.inl (h.base_closed.child_lt hc)
  · exact h.copies id (Nat.le_of_not_lt hid) c hc

lemma plain_child (h : d.DerivedFrom d₀) (hc : c ∈ (d.node id).children) : Plain d₀ d c :=
  ⟨h.closed.child_lt hc, (h.child hc).imp_right isObject_eq_false_of_leaf⟩

lemma plain_get? (h : d.DerivedFrom d₀) (hc : d.get? id key = some c) : Plain d₀ d c :=
  h.plain_child (mem_children_of_get? hc)

lemma plain_listAt (h : d.DerivedFrom d₀) (hc : c ∈ d.listAt id key) : Plain d₀ d c := by
  obtain ⟨list, -, hmem⟩ := exists_get?_of_mem_listAt hc
  exact h.plain_child hmem

lemma plain_membersAt (h : d.DerivedFrom d₀) {e : String × NodeId} (he : e ∈ d.membersAt id key) :
    Plain d₀ d e.2 := by
  obtain ⟨map, -, hmem⟩ := exists_get?_of_mem_membersAt he
  exact h.plain_child hmem

/-- Nodes may be added that hold nodes of `d₀` and leaves. -/
lemma adding (h : d.DerivedFrom d₀) {new : List Slot}
    (hnew : ∀ slot ∈ new, slot.Within (d.size + new.length))
    (hcopies : ∀ slot ∈ new, ∀ c ∈ slot.node.children,
      c < d₀.size ∨ ((d.adding new).node c).isContainer = false) :
    (d.adding new).DerivedFrom d₀ where
  base_closed := h.base_closed
  base := h.base.trans extends_adding
  closed := h.closed.adding hnew
  copies id hid c hc := by
    by_cases hlt : id < d.size
    · rw [extends_adding.node_eq hlt] at hc
      rw [extends_adding.node_eq (h.closed.child_lt hc)]
      exact h.copies id hid c hc
    · obtain ⟨i, rfl⟩ := Nat.exists_eq_add_of_le (Nat.le_of_not_lt hlt)
      rw [node_adding_add] at hc
      cases hslot : new[i]? with
      | none => simp [hslot, Node.children] at hc
      | some slot =>
          rw [hslot] at hc
          exact hcopies slot (List.mem_of_getElem? hslot) c hc

/-- A copy of a schema without some of its members. -/
lemma copyWithout (h : d.DerivedFrom d₀) (hobject : d.isObject id = true) (keys : List String) :
    d.Extends (d.copyWithout id keys).2 ∧ (d.copyWithout id keys).2.DerivedFrom d₀ ∧
      (d.copyWithout id keys).1 < (d.copyWithout id keys).2.size ∧
      (d.copyWithout id keys).2.isObject (d.copyWithout id keys).1 = true := by
  obtain ⟨members, hnode⟩ := exists_members_of_isObject hobject
  have hchild : ∀ e ∈ members, e.2 ∈ (d.node id).children := fun e he => by
    rw [hnode]
    exact List.mem_map_of_mem he
  rw [copyWithout_eq_adding hnode]
  refine ⟨extends_adding, h.adding ?_ ?_, by simp, ?_⟩
  · refine List.forall_mem_singleton.mpr ⟨fun c hc => ?_, fun p hp => ?_⟩
    · obtain ⟨e, he, rfl⟩ := List.mem_map.mp hc
      exact Nat.lt_add_right _ (h.closed.child_lt (hchild e (List.mem_filter.mp he).1))
    · exact Nat.lt_add_right _ (h.closed.lt_of_copiedLink hp)
  · refine List.forall_mem_singleton.mpr fun c hc => ?_
    obtain ⟨e, he, rfl⟩ := List.mem_map.mp hc
    have hmem := hchild e (List.mem_filter.mp he).1
    rw [extends_adding.node_eq (h.closed.child_lt hmem)]
    exact h.child hmem
  · rw [isObject, members?, show (d.adding _).node d.size = _ from node_adding_add 0]
    rfl

/-- A copy of a schema with one type in place of several. -/
lemma withType (h : d.DerivedFrom d₀) (hobject : d.isObject id = true) (name : String) :
    d.Extends (Lower.withType d id name).2 ∧ (Lower.withType d id name).2.DerivedFrom d₀ ∧
      (Lower.withType d id name).1 < (Lower.withType d id name).2.size ∧
      Category.typeIsList (Lower.withType d id name).2 (Lower.withType d id name).1 = false := by
  obtain ⟨members₀, hnode⟩ := exists_members_of_isObject hobject
  obtain ⟨members, hrun, -, hchild⟩ := withType_eq_adding hnode name
  rw [hrun]
  set new : List Slot := [⟨.object members, d.copiedLink id⟩, ⟨.leaf (.string name), .under d.size⟩]
  have hleaf : (d.adding new).node (d.size + 1) = .leaf (.string name) := node_adding_add 1
  refine ⟨extends_adding, h.adding ?_ ?_, by simp [new], ?_⟩
  · refine List.forall_mem_cons.mpr ⟨⟨fun c hc => ?_, fun p hp => ?_⟩,
      List.forall_mem_singleton.mpr ⟨by simp [Node.children], fun p hp => ?_⟩⟩
    · obtain ⟨e, he, rfl⟩ := List.mem_map.mp hc
      rcases hchild e he with hmem | heq
      · exact Nat.lt_add_right _ (h.closed.child_lt hmem)
      · rw [heq]
        simp [new]
    · exact Nat.lt_add_right _ (h.closed.lt_of_copiedLink hp)
    · obtain rfl := Link.under.inj hp
      simp [new]
  · refine List.forall_mem_cons.mpr ⟨fun c hc => ?_,
      List.forall_mem_singleton.mpr (by simp [Node.children])⟩
    obtain ⟨e, he, rfl⟩ := List.mem_map.mp hc
    rcases hchild e he with hmem | heq
    · rw [extends_adding.node_eq (h.closed.child_lt hmem)]
      exact h.child hmem
    · rw [heq, hleaf]
      exact Or.inr rfl
  · obtain ⟨leaf, hget, hnode'⟩ := exists_type_withType hobject name
    rw [hrun] at hget hnode'
    rw [Category.typeIsList, hget, Option.map_some, isArray, items?, hnode']
    rfl

end DerivedFrom

end Document

end SchemaDecl
