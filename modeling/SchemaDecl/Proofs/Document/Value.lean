/-
What the nodes of a value are.

* `Json.objects`: the objects inside a value; keys stand once in a value if they do in all of these.
* `Document.Mirrors`: an object of a document has the keys of an object of a value, and the same
  scalars under them.
* `Document.Sprouts`: a document has grown by nodes that hold one another, parts before wholes, and
  whose objects mirror given ones; `Document.sprouts_insert` says this of a value that is inserted.
-/
import SchemaDecl.Proofs.Document.Distinct
import SchemaDecl.Proofs.Document.Reading

namespace SchemaDecl

namespace Json

/-- The scalar that a value is. -/
def scalar? : Json → Option Scalar
  | .scalar s => some s
  | _ => none

mutual

/-- The objects inside a value, itself among them. -/
def objects : Json → List (Keyed Json)
  | .scalar _ => []
  | .array items => itemObjects items
  | .object members => members :: memberObjects members

/-- The objects inside the items of a list. -/
def itemObjects : List Json → List (Keyed Json)
  | [] => []
  | item :: rest => objects item ++ itemObjects rest

/-- The objects inside the members of an object. -/
def memberObjects : List (String × Json) → List (Keyed Json)
  | [] => []
  | (_, value) :: rest => objects value ++ memberObjects rest

end

lemma memberObjects_append (members members' : List (String × Json)) :
    memberObjects (members ++ members') = memberObjects members ++ memberObjects members' := by
  induction members with
  | nil => rw [memberObjects, List.nil_append, List.nil_append]
  | cons e members ih =>
      obtain ⟨key, value⟩ := e
      rw [List.cons_append, memberObjects, memberObjects, ih, List.append_assoc]

/-! ### Keys that stand once -/

mutual

lemma distinct_iff : (value : Json) → (value.Distinct ↔ ∀ o ∈ value.objects, Keyed.Distinct o)
  | .scalar value => ⟨fun _ _ ho => (by cases ho), fun _ => .scalar value⟩
  | .array items => by
      rw [objects, ← forall_distinct_iff items]
      refine ⟨fun h => ?_, .array⟩
      cases h
      assumption
  | .object members => by
      rw [objects, List.forall_mem_cons, ← forall_distinct_snd_iff members]
      refine ⟨fun h => ?_, fun h => .object h.1 h.2⟩
      cases h
      exact ⟨‹_›, ‹_›⟩

lemma forall_distinct_iff : (items : List Json) →
    ((∀ item ∈ items, item.Distinct) ↔ ∀ o ∈ itemObjects items, Keyed.Distinct o)
  | [] => ⟨fun _ _ ho => (by cases ho), fun _ _ hitem => (by cases hitem)⟩
  | item :: rest => by
      rw [itemObjects, List.forall_mem_cons, List.forall_mem_append, distinct_iff item,
        forall_distinct_iff rest]

lemma forall_distinct_snd_iff : (members : List (String × Json)) →
    ((∀ e ∈ members, e.2.Distinct) ↔ ∀ o ∈ memberObjects members, Keyed.Distinct o)
  | [] => ⟨fun _ _ ho => (by cases ho), fun _ _ hitem => (by cases hitem)⟩
  | (_, value) :: rest => by
      rw [memberObjects, List.forall_mem_cons, List.forall_mem_append, distinct_iff value,
        forall_distinct_snd_iff rest]

end

instance (value : Json) : Decidable value.Distinct := decidable_of_iff _ value.distinct_iff.symm

end Json

namespace Document

variable {d d' d'' : Document} {i c : NodeId} {objs objs' : List (Keyed Json)}
  {entries : Keyed NodeId} {members : Keyed Json}

/-- The entries stand for the members of an object. -/
def Mirrors (d : Document) (entries : Keyed NodeId) (members : Keyed Json) : Prop :=
  List.Forall₂ (fun entry member => entry.1 = member.1 ∧ entry.2 < d.size ∧
    d.leaf? entry.2 = member.2.scalar?) entries members

namespace Mirrors

lemma keys_eq (h : d.Mirrors entries members) : entries.map Prod.fst = members.map Prod.fst := by
  induction h with
  | nil => rfl
  | cons hentry _ ih => rw [List.map_cons, List.map_cons, hentry.1, ih]

lemma leaf?_eq (h : d.Mirrors entries members) (key : String) :
    (Keyed.get? entries key).bind d.leaf? = (Keyed.get? members key).bind Json.scalar? := by
  induction h with
  | nil => rfl
  | @cons entry member entries members hentry _ ih =>
      obtain ⟨k, c⟩ := entry
      obtain ⟨k', v⟩ := member
      obtain ⟨rfl, -, hleaf⟩ := hentry
      simp only [Keyed.get?, List.lookup_cons] at ih ⊢
      cases key == k
      · exact ih
      · exact hleaf

lemma extended (h : d.Mirrors entries members) (hd : d.Extends d') : d'.Mirrors entries members :=
  h.imp fun _ _ ⟨hkey, hlt, hleaf⟩ =>
    ⟨hkey, Nat.lt_of_lt_of_le hlt hd.size_le, (hd.leaf?_eq hlt).trans hleaf⟩

end Mirrors

/-- The document has grown by nodes that hold only such nodes, each after those that it holds. -/
structure Sprouts (d d' : Document) (objs : List (Keyed Json)) : Prop extends Extends d d' where
  parts : ∀ i, d.size ≤ i → ∀ c ∈ (d'.node i).children, d.size ≤ c ∧ c < i
  free : ∀ i, d.size ≤ i → d'.link i = .free
  mirrors : ∀ i, d.size ≤ i → ∀ entries, d'.node i = .object entries →
    ∃ members ∈ objs, d'.Mirrors entries members

namespace Sprouts

lemma refl (d : Document) (objs : List (Keyed Json)) : d.Sprouts d objs where
  toExtends := .refl d
  parts i hi c hc := by
    rw [node_of_size_le hi] at hc
    cases hc
  free i hi := link_of_size_le hi
  mirrors i hi entries hnode := by
    rw [node_of_size_le hi] at hnode
    cases hnode

lemma trans (h : d.Sprouts d' objs) (h' : d'.Sprouts d'' objs') :
    d.Sprouts d'' (objs ++ objs') where
  toExtends := h.toExtends.trans h'.toExtends
  parts i hi c hc := by
    by_cases hlt : i < d'.size
    · rw [h'.node_eq hlt] at hc
      exact h.parts i hi c hc
    · obtain ⟨hle, hci⟩ := h'.parts i (Nat.le_of_not_lt hlt) c hc
      exact ⟨Nat.le_trans h.size_le hle, hci⟩
  free i hi := by
    by_cases hlt : i < d'.size
    · rw [h'.link_eq hlt]
      exact h.free i hi
    · exact h'.free i (Nat.le_of_not_lt hlt)
  mirrors i hi entries hnode := by
    by_cases hlt : i < d'.size
    · rw [h'.node_eq hlt] at hnode
      obtain ⟨members, hmem, hmirrors⟩ := h.mirrors i hi entries hnode
      exact ⟨members, List.mem_append_left _ hmem, hmirrors.extended h'.toExtends⟩
    · obtain ⟨members, hmem, hmirrors⟩ := h'.mirrors i (Nat.le_of_not_lt hlt) entries hnode
      exact ⟨members, List.mem_append_right _ hmem, hmirrors⟩

lemma extends_alloc (d : Document) (n : Node) : d.Extends (d.alloc n).2 where
  size_le := Nat.le_of_lt lt_size_alloc
  slots i hi := by rw [alloc, Array.getElem?_push_lt hi, Array.getElem?_eq_getElem hi]

/-- A node that holds new nodes. -/
lemma alloc (h : d.Sprouts d' objs) {n : Node} (hparts : ∀ c ∈ n.children, d.size ≤ c ∧ c < d'.size)
    (hsub : objs ⊆ objs')
    (hmirrors : ∀ entries, n = .object entries → ∃ members ∈ objs', d'.Mirrors entries members) :
    d.Sprouts (d'.alloc n).2 objs' where
  toExtends := h.toExtends.trans (extends_alloc d' n)
  parts i hi c hc := by
    rw [node_alloc] at hc
    split at hc
    case isTrue heq => exact heq ▸ hparts c hc
    case isFalse => exact h.parts i hi c hc
  free i hi := by
    rw [link_alloc]
    split
    · rfl
    · exact h.free i hi
  mirrors i hi entries hnode := by
    rw [node_alloc] at hnode
    split at hnode
    · obtain ⟨members, hmem, hm⟩ := hmirrors entries hnode
      exact ⟨members, hmem, hm.extended (extends_alloc d' n)⟩
    · obtain ⟨members, hmem, hm⟩ := h.mirrors i hi entries hnode
      exact ⟨members, hsub hmem, hm.extended (extends_alloc d' n)⟩

end Sprouts

/-! ### Inserting a value -/

lemma insert_array (d : Document) (items : List Json) :
    d.insert (.array items) = (d.insertItems items).2.alloc (.array (d.insertItems items).1) := rfl

lemma insert_object (d : Document) (members : List (String × Json)) :
    d.insert (.object members)
      = (d.insertMembers members).2.alloc (.object (d.insertMembers members).1) := rfl

lemma insertItems_cons (d : Document) (item : Json) (rest : List Json) :
    d.insertItems (item :: rest) = ((d.insert item).1 :: ((d.insert item).2.insertItems rest).1,
      ((d.insert item).2.insertItems rest).2) := rfl

lemma insertMembers_cons (d : Document) (key : String) (value : Json)
    (rest : List (String × Json)) : d.insertMembers ((key, value) :: rest)
      = ((key, (d.insert value).1) :: ((d.insert value).2.insertMembers rest).1,
        ((d.insert value).2.insertMembers rest).2) := rfl

lemma insertMembers_append (d : Document) (members members' : List (String × Json)) :
    d.insertMembers (members ++ members')
      = ((d.insertMembers members).1 ++ ((d.insertMembers members).2.insertMembers members').1,
        ((d.insertMembers members).2.insertMembers members').2) := by
  induction members generalizing d with
  | nil => rfl
  | cons e members ih =>
      obtain ⟨key, value⟩ := e
      rw [List.cons_append, insertMembers_cons, insertMembers_cons, ih, List.cons_append]

lemma leaf?_alloc (d : Document) (value : Json.Scalar) :
    (d.alloc (.leaf value)).2.leaf? (d.alloc (.leaf value)).1 = some value := by
  have hnode : (d.alloc (.leaf value)).2.node (d.alloc (.leaf value)).1 = .leaf value :=
    node_alloc_self
  rw [leaf?, hnode]

lemma leaf?_alloc_of_isContainer (d : Document) {n : Node} (hn : n.isContainer = true) :
    (d.alloc n).2.leaf? (d.alloc n).1 = none := by
  have hnode : (d.alloc n).2.node (d.alloc n).1 = n := node_alloc_self
  rw [leaf?, hnode]
  cases n with
  | leaf value => cases hn
  | _ => rfl

mutual

/-- **A value that is inserted becomes nodes of its own**, with a scalar as a leaf. -/
lemma sprouts_insert : (value : Json) → (d : Document) →
    d.Sprouts (d.insert value).2 value.objects ∧ d.size ≤ (d.insert value).1 ∧
      (d.insert value).1 < (d.insert value).2.size ∧
      (d.insert value).2.leaf? (d.insert value).1 = value.scalar?
  | .scalar value, d => by
      rw [insert, Json.objects]
      exact ⟨(Sprouts.refl d []).alloc (fun c hc => by cases hc) (List.Subset.refl _)
        (fun _ heq => by cases heq), Nat.le_refl _, lt_size_alloc, leaf?_alloc d value⟩
  | .array items, d => by
      obtain ⟨h, hids⟩ := sprouts_insertItems items d
      rw [insert_array, Json.objects]
      exact ⟨h.alloc hids (List.Subset.refl _) (fun _ heq => by cases heq), h.size_le,
        lt_size_alloc, leaf?_alloc_of_isContainer _ rfl⟩
  | .object members, d => by
      obtain ⟨h, hentries, hmirrors⟩ := sprouts_insertMembers members d
      rw [insert_object, Json.objects]
      refine ⟨h.alloc (fun c hc => ?_) (List.subset_cons_self _ _) ?_, h.size_le, lt_size_alloc,
        leaf?_alloc_of_isContainer _ rfl⟩
      · obtain ⟨entry, hentry, rfl⟩ := List.mem_map.mp hc
        exact hentries entry hentry
      · rintro _ ⟨⟩
        exact ⟨members, List.mem_cons_self, hmirrors⟩

lemma sprouts_insertItems : (items : List Json) → (d : Document) →
    d.Sprouts (d.insertItems items).2 (Json.itemObjects items) ∧
      ∀ c ∈ (d.insertItems items).1, d.size ≤ c ∧ c < (d.insertItems items).2.size
  | [], d => by
      rw [insertItems, Json.itemObjects]
      exact ⟨.refl d [], fun _ hc => by cases hc⟩
  | item :: rest, d => by
      obtain ⟨h, hle, hlt, -⟩ := sprouts_insert item d
      obtain ⟨h', hids⟩ := sprouts_insertItems rest (d.insert item).2
      rw [insertItems_cons, Json.itemObjects]
      exact ⟨h.trans h', List.forall_mem_cons.mpr ⟨⟨hle, Nat.lt_of_lt_of_le hlt h'.size_le⟩,
        fun c hc => ⟨Nat.le_trans h.size_le (hids c hc).1, (hids c hc).2⟩⟩⟩

lemma sprouts_insertMembers : (members : List (String × Json)) → (d : Document) →
    d.Sprouts (d.insertMembers members).2 (Json.memberObjects members) ∧
      (∀ entry ∈ (d.insertMembers members).1,
        d.size ≤ entry.2 ∧ entry.2 < (d.insertMembers members).2.size) ∧
      (d.insertMembers members).2.Mirrors (d.insertMembers members).1 members
  | [], d => by
      rw [insertMembers, Json.memberObjects]
      exact ⟨.refl d [], (fun _ hc => by cases hc), .nil⟩
  | (key, value) :: rest, d => by
      obtain ⟨h, hle, hlt, hleaf⟩ := sprouts_insert value d
      obtain ⟨h', hids, hmirrors⟩ := sprouts_insertMembers rest (d.insert value).2
      rw [insertMembers_cons, Json.memberObjects]
      have hlt' := Nat.lt_of_lt_of_le hlt h'.size_le
      refine ⟨h.trans h', List.forall_mem_cons.mpr ⟨⟨hle, hlt'⟩,
        fun entry hentry => ⟨Nat.le_trans h.size_le (hids entry hentry).1, (hids entry hentry).2⟩⟩,
        .cons ⟨rfl, hlt', ?_⟩ hmirrors⟩
      exact (h'.toExtends.leaf?_eq hlt).trans hleaf

end

/-! ### References -/

lemma localPointer?_eq_some_iff {pointer : String} : d.localPointer? c = some pointer ↔
    d.string? c "$ref" = some pointer ∧ pointer.toList.head? = some '#' := by
  rw [localPointer?, Option.filter_eq_some_iff, beq_iff_eq]

/-- An object of a document that mirrors a value refers to what the value refers to. -/
lemma Mirrors.get?_eq_of_localPointer? {entries : Keyed NodeId} {members : Keyed Json}
    (h : d.Mirrors entries members) (hnode : d.node c = .object entries) {pointer : String}
    (hpointer : d.localPointer? c = some pointer) :
    Keyed.get? members "$ref" = some (.string pointer) ∧ pointer.toList.head? = some '#' := by
  rw [localPointer?_eq_some_iff] at hpointer
  refine ⟨?_, hpointer.2⟩
  have hleaf := h.leaf?_eq "$ref"
  have hscalar : (Keyed.get? entries "$ref").bind d.leaf? = d.scalar? c "$ref" := by
    rw [scalar?, get?_of_node hnode]
    rfl
  rw [hscalar] at hleaf
  obtain ⟨value, hvalue, hstring⟩ := Option.bind_eq_some_iff.mp hpointer.1
  rw [hvalue] at hleaf
  obtain ⟨json, hjson, hscalar'⟩ := Option.bind_eq_some_iff.mp hleaf.symm
  rw [hjson]
  cases json with
  | scalar v =>
      obtain rfl := Option.some.inj hscalar'
      cases v with
      | string text =>
          obtain rfl := Option.some.inj hstring
          rfl
      | _ => cases hstring
  | _ => cases hscalar'

end Document

end SchemaDecl
