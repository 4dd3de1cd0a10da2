/-
Values made into nodes, and nodes read as values.

A value that is inserted becomes new nodes, which hold one another as the parts of the value do.
Reading goes back from nodes to values. It meets nodes that hold one another in circles, and does
not read a node again inside itself. New nodes stand in no circle: each comes after those that it
holds, and so before those that it is read inside of.

* `Document.readsAs_insert`, `Document.toJson_insert`: the nodes of a value are read as that value.
* `Document.insert_lossless`: **nothing is lost on the way from a value to its nodes.**
-/
import SchemaDecl.Proofs.Document.Redirection
import SchemaDecl.Proofs.Document.Value

namespace SchemaDecl.Document

variable {d d' : Document} {path : List NodeId} {value : Json}

/-! ### Values that are inserted -/

/-- A node that is added comes before those of a path further on. It stays, and with it on the path
all nodes that were there before come before the path. -/
lemma Extends.of_alloc {n : Node} (hgrows : (d.alloc n).2.Extends d')
    (hpath : ∀ x ∈ path, (d.alloc n).2.size ≤ x) :
    (d.alloc n).1 ∉ path ∧ d'.node (d.alloc n).1 = n ∧ d.Extends d' ∧
      ∀ x ∈ (d.alloc n).1 :: path, d.size ≤ x := by
  have hlt : (d.alloc n).1 < (d.alloc n).2.size := lt_size_alloc
  have hextends := Sprouts.extends_alloc d n
  refine ⟨fun hmem => Nat.not_lt_of_le (hpath _ hmem) hlt,
    (hgrows.node_eq hlt).trans node_alloc_self, hextends.trans hgrows,
    List.forall_mem_cons.mpr ⟨Nat.le_refl _, fun x hx => ?_⟩⟩
  exact Nat.le_trans hextends.size_le (hpath x hx)

mutual

/-- **The nodes of a value are read as that value**, inside nodes that come after them, and however
the document goes on to grow. -/
lemma readsAs_insert : (value : Json) → {d d' : Document} → {path : List NodeId} →
    (d.insert value).2.Extends d' → (∀ x ∈ path, (d.insert value).2.size ≤ x) →
    d'.ReadsAs path [(d.insert value).1] [value]
  | .scalar value, d, d', path, hgrows, hpath => by
      obtain ⟨hid, hnode, -, -⟩ := hgrows.of_alloc hpath
      exact .leaf hid hnode (.nil path)
  | .array items, d, d', path, hgrows, hpath => by
      obtain ⟨hid, hnode, hbefore, hinside⟩ := hgrows.of_alloc hpath
      exact .array hid hnode (readsAs_insertItems items hbefore hinside) (.nil path)
  | .object members, d, d', path, hgrows, hpath => by
      obtain ⟨hid, hnode, hbefore, hinside⟩ := hgrows.of_alloc hpath
      have hread :=
        ReadsAs.object hid hnode (readsAs_insertMembers members hbefore hinside) (.nil path)
      rwa [Distinct.map_fst_insertMembers, List.zip_map', List.map_id'] at hread

lemma readsAs_insertItems : (items : List Json) → {d d' : Document} → {path : List NodeId} →
    (d.insertItems items).2.Extends d' → (∀ x ∈ path, (d.insertItems items).2.size ≤ x) →
    d'.ReadsAs path (d.insertItems items).1 items
  | [], _, _, path, _, _ => .nil path
  | item :: rest, d, d', path, hgrows, hpath => by
      have hrest := (sprouts_insertItems rest (d.insert item).2).1.toExtends
      exact (readsAs_insert item (hrest.trans hgrows)
        fun x hx => hrest.size_le.trans (hpath x hx)).append
          (readsAs_insertItems rest hgrows hpath)

lemma readsAs_insertMembers : (members : List (String × Json)) → {d d' : Document} →
    {path : List NodeId} → (d.insertMembers members).2.Extends d' →
    (∀ x ∈ path, (d.insertMembers members).2.size ≤ x) →
    d'.ReadsAs path ((d.insertMembers members).1.map Prod.snd) (members.map Prod.snd)
  | [], _, _, path, _, _ => .nil path
  | (key, value) :: rest, d, d', path, hgrows, hpath => by
      have hrest := (sprouts_insertMembers rest (d.insert value).2).1.toExtends
      exact (readsAs_insert value (hrest.trans hgrows)
        fun x hx => hrest.size_le.trans (hpath x hx)).append
          (readsAs_insertMembers rest hgrows hpath)

end

/-- A value that is inserted is read back. -/
lemma toJson_insert (d : Document) (value : Json) :
    (d.insert value).2.toJson (d.insert value).1 = value :=
  readsAs_iff.mp (readsAs_insert value (.refl _) (by simp))

/-! ### Values without local references -/

/-- Where no object of a value is a local reference, neither is a node of its document. -/
lemma localPointer?_inserted (h : ∀ o ∈ value.objects, ∀ pointer,
      Keyed.get? o "$ref" = some (.string pointer) → pointer.toList.head? ≠ some '#') (i : NodeId) :
    (inserted value).2.localPointer? i = none := by
  cases hnode : (inserted value).2.node i with
  | object entries =>
      obtain ⟨members, hmem, hmirrors⟩ :=
        (sprouts_insert value {}).1.mirrors i (Nat.zero_le i) entries hnode
      refine Option.eq_none_iff_forall_ne_some.mpr fun pointer hpointer => ?_
      obtain ⟨hget, hhash⟩ := hmirrors.get?_eq_of_localPointer? hnode hpointer
      exact h members hmem pointer hget hhash
  | _ => rw [localPointer?, string?, scalar?, get?, members?, hnode]; rfl

/-- A value without local references is read back from its document. -/
lemma toJson_ofJson (h : ∀ o ∈ value.objects, ∀ pointer,
      Keyed.get? o "$ref" = some (.string pointer) → pointer.toList.head? ≠ some '#') :
    (ofJson value).2.toJson (ofJson value).1 = value := by
  have hstays :
      (ofJson value).2.toJson (ofJson value).1 = (inserted value).2.toJson (inserted value).1 :=
    toJson_map (f := fun x => x) (P := fun _ => True)
      (fun i _ => (node_resolveReferences_of_plain (localPointer?_inserted h)).trans
        (Node.map_id _).symm)
      (fun _ _ _ _ => trivial) (fun i _ j _ heq => heq) trivial
  rw [hstays]
  exact toJson_insert {} value

/-- **Nothing is lost on the way from a value to its nodes.** Inserting a value into a document
leaves all nodes that are there as they are, and gives a node that is read as that value, its keys
in order. Reading comes to an end at every node of every document, circles or not, and at one value
only. A value none of whose objects is a local reference is read back from the document made of
it. -/
theorem insert_lossless (d : Document) (value : Json) :
    d.Extends (d.insert value).2 ∧
    (d.insert value).2.toJson (d.insert value).1 = value ∧
    (∀ (e : Document) (id : NodeId) (read : Json), e.ReadsAs [] [id] [read] ↔ e.toJson id = read) ∧
    ((∀ o ∈ value.objects, ∀ pointer,
        Keyed.get? o "$ref" = some (.string pointer) → pointer.toList.head? ≠ some '#') →
      (ofJson value).2.toJson (ofJson value).1 = value) :=
  ⟨(sprouts_insert value d).1.toExtends, toJson_insert d value, fun _ _ _ => readsAs_iff,
    toJson_ofJson⟩

/-- An object that holds itself, and a list that holds the object and twice the same leaf. -/
def coil : Document :=
  ⟨#[⟨.object [("self", 0), ("list", 1)], .free⟩, ⟨.array [0, 2, 2], .free⟩,
    ⟨.leaf (.string "x"), .free⟩]⟩

/-- A value whose keys are in no alphabetical order, with a reference to another document. -/
def unsortedValue : Json :=
  .object [("b", .int 1), ("a", .array [.bool true, .null, .array []]),
    ("c", .object [("$ref", .string "other.json#/x")])]

theorem insert_lossless_coil :
    (∀ o ∈ unsortedValue.objects, ∀ pointer,
      Keyed.get? o "$ref" = some (.string pointer) → pointer.toList.head? ≠ some '#') ∧
    (ofJson unsortedValue).2.toJson (ofJson unsortedValue).1 = unsortedValue ∧
    coil.Extends (coil.insert unsortedValue).2 ∧
    (coil.insert unsortedValue).2.toJson (coil.insert unsortedValue).1 = unsortedValue ∧
    coil.ReadsAs [] [0]
      [.object [("self", .null), ("list", .array [.null, .string "x", .string "x"])]] := by
  have hplain : ∀ o ∈ unsortedValue.objects, ∀ pointer,
      Keyed.get? o "$ref" = some (.string pointer) → pointer.toList.head? ≠ some '#' := by
    intro o ho pointer hget
    have hobjects : unsortedValue.objects =
        [[("b", .int 1), ("a", .array [.bool true, .null, .array []]),
          ("c", .object [("$ref", .string "other.json#/x")])],
        [("$ref", .string "other.json#/x")]] := rfl
    rw [hobjects, List.mem_pair] at ho
    rcases ho with rfl | rfl
    · cases hget
    · cases hget
      decide
  obtain ⟨hextends, hback, hreads, hround⟩ := insert_lossless coil unsortedValue
  exact ⟨hplain, hround hplain, hextends, hback, (hreads coil 0 _).mpr rfl⟩

end SchemaDecl.Document
