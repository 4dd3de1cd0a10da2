/-
Two documents whose nodes correspond.

The nodes of a document have images in another one, and each is of the same kind as its image and
has the same items. An object and its image have corresponding members too, though perhaps not under
the keys that bound the size of arrays, so that the same is read off them in all other respects.

* `Document.Outline`: nodes and their images.
* `Document.Tells`: an object and its image have corresponding members.
* `Outline.categories_eq`: then they are of the same categories.
* `Outline.toJson_eq`: where all members below correspond, so do the values.
* `Document.Later`: two documents that have grown. Numbers keep their images.
-/
import SchemaDecl.Proofs.Document.Reading
import SchemaDecl.Proofs.Document.Redirection

namespace SchemaDecl

namespace Document

variable {d e : Document} {f : NodeId → NodeId} {i c : NodeId} {key : String} {n : Node} {l : Link}

/-- The keys of the bounds of arrays. -/
def sizeKeys : List String := ["minItems", "maxItems"]

/-- The nodes of `d` have images under `f` in `e`, of the same kind. -/
structure Outline (f : NodeId → NodeId) (d e : Document) : Prop where
  left : d.Closed
  lt : ∀ i < d.size, f i < e.size
  inj : ∀ i < d.size, ∀ j < d.size, f i = f j → i = j
  isObject_eq : ∀ i < d.size, e.isObject (f i) = d.isObject i
  items?_eq : ∀ i < d.size, e.items? (f i) = (d.items? i).map (List.map f)
  leaf?_eq : ∀ i < d.size, e.leaf? (f i) = d.leaf? i

/-- The members of a node and of its image correspond, apart from the bounds of arrays. -/
def Tells (f : NodeId → NodeId) (d e : Document) (i : NodeId) : Prop :=
  ∀ key ∉ sizeKeys, e.get? (f i) key = (d.get? i key).map f

lemma Tells.has_eq (h : Tells f d e i) (key : String) (hkey : key ∉ sizeKeys) :
    e.has (f i) key = d.has i key := by
  rw [has, has, h key hkey, Option.isSome_map]

lemma Closed.entry_lt (h : d.Closed) {entries : Keyed NodeId} (hnode : d.node i = .object entries) :
    ∀ entry ∈ entries, entry.2 < d.size := by
  intro entry hentry
  have hmem : entry.2 ∈ (d.node i).children := by
    rw [hnode]
    exact List.mem_map_of_mem hentry
  exact h.child_lt hmem

/-! ### Growth -/

/-- Two documents that have grown into others. Numbers keep their images, and new ones have new
images. -/
structure Later (f : NodeId → NodeId) (d e : Document) (f' : NodeId → NodeId) (d' e' : Document) :
    Prop where
  size_le : d.size ≤ d'.size
  size_le' : e.size ≤ e'.size
  agree : ∀ i < d.size, f' i = f i
  fresh : ∀ i < d'.size, d.size ≤ i → e.size ≤ f' i

namespace Later

variable {f f' f'' : NodeId → NodeId} {d' e' d'' e'' : Document}

lemma of_size_eq (hsize : d'.size = d.size) (hsize' : e'.size = e.size) : Later f d e f d' e' :=
  ⟨Nat.le_of_eq hsize.symm, Nat.le_of_eq hsize'.symm, fun _ _ => rfl,
    fun _ hi hle => absurd (hsize ▸ hi) (Nat.not_lt_of_le hle)⟩

lemma refl (f : NodeId → NodeId) (d e : Document) : Later f d e f d e := of_size_eq rfl rfl

lemma trans (h : Later f d e f' d' e') (h' : Later f' d' e' f'' d'' e'') :
    Later f d e f'' d'' e'' where
  size_le := Nat.le_trans h.size_le h'.size_le
  size_le' := Nat.le_trans h.size_le' h'.size_le'
  agree i hi := (h'.agree i (Nat.lt_of_lt_of_le hi h.size_le)).trans (h.agree i hi)
  fresh i hi hle := by
    by_cases hlt : i < d'.size
    · rw [h'.agree i hlt]
      exact h.fresh i hlt hle
    · exact Nat.le_trans h.size_le' (h'.fresh i hi (Nat.le_of_not_lt hlt))

end Later

/-! A new number is given a new image. -/

section Update

variable {size size' : Nat} (hlt : ∀ i < size, f i < size')
include hlt

lemma update_lt (hi : i < size + 1) : Function.update f size size' i < size' + 1 := by
  rcases Nat.lt_succ_iff_lt_or_eq.mp hi with hold | rfl
  · rw [Function.update_of_ne (Nat.ne_of_lt hold)]
    exact Nat.lt_succ_of_lt (hlt i hold)
  · rw [Function.update_self]
    exact Nat.lt_succ_self _

lemma update_inj (hinj : ∀ i < size, ∀ j < size, f i = f j → i = j) (hi : i < size + 1)
    (hc : c < size + 1) (heq : Function.update f size size' i = Function.update f size size' c) :
    i = c := by
  rcases Nat.lt_succ_iff_lt_or_eq.mp hi with hold | rfl <;>
    rcases Nat.lt_succ_iff_lt_or_eq.mp hc with hold' | rfl
  · rw [Function.update_of_ne (Nat.ne_of_lt hold),
      Function.update_of_ne (Nat.ne_of_lt hold')] at heq
    exact hinj i hold c hold' heq
  · rw [Function.update_of_ne (Nat.ne_of_lt hold), Function.update_self] at heq
    exact absurd heq (Nat.ne_of_lt (hlt i hold))
  · rw [Function.update_of_ne (Nat.ne_of_lt hold'), Function.update_self] at heq
    exact absurd heq.symm (Nat.ne_of_lt (hlt c hold'))
  · rfl

omit hlt

lemma map_update (hn : ∀ c ∈ n.children, c < size) :
    n.map (Function.update f size size') = n.map f :=
  Node.map_congr fun c hc => Function.update_of_ne (Nat.ne_of_lt (hn c hc)) _ _

lemma map_entries_update {entries : Keyed NodeId} (h : ∀ entry ∈ entries, entry.2 < size) :
    entries.map (fun e => (e.1, Function.update f size size' e.2))
      = entries.map fun e => (e.1, f e.2) :=
  List.map_congr_left fun entry hentry => by
    rw [Function.update_of_ne (Nat.ne_of_lt (h entry hentry))]

end Update

lemma later_alloc {n' : Node} {l' : Link} : Later f d e (Function.update f d.size e.size)
    (d.alloc n l).2 (e.alloc n' l').2 := by
  refine ⟨by rw [size_alloc]; exact Nat.le_succ _, by rw [size_alloc]; exact Nat.le_succ _,
    fun i hi => Function.update_of_ne (Nat.ne_of_lt hi) _ _, fun i hi hle => ?_⟩
  rw [size_alloc] at hi
  obtain rfl : i = d.size := by omega
  rw [Function.update_self]

/-! ### What is read off a node -/

namespace Outline

variable (h : Outline f d e)
include h

lemma isArray_eq (hi : i < d.size) : e.isArray (f i) = d.isArray i := by
  rw [isArray, isArray, h.items?_eq i hi, Option.isSome_map]

lemma leafString?_eq (hi : i < d.size) : e.leafString? (f i) = d.leafString? i := by
  rw [leafString?, leafString?, h.leaf?_eq i hi]

lemma leafIs_eq (hi : i < d.size) (b : Bool) : e.leafIs (f i) b = d.leafIs i b := by
  rw [leafIs, leafIs, h.leaf?_eq i hi]

lemma indexed_eq (hi : i < d.size) : e.indexed (f i) = (d.indexed i).map fun e => (e.1, f e.2) := by
  rw [indexed, indexed, h.items?_eq i hi]
  cases d.items? i with
  | none => rfl
  | some items => simp [List.zipIdx_map]

lemma node_of_leaf {value : Json.Scalar} (hi : i < d.size) (hnode : d.node i = .leaf value) :
    e.node (f i) = .leaf value := by
  have hleaf := h.leaf?_eq i hi
  rw [leaf?, leaf?, hnode] at hleaf
  cases hnode' : e.node (f i) with
  | leaf value' =>
      rw [hnode'] at hleaf
      rw [Option.some.inj hleaf]
  | _ => simp [hnode'] at hleaf

lemma node_of_array {items : List NodeId} (hi : i < d.size) (hnode : d.node i = .array items) :
    e.node (f i) = .array (items.map f) := by
  have hitems := h.items?_eq i hi
  rw [items?, items?, hnode] at hitems
  cases hnode' : e.node (f i) with
  | array items' =>
      rw [hnode'] at hitems
      rw [Option.some.inj hitems]
  | _ => simp [hnode'] at hitems

lemma exists_node_of_object {members : Keyed NodeId} (hi : i < d.size)
    (hnode : d.node i = .object members) : ∃ members', e.node (f i) = .object members' := by
  refine exists_members_of_isObject ?_
  rw [h.isObject_eq i hi, isObject, members?, hnode]
  rfl

section Schema

variable (ht : Tells f d e i)
include ht

/-- Whatever is read off a member alone is read off its image. -/
lemma map_get?_eq {α : Type} {p p' : NodeId → α} (hkey : key ∉ sizeKeys)
    (hp : ∀ c < d.size, p' (f c) = p c) : (e.get? (f i) key).map p' = (d.get? i key).map p := by
  rw [ht key hkey, Option.map_map]
  cases hc : d.get? i key with
  | none => rfl
  | some c => exact congrArg some (hp c (h.left.get?_lt hc))

lemma scalar?_eq (key : String) (hkey : key ∉ sizeKeys) :
    e.scalar? (f i) key = d.scalar? i key := by
  rw [scalar?, scalar?, ht key hkey]
  cases hc : d.get? i key with
  | none => rfl
  | some c => exact h.leaf?_eq c (h.left.get?_lt hc)

lemma string?_eq (key : String) (hkey : key ∉ sizeKeys) :
    e.string? (f i) key = d.string? i key := by
  rw [string?, string?, h.scalar?_eq ht key hkey]

lemma listAt_eq (key : String) (hkey : key ∉ sizeKeys) :
    e.listAt (f i) key = (d.listAt i key).map f := by
  rw [listAt, listAt, ht key hkey]
  cases hc : d.get? i key with
  | none => rfl
  | some c =>
      rw [Option.map_some, Option.bind_some, Option.bind_some, h.items?_eq c (h.left.get?_lt hc)]
      cases d.items? c <;> rfl

lemma strings_eq (key : String) (hkey : key ∉ sizeKeys) :
    e.strings (f i) key = d.strings i key := by
  rw [strings, strings, h.listAt_eq ht key hkey, List.filterMap_map]
  exact List.filterMap_congr fun c hc => h.leafString?_eq (h.left.listAt_lt hc)

lemma hasType_eq (name : String) : e.hasType (f i) name = d.hasType i name := by
  rw [hasType, hasType, h.string?_eq ht "type" (by decide), h.strings_eq ht "type" (by decide)]

lemma typeIsList_eq : Category.typeIsList e (f i) = Category.typeIsList d i := by
  rw [Category.typeIsList, Category.typeIsList,
    h.map_get?_eq ht (by decide) fun _ hc => h.isArray_eq hc]

lemma isCompound_eq : Category.isCompound e (f i) = Category.isCompound d i := by
  rw [Category.isCompound, Category.isCompound, h.typeIsList_eq ht,
    ht.has_eq "anyOf" (by decide), ht.has_eq "oneOf" (by decide)]

lemma untypedOr_eq (names : List String) :
    Category.untypedOr e (f i) names = Category.untypedOr d i names := by
  rw [Category.untypedOr, Category.untypedOr, ht.has_eq "type" (by decide),
    h.string?_eq ht "type" (by decide)]

lemma isScalar_eq (names : List String) (kind : Json.Scalar → Bool) :
    Category.isScalar e (f i) names kind = Category.isScalar d i names kind := by
  rw [Category.isScalar, Category.isScalar, ht.has_eq "enum" (by decide),
    h.string?_eq ht "type" (by decide), h.isCompound_eq ht, h.scalar?_eq ht "default" (by decide)]

lemma holds_eq (hempty : (e.members? (f i)).map List.isEmpty = (d.members? i).map List.isEmpty)
    (category : Category) : category.holds e (f i) = category.holds d i := by
  have hhas (key : String) (hkey : key ∉ sizeKeys) := ht.has_eq key hkey
  have hstring := h.string?_eq ht "type" (by decide)
  cases category with
  | any => simp only [Category.holds, hempty, hstring]
  | object =>
      have hmore : (e.get? (f i) "additionalProperties").map e.isObject
          = (d.get? i "additionalProperties").map d.isObject :=
        h.map_get?_eq ht (by decide) fun c hc => h.isObject_eq c hc
      simp (disch := decide) only [Category.holds, hmore, hstring, List.all_cons, List.all_nil,
        hhas]
  | _ => simp (disch := decide) only [Category.holds, hhas, hstring, h.isScalar_eq ht,
      h.untypedOr_eq ht, h.typeIsList_eq ht]

/-- **A schema and its image are of the same categories**, if both are empty or none is. -/
theorem categories_eq
    (hempty : (e.members? (f i)).map List.isEmpty = (d.members? i).map List.isEmpty) :
    e.categories (f i) = d.categories i := by
  have hholds : Category.holds e (f i) = Category.holds d i := funext (h.holds_eq ht hempty)
  rw [categories, categories, ht.has_eq "tsType" (by decide), hholds]

lemma allowsMore_eq : Lower.allowsMore e (f i) = Lower.allowsMore d i := by
  rw [Lower.allowsMore, Lower.allowsMore, ht _ (by decide)]
  cases hc : d.get? i "additionalProperties" with
  | none => rfl
  | some c =>
      have hlt := h.left.get?_lt hc
      exact congrArg₂ or (h.isObject_eq c hlt) (h.leafIs_eq hlt true)

lemma defaultFits_eq (name : String) :
    Lower.defaultFits e (f i) name = Lower.defaultFits d i name := by
  rw [Lower.defaultFits, Lower.defaultFits, ht _ (by decide)]
  cases hc : d.get? i "default" with
  | none => rfl
  | some c =>
      have hlt := h.left.get?_lt hc
      dsimp only [Option.map_some]
      cases hnode : d.node c with
      | leaf value => rw [h.node_of_leaf hlt hnode]
      | array items => rw [h.node_of_array hlt hnode]
      | object members =>
          obtain ⟨members', hnode'⟩ := h.exists_node_of_object hlt hnode
          rw [hnode']

end Schema

/-! ### Paths and values -/

section Path

variable {path : List NodeId} (hlt : ∀ x ∈ path, x < d.size)
include hlt

lemma contains_map (hi : i < d.size) : (path.map f).contains (f i) = path.contains i := by
  rw [Bool.eq_iff_iff, List.contains_iff_mem, List.contains_iff_mem, List.mem_map]
  constructor
  · rintro ⟨a, ha, heq⟩
    exact h.inj a (hlt a ha) i hi heq ▸ ha
  · exact fun hi => ⟨i, hi, rfl⟩

lemma length_le_size_right (hpath : path.Nodup) : path.length ≤ e.size := by
  rw [← List.length_map f]
  refine length_le_size (hpath.map_on fun a ha b hb => h.inj a (hlt a ha) b (hlt b hb))
    fun x hx => ?_
  obtain ⟨a, ha, rfl⟩ := List.mem_map.mp hx
  exact h.lt a (hlt a ha)

end Path

lemma size_le : d.size ≤ e.size := by
  have hlt : ∀ x ∈ List.range d.size, x < d.size := fun x hx => List.mem_range.mp hx
  have hlength := h.length_le_size_right hlt List.nodup_range
  rwa [List.length_range] at hlength

/-- The value at a node below which all nodes are the same as their images. -/
lemma toJson_eq {P : NodeId → Prop} (hP : ∀ i, P i → i < d.size)
    (hnode : ∀ i, P i → e.node (f i) = (d.node i).map f)
    (hchild : ∀ i, P i → ∀ c ∈ (d.node i).children, P c) (hi : P i) :
    e.toJson (f i) = d.toJson i :=
  toJson_map hnode hchild (fun i hi j hj => h.inj i (hP i hi) j (hP j hj)) hi

end Outline

end Document

end SchemaDecl
