/-
A document and its twin with a spare definition.

The twin has all nodes of the document, under other numbers. One object, the map of definitions, has
an entry more in it, and this entry leads to nodes that the document does not have and from which
nothing leads back.

* `Document.Secluded`: the map of definitions is held under `$defs` only, and by nodes that nothing
  holds; what stands anywhere under the key of the spare definition is no object; and no chain of
  parents ends at the map.
* `Document.Twin`: the two documents. What is read off a node and off its image is the same, up to
  the numbers of nodes (`Twin.get?_eq`, `Twin.outline`, `Twin.toJson_eq`).
-/
import SchemaDecl.Proofs.Document.Outline

namespace SchemaDecl

/-- A link with the number of the parent changed. -/
def Link.map (f : NodeId → NodeId) : Link → Link
  | .free => .free
  | .root => .root
  | .under parent => .under (f parent)

namespace Document

variable {d e : Document} {k : String} {m extra i c : NodeId} {key : String} {n : Node}

/-! ### Where the map of definitions stands -/

/-- A node may stand in a document: what it holds is there and does not hold the map `m`, which
itself stands under `$defs` only, and under the key `k` there is no object. -/
structure Fits (d : Document) (k : String) (m : NodeId) (n : Node) : Prop where
  lt : ∀ c ∈ n.children, c < d.size
  unheld : ∀ c ∈ n.children, m ∉ (d.node c).children
  aside : ∀ members, n = .object members → ∀ entry ∈ members, entry.2 = m → entry.1 = "$defs"
  unlisted : ∀ items, n = .array items → m ∉ items
  fresh : ∀ members, n = .object members → ∀ entry ∈ members, entry.1 = k →
    d.isObject entry.2 = false

/-- All nodes of a document may stand in it, and chains of parents do not end at the map `m`. -/
structure Secluded (d : Document) (k : String) (m : NodeId) : Prop where
  closed : d.Closed
  isObject : d.isObject m = true
  fits : ∀ i, d.Fits k m (d.node i)
  linked : ∀ i, d.link i = .under m → ∃ p, d.link m = .under p ∧ d.parent? p = none

/-- A node that is not the map and does not hold it. -/
structure Loose (d : Document) (m c : NodeId) : Prop where
  lt : c < d.size
  ne : c ≠ m
  unheld : m ∉ (d.node c).children

lemma Fits.mono {d' : Document} (h : d.Fits k m n) (hsize : d.size ≤ d'.size)
    (hobject : ∀ c < d.size, d'.isObject c = d.isObject c)
    (hheld : ∀ c ∈ n.children, m ∈ (d'.node c).children → m ∈ (d.node c).children) :
    d'.Fits k m n where
  lt c hc := Nat.lt_of_lt_of_le (h.lt c hc) hsize
  unheld c hc hmem := h.unheld c hc (hheld c hc hmem)
  aside := h.aside
  unlisted := h.unlisted
  fresh members hn entry hentry hk := by
    have hc : entry.2 ∈ n.children := by
      rw [hn]
      exact List.mem_map_of_mem hentry
    rw [hobject entry.2 (h.lt _ hc)]
    exact h.fresh members hn entry hentry hk

namespace Secluded

variable (h : d.Secluded k m)
include h

lemma lt : m < d.size := lt_size_of_isObject h.isObject

/-- What is held under another key than `$defs` is not the map. -/
lemma loose_of_get? (hkey : key ≠ "$defs") (hc : d.get? i key = some c) : d.Loose m c := by
  refine ⟨h.closed.get?_lt hc, ?_, (h.fits i).unheld c (mem_children_of_get? hc)⟩
  rintro rfl
  rw [get?, members?] at hc
  cases hnode : d.node i with
  | object members =>
      rw [hnode] at hc
      exact hkey ((h.fits i).aside members hnode _ (Keyed.mem_of_get? hc) rfl)
  | _ => simp [hnode] at hc

/-- What a child holds is not the map. -/
lemma loose_of_grandchild {c' : NodeId} (hc : c ∈ (d.node i).children)
    (hc' : c' ∈ (d.node c).children) : d.Loose m c' :=
  ⟨h.closed.child_lt hc', fun heq => (h.fits i).unheld c hc (heq ▸ hc'), (h.fits c).unheld c' hc'⟩

lemma loose_of_mem_listAt (hc : c ∈ d.listAt i key) : d.Loose m c := by
  obtain ⟨list, hlist, hc⟩ := exists_get?_of_mem_listAt hc
  exact h.loose_of_grandchild (mem_children_of_get? hlist) hc

lemma loose_of_mem_membersAt {entry : String × NodeId} (hentry : entry ∈ d.membersAt i key) :
    d.Loose m entry.2 := by
  obtain ⟨map, hmap, hc⟩ := exists_get?_of_mem_membersAt hentry
  exact h.loose_of_grandchild (mem_children_of_get? hmap) hc

end Secluded

/-! ### Twins -/

/-- The number is not the image of one of the first `n`. -/
def Apart (f : NodeId → NodeId) (n : Nat) (x : NodeId) : Prop := ∀ i < n, f i ≠ x

instance (f : NodeId → NodeId) (n : Nat) (x : NodeId) : Decidable (Apart f n x) :=
  inferInstanceAs (Decidable (∀ i, i < n → f i ≠ x))

/-- The keys under which references and definitions stand. -/
def referringKeys : List String := ["$ref", "$defs", "definitions"]

/-- A node that may stand among the spare ones: it holds such nodes only, and neither refers to nor
defines anything. -/
structure Idle (f : NodeId → NodeId) (size : Nat) (n : Node) : Prop where
  apart : ∀ c ∈ n.children, Apart f size c
  bare : ∀ members, n = .object members → ∀ entry ∈ members, entry.1 ∉ referringKeys

/-- The document `e` is `d` with its nodes renumbered by `f`, and with the spare definition `extra`
under the key `k` in the map `m`. -/
structure Twin (k : String) (m extra : NodeId) (f : NodeId → NodeId) (d e : Document) : Prop where
  left : d.Secluded k m
  right : e.Closed
  lt : ∀ i < d.size, f i < e.size
  inj : ∀ i < d.size, ∀ j < d.size, f i = f j → i = j
  node_eq : ∀ i < d.size, i ≠ m → e.node (f i) = (d.node i).map f
  map_eq : ∃ entries, d.node m = .object entries ∧ Keyed.get? entries k = none ∧
    e.node (f m) = .object ((entries.map fun e => (e.1, f e.2)) ++ [(k, extra)])
  link_eq : ∀ i < d.size, e.link (f i) = (d.link i).map f
  extra_apart : Apart f d.size extra
  idle : ∀ x, Apart f d.size x → Idle f d.size (e.node x)

namespace Later

variable {f f' : NodeId → NodeId} {d' e' : Document}

/-- What was no image is none later. -/
lemma apart (h : Later f d e f' d' e') {x : NodeId} (hx : Apart f d.size x) (hlt : x < e.size) :
    Apart f' d'.size x := by
  intro i hi heq
  by_cases hold : i < d.size
  · rw [h.agree i hold] at heq
    exact hx i hold heq
  · exact Nat.not_lt_of_le (h.fresh i hi (Nat.le_of_not_lt hold)) (heq ▸ hlt)

end Later

namespace Twin

variable {f : NodeId → NodeId} (h : Twin k m extra f d e)
include h

lemma map_lt : m < d.size := h.left.lt

/-- A child has an image. -/
lemma child_lt (hc : c ∈ (d.node i).children) : c < d.size := h.left.closed.child_lt hc

/-! ### What is read off a node -/

section Reading

lemma isObject_eq (hi : i < d.size) : e.isObject (f i) = d.isObject i := by
  by_cases hm : i = m
  · subst hm
    obtain ⟨entries, hd, -, he⟩ := h.map_eq
    rw [isObject, isObject, members?_of_node hd, members?_of_node he]
    rfl
  · rw [isObject, isObject, members?, members?, h.node_eq i hi hm]
    cases d.node i <;> rfl

lemma items?_eq (hi : i < d.size) : e.items? (f i) = (d.items? i).map (List.map f) := by
  by_cases hm : i = m
  · subst hm
    obtain ⟨entries, hd, -, he⟩ := h.map_eq
    rw [items?, items?, hd, he]
    rfl
  · rw [items?, items?, h.node_eq i hi hm]
    cases d.node i <;> rfl

lemma leaf?_eq (hi : i < d.size) : e.leaf? (f i) = d.leaf? i := by
  by_cases hm : i = m
  · subst hm
    obtain ⟨entries, hd, -, he⟩ := h.map_eq
    rw [leaf?, leaf?, hd, he]
  · rw [leaf?, leaf?, h.node_eq i hi hm]
    cases d.node i <;> rfl

lemma outline : Outline f d e where
  left := h.left.closed
  lt := h.lt
  inj := h.inj
  isObject_eq _ hi := h.isObject_eq hi
  items?_eq _ hi := h.items?_eq hi
  leaf?_eq _ hi := h.leaf?_eq hi

lemma isLinked_eq (hi : i < d.size) : e.isLinked (f i) = d.isLinked i := by
  rw [isLinked, isLinked, h.link_eq i hi]
  cases d.link i <;> rfl

/-- The members of an object other than the map. -/
lemma members?_eq (hi : i < d.size) (hm : i ≠ m) :
    e.members? (f i) = (d.members? i).map (List.map fun e => (e.1, f e.2)) := by
  rw [members?, members?, h.node_eq i hi hm]
  cases d.node i <;> rfl

/-- A member is the image of the member, the spare definition apart. -/
lemma get?_eq (hi : i < d.size) (hkey : i ≠ m ∨ key ≠ k) :
    e.get? (f i) key = (d.get? i key).map f := by
  by_cases hm : i = m
  · subst hm
    obtain ⟨entries, hd, -, he⟩ := h.map_eq
    rw [get?_of_node hd, get?_of_node he, Keyed.get?_append_of_ne _ (hkey.resolve_left (by simp)),
      Keyed.get?_map]
  · rw [get?, get?, h.members?_eq hi hm]
    cases d.members? i with
    | none => rfl
    | some members => exact Keyed.get?_map f members key

/-- What the map has under the key of the spare definition is that definition. -/
lemma eq_extra_of_get? (hc : e.get? (f m) k = some c) : c = extra := by
  obtain ⟨entries, -, hk, he⟩ := h.map_eq
  rw [get?_of_node he, Keyed.get?_append_of_get?_eq_none] at hc
  · exact (Option.some.inj hc).symm
  · rw [Keyed.get?_map, hk]
    rfl

/-- Whatever is read off a member alone is read off its image. -/
lemma bind_get?_eq {α : Type} {p p' : NodeId → Option α} (hi : i < d.size) (hkey : i ≠ m ∨ key ≠ k)
    (hp : ∀ c < d.size, p' (f c) = p c) : (e.get? (f i) key).bind p' = (d.get? i key).bind p := by
  rw [h.get?_eq hi hkey]
  cases hc : d.get? i key with
  | none => rfl
  | some c => exact hp c (h.left.closed.get?_lt hc)

lemma scalar?_eq' (hi : i < d.size) (hkey : i ≠ m ∨ key ≠ k) :
    e.scalar? (f i) key = d.scalar? i key :=
  h.bind_get?_eq hi hkey fun _ hc => h.leaf?_eq hc

lemma parent?_eq (hi : i < d.size) : e.parent? (f i) = (d.parent? i).map f := by
  rw [parent?, parent?, h.link_eq i hi]
  cases d.link i <;> rfl

lemma copiedLink_eq (hi : i < d.size) : e.copiedLink (f i) = (d.copiedLink i).map f := by
  rw [copiedLink, copiedLink, h.link_eq i hi]
  cases d.link i <;> rfl

section Schema

variable (hi : i < d.size) (hm : i ≠ m)
include hi hm

lemma tells : Tells f d e i := fun _ _ => h.get?_eq hi (.inl hm)

lemma has_eq : e.has (f i) key = d.has i key := by
  rw [has, has, h.get?_eq hi (.inl hm), Option.isSome_map]

lemma scalar?_eq : e.scalar? (f i) key = d.scalar? i key := h.scalar?_eq' hi (.inl hm)

lemma string?_eq : e.string? (f i) key = d.string? i key := by
  rw [string?, string?, h.scalar?_eq hi hm]

lemma bound?_eq : e.bound? (f i) key = d.bound? i key := by
  rw [bound?, bound?, double?, double?, h.scalar?_eq hi hm]

lemma membersAt_eq (hkey : key ≠ "$defs") :
    e.membersAt (f i) key = (d.membersAt i key).map fun e => (e.1, f e.2) := by
  rw [membersAt, membersAt, h.get?_eq hi (.inl hm)]
  cases hc : d.get? i key with
  | none => rfl
  | some c =>
      rw [Option.map_some, Option.bind_some, Option.bind_some,
        h.members?_eq (h.left.closed.get?_lt hc) (h.left.loose_of_get? hkey hc).ne]
      cases d.members? c <;> rfl

end Schema

/-- The value at a node that is not the map and does not hold it. -/
lemma toJson_eq (hi : d.Loose m i) : e.toJson (f i) = d.toJson i :=
  h.outline.toJson_eq (P := d.Loose m) (fun _ hc => hc.lt) (fun c hc => h.node_eq c hc.lt hc.ne)
    (fun j hj c hc =>
      ⟨h.child_lt hc, fun heq => hj.unheld (heq ▸ hc), (h.left.fits j).unheld c hc⟩) hi

end Reading

end Twin

end Document

end SchemaDecl
