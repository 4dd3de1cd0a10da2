/-
What is read of a schema stays when the document grows.

* `Document.Extends.listAt_eq`, `Document.Extends.strings_eq`, `Document.Extends.membersAt_eq`:
  lists and maps under a key.
* `Document.Extends.bound?_eq`: bounds.
* `Document.ReadsAs`: what nodes are read as, one after the other, said without fuel. A path of
  nodes inside one another repeats none of them, so that every node is read as one value and no
  other, whatever circles there are (`Document.readsAs_iff`).
* `Document.toJson_map`: nodes that hold one another in the same way are read as the same values; so
  the value at a node stays (`Document.Extends.toJson_eq`).
-/
import Mathlib.Data.List.Nodup
import Mathlib.Data.List.Range
import SchemaDecl.Proofs.Document.Growth

namespace SchemaDecl.Document

variable {d d' : Document} {id c : NodeId} {key : String}

lemma Closed.listAt_lt (h : d.Closed) (hc : c ∈ d.listAt id key) : c < d.size := by
  obtain ⟨list, -, hmem⟩ := exists_get?_of_mem_listAt hc
  exact h.child_lt hmem

lemma Closed.membersAt_lt (h : d.Closed) {e : String × NodeId} (he : e ∈ d.membersAt id key) :
    e.2 < d.size := by
  obtain ⟨map, -, hmem⟩ := exists_get?_of_mem_membersAt he
  exact h.child_lt hmem

/-- Different nodes are no more than all nodes. -/
lemma length_le_size {path : List NodeId} (hpath : path.Nodup) (hlt : ∀ x ∈ path, x < d.size) :
    path.length ≤ d.size := by
  have hsub : path ⊆ List.range d.size := fun x hx => List.mem_range.mpr (hlt x hx)
  exact (hpath.subperm hsub).length_le.trans_eq List.length_range

namespace Extends

variable (h : d.Extends d')
include h

lemma leaf?_eq (hc : c < d.size) : d'.leaf? c = d.leaf? c := by
  rw [leaf?, leaf?, h.node_eq hc]

lemma leafIs_eq (hc : c < d.size) (b : Bool) : d'.leafIs c b = d.leafIs c b := by
  rw [leafIs, leafIs, h.leaf?_eq hc]

lemma leafString?_eq (hc : c < d.size) : d'.leafString? c = d.leafString? c := by
  rw [leafString?, leafString?, h.leaf?_eq hc]

section Schema

variable (hd : d.Closed) (hid : id < d.size)
include hd hid

lemma listAt_eq : d'.listAt id key = d.listAt id key := by
  rw [listAt, listAt, h.get?_eq hid]
  cases hget : d.get? id key with
  | none => rfl
  | some list =>
    rw [Option.bind_some, Option.bind_some, items?, items?, h.node_eq (hd.get?_lt hget)]

lemma membersAt_eq : d'.membersAt id key = d.membersAt id key := by
  rw [membersAt, membersAt, h.get?_eq hid]
  cases hget : d.get? id key with
  | none => rfl
  | some map =>
      rw [Option.bind_some, Option.bind_some, members?, members?, h.node_eq (hd.get?_lt hget)]

lemma strings_eq : d'.strings id key = d.strings id key := by
  rw [strings, strings, h.listAt_eq hd hid]
  exact List.filterMap_congr fun c hc => h.leafString?_eq (hd.listAt_lt hc)

lemma hasType_eq (name : String) : d'.hasType id name = d.hasType id name := by
  rw [hasType, hasType, h.string?_eq hd hid, h.strings_eq hd hid]

lemma bound?_eq : d'.bound? id key = d.bound? id key := by
  rw [bound?, bound?, double?, double?, h.scalar?_eq hd hid]

lemma tupleBound?_eq : Lower.tupleBound? d' id key = Lower.tupleBound? d id key := by
  rw [Lower.tupleBound?, Lower.tupleBound?, h.bound?_eq hd hid]

lemma hasSinglePattern_eq : Lower.hasSinglePattern d' id = Lower.hasSinglePattern d id := by
  have hmore : Lower.allowsMore d' id = Lower.allowsMore d id := by
    rw [Lower.allowsMore, Lower.allowsMore, h.get?_eq hid]
    cases hget : d.get? id "additionalProperties" with
    | none => rfl
    | some more =>
        have hlt := hd.get?_lt hget
        dsimp only
        rw [h.isObject_eq hlt, h.leafIs_eq hlt]
  rw [Lower.hasSinglePattern, Lower.hasSinglePattern, hmore, h.membersAt_eq hd hid]

end Schema

end Extends

/-! ### Reading without fuel -/

variable {path ids : List NodeId} {values : List Json} {value : Json}

/-- Nodes inside those of `path`, one after the other, are read as some values. A node of the path
is cut short, and any other node is read with the nodes that it holds. -/
inductive ReadsAs (d : Document) : List NodeId → List NodeId → List Json → Prop
  | nil (path : List NodeId) : ReadsAs d path [] []
  | cut {path ids : List NodeId} {id : NodeId} {values : List Json} (hid : id ∈ path)
      (hrest : ReadsAs d path ids values) : ReadsAs d path (id :: ids) (.null :: values)
  | leaf {path ids : List NodeId} {id : NodeId} {value : Json.Scalar} {values : List Json}
      (hid : id ∉ path) (hnode : d.node id = .leaf value) (hrest : ReadsAs d path ids values) :
      ReadsAs d path (id :: ids) (.scalar value :: values)
  | array {path ids items : List NodeId} {id : NodeId} {inner values : List Json} (hid : id ∉ path)
      (hnode : d.node id = .array items) (hinner : ReadsAs d (id :: path) items inner)
      (hrest : ReadsAs d path ids values) : ReadsAs d path (id :: ids) (.array inner :: values)
  | object {path ids : List NodeId} {members : Keyed NodeId} {id : NodeId}
      {inner values : List Json} (hid : id ∉ path) (hnode : d.node id = .object members)
      (hinner : ReadsAs d (id :: path) (members.map Prod.snd) inner)
      (hrest : ReadsAs d path ids values) :
      ReadsAs d path (id :: ids) (.object ((members.map Prod.fst).zip inner) :: values)

namespace ReadsAs

/-- Nodes, and then others. -/
lemma append {ids' : List NodeId} {values' : List Json} (h : d.ReadsAs path ids values)
    (h' : d.ReadsAs path ids' values') : d.ReadsAs path (ids ++ ids') (values ++ values') := by
  induction h with
  | nil => exact h'
  | cut hid _ ih => exact .cut hid (ih h')
  | leaf hid hnode _ ih => exact .leaf hid hnode (ih h')
  | array hid hnode hinner _ _ ih => exact .array hid hnode hinner (ih h')
  | object hid hnode hinner _ _ ih => exact .object hid hnode hinner (ih h')

/-- Nodes are read as one list of values only. -/
lemma unique {values' : List Json} (h : d.ReadsAs path ids values)
    (h' : d.ReadsAs path ids values') : values = values' := by
  induction h generalizing values' with
  | nil =>
      cases h'
      rfl
  | cut hid _ ih =>
      cases h' with
      | cut _ hrest => rw [ih hrest]
      | leaf hid' => exact absurd hid hid'
      | array hid' => exact absurd hid hid'
      | object hid' => exact absurd hid hid'
  | leaf hid hnode _ ih =>
      cases h' with
      | cut hid' => exact absurd hid' hid
      | leaf _ hnode' hrest =>
          obtain rfl := Node.leaf.inj (hnode.symm.trans hnode')
          rw [ih hrest]
      | array _ hnode' => cases hnode.symm.trans hnode'
      | object _ hnode' => cases hnode.symm.trans hnode'
  | array hid hnode _ _ ihinner ih =>
      cases h' with
      | cut hid' => exact absurd hid' hid
      | leaf _ hnode' => cases hnode.symm.trans hnode'
      | array _ hnode' hinner hrest =>
          obtain rfl := Node.array.inj (hnode.symm.trans hnode')
          rw [ihinner hinner, ih hrest]
      | object _ hnode' => cases hnode.symm.trans hnode'
  | object hid hnode _ _ ihinner ih =>
      cases h' with
      | cut hid' => exact absurd hid' hid
      | leaf _ hnode' => cases hnode.symm.trans hnode'
      | array _ hnode' => cases hnode.symm.trans hnode'
      | object _ hnode' hinner hrest =>
          obtain rfl := Node.object.inj (hnode.symm.trans hnode')
          rw [ihinner hinner, ih hrest]

/-- Nodes with others in their places, which hold one another in the same way, are read as the same
values. -/
lemma map {f : NodeId → NodeId} {P : NodeId → Prop} (h : d.ReadsAs path ids values)
    (hnode : ∀ i, P i → d'.node (f i) = (d.node i).map f)
    (hchild : ∀ i, P i → ∀ c ∈ (d.node i).children, P c)
    (hinj : ∀ i, P i → ∀ j, P j → f i = f j → i = j) (hpath : ∀ i ∈ path, P i)
    (hids : ∀ i ∈ ids, P i) : d'.ReadsAs (path.map f) (ids.map f) values := by
  have hoff {path : List NodeId} {id : NodeId} (hpath : ∀ i ∈ path, P i) (hP : P id)
      (hid : id ∉ path) : f id ∉ path.map f := by
    intro hmem
    obtain ⟨x, hx, heq⟩ := List.mem_map.mp hmem
    exact hid (hinj x (hpath x hx) id hP heq ▸ hx)
  induction h with
  | nil path => exact .nil _
  | cut hid _ ih =>
      exact .cut (List.mem_map_of_mem hid) (ih hpath (List.forall_mem_cons.mp hids).2)
  | leaf hid hleaf _ ih =>
      obtain ⟨hP, hrest⟩ := List.forall_mem_cons.mp hids
      have himage := hnode _ hP
      rw [hleaf] at himage
      exact .leaf (hoff hpath hP hid) himage (ih hpath hrest)
  | array hid harray _ _ ihinner ih =>
      obtain ⟨hP, hrest⟩ := List.forall_mem_cons.mp hids
      have himage := hnode _ hP
      have hinner := hchild _ hP
      rw [harray] at himage hinner
      exact .array (hoff hpath hP hid) himage
        (ihinner (List.forall_mem_cons.mpr ⟨hP, hpath⟩) hinner) (ih hpath hrest)
  | @object path ids members id _ _ hid hobject _ _ ihinner ih =>
      obtain ⟨hP, hrest⟩ := List.forall_mem_cons.mp hids
      have himage := hnode _ hP
      have hinner := hchild _ hP
      rw [hobject] at himage hinner
      have hkeys : (members.map fun e => (e.1, f e.2)).map Prod.fst = members.map Prod.fst := by
        rw [List.map_map]
        rfl
      have hnodes : (members.map fun e => (e.1, f e.2)).map Prod.snd
          = (members.map Prod.snd).map f := by
        rw [List.map_map, List.map_map]
        rfl
      have hread := ihinner (List.forall_mem_cons.mpr ⟨hP, hpath⟩) hinner
      rw [← hnodes] at hread
      rw [← hkeys]
      exact .object (hoff hpath hP hid) himage hread (ih hpath hrest)

end ReadsAs

/-- **Fuel is enough.** A path repeats no node, so that there is fuel for the nodes off the path. -/
lemma readsAs_toJsonInside {fuel : Nat} (hpath : path.Nodup) (hlt : ∀ x ∈ path, x < d.size)
    (hfuel : d.size < fuel + path.length) (ids : List NodeId) :
    d.ReadsAs path ids (ids.map (d.toJsonInside fuel path)) := by
  induction fuel generalizing path ids with
  | zero =>
      have := length_le_size hpath hlt
      omega
  | succ fuel ih =>
      -- The nodes inside a container off the path have that container on their path.
      have hinside {id : NodeId} (hid : id ∉ path) (hcontainer : (d.node id).isContainer = true)
          (inner : List NodeId) :
          d.ReadsAs (id :: path) inner (inner.map (d.toJsonInside fuel (id :: path))) :=
        ih (List.nodup_cons.mpr ⟨hid, hpath⟩)
          (List.forall_mem_cons.mpr ⟨lt_size_of_isContainer hcontainer, hlt⟩)
          (by rw [List.length_cons]; omega) inner
      induction ids with
      | nil => exact .nil path
      | cons id ids ihids =>
          rw [List.map_cons, toJsonInside]
          by_cases hid : id ∈ path
          · rw [if_pos (List.contains_iff_mem.mpr hid)]
            exact .cut hid ihids
          · rw [if_neg (by simpa using hid)]
            cases hnode : d.node id with
            | leaf value => exact .leaf hid hnode ihids
            | array items => exact .array hid hnode (hinside hid (by rw [hnode]; rfl) items) ihids
            | object members =>
                have hread := ReadsAs.object hid hnode
                  (hinside hid (by rw [hnode]; rfl) (members.map Prod.snd)) ihids
                rwa [List.map_map, List.zip_map'] at hread

/-- **Every node is read as one value and no other.** -/
lemma readsAs_iff : d.ReadsAs [] [id] [value] ↔ d.toJson id = value := by
  have hread : d.ReadsAs [] [id] [d.toJson id] :=
    readsAs_toJsonInside List.nodup_nil (by simp) (Nat.lt_succ_self _) [id]
  refine ⟨fun h => List.singleton_inj.mp (hread.unique h), ?_⟩
  rintro rfl
  exact hread

/-- Where nodes have others in their places that hold one another in the same way, these are read as
the same values. -/
lemma toJson_map {f : NodeId → NodeId} {P : NodeId → Prop}
    (hnode : ∀ i, P i → d'.node (f i) = (d.node i).map f)
    (hchild : ∀ i, P i → ∀ c ∈ (d.node i).children, P c)
    (hinj : ∀ i, P i → ∀ j, P j → f i = f j → i = j) (hid : P id) :
    d'.toJson (f id) = d.toJson id :=
  readsAs_iff.mp ((readsAs_iff.mpr rfl).map hnode hchild hinj (by simp) (by simpa using hid))

/-- The value at a node stays when the document grows. -/
lemma Extends.toJson_eq (h : d.Extends d') (hd : d.Closed) (hid : id < d.size) :
    d'.toJson id = d.toJson id := by
  refine toJson_map (f := fun x => x) (P := fun i => i < d.size) (fun i hi => ?_)
    (fun i _ c hc => hd.child_lt hc) (fun i _ j _ heq => heq) hid
  exact (h.node_eq hi).trans (Node.map_id _).symm

end SchemaDecl.Document
