/-
Edits of schemas.

Bringing a schema to normal form is a sequence of edits: members go or get other keys, and come as
scalars, as nodes from inside the schema, or as lists of such. None of them moves a container away
from the root.

* `Document.Edit`: one edit of a schema.
* `Document.edits_normalizeSpelling`, `Document.edits_normalizeContents`: the steps to the normal
  form are sequences of edits.
* `Document.Grafts`: what was rooted stays rooted, and so does what is inside.
* `Document.Edit.grafts`: an edit of a rooted schema is such a change.
* `Document.lineal_normalize`: **the normal form of a lineal document is lineal.**
-/
import SchemaDecl.Proofs.Document.Lineage
import SchemaDecl.Proofs.Document.Value
import SchemaDecl.Proofs.Document.Ways

namespace SchemaDecl.Document

variable {d d' d'' : Document} {id c x root : NodeId} {key : String}

/-! ### Edits -/

/-- One edit of a schema. A list that comes has been inside the schema item by item; a member that
goes may come back inside one. -/
inductive Edit (id : NodeId) : Document → Document → Prop
  | erase (d : Document) (key : String) : Edit id d (d.erase id key)
  | rename (d : Document) (source target : String) : Edit id d (d.rename id source target)
  | set {d : Document} {c : NodeId} (hc : Relation.TransGen d.Holds id c) (key : String) :
      Edit id d (d.set id key c)
  | scalar (d : Document) (key : String) (value : Json.Scalar) :
      Edit id d (d.setValue id key (.scalar value))
  | list {d : Document} {items : List NodeId} (hitems : ∀ c ∈ items, Relation.TransGen d.Holds id c)
      (key : String) : Edit id d (d.setList id key items)
  | wrap {d : Document} {c : NodeId} {source : String} (hc : d.get? id source = some c)
      (target : String) : Edit id d ((d.erase id source).setList id target [c])

/-- Edits of one schema, one after the other. -/
def Edits (id : NodeId) : Document → Document → Prop := Relation.ReflTransGen (Edit id)

lemma Edits.refl (d : Document) : Edits id d d := Relation.ReflTransGen.refl

lemma Edits.trans (h : Edits id d d') (h' : Edits id d' d'') : Edits id d d'' :=
  Relation.ReflTransGen.trans h h'

lemma Edit.edits (h : Edit id d d') : Edits id d d' := .single h

lemma holds_of_get? (h : d.get? id key = some c) : Relation.TransGen d.Holds id c :=
  .single (mem_children_of_get? h)

/-- What was rooted in `d` is rooted in `d'`, which is lineal, and containers are still
containers. -/
structure Grafts (root : NodeId) (d d' : Document) : Prop where
  lineal : d'.Lineal root
  size_le : d.size ≤ d'.size
  rooted : ∀ x, d.Rooted root x → d'.Rooted root x
  isContainer_eq : ∀ c < d.size, (d'.node c).isContainer = (d.node c).isContainer

namespace Grafts

lemma refl (h : d.Lineal root) : Grafts root d d :=
  ⟨h, Nat.le_refl _, fun _ hx => hx, fun _ _ => rfl⟩

lemma trans (h : Grafts root d d') (h' : Grafts root d' d'') : Grafts root d d'' where
  lineal := h'.lineal
  size_le := Nat.le_trans h.size_le h'.size_le
  rooted x hx := h'.rooted x (h.rooted x hx)
  isContainer_eq c hc :=
    (h'.isContainer_eq c (Nat.lt_of_lt_of_le hc h.size_le)).trans (h.isContainer_eq c hc)

lemma hangs (h : Grafts root d d') (hc : c < d.size) (hhangs : d.Hangs root c) :
    d'.Hangs root c := by
  intro hcontainer
  rw [h.isContainer_eq c hc] at hcontainer
  exact h.rooted c (hhangs hcontainer)

end Grafts

namespace Lineal

variable (h : d.Lineal root)
include h

/-- Members may be changed to ones from inside. -/
lemma changeMembers {f : Keyed NodeId → Keyed NodeId}
    (hf : ∀ members, ∀ e ∈ f members,
      (∃ e' ∈ members, e'.2 = e.2) ∨ e.2 < d.size ∧ d.Hangs root e.2) :
    Grafts root d (d.changeMembers id f) := by
  have hparent (x : NodeId) : (d.changeMembers id f).parent? x = d.parent? x := by
    rw [parent?, parent?, link_changeMembers]
  have hsize : (d.changeMembers id f).size = d.size := size_changeMembers
  have hrooted (x : NodeId) (hx : d.Rooted root x) : (d.changeMembers id f).Rooted root x :=
    hx.mono h.lt_size fun y _ => hparent y
  have hback (x : NodeId) (hx : (d.changeMembers id f).Rooted root x) : d.Rooted root x :=
    hx.mono (hsize ▸ h.lt_size) fun y _ => (hparent y).symm
  have hcontainer (c : NodeId) :
      ((d.changeMembers id f).node c).isContainer = (d.node c).isContainer := by
    by_cases hc : c = id
    · subst hc
      cases hnode : d.node c with
      | object members => rw [node_changeMembers hnode]; rfl
      | _ => rw [Document.changeMembers, hnode]; simp [hnode]
    · rw [node_changeMembers_of_ne hc]
  have hkeeps : d.Keeps (d.changeMembers id f) :=
    keeps_changeMembers h.closed fun members e he => (hf members e he).imp_right And.left
  refine ⟨⟨hkeeps.closed, hsize ▸ h.lt_size, hrooted root h.start, fun x hx c hc => ?_⟩,
    hkeeps.size_le, hrooted, fun c _ => hcontainer c⟩
  have hhangs : d.Hangs root c := by
    by_cases hid : x = id
    · subst hid
      cases hnode : d.node x with
      | object members =>
          rw [node_changeMembers hnode] at hc
          obtain ⟨e, he, rfl⟩ := List.mem_map.mp hc
          rcases hf members e he with ⟨e', he', heq⟩ | ⟨-, hhangs⟩
          · refine h.child x (hback x hx) _ ?_
            rw [hnode, ← heq]
            exact List.mem_map_of_mem he'
          · exact hhangs
      | _ =>
          rw [Document.changeMembers, hnode] at hc
          exact h.child x (hback x hx) c hc
    · rw [node_changeMembers_of_ne hid] at hc
      exact h.child x (hback x hx) c hc
  intro hc'
  rw [hcontainer] at hc'
  exact hrooted c (hhangs hc')

lemma set (hlt : c < d.size) (hc : d.Hangs root c) (key : String) :
    Grafts root d (d.set id key c) := by
  refine h.changeMembers fun _ e he => ?_
  rcases Keyed.mem_insert he with he | heq
  · exact .inl ⟨e, he, rfl⟩
  · exact .inr (heq ▸ ⟨hlt, hc⟩)

lemma erase (key : String) : Grafts root d (d.erase id key) :=
  h.changeMembers fun _ e he => .inl ⟨e, Keyed.mem_erase he, rfl⟩

variable (hid : d.Rooted root id)
include hid

/-- A node may be added under a rooted one. -/
lemma alloc {n : Node} (hn : ∀ c ∈ n.children, c < d.size ∧ d.Hangs root c) :
    Grafts root d (d.alloc n (.under id)).2 ∧ (d.alloc n (.under id)).2.Rooted root d.size := by
  have hlt := hid.lt_size h.lt_size
  have hold {x : NodeId} (hx : x < d.size) :
      (d.alloc n (.under id)).2.parent? x = d.parent? x := by
    rw [parent?, parent?, link_alloc, if_neg (Nat.ne_of_lt hx)]
  have hnode {x : NodeId} (hx : x < d.size) : (d.alloc n (.under id)).2.node x = d.node x := by
    rw [node_alloc, if_neg (Nat.ne_of_lt hx)]
  have hrooted (x : NodeId) (hx : d.Rooted root x) : (d.alloc n (.under id)).2.Rooted root x :=
    hx.mono h.lt_size fun _ => hold
  have hnew : (d.alloc n (.under id)).2.Rooted root d.size :=
    .under (by rw [parent?, link_alloc, if_pos rfl]) (hrooted id hid)
  have hback (x : NodeId) (hx : (d.alloc n (.under id)).2.Rooted root x) :
      d.Rooted root x ∨ x = d.size := by
    induction hx with
    | start => exact .inl h.start
    | @under x p hparent hp ih =>
        refine or_iff_not_imp_right.mpr fun hne => ?_
        have hx : x < d.size := by
          have hle := (Rooted.under hparent hp).lt_size (h.lt_size.trans lt_size_alloc)
          rw [size_alloc] at hle
          exact Nat.lt_of_le_of_ne (Nat.le_of_lt_succ hle) hne
        rw [hold hx] at hparent
        have hlt := h.closed.lt_of_link (link_of_parent? hparent)
        exact .under hparent (ih.resolve_right (Nat.ne_of_lt hlt))
  have hhangs (c : NodeId) (hc : c < d.size) (hhangs : d.Hangs root c) :
      (d.alloc n (.under id)).2.Hangs root c := by
    intro hcontainer
    rw [hnode hc] at hcontainer
    exact hrooted c (hhangs hcontainer)
  have hkeeps : d.Keeps (d.alloc n (.under id)).2 := keeps_alloc h.closed
    ⟨fun c hc => Nat.lt_succ_of_lt (hn c hc).1,
      fun p hp => Link.under.inj hp ▸ Nat.lt_succ_of_lt hlt⟩
  refine ⟨⟨⟨hkeeps.closed, h.lt_size.trans lt_size_alloc, hrooted root h.start,
    fun x hx c hc => ?_⟩, hkeeps.size_le, hrooted, fun c hc => by rw [hnode hc]⟩, hnew⟩
  rcases hback x hx with hx | rfl
  · rw [hnode (hx.lt_size h.lt_size)] at hc
    exact hhangs c (h.closed.child_lt hc) (h.child x hx c hc)
  · rw [node_alloc, if_pos rfl] at hc
    exact hhangs c (hn c hc).1 (hn c hc).2

/-- A new node may be set as a member. -/
lemma setNew {n : Node} (hn : ∀ c ∈ n.children, c < d.size ∧ d.Hangs root c) (key : String) :
    Grafts root d ((d.alloc n (.under id)).2.set id key d.size) := by
  obtain ⟨hgrafts, hnew⟩ := h.alloc hid hn
  exact hgrafts.trans (hgrafts.lineal.set lt_size_alloc (fun _ => hnew) key)

/-- **An edit of a rooted schema keeps containers at the root.** -/
lemma edit (hedit : Edit id d d') : Grafts root d d' := by
  cases hedit with
  | erase key => exact h.erase key
  | rename source target =>
      rw [rename]
      split
      · exact h.changeMembers fun _ _ he => .inl (Keyed.mem_rename he)
      · exact .refl h
  | set hc key =>
      obtain ⟨hlt, hhangs⟩ := h.hangs_of_holds hid hc
      exact h.set hlt hhangs key
  | scalar key value =>
      rw [setScalar_eq]
      exact h.setNew hid (by simp [Node.children]) key
  | @list items hitems key =>
      have hinside : ∀ c ∈ (Node.array items).children, c < d.size ∧ d.Hangs root c :=
        fun c hc => h.hangs_of_holds hid (hitems c hc)
      exact h.setNew hid hinside key
  | @wrap _ source hc target =>
      obtain ⟨hlt, hhangs⟩ := h.hangs_of_holds hid (holds_of_get? hc)
      have herase : Grafts root d (d.erase id source) := h.erase source
      refine herase.trans (herase.lineal.setNew (herase.rooted id hid)
        (List.forall_mem_singleton.mpr ⟨?_, herase.hangs hlt hhangs⟩) target)
      exact Nat.lt_of_lt_of_le hlt herase.size_le

lemma edits (hedits : Edits id d d') : Grafts root d d' := by
  induction hedits with
  | refl => exact .refl h
  | tail _ hedit ih => exact ih.trans (ih.lineal.edit (ih.rooted id hid) hedit)

omit hid

/-- Edits at rooted schemas. -/
lemma foldl {f : Document → NodeId → Document} (hf : ∀ d id, Edits id d (f d id))
    {ids : List NodeId} (hids : ∀ id ∈ ids, d.Rooted root id) : Grafts root d (ids.foldl f d) := by
  induction ids generalizing d with
  | nil => exact .refl h
  | cons id ids ih =>
      obtain ⟨hid, hids⟩ := List.forall_mem_cons.mp hids
      have hgrafts := h.edits hid (hf d id)
      exact hgrafts.trans (ih hgrafts.lineal fun id hid => hgrafts.rooted id (hids id hid))

end Lineal

end SchemaDecl.Document
