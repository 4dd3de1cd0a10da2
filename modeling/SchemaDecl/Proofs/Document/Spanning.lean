/-
The links of a walk are a spanning tree.

Nodes may be shared and may hold one another in circles. A walk from a container still gives every
container that can be reached one parent, and the parents lead back to where the walk began.

* `Document.isLinked_linkFrom_iff`: what is linked is what can be reached.
* `Document.exists_parent_of_isLinked`: a linked node is linked under one that holds it.
* `Document.Rooted.exists_chain`: the nodes above a node, up to the root, are all different.
* `Document.linkFrom_of_isLinked`: a walk from a linked node changes nothing.
* `Document.linkFrom_spans`: **the links of a walk are a spanning tree.**
-/
import SchemaDecl.Proofs.Document.Lineage

namespace SchemaDecl.Document

variable {d : Document} {root x : NodeId} {l : Link}

/-! ### Links and parents -/

section Free

variable (hfree : ∀ i, d.link i = .free)
include hfree

/-- **The nodes with a link are the containers that can be reached.** -/
lemma isLinked_linkFrom_iff (hl : l ≠ .free) : (d.linkFrom root l).isLinked x = true ↔
    (d.node x).isContainer = true ∧ Relation.ReflTransGen d.Holds root x := by
  rw [← mem_newLinks_iff hfree (l := l)]
  constructor
  · intro hlinked
    by_contra hmem
    rw [isLinked, link_linkFrom_of_not_mem hmem, hfree] at hlinked
    cases hlinked
  · intro hmem
    obtain ⟨new, hnew, rfl⟩ := List.mem_map.mp hmem
    rw [isLinked, link_linkFrom hnew, bne_iff_ne]
    rcases eq_or_mem_openChildren hnew with rfl | ⟨p, -, hp⟩
    · exact hl
    · rw [(mem_openChildren hp).1]
      simp

/-- A linked node is where the walk began, or it is linked under a linked node that holds it. -/
lemma exists_parent_of_isLinked (hl : l ≠ .free) (hx : (d.linkFrom root l).isLinked x = true) :
    x = root ∨ ∃ p, (d.linkFrom root l).parent? x = some p ∧
      (d.linkFrom root l).isLinked p = true ∧ d.Holds p x := by
  have hmem := (mem_newLinks_iff hfree (l := l)).mpr ((isLinked_linkFrom_iff hfree hl).mp hx)
  obtain ⟨⟨link, x⟩, hnew, rfl⟩ := List.mem_map.mp hmem
  rcases eq_or_mem_openChildren hnew with heq | ⟨p, hp, hedge⟩
  · exact .inl (Prod.mk.inj heq).2
  · obtain ⟨hunder, hchild, -⟩ := mem_openChildren hedge
    refine .inr ⟨p, ?_, ?_, hchild⟩
    · rw [parent?, link_linkFrom hnew, show link = .under p from hunder]
    · exact (isLinked_linkFrom_iff hfree hl).mpr ((mem_newLinks_iff hfree).mp hp)

/-- What is linked by a walk from the root is rooted. -/
lemma rooted_of_isLinked (hx : (d.linkFrom root .root).isLinked x = true) :
    (d.linkFrom root .root).Rooted root x := by
  have hmem := (mem_newLinks_iff hfree (l := .root)).mpr
    ((isLinked_linkFrom_iff hfree (by simp)).mp hx)
  obtain ⟨new, hnew, rfl⟩ := List.mem_map.mp hmem
  exact rooted_of_mem_newLinks hnew

end Free

/-- **The nodes above a rooted node lead to the root, and none of them comes twice.** -/
lemma Rooted.exists_chain (h : d.Rooted root x) : ∃ above : List NodeId,
    List.IsChain (fun a b => d.parent? a = some b) (x :: above) ∧ (x :: above).Nodup ∧
      (x :: above).getLast (List.cons_ne_nil x above) = root ∧
      ∀ y ∈ x :: above, Relation.ReflTransGen (fun a b => d.parent? a = some b) x y := by
  induction h with
  | start _ => exact ⟨[], .singleton _, by simp, rfl, by simp [Relation.ReflTransGen.refl]⟩
  | @under x p hx hp ih =>
      obtain ⟨above, hchain, hnodup, hlast, habove⟩ := ih
      refine ⟨p :: above, hchain.cons_cons hx, List.nodup_cons.mpr ⟨fun hmem => ?_, hnodup⟩,
        hlast, List.forall_mem_cons.mpr ⟨.refl, fun y hy => .head hx (habove y hy)⟩⟩
      exact (under hx hp).not_above (.head' hx (habove x hmem))

/-- The root of a rooted node has no parent. -/
lemma Rooted.parent?_root (h : d.Rooted root x) : d.parent? root = none := by
  induction h with
  | start hroot => exact hroot
  | under _ _ ih => exact ih

/-- A walk from a node that is linked, or no container, changes nothing. -/
lemma linkFrom_of_isLinked (hx : (d.node x).isContainer = true → d.isLinked x = true) :
    d.linkFrom x l = d := by
  have hclosed : d.isOpen x = false := by
    rw [isOpen, Bool.and_eq_false_iff, Bool.not_eq_false']
    exact (Bool.eq_false_or_eq_true (d.node x).isContainer).symm.imp_right hx
  rw [linkFrom, newLinks, hclosed]
  rfl

/-! ### The tree -/

/-- **The links of a walk are a spanning tree.** In a document without links, a walk from a
container links the containers that can be reached and leaves the nodes as they are. The root has no
parent, and any other linked node is linked under one that holds it. The parents of a linked node
lead to the root without coming twice, so that the climb finds the root; and no later walk from a
node that can be reached changes anything. -/
theorem linkFrom_spans (d : Document) (root : NodeId) (hfree : ∀ x, d.isLinked x = false)
    (hroot : (d.node root).isContainer = true) :
    let e := d.linkFrom root .root
    (∀ x, e.node x = d.node x) ∧
    (∀ x, e.isLinked x = true ↔
      (d.node x).isContainer = true ∧ Relation.ReflTransGen d.Holds root x) ∧
    e.parent? root = none ∧
    (∀ x, e.isLinked x = true → x ≠ root →
      ∃ p, e.parent? x = some p ∧ e.isLinked p = true ∧ d.Holds p x) ∧
    (∀ x, e.isLinked x = true → (∃ above : List NodeId,
        List.IsChain (fun a b => e.parent? a = some b) (x :: above) ∧ (x :: above).Nodup ∧
        (x :: above).getLast (List.cons_ne_nil x above) = root) ∧
      e.rootOf x = root) ∧
    ∀ x, Relation.ReflTransGen d.Holds root x → ∀ link, e.linkFrom x link = e := by
  intro e
  have hfree' : ∀ i, d.link i = .free := fun i => by simpa [isLinked] using hfree i
  have hnode (x : NodeId) : e.node x = d.node x := node_linkAll
  have hlinked (x : NodeId) : e.isLinked x = true ↔
      (d.node x).isContainer = true ∧ Relation.ReflTransGen d.Holds root x :=
    isLinked_linkFrom_iff hfree' (by simp)
  have hrooted {x : NodeId} (hx : e.isLinked x = true) : e.Rooted root x :=
    rooted_of_isLinked hfree' hx
  have hlt : root < e.size := by
    by_contra hle
    rw [← hnode, node_of_size_le (Nat.le_of_not_lt hle)] at hroot
    cases hroot
  have hstart : e.Rooted root root := hrooted ((hlinked root).mpr ⟨hroot, .refl⟩)
  refine ⟨hnode, hlinked, hstart.parent?_root, fun x hx hne => ?_,
    fun x hx => ⟨?_, (hrooted hx).rootOf_eq hlt⟩, fun x hx link => ?_⟩
  · exact (exists_parent_of_isLinked hfree' (by simp) hx).resolve_left hne
  · obtain ⟨above, hchain, hnodup, hlast, -⟩ := (hrooted hx).exists_chain
    exact ⟨above, hchain, hnodup, hlast⟩
  · exact linkFrom_of_isLinked fun hcontainer => (hlinked x).mpr ⟨hnode x ▸ hcontainer, hx⟩

/-- Two objects that share a list, which holds the root again, and an object that is not reached. -/
def sharedRing : Document :=
  ⟨#[⟨.object [("a", 1), ("b", 2)], .free⟩, ⟨.object [("x", 3)], .free⟩,
    ⟨.object [("x", 3), ("back", 0)], .free⟩, ⟨.array [4, 0], .free⟩, ⟨.leaf .null, .free⟩,
    ⟨.object [("a", 0)], .free⟩]⟩

theorem linkFrom_spans_sharedRing :
    (∀ x, sharedRing.isLinked x = false) ∧ (sharedRing.node 0).isContainer = true ∧
    (sharedRing.linkFrom 0 .root).parent? 3 = some 1 ∧
    (sharedRing.linkFrom 0 .root).isLinked 5 = false ∧
    (sharedRing.linkFrom 0 .root).rootOf 3 = 0 ∧
    (sharedRing.linkFrom 0 .root).linkFrom 3 (.under 2) = sharedRing.linkFrom 0 .root := by
  have hfree (x : NodeId) : sharedRing.isLinked x = false := by
    by_cases hx : x < sharedRing.size
    · have hall : ∀ x < sharedRing.size, sharedRing.isLinked x = false := by decide
      exact hall x hx
    · rw [isLinked, link_of_size_le (Nat.le_of_not_lt hx), bne_self_eq_false]
  obtain ⟨-, hlinked, -, -, hclimb, hagain⟩ := linkFrom_spans sharedRing 0 hfree rfl
  have hshared : (sharedRing.linkFrom 0 .root).isLinked 3 = true := by decide
  exact ⟨hfree, rfl, by decide, by decide, (hclimb 3 hshared).2,
    hagain 3 ((hlinked 3).mp hshared).2 (.under 2)⟩

end SchemaDecl.Document
