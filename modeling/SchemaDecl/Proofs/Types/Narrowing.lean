/-
Simplification narrows types.

A union or intersection loses members, or becomes a type that nothing describes; nothing else about
types changes. Types that are narrowed do not come back.

* `Shape.Narrows`, `TypeGraph.Narrows`: what may become of a shape, and of all types.
* `TypeGraph.simplifyAt_eq_setShape`: what becomes of one union or intersection.
* `TypeGraph.AllSets.turn`: what becomes of it among others.
* `TypeGraph.mem_sets_iff`: the unions and intersections below a root.
* `TypeGraph.narrows_simplify`: simplification narrows.
-/
import SchemaDecl.Proofs.Declaration.Coverage
import SchemaDecl.Proofs.Types.Simplify

namespace SchemaDecl

namespace Shape

variable {a b c : Shape}

/-! ### Shapes -/

/-- What may become of a shape: it stays, or, if it is a union or intersection, some of its members
stay, or nothing describes it any more. -/
def Narrows (a b : Shape) : Prop :=
  b = a ∨ a.isSet = true ∧
    (b.isTop = true ∨ ∃ members, members.Sublist a.children ∧ b = a.withMembers members)

lemma withMembers_withMembers (a : Shape) (members members' : List TypeId) :
    (a.withMembers members).withMembers members' = a.withMembers members' := by
  cases a <;> rfl

lemma withMembers_children (a : Shape) : a.withMembers a.children = a := by
  cases a <;> rfl

lemma isSet_eq_false_of_isTop (h : a.isTop = true) : a.isSet = false := by
  cases a <;> simp_all [isTop, isAny, isUnknown, isSet]

lemma slots_eq_children (h : a.isSet = true) : a.slots = a.children := by
  cases a <;> simp_all [isSet, slots, children]

lemma parts_eq_children (h : a.isSet = true) : a.parts = a.children := by
  cases a <;> simp_all [isSet, parts]

lemma children_of_isTop (h : a.isTop = true) : a.children = [] := by
  cases a <;> simp_all [isTop, isAny, isUnknown, children]

namespace Narrows

lemma refl (a : Shape) : a.Narrows a := Or.inl rfl

lemma trans (h : a.Narrows b) (h' : b.Narrows c) : a.Narrows c := by
  rcases h with rfl | ⟨hset, htop | ⟨members, hsub, rfl⟩⟩
  · exact h'
  · rcases h' with rfl | ⟨hset', -⟩
    · exact Or.inr ⟨hset, Or.inl htop⟩
    · rw [isSet_eq_false_of_isTop htop] at hset'
      cases hset'
  · rcases h' with rfl | ⟨-, htop | ⟨members', hsub', rfl⟩⟩
    · exact Or.inr ⟨hset, Or.inr ⟨members, hsub, rfl⟩⟩
    · exact Or.inr ⟨hset, Or.inl htop⟩
    · rw [TypeGraph.children_withMembers hset] at hsub'
      exact Or.inr ⟨hset, Or.inr ⟨members', hsub'.trans hsub, withMembers_withMembers a _ _⟩⟩

/-- A shape that becomes a narrower one does not come back. -/
lemma antisymm (h : a.Narrows b) (h' : b.Narrows a) : a = b := by
  rcases h' with rfl | ⟨hset, htop | ⟨members, hsub, rfl⟩⟩
  · rfl
  · rcases h with rfl | ⟨hset', -⟩
    · rfl
    · rw [isSet_eq_false_of_isTop htop] at hset'
      cases hset'
  · rcases h with heq | ⟨-, htop | ⟨members', hsub', heq⟩⟩
    · exact heq.symm
    · rw [isSet_eq_false_of_isTop htop] at hset
      cases hset
    · -- The members of each are among those of the other.
      rw [TypeGraph.children_withMembers hset] at hsub'
      rw [withMembers_withMembers] at heq
      have hchildren : b.children = members' := by
        conv_lhs => rw [heq, TypeGraph.children_withMembers hset]
      rw [hchildren] at hsub
      rw [hsub.antisymm hsub', ← heq]

lemma isSet (h : a.Narrows b) (hset : b.isSet = true) : a.isSet = true := by
  rcases h with rfl | ⟨hset', -⟩
  · exact hset
  · exact hset'

lemma children_subset (h : a.Narrows b) : b.children ⊆ a.children := by
  rcases h with rfl | ⟨hset, htop | ⟨members, hsub, rfl⟩⟩
  · exact List.Subset.refl _
  · rw [children_of_isTop htop]
    exact List.nil_subset _
  · rw [TypeGraph.children_withMembers hset]
    exact hsub.subset

/-- What is shown or gone through after narrowing was before. -/
lemma subset_of_children {f : Shape → List TypeId} (hset : ∀ a, a.isSet = true → f a = a.children)
    (hchildren : ∀ a, f a ⊆ a.children) (h : a.Narrows b) : f b ⊆ f a := by
  rcases h with rfl | hnarrow
  · exact List.Subset.refl _
  · rw [hset a hnarrow.1]
    exact fun c hc => children_subset (Or.inr hnarrow) (hchildren b hc)

end Narrows

lemma slots_subset_children (a : Shape) : a.slots ⊆ a.children := by
  cases a with
  | record r =>
      intro c hc
      rcases List.mem_append.mp hc with hc | hc
      · exact List.mem_append_right _ hc
      · obtain ⟨f, hf, rfl⟩ := List.mem_map.mp hc
        exact List.mem_append_left _ (List.mem_map_of_mem (List.mem_filter.mp hf).1)
  | _ => exact List.Subset.refl _

lemma parts_subset_children (a : Shape) : a.parts ⊆ a.children := by
  cases a with
  | enumeration members => exact List.nil_subset _
  | _ => exact List.Subset.refl _

lemma Narrows.slots_subset (h : a.Narrows b) : b.slots ⊆ a.slots :=
  h.subset_of_children (fun _ => slots_eq_children) slots_subset_children

lemma Narrows.parts_subset (h : a.Narrows b) : b.parts ⊆ a.parts :=
  h.subset_of_children (fun _ => parts_eq_children) parts_subset_children

end Shape

namespace TypeGraph

variable {s : Settings} {g g' g'' : TypeGraph} {id x : TypeId} {ids : List TypeId}

/-! ### Types -/

/-- Shapes are narrowed, and nothing else changes. -/
structure Narrows (g g' : TypeGraph) : Prop where
  size_eq : g'.size = g.size
  shape : ∀ x, (g.shape x).Narrows (g'.shape x)
  node : ∀ x, g'.node x = { g.node x with shape := g'.shape x }

lemma Narrows.refl (g : TypeGraph) : g.Narrows g := ⟨rfl, fun _ => .refl _, fun _ => rfl⟩

lemma Narrows.trans (h : g.Narrows g') (h' : g'.Narrows g'') : g.Narrows g'' where
  size_eq := h'.size_eq.trans h.size_eq
  shape x := (h.shape x).trans (h'.shape x)
  node x := by rw [h'.node x, h.node x]

/-- Types are the same if they have the same numbers. -/
lemma ext_node (hsize : g.size = g'.size) (hnode : ∀ x, g.node x = g'.node x) : g = g' := by
  have hnodes : g.nodes = g'.nodes := by
    refine Array.ext hsize fun i hi hi' => ?_
    have heq := hnode i
    rw [node, node, Array.getElem?_eq_getElem hi, Array.getElem?_eq_getElem hi'] at heq
    exact heq
  cases g
  cases g'
  exact congrArg TypeGraph.mk hnodes

/-- Types that become narrower do not come back. -/
lemma Narrows.antisymm (h : g.Narrows g') (h' : g'.Narrows g) : g = g' := by
  refine ext_node h'.size_eq fun x => ?_
  rw [h.node x, ← (h.shape x).antisymm (h'.shape x)]
  rfl

lemma Narrows.declared?_eq (h : g.Narrows g') (x : TypeId) :
    (g'.node x).declared? = (g.node x).declared? := by
  rw [h.node x]
  rfl

lemma setShape_self : g.setShape id (g.shape id) = g := by
  refine ext_node size_set fun x => ?_
  rw [setShape]
  by_cases hlt : id < g.size
  · by_cases hx : x = id
    · rw [hx, node_set_self hlt, shape]
    · rw [node_set_of_ne hx]
  · rw [set_of_size_le (Nat.le_of_not_lt hlt)]

lemma node_setShape_of_ne {shape : Shape} (h : x ≠ id) :
    (g.setShape id shape).node x = g.node x := node_set_of_ne h

lemma shape_setShape_self {shape : Shape} (h : id < g.size) :
    (g.setShape id shape).shape id = shape := by
  rw [TypeGraph.shape, setShape, node_set_self h]

lemma narrows_setShape {shape : Shape} (h : (g.shape id).Narrows shape) :
    g.Narrows (g.setShape id shape) := by
  by_cases hlt : id < g.size
  · refine ⟨size_set, fun x => ?_, fun x => ?_⟩
    · by_cases hx : x = id
      · rw [hx, shape_setShape_self hlt]
        exact h
      · rw [TypeGraph.shape, TypeGraph.shape, node_setShape_of_ne hx]
        exact .refl _
    · by_cases hx : x = id
      · rw [hx, shape_setShape_self hlt, setShape, node_set_self hlt]
      · rw [TypeGraph.shape, node_setShape_of_ne hx]
  · rw [setShape, set_of_size_le (Nat.le_of_not_lt hlt)]
    exact .refl g

/-! ### One step -/

/-- What becomes of a union or intersection. -/
def simplified (s : Settings) (g : TypeGraph) (id : TypeId) : Shape :=
  if (g.children id).any fun m => (g.shape m).isAny then .any
  else if (g.children id).any fun m => (g.shape m).isUnknown then .unknown
  else (g.shape id).withMembers
    (g.kept (g.children id) ((memberTexts s g (g.children id)).run {}).1)

/-- A step changes the shape of one union or intersection. -/
lemma simplifyAt_eq_setShape (s : Settings) (g : TypeGraph) (id : TypeId) :
    (simplifyAt s g id).1 = g.setShape id (g.simplified s id) := by
  rw [simplifyAt, simplified]
  by_cases hany : ((g.children id).any fun m => (g.shape m).isAny) = true
  · rw [if_pos hany, if_pos hany]
  · rw [if_neg hany, if_neg hany]
    by_cases hunknown : ((g.children id).any fun m => (g.shape m).isUnknown) = true
    · rw [if_pos hunknown, if_pos hunknown]
    · rw [if_neg hunknown, if_neg hunknown]
      change (if (g.kept (g.children id) ((memberTexts s g (g.children id)).run {}).1).length
          == (g.children id).length then g else _) = _
      split
      case isTrue hlen =>
        have hsub := kept_sublist (g := g) (g.children id)
          ((memberTexts s g (g.children id)).run {}).1 (length_memberTexts _ _)
        rw [hsub.eq_of_length (beq_iff_eq.mp hlen), children, Shape.withMembers_children,
          setShape_self]
      case isFalse => rfl

lemma narrows_simplified (s : Settings) (hset : (g.shape id).isSet = true) :
    (g.shape id).Narrows (g.simplified s id) := by
  rw [simplified]
  split
  · exact Or.inr ⟨hset, Or.inl rfl⟩
  · split
    · exact Or.inr ⟨hset, Or.inl rfl⟩
    · exact Or.inr ⟨hset, Or.inr ⟨_, kept_sublist _ _ (length_memberTexts _ _), rfl⟩⟩

/-! ### A run of steps -/

/-- The steps at some unions and intersections, one after the other. -/
def simplifyAll (s : Settings) (g : TypeGraph) (ids : List TypeId) : TypeGraph :=
  ids.foldl (fun h id => (simplifyAt s h id).1) g

lemma simplify_eq_simplifyAll (s : Settings) (g : TypeGraph) (root : TypeId) :
    g.simplify s root = g.simplifyAll s (g.sets root) := by
  rw [simplify, simplifyNoting, simplifyAll]
  generalize g.sets root = ids
  generalize ([] : List TypeId) = cut
  induction ids generalizing g cut with
  | nil => rfl
  | cons id ids ih => exact ih (simplifyAt s g id).1 _

lemma simplifyAll_append (ids' : List TypeId) :
    g.simplifyAll s (ids ++ ids') = (g.simplifyAll s ids).simplifyAll s ids' :=
  List.foldl_append

/-- The list holds different unions and intersections. -/
structure AllSets (g : TypeGraph) (ids : List TypeId) : Prop where
  nodup : ids.Nodup
  isSet : ∀ id ∈ ids, (g.shape id).isSet = true

/-- Those that come later are not touched by a step. -/
lemma AllSets.tail (h : g.AllSets (id :: ids)) : AllSets (simplifyAt s g id).1 ids where
  nodup := (List.nodup_cons.mp h.nodup).2
  isSet x hx := by
    have hne : x ≠ id := fun heq => (List.nodup_cons.mp h.nodup).1 (heq ▸ hx)
    rw [simplifyAt_eq_setShape, shape, node_setShape_of_ne hne]
    exact h.isSet x (List.mem_cons_of_mem _ hx)

/-- **A run of steps narrows**, and changes no other types than those it is made at. -/
lemma AllSets.narrows (s : Settings) (h : g.AllSets ids) :
    g.Narrows (g.simplifyAll s ids) ∧ ∀ x ∉ ids, (g.simplifyAll s ids).node x = g.node x := by
  induction ids generalizing g with
  | nil => exact ⟨.refl g, fun _ _ => rfl⟩
  | cons id ids ih =>
      have hset := h.isSet id List.mem_cons_self
      have hstep : g.Narrows (simplifyAt s g id).1 := by
        rw [simplifyAt_eq_setShape]
        exact narrows_setShape (narrows_simplified s hset)
      obtain ⟨hnarrows, hnode⟩ := ih (h.tail (s := s))
      refine ⟨hstep.trans hnarrows, fun x hx => ?_⟩
      have hne : x ≠ id := fun heq => hx (heq ▸ List.mem_cons_self)
      refine (hnode x fun hmem => hx (List.mem_cons_of_mem _ hmem)).trans ?_
      rw [simplifyAt_eq_setShape, node_setShape_of_ne hne]

lemma AllSets.of_append {ids' : List TypeId} (h : g.AllSets (ids ++ ids')) :
    g.AllSets ids ∧ AllSets (g.simplifyAll s ids) ids' := by
  have hleft : g.AllSets ids :=
    ⟨(List.nodup_append'.mp h.nodup).1, fun x hx => h.isSet x (List.mem_append_left _ hx)⟩
  refine ⟨hleft, (List.nodup_append'.mp h.nodup).2.1, fun x hx => ?_⟩
  have hx' : x ∉ ids := fun hmem => (List.nodup_append'.mp h.nodup).2.2 hmem hx
  rw [shape, (hleft.narrows s).2 x hx']
  exact h.isSet x (List.mem_append_right _ hx)

/-- **The turn of a union or intersection**: it comes to its turn as it was at first, and leaves it
as it is in the end. What has no turn then or later is by then as it is in the end. -/
lemma AllSets.turn (s : Settings) {before after : List TypeId}
    (h : g.AllSets (before ++ id :: after)) :
    g.Narrows (g.simplifyAll s before) ∧
    (g.simplifyAll s before).Narrows (g.simplifyAll s (before ++ id :: after)) ∧
    (g.simplifyAll s before).shape id = g.shape id ∧
    (g.simplifyAll s (before ++ id :: after)).shape id = (g.simplifyAll s before).simplified s id ∧
    ∀ x ∉ id :: after,
      (g.simplifyAll s (before ++ id :: after)).node x = (g.simplifyAll s before).node x := by
  have hset := h.isSet id (by simp)
  have hlt : id < g.size := lt_size_of_shape_ne fun hp => by simp [hp, Shape.isSet] at hset
  have hid : id ∉ before := fun hmem =>
    (List.nodup_append'.mp h.nodup).2.2 hmem List.mem_cons_self
  obtain ⟨hbefore, hrest⟩ := h.of_append (s := s)
  obtain ⟨hnarrows, hnode⟩ := hbefore.narrows s
  rw [simplifyAll_append]
  refine ⟨hnarrows, (hrest.narrows s).1, ?_, ?_, (hrest.narrows s).2⟩
  · rw [shape, hnode id hid, shape]
  · have hrun : (g.simplifyAll s before).simplifyAll s (id :: after)
        = (simplifyAt s (g.simplifyAll s before) id).1.simplifyAll s after := rfl
    rw [hrun, shape, (AllSets.narrows s hrest.tail).2 id (List.nodup_cons.mp hrest.nodup).1,
      simplifyAt_eq_setShape]
    exact shape_setShape_self (hnarrows.size_eq ▸ hlt)

/-! ### The unions and intersections below a root -/

/-- The unions and intersections below a root are those that can be reached from it. -/
lemma mem_sets_iff {root : TypeId} :
    id ∈ g.sets root ↔
      Relation.ReflTransGen (Declare.Part g) root id ∧ (g.shape id).isSet = true := by
  have hleft := Walk.mem_left_iff (Declare.partEdges_eq_nil (g := g)) ((), root) id
  rw [Walk.Reaches, Declare.edge_partEdges] at hleft
  rw [← hleft]
  exact List.mem_filter

lemma allSets_sets (g : TypeGraph) (root : TypeId) : g.AllSets (g.sets root) where
  nodup := (Walk.nodup_left Declare.partEdges_eq_nil ((), root)).filter _
  isSet _ hid := (mem_sets_iff.mp hid).2

lemma Narrows.mem_sets {root : TypeId} (h : g.Narrows g') (hid : id ∈ g'.sets root) :
    id ∈ g.sets root := by
  obtain ⟨hreach, hset⟩ := mem_sets_iff.mp hid
  refine mem_sets_iff.mpr ⟨?_, (h.shape id).isSet hset⟩
  refine Relation.ReflTransGen.mono (fun a b hab => ?_) _ _ hreach
  exact Declare.mem_parts_iff.mp ((h.shape a).parts_subset (Declare.mem_parts_iff.mpr hab))

/-- **Simplification narrows.** -/
theorem narrows_simplify (s : Settings) (g : TypeGraph) (root : TypeId) :
    g.Narrows (g.simplify s root) := by
  rw [simplify_eq_simplifyAll]
  exact ((allSets_sets g root).narrows s).1

end TypeGraph

end SchemaDecl
