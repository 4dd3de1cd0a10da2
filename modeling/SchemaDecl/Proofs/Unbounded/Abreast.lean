/-
Two documents that differ in the bounds of arrays, with the same roots.

References aside, the containers of a value are all linked below its root, on both sides. Whatever
is added later is linked where its image is.

* `Document.Abreast`: the climbs from a node and from its image end at a node and its image.
* `Document.exists_abreast`: the documents of a value without references and of the value without
  bounds, with containers linked.
* `Document.Follows`: documents that are abreast after a change, in which no schemas have come.
* `Abreast.setList`, `Abreast.setScalar`, `Abreast.erase`, `Abreast.rename`: the same change on both
  sides.
-/
import SchemaDecl.Proofs.Unbounded.Insertion

namespace SchemaDecl.Document

variable {d e d' e' d'' e'' : Document} {ρ ρ' ρ'' : NodeId → Role} {f f' f'' : NodeId → NodeId}
  {root i c x : NodeId} {key : String} {role : Role} {n n' : Node}

/-- The climbs from a node and from its image end at a node and its image, and that node is a value
or a schema. -/
structure Abreast (ρ : NodeId → Role) (f : NodeId → NodeId) (d e : Document) : Prop
    extends Unsized ρ f d e where
  roots : ∀ i < d.size, ∃ r < d.size, (ρ r).isMet = true ∧ d.Rooted r i ∧ e.Rooted (f r) (f i)

lemma Abreast.exists_rootOf (h : Abreast ρ f d e) (hi : i < d.size) :
    (ρ (d.rootOf i)).isMet = true ∧ e.rootOf (f i) = f (d.rootOf i) := by
  obtain ⟨r, hr, hmet, hrooted, hrooted'⟩ := h.roots i hi
  rw [hrooted.rootOf_eq hr, hrooted'.rootOf_eq (h.lt r hr)]
  exact ⟨hmet, rfl⟩

/-! ### Containers are linked -/

section Inserted

variable {value : Json}

lemma link_inserted (value : Json) (i : NodeId) : (inserted value).2.link i = .free :=
  (sprouts_insert value {}).1.free i (Nat.zero_le i)

lemma holds_inserted (hi : i < (inserted value).2.size) :
    Relation.ReflTransGen (inserted value).2.Holds (inserted value).1 i :=
  holds_insert value (Nat.zero_le i) hi

lemma get?_inserted_of_plain (hplain : ∀ o ∈ value.objects, Keyed.get? o "$ref" = none)
    (i : NodeId) : (inserted value).2.get? i "$ref" = none := by
  cases hnode : (inserted value).2.node i with
  | object entries =>
      obtain ⟨members, hmembers, hmirrors⟩ :=
        (sprouts_insert value {}).1.mirrors i (Nat.zero_le i) entries hnode
      rw [get?_of_node hnode, Keyed.get?_eq_none_iff, hmirrors.keys_eq, ← Keyed.get?_eq_none_iff]
      exact hplain members hmembers
  | _ => rw [get?, members?, hnode]; rfl

lemma localPointer?_of_get? (h : d.get? i "$ref" = none) : d.localPointer? i = none := by
  rw [localPointer?, string?, scalar?, h]
  rfl

lemma size_linked (value : Json) : (linked value).size = (inserted value).2.size := by
  rw [linked, size_linkFrom, size_resolveReferences]

lemma node_linked (h : ∀ i, (inserted value).2.localPointer? i = none) (x : NodeId) :
    (linked value).node x = (inserted value).2.node x := by
  rw [linked, linkFrom, ← linkAll, node_linkAll, node_resolveReferences_of_plain h]

lemma closed_linked (value : Json) : (linked value).Closed := by
  rw [← linkFrom_ofJson]
  exact (keeps_linkFrom (closed_ofJson value).1 (by simp)).closed

/-- Nothing has been linked when references have been resolved. -/
lemma link_resolveReferences_inserted (value : Json) (i : NodeId) :
    ((inserted value).2.resolveReferences (inserted value).1).link i = .free := by
  rw [link_resolveReferences, link_inserted]

/-- Containers are rooted at the root of the value. -/
lemma rooted_linked (h : ∀ i, (inserted value).2.localPointer? i = none)
    (hx : x < (inserted value).2.size)
    (hcontainer : ((inserted value).2.node x).isContainer = true) :
    (linked value).Rooted (inserted value).1 x := by
  have hfree := link_resolveReferences_inserted value
  rw [linked]
  refine rooted_of_isLinked hfree ((isLinked_linkFrom_iff hfree (by simp)).mpr ⟨?_, ?_⟩)
  · rwa [node_resolveReferences_of_plain h]
  · refine Relation.ReflTransGen.mono (fun a b hab => ?_) _ _ (holds_inserted hx)
    rw [Holds, node_resolveReferences_of_plain h]
    exact hab

/-- Leaves are not linked. -/
lemma rooted_linked_self (h : ∀ i, (inserted value).2.localPointer? i = none)
    (hleaf : ((inserted value).2.node x).isContainer = false) : (linked value).Rooted x x := by
  have hfree := link_resolveReferences_inserted value
  refine .start ?_
  rw [linked, parent?, link_linkFrom_of_not_mem fun hmem => ?_, hfree]
  have hcontainer := ((mem_newLinks_iff hfree).mp hmem).1
  rw [node_resolveReferences_of_plain h, hleaf] at hcontainer
  cases hcontainer

end Inserted

/-- A leaf is a value. -/
lemma Sorted.eq_value_of_leaf (h : d.Sorted ρ) (hi : i < d.size)
    (hleaf : (d.node i).isContainer = false) : ρ i = .value := by
  obtain ⟨site, sized, hrole⟩ := h.placed i hi
  rw [hrole]
  cases hnode : d.node i with
  | leaf value => cases site <;> rfl
  | _ => rw [hnode] at hleaf; cases hleaf

/-- The documents of a value and of the value without bounds, before references are resolved. -/
lemma exists_unsized_inserted (value : Json) :
    ∃ ρ f, Unsized ρ f (inserted (value.unbounded .schema)).2 (inserted value).2 ∧
      Marked ρ (inserted (value.unbounded .schema)).2 ∧
      f (inserted (value.unbounded .schema)).1 = (inserted value).1 ∧
      (inserted (value.unbounded .schema)).2.Suits ρ .schema
        (inserted (value.unbounded .schema)).1 := by
  have hclosed : Closed {} := by decide
  have hempty : Unsized (fun _ => Role.value) id {} {} :=
    ⟨hclosed, hclosed, (fun i hi => absurd hi (Nat.not_lt_zero i)),
      (fun i hi => absurd hi (Nat.not_lt_zero i)), fun i hi => absurd hi (Nat.not_lt_zero i)⟩
  obtain ⟨ρ, f, hgrown, himage, hsuits⟩ := hempty.insert value .schema
    fun i hi => absurd hi (Nat.not_lt_zero i)
  exact ⟨ρ, f, hgrown.unsized, hgrown.marked, himage, hsuits⟩

/-- What a link does not change. -/
structure Linking (d d' : Document) : Prop where
  size_eq : d'.size = d.size
  node_eq : ∀ x, d'.node x = d.node x
  closed : d'.Closed

namespace Linking

lemma alters (h : Linking d d') : d.Alters d' [] :=
  alters_of_node_eq (Nat.le_of_eq h.size_eq.symm) fun x _ => h.node_eq x

lemma marked (h : Linking d d') (hd : d.Closed) (hm : Marked ρ d) : Marked ρ d' := by
  intro i hi sized hrole
  rw [h.size_eq] at hi
  rw [h.alters.describesArrays_eq hd (h.alters.get?_eq i hi _ (by simp))
    (by rw [has, h.alters.get?_eq i hi _ (by simp), has])]
  exact hm i hi sized hrole

lemma suits {site : Site} (h : Linking d d') (hc : d.Suits ρ site c) : d'.Suits ρ site c := by
  obtain ⟨sized, hrole⟩ := hc
  exact ⟨sized, by rw [h.node_eq, hrole]⟩

lemma holds (h : Linking d d') (hx : Relation.ReflTransGen d.Holds root x) :
    Relation.ReflTransGen d'.Holds root x := by
  refine Relation.ReflTransGen.mono (fun a b hab => ?_) _ _ hx
  rw [Holds, h.node_eq]
  exact hab

end Linking

/-- **The documents of a value without references and of the value without bounds are abreast**,
when containers have been linked. -/
theorem exists_abreast (value : Json) (hplain : ∀ o ∈ value.objects, Keyed.get? o "$ref" = none) :
    ∃ ρ f, Abreast ρ f (linked (value.unbounded .schema)) (linked value) ∧
      Marked ρ (linked (value.unbounded .schema)) ∧
      f (inserted (value.unbounded .schema)).1 = (inserted value).1 ∧
      (linked (value.unbounded .schema)).Suits ρ .schema (inserted (value.unbounded .schema)).1 ∧
      ∀ x < (linked (value.unbounded .schema)).size, Relation.ReflTransGen
        (linked (value.unbounded .schema)).Holds (inserted (value.unbounded .schema)).1 x := by
  obtain ⟨ρ, f, hunsized, hmarked, himage, hsuits⟩ := exists_unsized_inserted value
  have hlt := (sprouts_insert (value.unbounded .schema) {}).2.2.1
  rw [← inserted] at hlt
  have hpointer (i : NodeId) : (inserted value).2.localPointer? i = none :=
    localPointer?_of_get? (get?_inserted_of_plain hplain i)
  have hlinking : Linking (inserted value).2 (linked value) :=
    ⟨size_linked value, node_linked hpointer, closed_linked value⟩
  generalize value.unbounded .schema = bare at *
  have hpointer₀ (i : NodeId) : (inserted bare).2.localPointer? i = none := by
    refine localPointer?_of_get? ?_
    by_cases hi : i < (inserted bare).2.size
    · have htells := hunsized.tells hi "$ref" (by decide)
      exact Option.map_eq_none_iff.mp (htells.symm.trans (get?_inserted_of_plain hplain (f i)))
    · rw [get?, members?, node_of_size_le (Nat.le_of_not_lt hi)]
      rfl
  have hlinking₀ : Linking (inserted bare).2 (linked bare) :=
    ⟨size_linked bare, node_linked hpointer₀, closed_linked bare⟩
  refine ⟨ρ, f, ⟨hunsized.congr hlinking₀.size_eq hlinking₀.node_eq hlinking₀.closed
      hlinking.size_eq hlinking.node_eq hlinking.closed, fun i hi => ?_⟩,
    hlinking₀.marked hunsized.left hmarked, himage, hlinking₀.suits hsuits,
    fun x hx => hlinking₀.holds (holds_inserted (hlinking₀.size_eq ▸ hx))⟩
  rw [hlinking₀.size_eq] at hi
  -- containers are rooted at the root, and leaves, which are values, at themselves
  have hcontainer := hunsized.isContainer_eq hi
  cases hleaf : ((inserted bare).2.node i).isContainer with
  | true =>
      refine ⟨_, hlt.trans_eq hlinking₀.size_eq.symm, hsuits.isMet,
        rooted_linked hpointer₀ hi hleaf, ?_⟩
      rw [himage]
      exact rooted_linked hpointer (hunsized.lt i hi) (hcontainer.trans hleaf)
  | false =>
      refine ⟨i, hi.trans_eq hlinking₀.size_eq.symm, ?_, rooted_linked_self hpointer₀ hleaf,
        rooted_linked_self hpointer (hcontainer.trans hleaf)⟩
      rw [hunsized.sorted.eq_value_of_leaf hi hleaf]
      rfl

/-! ### The same change on both sides -/

/-- Documents that are abreast have changed and are abreast again. Numbers keep their images and
their roles, and no schemas have come. -/
structure Follows (ρ : NodeId → Role) (f : NodeId → NodeId) (d e : Document) (ρ' : NodeId → Role)
    (f' : NodeId → NodeId) (d' e' : Document) : Prop where
  later : Later f d e f' d' e'
  agree : ∀ i < d.size, ρ' i = ρ i
  fresh : ∀ i < d'.size, d.size ≤ i → ρ' i = .value ∨ ρ' i = .list
  isObject_eq : ∀ i < d.size, d'.isObject i = d.isObject i
  abreast : Abreast ρ' f' d' e'

/-- Documents are abreast again after a change. -/
def Moves (ρ : NodeId → Role) (f : NodeId → NodeId) (d e d' e' : Document) : Prop :=
  ∃ ρ' f', Follows ρ f d e ρ' f' d' e'

lemma Follows.trans (h : Follows ρ f d e ρ' f' d' e') (h' : Follows ρ' f' d' e' ρ'' f'' d'' e'') :
    Follows ρ f d e ρ'' f'' d'' e'' where
  later := h.later.trans h'.later
  agree i hi := (h'.agree i (Nat.lt_of_lt_of_le hi h.later.size_le)).trans (h.agree i hi)
  fresh i hi hle := by
    by_cases hold : i < d'.size
    · rw [h'.agree i hold]
      exact h.fresh i hold hle
    · exact h'.fresh i hi (Nat.le_of_not_lt hold)
  isObject_eq i hi :=
    (h'.isObject_eq i (Nat.lt_of_lt_of_le hi h.later.size_le)).trans (h.isObject_eq i hi)
  abreast := h'.abreast

namespace Abreast

/-- Parents are kept, and new nodes are rooted. -/
lemma of_unsized (h : Abreast ρ f d e) (hunsized : Unsized ρ' f' d' e')
    (hlater : Later f d e f' d' e') (hagree : ∀ i < d.size, ρ' i = ρ i)
    (hlink : ∀ i < d.size, d'.link i = d.link i) (hlink' : ∀ i < e.size, e'.link i = e.link i)
    (hnew : ∀ i < d'.size, d.size ≤ i →
      ∃ r < d'.size, (ρ' r).isMet = true ∧ d'.Rooted r i ∧ e'.Rooted (f' r) (f' i)) :
    Abreast ρ' f' d' e' := by
  refine ⟨hunsized, fun i hi => ?_⟩
  by_cases hold : i < d.size
  · obtain ⟨r, hr, hmet, hrooted, hrooted'⟩ := h.roots i hold
    refine ⟨r, Nat.lt_of_lt_of_le hr hlater.size_le, by rwa [hagree r hr],
      hrooted.mono hr fun y hy => by rw [parent?, parent?, hlink y hy], ?_⟩
    rw [hlater.agree r hr, hlater.agree i hold]
    exact hrooted'.mono (h.lt r hr) fun y hy => by rw [parent?, parent?, hlink' y hy]
  · exact hnew i hi (Nat.le_of_not_lt hold)

variable (h : Abreast ρ f d e)
include h

lemma follows : Follows ρ f d e ρ f d e :=
  ⟨.refl f d e, fun _ _ => rfl, fun _ hi hle => absurd hi (Nat.not_lt_of_le hle), fun _ _ => rfl, h⟩

lemma moves : Moves ρ f d e d e := ⟨ρ, f, h.follows⟩

/-- A change of members on both sides. -/
lemma follows_changeMembers {j : NodeId} {g g' : Keyed NodeId → Keyed NodeId}
    (hunsized : Unsized ρ f (d.changeMembers i g) (e.changeMembers j g')) :
    Follows ρ f d e ρ f (d.changeMembers i g) (e.changeMembers j g') := by
  have hlater : Later f d e f (d.changeMembers i g) (e.changeMembers j g') :=
    .of_size_eq size_changeMembers size_changeMembers
  have hnone {x : NodeId} (hx : x < (d.changeMembers i g).size) (hle : d.size ≤ x) : False :=
    absurd (size_changeMembers ▸ hx) (Nat.not_lt_of_le hle)
  exact ⟨hlater, fun _ _ => rfl, fun _ hx hle => (hnone hx hle).elim,
    fun x _ => isObject_changeMembers g,
    h.of_unsized hunsized hlater (fun _ _ => rfl) (fun _ _ => link_changeMembers)
      (fun _ _ => link_changeMembers) fun _ hx hle => (hnone hx hle).elim⟩

/-- A new node and its image below a node and its image. -/
lemma follows_alloc (hn : Joins ρ f d role n n') (hn' : ∀ c ∈ n'.children, c < e.size)
    (hrole : role = .value ∨ role = .list) (hi : i < d.size) :
    Follows ρ f d e (Function.update ρ d.size role) (Function.update f d.size e.size)
      (d.alloc n (.under i)).2 (e.alloc n' (.under (f i))).2 := by
  have hagree : ∀ j < d.size, Function.update ρ d.size role j = ρ j :=
    fun j hj => Function.update_of_ne (Nat.ne_of_lt hj) _ _
  have hlater : Later f d e (Function.update f d.size e.size) (d.alloc n (.under i)).2
      (e.alloc n' (.under (f i))).2 := later_alloc
  have hlink : ∀ j < d.size, (d.alloc n (.under i)).2.link j = d.link j := fun j hj => by
    rw [link_alloc, if_neg (Nat.ne_of_lt hj)]
  have hlink' : ∀ j < e.size, (e.alloc n' (.under (f i))).2.link j = e.link j := fun j hj => by
    rw [link_alloc, if_neg (Nat.ne_of_lt hj)]
  have hself {j : NodeId} (hj : j < (d.alloc n (.under i)).2.size) (hle : d.size ≤ j) :
      j = d.size := Nat.le_antisymm (Nat.lt_succ_iff.mp (hj.trans_eq size_alloc)) hle
  refine ⟨hlater, hagree, fun j hj hle => ?_, fun j hj => ?_,
    h.of_unsized (h.alloc hn hn' (fun p hp => Link.under.inj hp ▸ hi)
      fun p hp => Link.under.inj hp ▸ h.lt i hi) hlater hagree hlink hlink' fun j hj hle => ?_⟩
  · rw [hself hj hle, Function.update_self]
    exact hrole
  · rw [isObject, isObject, members?, members?, node_alloc, if_neg (Nat.ne_of_lt hj)]
  · -- the new node is below one that is rooted
    obtain ⟨r, hr, hmet, hrooted, hrooted'⟩ := h.roots i hi
    refine ⟨r, Nat.lt_of_lt_of_le hr hlater.size_le, by rwa [hagree r hr],
      .under (p := i) ?_ (hrooted.mono hr fun y hy => by rw [parent?, parent?, hlink y hy]),
      .under (p := f i) ?_ ?_⟩
    · rw [hself hj hle, parent?, link_alloc, if_pos rfl]
    · rw [hself hj hle, Function.update_self, parent?, link_alloc, if_pos rfl]
    · rw [hlater.agree r hr]
      exact hrooted'.mono (h.lt r hr) fun y hy => by rw [parent?, parent?, hlink' y hy]

variable (hi : i < d.size) (hobject : d.isObject i = true)
include hi hobject

lemma erase (hkey : key ∉ sizeKeys) (hkeys : key ∉ ["type", "items"]) :
    Moves ρ f d e (d.erase i key) (e.erase (f i) key) :=
  ⟨ρ, f, h.follows_changeMembers
    (h.toUnsized.erase hi hobject (Role.keeps_of_not_mem hkey) hkeys)⟩

lemma rename {source target : String} (hsource : source ∉ sizeKeys) (htarget : target ∉ sizeKeys)
    (hkeys : source ∉ ["type", "items"])
    (hsuits : ∀ c, d.get? i source = some c → d.Suits ρ ((ρ i).site.members target) c) :
    Moves ρ f d e (d.rename i source target) (e.rename (f i) source target) := by
  have hunsized := h.toUnsized.rename hi hobject (Role.keeps_of_not_mem hsource)
    (Role.keeps_of_not_mem htarget) hkeys hsuits
  have hcan : e.canRename (f i) source target = d.canRename i source target := by
    rw [canRename, canRename, (h.tells hi).has_eq _ hsource, (h.tells hi).has_eq _ htarget]
  rw [Document.rename, Document.rename, hcan] at hunsized ⊢
  by_cases hrenames : d.canRename i source target = true
  · rw [if_pos hrenames, if_pos hrenames] at hunsized ⊢
    exact ⟨ρ, f, h.follows_changeMembers hunsized⟩
  · rw [if_neg hrenames, if_neg hrenames]
    exact h.moves

/-- A new node under a key on both sides. -/
lemma setNew (hn : Joins ρ f d role n n') (hn' : ∀ c ∈ n'.children, c < e.size)
    (hrole : role = .value ∨ role = .list) (hkey : key ∉ sizeKeys)
    (hsuits : ∃ sized, role = ((ρ i).site.members key).role sized n) :
    Moves ρ f d e ((d.alloc n (.under i)).2.set i key d.size)
      ((e.alloc n' (.under (f i))).2.set (f i) key e.size) := by
  have halloc := h.follows_alloc hn hn' hrole hi
  have hset := halloc.abreast.toUnsized.set (Nat.lt_of_lt_of_le hi halloc.later.size_le)
    ((halloc.isObject_eq i hi).trans hobject) (Role.keeps_of_not_mem hkey)
    (c := d.size) lt_size_alloc (by
      obtain ⟨sized, hsized⟩ := hsuits
      refine ⟨sized, ?_⟩
      rw [Function.update_self, halloc.agree i hi, node_alloc_self]
      exact hsized)
  rw [halloc.later.agree i hi, Function.update_self] at hset
  exact ⟨_, _, halloc.trans (halloc.abreast.follows_changeMembers hset)⟩

lemma setList {items : List NodeId} (hkey : key ∉ sizeKeys)
    (hitems : ∀ c ∈ items, c < d.size ∧ d.Suits ρ ((ρ i).site.members key).items c) :
    Moves ρ f d e (d.setList i key items) (e.setList (f i) key (items.map f)) := by
  refine h.setNew hi hobject (joins_array _ hitems) (fun c hc => ?_) ?_ hkey ⟨false, rfl⟩
  · obtain ⟨c', hc', rfl⟩ := List.mem_map.mp hc
    exact h.lt c' (hitems c' hc').1
  · cases (ρ i).site.members key <;> simp [Site.role]

lemma setScalar (value : Json.Scalar) (hkey : key ∉ sizeKeys) :
    Moves ρ f d e (d.setValue i key (.scalar value)) (e.setValue (f i) key (.scalar value)) := by
  have hrole : ((ρ i).site.members key).role false (.leaf value) = .value := by
    cases (ρ i).site.members key <;> rfl
  rw [setScalar_eq, setScalar_eq]
  exact h.setNew hi hobject (joins_leaf _ value) (fun c hc => by cases hc) (.inl hrole) hkey
    ⟨false, rfl⟩

end Abreast

end SchemaDecl.Document
