/-
The documents of a value and of the value without bounds.

Both values are inserted side by side. What is left out of the one is inserted on the other side
alone.

* `Document.describesArrays_insert`: an object is an array schema if its node is.
* `Document.holds_insert`: all nodes of a value are held by its root.
* `Unsized.insert`: the two documents.
-/
import SchemaDecl.Proofs.Document.NormalForm
import SchemaDecl.Proofs.Document.Spanning
import SchemaDecl.Proofs.Unbounded.Schemas

namespace SchemaDecl.Document

variable {d e d' e' d'' e'' : Document} {ρ ρ' ρ'' : NodeId → Role} {f f' f'' : NodeId → NodeId}
  {root i c x : NodeId} {key : String} {role : Role} {site : Site} {n n' : Node}

/-! ### The nodes of one value -/

lemma node_insert_scalar (value : Json.Scalar) (d : Document) :
    (d.insert (.scalar value)).2.node (d.insert (.scalar value)).1 = .leaf value := node_alloc_self

lemma node_insert_array (items : List Json) (d : Document) :
    (d.insert (.array items)).2.node (d.insert (.array items)).1
      = .array (d.insertItems items).1 := node_alloc_self

lemma node_insert_object (members : Keyed Json) (d : Document) :
    (d.insert (.object members)).2.node (d.insert (.object members)).1
      = .object (d.insertMembers members).1 := node_alloc_self

/-- A member is inserted in its turn, and stays as it is. -/
lemma exists_get?_insertMembers {value : Json} {members : Keyed Json}
    (hget : Keyed.get? members key = some value) (d : Document) :
    ∃ d₁ : Document, Keyed.get? (d.insertMembers members).1 key = some (d₁.insert value).1 ∧
      (d₁.insert value).2.Extends (d.insertMembers members).2 := by
  induction members generalizing d with
  | nil => cases hget
  | cons member members ih =>
      obtain ⟨k, v⟩ := member
      rw [Keyed.get?, List.lookup_cons] at hget
      rw [insertMembers_cons, Keyed.get?, List.lookup_cons]
      cases hk : key == k with
      | true =>
          rw [hk] at hget
          obtain rfl := Option.some.inj hget
          exact ⟨d, rfl, (sprouts_insertMembers members _).1.toExtends⟩
      | false =>
          rw [hk] at hget
          exact ih hget _

/-- The strings among the items of a list. -/
lemma filterMap_insertItems (items : List Json) (d : Document) :
    (d.insertItems items).1.filterMap (d.insertItems items).2.leafString?
      = items.filterMap fun item => item.scalar?.bind Json.Scalar.string? := by
  induction items generalizing d with
  | nil => rfl
  | cons item items ih =>
      obtain ⟨-, -, hlt, hleaf⟩ := sprouts_insert item d
      have hextends := (sprouts_insertItems items (d.insert item).2).1.toExtends
      have hfirst : ((d.insert item).2.insertItems items).2.leafString? (d.insert item).1
          = item.scalar?.bind Json.Scalar.string? := by
        rw [hextends.leafString?_eq hlt, leafString?, hleaf]
        rfl
      rw [insertItems_cons, List.filterMap_cons, List.filterMap_cons, hfirst, ih]

lemma contains_filterMap {α : Type} (l : List α) (g : α → Option String) (name : String) :
    (l.filterMap g).contains name = l.any fun a => g a == some name := by
  induction l with
  | nil => rfl
  | cons a l ih =>
      rw [List.filterMap_cons, List.any_cons, ← ih]
      cases g a with
      | none => simp
      | some b => rw [List.contains_cons, Option.some_beq_some, Bool.beq_comm]

lemma hasType_insert (members : Keyed Json) (name : String) (d : Document) :
    (d.insert (.object members)).2.hasType (d.insert (.object members)).1 name
      = Json.namesType members name := by
  obtain ⟨-, -, hmirrors⟩ := sprouts_insertMembers members d
  have hnode := node_insert_object members d
  have hgrows : (d.insertMembers members).2.Extends (d.insert (.object members)).2 :=
    Sprouts.extends_alloc _ _
  rw [hasType, string?, scalar?, strings, listAt, get?_of_node hnode, Json.namesType]
  cases hget : Keyed.get? members "type" with
  | none =>
      have hnone : Keyed.get? (d.insertMembers members).1 "type" = none := by
        rw [Keyed.get?_eq_none_iff, hmirrors.keys_eq, ← Keyed.get?_eq_none_iff, hget]
      rw [hnone]
      rfl
  | some value =>
      obtain ⟨d₁, hentry, hextends⟩ := exists_get?_insertMembers hget d
      obtain ⟨-, -, hlt, hleaf⟩ := sprouts_insert value d₁
      have hextends := hextends.trans hgrows
      have hleaf' := (hextends.leaf?_eq hlt).trans hleaf
      have hitems : (d.insert (.object members)).2.items? (d₁.insert value).1
          = (d₁.insert value).2.items? (d₁.insert value).1 := by
        rw [items?, items?, hextends.node_eq hlt]
      rw [hentry]
      dsimp only [Option.bind_eq_bind, Option.bind_some]
      rw [hleaf', hitems]
      cases value with
      | scalar value =>
          have hnone :
              (d₁.insert (.scalar value)).2.items? (d₁.insert (.scalar value)).1 = none := by
            rw [items?, node_insert_scalar]
          rw [hnone]
          simp [Json.scalar?]
      | array items =>
          have hsome : (d₁.insert (.array items)).2.items? (d₁.insert (.array items)).1
              = some (d₁.insertItems items).1 := by
            rw [items?, node_insert_array]
          have hstrings :
              (d₁.insertItems items).1.filterMap (d.insert (.object members)).2.leafString?
              = items.filterMap fun item => item.scalar?.bind Json.Scalar.string? := by
            rw [← filterMap_insertItems items d₁]
            refine List.filterMap_congr fun c hc => ?_
            have hgrows₁ : (d₁.insertItems items).2.Extends (d.insert (.object members)).2 :=
              (Sprouts.extends_alloc _ _).trans hextends
            exact hgrows₁.leafString?_eq ((sprouts_insertItems items d₁).2 c hc).2
          rw [hsome, Option.getD_some, hstrings, contains_filterMap]
          simp [Json.scalar?]
      | object members =>
          have hnone : (d₁.insert (.object members)).2.items? (d₁.insert (.object members)).1
              = none := by
            rw [items?, node_insert_object]
          rw [hnone]
          simp [Json.scalar?]

/-- **An object of a value is an array schema if its node is one.** -/
lemma describesArrays_insert (members : Keyed Json) (d : Document) :
    (d.insert (.object members)).2.describesArrays (d.insert (.object members)).1
      = Json.describesArrays members := by
  have hnode := node_insert_object members d
  rw [describesArrays, Json.describesArrays, hasType_insert, has, get?_of_node hnode, ← Keyed.has,
    Keyed.has_eq_of_keys_eq (sprouts_insertMembers members d).2.2.keys_eq]

lemma Extends.holds (h : d.Extends d') (hx : d.Holds x c) : d'.Holds x c := by
  rw [Holds, h.node_eq (lt_size_of_mem_children hx)]
  exact hx

lemma Extends.reflTransGen_holds (h : d.Extends d') (hx : Relation.ReflTransGen d.Holds x c) :
    Relation.ReflTransGen d'.Holds x c :=
  Relation.ReflTransGen.mono (fun _ _ => h.holds) _ _ hx

mutual

/-- **All nodes of a value are held by its root**, directly or not. -/
lemma holds_insert : (value : Json) → {d : Document} → {i : NodeId} → d.size ≤ i →
    i < (d.insert value).2.size →
    Relation.ReflTransGen (d.insert value).2.Holds (d.insert value).1 i
  | .scalar value, d, i, hle, hlt => by
      obtain rfl : i = d.size :=
        Nat.le_antisymm (Nat.lt_succ_iff.mp (hlt.trans_eq size_alloc)) hle
      exact .refl
  | .array items, d, i, hle, hlt => by
      rcases Nat.lt_succ_iff_lt_or_eq.mp (hlt.trans_eq size_alloc) with hold | rfl
      · obtain ⟨c, hc, hpath⟩ := holds_insertItems items hle hold
        refine .head ?_ ((Sprouts.extends_alloc _ _).reflTransGen_holds hpath)
        rw [Holds, node_insert_array]
        exact hc
      · exact .refl
  | .object members, d, i, hle, hlt => by
      rcases Nat.lt_succ_iff_lt_or_eq.mp (hlt.trans_eq size_alloc) with hold | rfl
      · obtain ⟨entry, hentry, hpath⟩ := holds_insertMembers members hle hold
        refine .head ?_ ((Sprouts.extends_alloc _ _).reflTransGen_holds hpath)
        rw [Holds, node_insert_object]
        exact List.mem_map_of_mem hentry
      · exact .refl

lemma holds_insertItems : (items : List Json) → {d : Document} → {i : NodeId} → d.size ≤ i →
    i < (d.insertItems items).2.size →
    ∃ c ∈ (d.insertItems items).1, Relation.ReflTransGen (d.insertItems items).2.Holds c i
  | [], d, i, hle, hlt => absurd hle (Nat.not_le_of_lt hlt)
  | item :: rest, d, i, hle, hlt => by
      rw [insertItems_cons] at hlt ⊢
      by_cases hold : i < (d.insert item).2.size
      · exact ⟨_, List.mem_cons_self, (sprouts_insertItems rest _).1.toExtends.reflTransGen_holds
          (holds_insert item hle hold)⟩
      · obtain ⟨c, hc, hpath⟩ := holds_insertItems rest (Nat.le_of_not_lt hold) hlt
        exact ⟨c, List.mem_cons_of_mem _ hc, hpath⟩

lemma holds_insertMembers : (members : List (String × Json)) → {d : Document} → {i : NodeId} →
    d.size ≤ i → i < (d.insertMembers members).2.size →
    ∃ entry ∈ (d.insertMembers members).1,
      Relation.ReflTransGen (d.insertMembers members).2.Holds entry.2 i
  | [], d, i, hle, hlt => absurd hle (Nat.not_le_of_lt hlt)
  | (key, value) :: rest, d, i, hle, hlt => by
      rw [insertMembers_cons] at hlt ⊢
      by_cases hold : i < (d.insert value).2.size
      · exact ⟨_, List.mem_cons_self, (sprouts_insertMembers rest _).1.toExtends.reflTransGen_holds
          (holds_insert value hle hold)⟩
      · obtain ⟨entry, hentry, hpath⟩ := holds_insertMembers rest (Nat.le_of_not_lt hold) hlt
        exact ⟨entry, List.mem_cons_of_mem _ hentry, hpath⟩

end

/-! ### The nodes of both values -/

/-- Two documents that differ in bounds have grown, and still do. -/
structure Grown (ρ : NodeId → Role) (f : NodeId → NodeId) (d e : Document) (ρ' : NodeId → Role)
    (f' : NodeId → NodeId) (d' e' : Document) : Prop where
  later : Later f d e f' d' e'
  recast : Recast ρ d ρ' d'
  unsized : Unsized ρ' f' d' e'
  marked : Marked ρ' d'

namespace Grown

lemma refl (h : Unsized ρ f d e) (hm : Marked ρ d) : Grown ρ f d e ρ f d e :=
  ⟨.refl f d e, .refl ρ d, h, hm⟩

lemma trans (h : Grown ρ f d e ρ' f' d' e') (h' : Grown ρ' f' d' e' ρ'' f'' d'' e'') :
    Grown ρ f d e ρ'' f'' d'' e'' :=
  ⟨h.later.trans h'.later, h.recast.trans h'.recast, h'.unsized, h'.marked⟩

end Grown

lemma suits_alloc {sized : Bool} : (d.alloc n).2.Suits
    (Function.update ρ d.size (site.role sized n)) site (d.alloc n).1 :=
  ⟨sized, (Function.update_self ..).trans (congrArg (site.role sized) node_alloc_self.symm)⟩

lemma Marked.extends (h : Marked ρ d) (hd : d.Closed) (hextends : d.Extends d')
    (hagree : ∀ i < d.size, ρ' i = ρ i)
    (hnew : ∀ i, d.size ≤ i → i < d'.size → ∀ sized, ρ' i = .schema sized →
      d'.describesArrays i = sized) : Marked ρ' d' := by
  intro i hi sized hrole
  by_cases hold : i < d.size
  · rw [hagree i hold] at hrole
    rw [hextends.alters.describesArrays_eq hd (hextends.get?_eq hold) (hextends.has_eq hold)]
    exact h i hold sized hrole
  · exact hnew i (Nat.le_of_not_lt hold) hi sized hrole

/-- The node of an array schema has a type or items, with bounds or without. -/
lemma has_type_or_items {members : Keyed Json} {entries entries' : Keyed NodeId}
    (hkeys : entries'.map Prod.fst = members.map Prod.fst)
    (heq : entries'.filter (fun entry => role.keeps entry.1)
      = entries.map fun entry => (entry.1, f entry.2))
    (harrays : Json.describesArrays members = true) :
    Keyed.has entries "type" = true ∨ Keyed.has entries "items" = true := by
  have hhas {key : String} (hkey : key ∉ sizeKeys) :
      Keyed.has entries key = Keyed.has members key := by
    rw [← Keyed.has_eq_of_keys_eq hkeys, Keyed.has, Keyed.has, ← Option.isSome_map (f := f),
      ← Keyed.get?_map, ← heq, Keyed.get?_filter fun _ => Role.keeps_of_not_mem hkey]
  rw [Json.describesArrays, Bool.or_eq_true] at harrays
  refine harrays.imp (fun hnames => ?_) fun hitems => (hhas (by decide)).trans hitems
  rw [hhas (by decide), Keyed.has]
  rw [Json.namesType] at hnames
  cases hget : Keyed.get? members "type" with
  | none => simp [hget] at hnames
  | some value => rfl

namespace Unsized

/-- A new node on both sides; if it is a schema, it has the mark if it is an array schema. -/
lemma grown_alloc (h : Unsized ρ f d e) (hm : Marked ρ d) (hn : Joins ρ f d role n n')
    (hn' : ∀ c ∈ n'.children, c < e.size)
    (hmark : ∀ sized, role = .schema sized → (d.alloc n).2.describesArrays d.size = sized) :
    Grown ρ f d e (Function.update ρ d.size role) (Function.update f d.size e.size) (d.alloc n).2
      (e.alloc n').2 := by
  have hagree : ∀ i < d.size, Function.update ρ d.size role i = ρ i :=
    fun i hi => Function.update_of_ne (Nat.ne_of_lt hi) _ _
  refine ⟨later_alloc, ?_, h.alloc hn hn' (by simp) (by simp), ?_⟩
  · refine .of_node_eq (by rw [size_alloc]; exact Nat.le_succ _) hagree fun i hi => ?_
    rw [node_alloc, if_neg (Nat.ne_of_lt hi)]
  · refine hm.extends h.left (Sprouts.extends_alloc d n) hagree fun i hle hi sized hrole => ?_
    rw [size_alloc] at hi
    obtain rfl : i = d.size := by omega
    rw [Function.update_self] at hrole
    exact hmark sized hrole

/-- A value is inserted on one side alone. -/
lemma grown_right (h : Unsized ρ f d e) (hm : Marked ρ d) (value : Json) :
    Grown ρ f d e ρ f d (e.insert value).2 := by
  have hkeeps := (keeps_insert value h.right).1
  have hextends := (sprouts_insert value e).1.toExtends
  refine ⟨⟨Nat.le_refl _, hkeeps.size_le, fun _ _ => rfl,
    fun _ hi hle => absurd hi (Nat.not_lt_of_le hle)⟩, .refl ρ d, ?_, hm⟩
  exact h.right_of_node hkeeps.closed hkeeps.size_le fun i hi => .inl (hextends.node_eq (h.lt i hi))

mutual

/-- **A value and the value without bounds**, inserted side by side at a place. -/
lemma insert : (value : Json) → (site : Site) → {ρ : NodeId → Role} → {f : NodeId → NodeId} →
    {d e : Document} → Unsized ρ f d e → Marked ρ d →
    ∃ ρ' f', Grown ρ f d e ρ' f' (d.insert (value.unbounded site)).2 (e.insert value).2 ∧
      f' (d.insert (value.unbounded site)).1 = (e.insert value).1 ∧
      (d.insert (value.unbounded site)).2.Suits ρ' site (d.insert (value.unbounded site)).1
  | .scalar value, site, ρ, f, d, e, h, hm => by
      rw [Json.unbounded, Document.insert, Document.insert]
      exact ⟨_, _, h.grown_alloc hm (joins_leaf site value) (fun c hc => by cases hc)
        (fun _ hl => by cases site <;> cases hl), Function.update_self .., suits_alloc⟩
  | .array items, site, ρ, f, d, e, h, hm => by
      obtain ⟨ρ₁, f₁, hgrown, hids, hsuits⟩ := insertItems items site.items h hm
      rw [Json.unbounded, insert_array, insert_array]
      generalize hleft : d.insertItems (Json.unboundedItems site.items items) = left at *
      generalize hright : e.insertItems items = right at *
      obtain ⟨ids, d₁⟩ := left
      obtain ⟨ids', e₁⟩ := right
      obtain rfl : ids' = ids.map f₁ := hids
      refine ⟨_, _, hgrown.trans (hgrown.unsized.grown_alloc hgrown.marked
        (joins_array site hsuits) (fun c hc => ?_) fun sized hl => ?_), Function.update_self ..,
        suits_alloc⟩
      · obtain ⟨c', hc', rfl⟩ := List.mem_map.mp hc
        exact hgrown.unsized.lt c' (hsuits c' hc').1
      · cases site <;> cases hl
  | .object members, site, ρ, f, d, e, h, hm => by
      have harrays := describesArrays_insert members e
      obtain ⟨ρ₁, f₁, hgrown, heq, hsuits⟩ := insertMembers members site.members
        (fun key => !(site.isSized members && sizeKeys.contains key)) h hm
      rw [Json.unbounded, insert_object, insert_object]
      rw [insert_object] at harrays
      have hlt' := (sprouts_insertMembers members e).2.1
      have hkeys := (sprouts_insertMembers members e).2.2.keys_eq
      generalize hleft : d.insertMembers ((Json.unboundedMembers site.members members).filter
        fun entry => !(site.isSized members && sizeKeys.contains entry.1)) = left at *
      generalize hright : e.insertMembers members = right at *
      obtain ⟨entries, d₁⟩ := left
      obtain ⟨entries', e₁⟩ := right
      replace heq : entries'.filter (fun entry =>
          (site.role (site.isSized members) (.object entries)).keeps entry.1)
          = entries.map fun entry => (entry.1, f₁ entry.2) := by
        simpa only [Site.keeps_role] using heq
      have hjoins : Joins ρ₁ f₁ d₁ (site.role (site.isSized members) (.object entries))
          (.object entries) (.object entries') := by
        refine ⟨fun c hc => ?_, ⟨site, _, rfl⟩, (fun _ hl => by cases hl), ?_, (fun hl => ?_), ?_,
          fun hl => ⟨entries, rfl, has_type_or_items hkeys heq ?_⟩⟩
        · obtain ⟨entry, hentry, rfl⟩ := List.mem_map.mp hc
          exact (hsuits entry hentry).1
        · rintro _ ⟨⟩ entry hentry
          rw [Site.members_role]
          exact (hsuits entry hentry).2
        · exact absurd rfl (hl entries)
        · rintro _ ⟨⟩
          exact ⟨entries', rfl, heq⟩
        · have hsized : site.isSized members = true := by
            cases site <;> simp [Site.role] at hl <;> exact hl
          rw [Site.isSized, Bool.and_eq_true] at hsized
          exact hsized.2
      have hchildren (c : NodeId) (hc : c ∈ (Node.object entries').children) : c < e₁.size := by
        obtain ⟨entry, hentry, rfl⟩ := List.mem_map.mp hc
        exact (hlt' entry hentry).2
      have halloc : Unsized _ _ (d₁.alloc (.object entries)).2 (e₁.alloc (.object entries')).2 :=
        hgrown.unsized.alloc hjoins hchildren (by simp) (by simp)
      refine ⟨_, _, hgrown.trans (hgrown.unsized.grown_alloc hgrown.marked hjoins hchildren
        fun sized hl => ?_), Function.update_self .., suits_alloc⟩
      -- the mark is read off the value, and off the node on the other side
      have hnew : d₁.size < (d₁.alloc (.object entries)).2.size := lt_size_alloc
      have hsame := halloc.tells hnew
      have himage : Function.update f₁ d₁.size e₁.size d₁.size = e₁.size := Function.update_self ..
      have htype := halloc.outline.hasType_eq hsame "array"
      have hitems := hsame.has_eq "items" (by decide)
      rw [himage] at htype hitems
      rw [describesArrays, ← htype, ← hitems]
      refine harrays.trans ?_
      cases site <;> simp [Site.role, Site.isSized, Site.isSchema] at hl <;> exact hl

lemma insertItems : (items : List Json) → (site : Site) → {ρ : NodeId → Role} →
    {f : NodeId → NodeId} → {d e : Document} → Unsized ρ f d e → Marked ρ d →
    ∃ ρ' f', Grown ρ f d e ρ' f' (d.insertItems (Json.unboundedItems site items)).2
        (e.insertItems items).2 ∧
      (e.insertItems items).1 = (d.insertItems (Json.unboundedItems site items)).1.map f' ∧
      ∀ c ∈ (d.insertItems (Json.unboundedItems site items)).1,
        c < (d.insertItems (Json.unboundedItems site items)).2.size ∧
        (d.insertItems (Json.unboundedItems site items)).2.Suits ρ' site c
  | [], site, ρ, f, d, e, h, hm => by
      rw [Json.unboundedItems, Document.insertItems, Document.insertItems]
      exact ⟨ρ, f, .refl h hm, rfl, fun _ hc => by cases hc⟩
  | item :: rest, site, ρ, f, d, e, h, hm => by
      obtain ⟨ρ₁, f₁, hgrown, himage, hsuits⟩ := insert item site h hm
      obtain ⟨ρ₂, f₂, hgrown', hids, hsuits'⟩ := insertItems rest site hgrown.unsized hgrown.marked
      have hlt := (sprouts_insert (item.unbounded site) d).2.2.1
      rw [Json.unboundedItems, insertItems_cons, insertItems_cons]
      refine ⟨ρ₂, f₂, hgrown.trans hgrown', ?_, List.forall_mem_cons.mpr ⟨⟨?_, ?_⟩, hsuits'⟩⟩
      · rw [List.map_cons, hids, hgrown'.later.agree _ hlt, himage]
      · exact Nat.lt_of_lt_of_le hlt hgrown'.later.size_le
      · exact hgrown'.recast.suits hlt hsuits

lemma insertMembers : (members : List (String × Json)) → (site : String → Site) →
    (p : String → Bool) → {ρ : NodeId → Role} → {f : NodeId → NodeId} → {d e : Document} →
    Unsized ρ f d e → Marked ρ d →
    ∃ ρ' f', Grown ρ f d e ρ' f'
        (d.insertMembers ((Json.unboundedMembers site members).filter fun entry => p entry.1)).2
        (e.insertMembers members).2 ∧
      (e.insertMembers members).1.filter (fun entry => p entry.1)
        = (d.insertMembers ((Json.unboundedMembers site members).filter
          fun entry => p entry.1)).1.map (fun entry => (entry.1, f' entry.2)) ∧
      ∀ entry ∈ (d.insertMembers ((Json.unboundedMembers site members).filter
          fun entry => p entry.1)).1,
        entry.2 < (d.insertMembers ((Json.unboundedMembers site members).filter
          fun entry => p entry.1)).2.size ∧
        (d.insertMembers ((Json.unboundedMembers site members).filter
          fun entry => p entry.1)).2.Suits ρ' (site entry.1) entry.2
  | [], site, p, ρ, f, d, e, h, hm => by
      rw [Json.unboundedMembers, List.filter_nil, Document.insertMembers, Document.insertMembers]
      exact ⟨ρ, f, .refl h hm, rfl, fun _ hc => by cases hc⟩
  | (key, value) :: rest, site, p, ρ, f, d, e, h, hm => by
      rw [Json.unboundedMembers, insertMembers_cons]
      cases hp : p key with
      | true =>
          obtain ⟨ρ₁, f₁, hgrown, himage, hsuits⟩ := insert value (site key) h hm
          obtain ⟨ρ₂, f₂, hgrown', hids, hsuits'⟩ :=
            insertMembers rest site p hgrown.unsized hgrown.marked
          have hlt := (sprouts_insert (value.unbounded (site key)) d).2.2.1
          rw [List.filter_cons_of_pos (by exact hp), insertMembers_cons,
            List.filter_cons_of_pos (by exact hp)]
          refine ⟨ρ₂, f₂, hgrown.trans hgrown', ?_, List.forall_mem_cons.mpr ⟨⟨?_, ?_⟩, hsuits'⟩⟩
          · rw [List.map_cons, hids, hgrown'.later.agree _ hlt, himage]
          · exact Nat.lt_of_lt_of_le hlt hgrown'.later.size_le
          · exact hgrown'.recast.suits hlt hsuits
      | false =>
          have hgrown := h.grown_right hm value
          obtain ⟨ρ₂, f₂, hgrown', hids, hsuits'⟩ :=
            insertMembers rest site p hgrown.unsized hgrown.marked
          rw [List.filter_cons_of_neg (by simp [hp]), List.filter_cons_of_neg (by simp [hp])]
          exact ⟨ρ₂, f₂, hgrown.trans hgrown', hids, hsuits'⟩

end

end Unsized

end SchemaDecl.Document
