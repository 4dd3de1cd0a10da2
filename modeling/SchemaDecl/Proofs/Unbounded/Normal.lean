/-
The normal form without bounds.

Bringing a schema to normal form goes with the same at its image, apart from the bounds of arrays:
they are ignored on both sides, or there are none on the side where they count.

* `Document.Upheld`: the root holds all objects, and still does when keywords have been spelled
  anew.
* `Document.Alongside`: a step at a schema and at its image that keeps documents abreast.
* `Document.alongside_normalizeSpelling`, `Document.alongside_describe`: the steps to the normal
  form that have nothing to do with bounds.
* `Document.Boundless`: an array schema allows any number of items.
* `Abreast.boundArrays`: the step that has to do with bounds.
* `Abreast.respelled`, `Abreast.contents`: all schemas of both documents.
-/
import SchemaDecl.Proofs.Unbounded.Abreast

namespace SchemaDecl.Document

variable {s : Settings} {d e d' e' : Document} {ρ ρ' : NodeId → Role} {f f' : NodeId → NodeId}
  {root root' i c x : NodeId} {key : String} {keys : List String} {site : Site} {sized : Bool}
  {step step' step₁ step₁' : Document → NodeId → Document}

/-! ### What the root holds -/

/-- The root holds all objects, directly or not. -/
def Upheld (d : Document) (root : NodeId) : Prop :=
  ∀ x, d.isObject x = true → Relation.ReflTransGen d.Holds root x

namespace Upheld

/-- A step at one schema leaves the root holding all objects if the members that it touches are held
as before, or hold nothing and are no objects. -/
lemma of_altersAt (h : d.Upheld root) (hdistinct : d.Distinct) (halters : d.AltersAt d' i keys)
    (hobject : ∀ x, d'.isObject x = d.isObject x)
    (hkeys : ∀ key ∈ keys, ∀ c, d.get? i key = some c →
      Relation.ReflTransGen d'.Holds i c ∨ (d.node c).children = [] ∧ d.isObject c = false) :
    d'.Upheld root := by
  have hpath (y : NodeId) (hy : Relation.ReflTransGen d.Holds root y) :
      Relation.ReflTransGen d'.Holds root y ∨ (d.node y).children = [] ∧ d.isObject y = false := by
    induction hy with
    | refl => exact .inl .refl
    | @tail a c _ hac ih =>
        rcases ih with ha | ⟨hnone, -⟩
        case inr =>
          rw [Holds, hnone] at hac
          cases hac
        have hlt := lt_size_of_mem_children hac
        have hsame (hnode : d'.node a = d.node a) : d'.Holds a c := by
          rw [Holds, hnode]
          exact hac
        by_cases hai : a = i
        case neg => exact .inl (ha.tail (hsame (halters.node_eq a hlt hai)))
        subst hai
        cases hmembers : d.isObject a with
        | false => exact .inl (ha.tail (hsame (halters.plain a hlt hmembers)))
        | true =>
            obtain ⟨entries, hnode⟩ := exists_members_of_isObject hmembers
            rw [Holds, hnode] at hac
            obtain ⟨entry, hentry, rfl⟩ := List.mem_map.mp hac
            have hget := get?_of_mem (hdistinct a) hnode hentry
            by_cases hkey : entry.1 ∈ keys
            · exact (hkeys entry.1 hkey entry.2 hget).imp_left ha.trans
            · rw [← halters.get?_eq a hlt entry.1 hkey] at hget
              exact .inl (ha.tail (mem_children_of_get? hget))
  intro x hx
  rw [hobject] at hx
  refine (hpath x (h x hx)).resolve_right fun hempty => ?_
  rw [hx] at hempty
  cases hempty.2

variable (h : d.Upheld root) (hdistinct : d.Distinct)
include h hdistinct

lemma rename {source target : String} (hne : source ≠ target) :
    (d.rename i source target).Upheld root := by
  refine h.of_altersAt hdistinct (altersAt_rename d i source target) (fun _ => isObject_rename)
    fun key hkey c hc => .inl ?_
  by_cases hcan : d.canRename i source target = true
  case neg =>
    rw [Document.rename, if_neg hcan]
    exact .single (mem_children_of_get? hc)
  -- only the source is there, and it is found under the target
  obtain ⟨entries, hnode⟩ := exists_members_of_isObject (isObject_of_get? hc)
  have hfree : Keyed.get? entries target = none := by
    rw [canRename, Bool.and_eq_true, has, has, get?_of_node hnode, get?_of_node hnode] at hcan
    simpa using hcan.2
  have hentries : Keyed.Distinct entries := by
    have hat := hdistinct i
    rwa [DistinctAt, members?_of_node hnode] at hat
  rw [get?_of_node hnode] at hc
  have hsource : key = source := by
    rcases List.mem_pair.mp hkey with rfl | rfl
    · rfl
    · rw [hfree] at hc
      cases hc
  have htarget : (d.rename i source target).get? i target = some c := by
    rw [Document.rename, if_pos hcan, get?_of_node (node_changeMembers hnode _),
      (Keyed.Distinct.get?_rename hentries hne hfree).1, ← hsource, hc]
  exact .single (mem_children_of_get? htarget)

lemma canonicalKeywords (hd : d.Closed) (hi : i < d.size) :
    (d.canonicalKeywords i).Upheld root := by
  rw [Document.canonicalKeywords]
  split
  · refine (h.rename hdistinct (by decide)).rename ?_ (by decide)
    exact (thins_rename hd hdistinct hi (by simp) (fun m => by simp [held, knownKeywords])
      (by simp)).distinct
  · exact h.rename hdistinct (by decide)

lemma wrapExtends : (d.wrapExtends i).Upheld root := by
  rw [Document.wrapExtends]
  cases hget : d.get? i "extends" with
  | none => exact h
  | some extended =>
      dsimp only
      cases hitems : d.items? extended with
      | none =>
          obtain ⟨hlist, hnode⟩ := get?_setList_self (isObject_of_get? hget) "extends" [extended]
          refine h.of_altersAt hdistinct (altersAt_setList d i "extends" [extended])
            (fun _ => isObject_setList _) fun key hkey c hc => .inl ?_
          obtain rfl := List.mem_singleton.mp hkey
          obtain rfl := Option.some.inj (hget.symm.trans hc)
          refine .tail (.single (mem_children_of_get? hlist)) ?_
          rw [Holds, hnode]
          exact List.mem_singleton_self _
      | some items =>
          cases items with
          | cons first rest => exact h
          | nil =>
              refine h.of_altersAt hdistinct (altersAt_erase d i "extends")
                (fun _ => isObject_erase) fun key hkey c hc => .inr ?_
              obtain rfl := List.mem_singleton.mp hkey
              obtain rfl := Option.some.inj (hget.symm.trans hc)
              rw [items?] at hitems
              rw [isObject, members?]
              cases hnode : d.node extended <;> simp_all [Node.children]

lemma normalizeSpelling (hd : d.Closed) (hi : i < d.size) : (d.normalizeSpelling i).Upheld root :=
  (h.canonicalKeywords hdistinct hd hi).wrapExtends
    (thins_canonicalKeywords hd hdistinct hi).distinct

/-- **The root holds all objects when keywords have been spelled anew**, if it did before. -/
lemma respelled (hd : d.Closed) : (d.respelled root).Upheld root := by
  suffices hfold : d.Thins (d.respelled root) ∧ (d.respelled root).Upheld root from hfold.2
  refine List.foldlRecOn
    (motive := fun d' : Document => d.Thins d' ∧ d'.Upheld root) (d.schemaIds root) _
    ⟨.refl hd hdistinct, h⟩ fun d' hd' i hi => ?_
  have hlt := Nat.lt_of_lt_of_le (lt_size_of_mem_schemaIds hi) hd'.1.size_le
  exact ⟨hd'.1.trans (thins_normalizeSpelling hd'.1.closed hd'.1.distinct hlt),
    hd'.2.normalizeSpelling hd'.1.distinct hd'.1.closed hlt⟩

end Upheld

/-! ### Schemas are taken as schemas -/

namespace Sorted

variable (h : d.Sorted ρ)
include h

lemma isObject_of_schema (hi : i < d.size) (hrole : ρ i = .schema sized) : d.isObject i = true := by
  obtain ⟨site, hsuits⟩ := h.placed i hi
  exact hsuits.isObject_of_schema hrole

/-- A leaf suits any place. -/
lemma suits_of_leaf (hi : i < d.size) (hleaf : (d.node i).isContainer = false) :
    d.Suits ρ site i := by
  refine ⟨false, ?_⟩
  rw [h.eq_value_of_leaf hi hleaf]
  cases hnode : d.node i with
  | leaf value => cases site <;> rfl
  | _ => rw [hnode] at hleaf; cases hleaf

/-- **What is found at a position below a schema is taken as a schema.** -/
lemma exists_schema (hroot : d.Suits ρ .schema root) (hi : i ∈ d.schemaIds root) :
    ∃ sized, ρ i = .schema sized := by
  have hschema {c : NodeId} (hsuits : d.Suits ρ .schema c) (hobject : d.isObject c = true) :
      ∃ sized, ρ c = .schema sized := by
    obtain ⟨sized, hrole⟩ := hsuits
    obtain ⟨entries, hnode⟩ := exists_members_of_isObject hobject
    rw [hnode] at hrole
    exact ⟨sized, hrole⟩
  obtain ⟨hobject, hreaches⟩ := mem_schemaIds_iff.mp hi
  clear hi
  induction hreaches with
  | refl => exact hschema hroot hobject
  | @tail x c _ hedge ih =>
      obtain ⟨sized, hrole⟩ := ih
      obtain ⟨label, hedge⟩ := hedge
      obtain ⟨hposition, hc⟩ := List.mem_filter.mp hedge
      have hposition := position_iff.mpr ⟨label, hposition⟩
      obtain ⟨key, m, hmem, hheld⟩ := hposition.exists_held
      obtain ⟨entries, hnode⟩ := exists_members_of_isObject hposition.isObject
      rw [members?_of_node hnode] at hmem
      have hsuits := h.members x (lt_size_of_isObject hposition.isObject) entries hnode _ hmem
      rw [hrole] at hsuits
      exact hschema (h.suits_held hsuits (held_eq ▸ hheld)) hc

end Sorted

/-! ### Steps -/

/-- A step at a schema and at its image keeps documents abreast. The step may depend on which node
is the root. -/
structure Alongside (root root' : NodeId) (step step' : Document → NodeId → Document) : Prop where
  moves : ∀ {ρ f d e i sized}, Abreast ρ f d e → root < d.size → f root = root' → i < d.size →
    ρ i = .schema sized → Moves ρ f d e (step d i) (step' e (f i))

namespace Alongside

lemma refl : Alongside root root' (fun d _ => d) (fun e _ => e) :=
  ⟨fun h _ _ _ _ => h.moves⟩

/-- One step after another at the same schema. -/
lemma comp (h : Alongside root root' step step') (h₁ : Alongside root root' step₁ step₁') :
    Alongside root root' (fun d i => step₁ (step d i) i) (fun e i => step₁' (step' e i) i) where
  moves {ρ f d e i sized} habreast hroot hroot' hi hrole := by
    obtain ⟨ρ', f', hfollows⟩ := h.moves habreast hroot hroot' hi hrole
    have hstep := h₁.moves hfollows.abreast (Nat.lt_of_lt_of_le hroot hfollows.later.size_le)
      ((hfollows.later.agree root hroot).trans hroot')
      (Nat.lt_of_lt_of_le hi hfollows.later.size_le)
      ((hfollows.agree i hi).trans hrole)
    rw [hfollows.later.agree i hi] at hstep
    obtain ⟨ρ'', f'', hfollows'⟩ := hstep
    exact ⟨ρ'', f'', hfollows.trans hfollows'⟩

/-- One of two steps, as something says that is read off a schema and off its image alike. -/
lemma ite (r r' : Document → NodeId → Bool)
    (hr : ∀ {ρ f d e i}, Abreast ρ f d e → root < d.size → f root = root' → i < d.size →
      r' e (f i) = r d i)
    (h : Alongside root root' step step') (h₁ : Alongside root root' step₁ step₁') :
    Alongside root root' (fun d i => if r d i then step d i else step₁ d i)
      (fun e i => if r' e i then step' e i else step₁' e i) where
  moves {ρ f d e i sized} habreast hroot hroot' hi hrole := by
    rw [hr habreast hroot hroot' hi]
    split
    · exact h.moves habreast hroot hroot' hi hrole
    · exact h₁.moves habreast hroot hroot' hi hrole

end Alongside

lemma alongside_setScalar (value : Json.Scalar) (hkey : key ∉ sizeKeys) :
    Alongside root root' (fun d i => d.setValue i key (.scalar value))
      (fun e i => e.setValue i key (.scalar value)) :=
  ⟨fun h _ _ hi hrole => h.setScalar hi (h.sorted.isObject_of_schema hi hrole) value hkey⟩

/-- A string `id` becomes `$id`. -/
lemma alongside_renameId : Alongside root root'
    (fun d i => if (d.string? i "id").isSome then d.rename i "id" "$id" else d)
    (fun e i => if (e.string? i "id").isSome then e.rename i "id" "$id" else e) where
  moves {ρ f d e i sized} h _ _ hi hrole := by
    rw [h.outline.string?_eq (h.tells hi) "id" (by decide)]
    split
    case isFalse => exact h.moves
    case isTrue hstring =>
      refine h.rename hi (h.sorted.isObject_of_schema hi hrole) (by decide) (by decide) (by decide)
        fun c hc => h.sorted.suits_of_leaf (h.left.get?_lt hc) ?_
      -- what is renamed is a leaf
      rw [string?, scalar?_of_get? hc, leaf?] at hstring
      cases hnode : d.node c <;> simp_all [Node.isContainer]

/-- Definitions become `$defs`. -/
lemma alongside_renameDefinitions : Alongside root root'
    (fun d i => d.rename i "definitions" "$defs")
    (fun e i => e.rename i "definitions" "$defs") where
  moves {ρ f d e i sized} h _ _ hi hrole := by
    refine h.rename hi (h.sorted.isObject_of_schema hi hrole) (by decide) (by decide) (by decide)
      fun c hc => ?_
    have hsuits := h.sorted.suits_get? hc
    rw [hrole] at hsuits ⊢
    exact hsuits

lemma alongside_wrapExtends : Alongside root root' wrapExtends wrapExtends where
  moves {ρ f d e i sized} h _ _ hi hrole := by
    have hobject := h.sorted.isObject_of_schema hi hrole
    rw [wrapExtends, wrapExtends, h.tells hi "extends" (by decide)]
    cases hc : d.get? i "extends" with
    | none => exact h.moves
    | some c =>
        rw [Option.map_some]
        dsimp only
        rw [h.outline.items?_eq c (h.left.get?_lt hc)]
        cases hitems : d.items? c with
        | none =>
            refine h.setList hi hobject (by decide)
              (List.forall_mem_singleton.mpr ⟨h.left.get?_lt hc, ?_⟩)
            -- a single schema is one at a place for schemas
            obtain ⟨sized', hsuits⟩ := h.sorted.suits_get? hc
            rw [hrole] at hsuits ⊢
            refine ⟨sized', hsuits.trans ?_⟩
            cases hnode : d.node c with
            | array l => simp [items?, hnode] at hitems
            | _ => rfl
        | some items =>
            cases items with
            | nil => exact h.erase hi hobject (by decide) (by decide)
            | cons first rest => exact h.moves

/-- The spelling of a schema. -/
lemma alongside_normalizeSpelling :
    Alongside root root' normalizeSpelling normalizeSpelling :=
  (alongside_renameId.comp alongside_renameDefinitions).comp alongside_wrapExtends

lemma alongside_constToEnum : Alongside root root' constToEnum constToEnum where
  moves {ρ f d e i sized} h _ _ hi hrole := by
    have hobject := h.sorted.isObject_of_schema hi hrole
    rw [constToEnum, constToEnum, (h.tells hi).has_eq "enum" (by decide),
      h.tells hi "const" (by decide)]
    split
    case isTrue => exact h.moves
    case isFalse =>
      cases hc : d.get? i "const" with
      | none => exact h.moves
      | some c =>
          have hvalue : ρ c = .value := by
            have hsuits := h.sorted.suits_get? hc
            rw [hrole] at hsuits
            exact hsuits.eq_value
          have herase := h.follows_changeMembers (h.toUnsized.erase hi hobject
            (Role.keeps_of_not_mem (by decide : "const" ∉ sizeKeys)) (by decide))
          obtain ⟨ρ', f', hlist⟩ := herase.abreast.setList
            (Nat.lt_of_lt_of_eq hi size_changeMembers.symm) (isObject_erase.trans hobject)
            (by decide : "enum" ∉ sizeKeys)
            (List.forall_mem_singleton.mpr ⟨Nat.lt_of_lt_of_eq (h.left.get?_lt hc)
              size_changeMembers.symm, by rw [hrole]; exact ⟨false, hvalue⟩⟩)
          exact ⟨ρ', f', herase.trans hlist⟩

lemma alongside_escapeDescription :
    Alongside root root' escapeDescription escapeDescription where
  moves {ρ f d e i sized} h hroot hroot' hi hrole := by
    rw [escapeDescription, escapeDescription, h.outline.string?_eq (h.tells hi) _ (by decide)]
    cases d.string? i "description" with
    | none => exact h.moves
    | some text =>
        dsimp only
        split
        · exact h.moves
        · exact (alongside_setScalar _ (by decide)).moves h hroot hroot' hi hrole

/-- The root takes the name of the declaration, on both sides. -/
lemma alongside_rootId (name : Option String) : Alongside root root'
    (fun d i => if i == root then d.defaultRootId i name else d)
    (fun e i => if i == root' then e.defaultRootId i name else e) := by
  refine .ite (fun _ i => i == root) (fun _ x => x == root')
    (fun {ρ f d e i} h hroot hroot' hi => ?_) ?_ .refl
  · rw [Bool.eq_iff_iff, beq_iff_eq, beq_iff_eq, ← hroot']
    exact ⟨h.inj i hi root hroot, congrArg f⟩
  · cases name with
    | none => exact .refl
    | some name =>
        exact .ite (fun d i => name.isEmpty || d.has i "$id")
          (fun e i => name.isEmpty || e.has i "$id")
          (fun h _ _ hi => by rw [(h.tells hi).has_eq "$id" (by decide)]) .refl
          (alongside_setScalar (.string name) (by decide))

lemma alongside_defaultAdditionalProperties (s : Settings) :
    Alongside root root' (defaultAdditionalProperties s) (defaultAdditionalProperties s) :=
  .ite _ _ (fun h _ _ hi => by
      rw [describesObjects, describesObjects, h.outline.hasType_eq (h.tells hi),
        (h.tells hi).has_eq _ (by decide), (h.tells hi).has_eq _ (by decide),
        (h.tells hi).has_eq _ (by decide)])
    (alongside_setScalar (.bool s.additionalProperties) (by decide)) .refl

/-- The contents of a schema, apart from the bounds of arrays. -/
lemma alongside_describe (s : Settings) (name : Option String) :
    Alongside root root' (describe s root name) (describe s root' name) :=
  ((alongside_constToEnum.comp alongside_escapeDescription).comp (alongside_rootId name)).comp
    (alongside_defaultAdditionalProperties s)

/-! ### Array schemas without bounds -/

/-- Any number of items is allowed. -/
structure Boundless (d : Document) (id : NodeId) : Prop where
  least : d.leastItems id = 0
  most : d.bound? id "maxItems" = none

namespace Boundless

lemma of_not_has (h : ∀ key ∈ sizeKeys, d.has i key = false) : d.Boundless i := by
  have hnone (key : String) (hkey : key ∈ sizeKeys) : d.bound? i key = none := by
    have hget : d.get? i key = none := by simpa [has] using h key hkey
    rw [bound?, double?, scalar?, hget]
    rfl
  exact ⟨by rw [leastItems, hnone _ (by decide), Option.getD_none], hnone _ (by decide)⟩

lemma of_alters (h : d.Boundless i) (hd : d.Closed) (halters : d.Alters d' keys)
    (hget : ∀ key ∈ sizeKeys, d'.get? i key = d.get? i key) : d'.Boundless i where
  least := (halters.leastItems_eq hd (hget _ (by decide))).trans h.least
  most := (halters.bound?_eq hd (hget _ (by decide))).trans h.most

variable (h : d.Boundless i) (hd : d.Closed) (hobject : d.isObject i = true)
include h hd hobject

lemma withLeast : (d.withLeast i).Boundless i where
  least := (leastItems_withLeast hobject).trans h.least
  most := by
    have halters := altersAt_withLeast d i
    exact (halters.bound?_eq hd
      (halters.get?_eq i (lt_size_of_isObject hobject) _ (by decide))).trans h.most

/-- There is nothing to write out, and the least number is said. -/
lemma boundArrays_eq (harrays : d.describesArrays i = true) (hs : s.ignoreBounds = false) :
    boundArrays s d i = d.withLeast i := by
  have hwith := h.withLeast hd hobject
  have hmost : (d.withLeast i).mostItems s i = none := by
    rw [mostItems, hwith.most]
    rfl
  have hkeeps : (d.withLeast i).withMost i none = d.withLeast i := by
    rw [withMost, hwith.most]
    rfl
  have hexpand : (d.withLeast i).expandItems i 0 none = d.withLeast i := by
    rw [expandItems]
    split
    · rfl
    · split <;> rfl
  rw [Document.boundArrays_eq harrays hs, hwith.least, hmost, hkeeps, hexpand, ite_self]

end Boundless

/-- The images of array schemas have no bounds. -/
def Calm (ρ : NodeId → Role) (f : NodeId → NodeId) (d e : Document) : Prop :=
  ∀ i < d.size, ρ i = .schema true → e.Boundless (f i)

/-- What is kept while the contents of schemas are brought to normal form: the root and its image,
the marks, and, unless bounds are ignored, that there are none. -/
structure Steady (b : Bool) (root root' : NodeId) (ρ : NodeId → Role) (f : NodeId → NodeId)
    (d e : Document) : Prop where
  lt : root < d.size
  image : f root = root'
  marked : Marked ρ d
  calm : b = true ∨ Calm ρ f d e

namespace Follows

variable (h : Follows ρ f d e ρ' f' d' e')
include h

/-- Schemas have been there before. -/
lemma lt_size_of_schema (hi : i < d'.size) (hrole : ρ' i = .schema sized) : i < d.size := by
  by_contra hnew
  rcases h.fresh i hi (Nat.le_of_not_lt hnew) with hvalue | hlist
  · rw [hvalue] at hrole
    cases hrole
  · rw [hlist] at hrole
    cases hrole

/-- Array schemas are marked as before when neither types nor items are touched. -/
lemma marked (hm : Marked ρ d) (hd : d.Closed) (halters : d.Alters d' keys) (htype : "type" ∉ keys)
    (hitems : "items" ∉ keys) : Marked ρ' d' := by
  intro i hi sized hrole
  have hold := h.lt_size_of_schema hi hrole
  rw [h.agree i hold] at hrole
  rw [halters.describesArrays_eq hd (halters.get?_eq i hold _ htype)
    (by rw [has, halters.get?_eq i hold _ hitems, has])]
  exact hm i hold sized hrole

/-- Images without bounds stay so when bounds are not touched. -/
lemma calm (hc : Calm ρ f d e) (hlt : ∀ i < d.size, f i < e.size) (he : e.Closed)
    (halters : e.Alters e' keys) (hkeys : ∀ key ∈ sizeKeys, key ∉ keys) : Calm ρ' f' d' e' := by
  intro i hi hrole
  have hold := h.lt_size_of_schema hi hrole
  rw [h.agree i hold] at hrole
  rw [h.later.agree i hold]
  exact (hc i hold hrole).of_alters he halters fun key hkey =>
    halters.get?_eq (f i) (hlt i hold) key (hkeys key hkey)

lemma suits_schema (hi : i < d.size) (hsuits : d.Suits ρ .schema i) : d'.Suits ρ' .schema i := by
  have hobject := h.isObject_eq i hi
  obtain ⟨sized, hrole⟩ := hsuits
  refine ⟨sized, (h.agree i hi).trans (hrole.trans ?_)⟩
  rw [isObject, isObject, members?, members?] at hobject
  cases hnode : d.node i <;> cases hnode' : d'.node i <;> simp_all [Site.role]

end Follows

namespace Abreast

/-- The document with bounds alone has changed, and not but in bounds. -/
lemma of_right (h : Abreast ρ f d e) (hright : e'.Closed) (hsize : e.size ≤ e'.size)
    (hlink : ∀ i < e.size, e'.link i = e.link i)
    (hnode : ∀ i < d.size, e'.node (f i) = e.node (f i) ∨ ∃ entries entries',
      e.node (f i) = .object entries ∧ e'.node (f i) = .object entries' ∧
        entries'.filter (fun e => (ρ i).keeps e.1) = entries.filter fun e => (ρ i).keeps e.1) :
    Abreast ρ f d e' :=
  h.of_unsized (h.right_of_node hright hsize hnode)
    ⟨Nat.le_refl _, hsize, fun _ _ => rfl, fun _ hi hle => absurd hi (Nat.not_lt_of_le hle)⟩
    (fun _ _ => rfl) (fun _ _ => rfl) hlink fun _ hi hle => absurd hi (Nat.not_lt_of_le hle)

section Sized

variable (h : Abreast ρ f d e) (hi : i < d.size) (hrole : ρ i = .schema true)
include h hi hrole

/-- A bound is taken out on one side. -/
lemma erase_right (hkey : key ∈ sizeKeys) : Abreast ρ f d (e.erase (f i) key) := by
  have hobject := (h.outline.isObject_eq i hi).trans (h.sorted.isObject_of_schema hi hrole)
  obtain ⟨entries, hnode⟩ := exists_members_of_isObject hobject
  refine h.of_right (keeps_erase h.right (f i) key).closed (Nat.le_of_eq size_changeMembers.symm)
    (fun _ _ => link_changeMembers) fun j hj => ?_
  by_cases hji : j = i
  · subst hji
    refine .inr ⟨entries, _, hnode, node_changeMembers hnode _, ?_⟩
    rw [hrole, Keyed.filter_erase_of_neg (Role.not_keeps_of_mem hkey)]
  · exact .inl (node_changeMembers_of_ne fun heq => hji (h.inj j hj i hi heq))

/-- A bound is set on one side. -/
lemma setScalar_right (hkey : key ∈ sizeKeys) (value : Json.Scalar) :
    Abreast ρ f d (e.setValue (f i) key (.scalar value)) := by
  have hobject := (h.outline.isObject_eq i hi).trans (h.sorted.isObject_of_schema hi hrole)
  obtain ⟨entries, hnode⟩ := exists_members_of_isObject hobject
  have hkeeps : e.Keeps (e.setValue (f i) key (.scalar value)) :=
    keeps_setValue h.right (h.lt i hi) (.scalar value)
  have hold {x : NodeId} (hx : x < e.size) :
      (e.alloc (.leaf value) (.under (f i))).2.node x = e.node x := by
    rw [node_alloc, if_neg (Nat.ne_of_lt hx)]
  refine h.of_right hkeeps.closed hkeeps.size_le (fun j hj => ?_) fun j hj => ?_
  · rw [setScalar_eq, Document.set, link_changeMembers, link_alloc, if_neg (Nat.ne_of_lt hj)]
  · rw [setScalar_eq]
    by_cases hji : j = i
    · subst hji
      refine .inr ⟨entries, _, hnode, node_changeMembers ((hold (h.lt j hj)).trans hnode) _, ?_⟩
      rw [hrole, Keyed.filter_insert_of_neg (Role.not_keeps_of_mem hkey)]
    · left
      rw [Document.set, node_changeMembers_of_ne fun heq => hji (h.inj j hj i hi heq),
        hold (h.lt j hj)]

end Sized

lemma describesArrays_eq (h : Abreast ρ f d e) (hi : i < d.size) :
    e.describesArrays (f i) = d.describesArrays i := by
  rw [describesArrays, describesArrays, h.outline.hasType_eq (h.tells hi),
    (h.tells hi).has_eq _ (by decide)]

/-- **The bounds of an array schema.** On the side without bounds nothing changes. On the other side
they are ignored, or there are none. -/
lemma boundArrays (h : Abreast ρ f d e) (hm : Marked ρ d) (hi : i < d.size)
    (hrole : ρ i = .schema sized) (s s' : Settings) (hs : s.ignoreBounds = true)
    (hcalm : s'.ignoreBounds = true ∨ Calm ρ f d e) :
    boundArrays s d i = d ∧ Abreast ρ f d (boundArrays s' e (f i)) ∧
      (s'.ignoreBounds = true ∨ Calm ρ f d (boundArrays s' e (f i))) := by
  have harrays := hm i hi sized hrole
  have harrays' := (h.describesArrays_eq hi).trans harrays
  cases sized with
  | false =>
      have hleft : Document.boundArrays s d i = d := by
        rw [Document.boundArrays, harrays]
        rfl
      have hright : Document.boundArrays s' e (f i) = e := by
        rw [Document.boundArrays, harrays']
        rfl
      rw [hright]
      exact ⟨hleft, h, hcalm⟩
  | true =>
      have hleft : Document.boundArrays s d i = d := by
        rw [Document.boundArrays, harrays, hs]
        simp [erase_of_not_has (h.has_size_eq_false hi hrole (by decide : "minItems" ∈ sizeKeys)),
          erase_of_not_has (h.has_size_eq_false hi hrole (by decide : "maxItems" ∈ sizeKeys))]
      refine ⟨hleft, ?_⟩
      cases hs' : s'.ignoreBounds with
      | true =>
          have hright : Document.boundArrays s' e (f i)
              = (e.erase (f i) "minItems").erase (f i) "maxItems" := by
            rw [Document.boundArrays, harrays', hs']
            rfl
          rw [hright]
          exact ⟨(h.erase_right hi hrole (by decide)).erase_right hi hrole (by decide), .inl rfl⟩
      | false =>
          have hcalm : Calm ρ f d e := hcalm.resolve_left (by simp [hs'])
          have hobject := (h.outline.isObject_eq i hi).trans
            (h.sorted.isObject_of_schema hi hrole)
          rw [(hcalm i hi hrole).boundArrays_eq h.right hobject harrays' hs']
          refine ⟨?_, .inr fun j hj hjrole => ?_⟩
          · rw [Document.withLeast]
            split
            · exact h
            · exact h.setScalar_right hi hrole (by decide) _
          · by_cases hji : j = i
            · subst hji
              exact (hcalm j hj hjrole).withLeast h.right hobject
            · have halters := altersAt_withLeast e (f i)
              refine (hcalm j hj hjrole).of_alters h.right halters.toAlters fun key _ => ?_
              rw [get?, get?, members?, members?, halters.node_eq (f j) (h.lt j hj)
                fun heq => hji (h.inj j hj i hi heq)]

/-- The contents of a schema. Bounds are ignored on the side without bounds, and on the other side
unless there are none. -/
lemma contentsAt {b : Bool} (h : Abreast ρ f d e) (hst : Steady b root root' ρ f d e)
    (hi : i < d.size) (hrole : ρ i = .schema sized) (s : Settings) (name : Option String) :
    ∃ ρ' f', Follows ρ f d e ρ' f'
        (normalizeContents { s with ignoreBounds := true } root name d i)
        (normalizeContents { s with ignoreBounds := b } root' name e (f i)) ∧
      Steady b root root' ρ' f'
        (normalizeContents { s with ignoreBounds := true } root name d i)
        (normalizeContents { s with ignoreBounds := b } root' name e (f i)) := by
  obtain ⟨ρ', f', hfollows⟩ := (alongside_describe s name).moves h hst.lt hst.image hi hrole
  have hmarked := hfollows.marked hst.marked h.left (altersAt_describe s root name d i).toAlters
    (by decide) (by decide)
  have hcalm := hst.calm.imp_right fun hcalm => hfollows.calm hcalm h.lt h.right
    (altersAt_describe s root' name e (f i)).toAlters (by decide)
  obtain ⟨hleft, hright, hcalm'⟩ := hfollows.abreast.boundArrays hmarked
    (Nat.lt_of_lt_of_le hi hfollows.later.size_le) ((hfollows.agree i hi).trans hrole)
    { s with ignoreBounds := true } { s with ignoreBounds := b } rfl hcalm
  rw [hfollows.later.agree i hi] at hright hcalm'
  have hsize := (keeps_boundArrays hfollows.abreast.right
    (Nat.lt_of_lt_of_le (h.lt i hi) hfollows.later.size_le')
    { s with ignoreBounds := b }).size_le
  have hdescribe (b : Bool) (root : NodeId) :
      describe { s with ignoreBounds := b } root name = describe s root name := rfl
  rw [normalizeContents_eq, normalizeContents_eq, hdescribe, hdescribe, hleft]
  exact ⟨ρ', f', ⟨⟨hfollows.later.size_le, Nat.le_trans hfollows.later.size_le' hsize,
      hfollows.later.agree, hfollows.later.fresh⟩, hfollows.agree, hfollows.fresh,
      hfollows.isObject_eq, hright⟩,
    ⟨Nat.lt_of_lt_of_le hst.lt hfollows.later.size_le,
      (hfollows.later.agree root hst.lt).trans hst.image, hmarked, hcalm'⟩⟩

/-! ### All schemas -/

/-- A step at every one of some schemas and at their images. -/
lemma foldl {P : (NodeId → Role) → (NodeId → NodeId) → Document → Document → Prop}
    (hstep : ∀ {ρ f d e i sized}, Abreast ρ f d e → P ρ f d e → i < d.size → ρ i = .schema sized →
      ∃ ρ' f', Follows ρ f d e ρ' f' (step d i) (step' e (f i)) ∧
        P ρ' f' (step d i) (step' e (f i)))
    (h : Abreast ρ f d e) (hP : P ρ f d e) (ids : List NodeId)
    (hids : ∀ i ∈ ids, i < d.size ∧ ∃ sized, ρ i = .schema sized) :
    ∃ ρ' f', Follows ρ f d e ρ' f' (ids.foldl step d) ((ids.map f).foldl step' e) ∧
      P ρ' f' (ids.foldl step d) ((ids.map f).foldl step' e) := by
  induction ids generalizing ρ f d e with
  | nil => exact ⟨ρ, f, h.follows, hP⟩
  | cons i ids ih =>
      obtain ⟨⟨hi, sized, hrole⟩, hids⟩ := List.forall_mem_cons.mp hids
      obtain ⟨ρ₁, f₁, hfollows, hP₁⟩ := hstep h hP hi hrole
      obtain ⟨ρ₂, f₂, hfollows', hP₂⟩ := ih hfollows.abreast hP₁ fun j hj => by
        obtain ⟨hlt, sized, hrole⟩ := hids j hj
        exact ⟨Nat.lt_of_lt_of_le hlt hfollows.later.size_le, sized,
          (hfollows.agree j hlt).trans hrole⟩
      have himages : ids.map f₁ = ids.map f :=
        List.map_congr_left fun j hj => hfollows.later.agree j (hids j hj).1
      rw [himages] at hfollows' hP₂
      exact ⟨ρ₂, f₂, hfollows.trans hfollows', hP₂⟩

section Root

variable (h : Abreast ρ f d e) (hm : Marked ρ d) (hroot : root < d.size)
  (hsuits : d.Suits ρ .schema root)
include h hm hroot hsuits

/-- **All schemas of both documents are spelled anew.** -/
lemma respelled : ∃ ρ' f', Follows ρ f d e ρ' f' (d.respelled root) (e.respelled (f root)) ∧
    Marked ρ' (d.respelled root) := by
  rw [Document.respelled, Document.respelled, h.schemaIds_eq hroot hsuits.isMet]
  refine foldl (P := fun ρ _ d _ => Marked ρ d) (fun {ρ f d e i sized} h hm hi hrole => ?_) h hm _
    fun i hi => ⟨lt_size_of_mem_schemaIds hi, h.sorted.exists_schema hsuits hi⟩
  have hstep : Alongside i (f i) normalizeSpelling normalizeSpelling := alongside_normalizeSpelling
  obtain ⟨ρ', f', hfollows⟩ := hstep.moves h hi rfl hi hrole
  exact ⟨ρ', f', hfollows,
    hfollows.marked hm h.left (altersAt_normalizeSpelling d i).toAlters (by decide) (by decide)⟩

/-- **The contents of all schemas of both documents.** Bounds are ignored on the side without
bounds, and on the other side unless there are none. -/
lemma contents (s : Settings) (b : Bool) (name : Option String)
    (hcalm : b = true ∨ Calm ρ f d e) :
    ∃ ρ' f', Follows ρ f d e ρ' f'
        ((d.schemaIds root).foldl
          (normalizeContents { s with ignoreBounds := true } root name) d)
        ((e.schemaIds (f root)).foldl
          (normalizeContents { s with ignoreBounds := b } (f root) name) e) ∧
      Steady b root (f root) ρ' f'
        ((d.schemaIds root).foldl
          (normalizeContents { s with ignoreBounds := true } root name) d)
        ((e.schemaIds (f root)).foldl
          (normalizeContents { s with ignoreBounds := b } (f root) name) e) := by
  rw [h.schemaIds_eq hroot hsuits.isMet]
  exact foldl (fun h hst hi hrole => h.contentsAt hst hi hrole s name) h ⟨hroot, rfl, hm, hcalm⟩ _
    fun i hi => ⟨lt_size_of_mem_schemaIds hi, h.sorted.exists_schema hsuits hi⟩

end Root

end Abreast

end SchemaDecl.Document
