/-
Bounds of arrays, from schemas to types.

An array schema whose items are described by one schema, or by none, becomes an array or a tuple
that admits exactly the sequences with a length between the bounds. It has to be found where schemas
stand still when keywords have been spelled anew: a schema that is found no more keeps its bounds,
and lowering does not look at them.

* `Lowering.LoweredAs`: the type of a schema under one of its categories.
* `Lowering.ofDocument_bounds_exact`: which sequences the type of an array schema admits.
* `Lowering.strayDocument_loses_bounds`: an array schema that is found no more.
-/
import SchemaDecl.Compile
import SchemaDecl.Proofs.Declaration.Tuple
import SchemaDecl.Proofs.Document.Bounds
import SchemaDecl.Proofs.Types.Making

namespace SchemaDecl

/-- A schema is of the categories that are found for it. -/
lemma Document.holds_of_mem_categories {d : Document} {id : NodeId} {category : Category}
    (h : category ∈ d.categories id) (hcustom : category ≠ .customType)
    (hother : category ≠ .unnamedSchema) : category.holds d id = true := by
  rw [Document.categories] at h
  split at h
  · exact absurd (List.mem_singleton.mp h) hcustom
  · split at h
    · exact absurd (List.mem_singleton.mp h) hother
    · exact (List.mem_filter.mp h).2

namespace Lowering

variable {s : Settings} {d d₀ : Document} {st : Lowering} {id copy c : NodeId} {t : TypeId}
  {category : Category} {least : Nat} {most : Option Nat} {shape : Shape}

/-- The type of a schema under one of its categories: the type that stands for the schema, or, if it
is of several categories, a member of the intersection that does. -/
def LoweredAs (st : Lowering) (id : NodeId) (category : Category) (t : TypeId) : Prop :=
  ∃ whole, st.Gives id whole ∧ match st.document.categories id with
    | [single] => category = single ∧ t = whole
    | several => ∃ types, st.types.shape whole = .intersection types ∧
        (category, t) ∈ several.zip types

/-- The type of the items of an array: that of the schema which describes them, or the type of what
nothing describes. -/
def IsItemType (st : Lowering) (s : Settings) (items : Option NodeId) (e : TypeId) : Prop :=
  match items with
  | some c => st.Gives c e
  | none => st.IsTop s e

/-- The type of a schema under a category says what the schema says under it, or what a copy says
that holds the same apart from names and descriptions. -/
lemma LoweredAs.exists_depictsUnder (h : st.LoweredAs id category t) (hst : st.Faithful s d₀)
    (hpending : ∀ t < st.types.size, st.types.shape t ≠ .pending)
    (hobject : st.document.isObject id = true) :
    category ∈ st.document.categories id ∧ ∃ copy,
      (∀ key ∉ ["$id", "title", "description", "name"],
        st.document.get? copy key = st.document.get? id key) ∧
      st.DepictsUnder s st.document copy (st.types.shape t) category := by
  have hdepicts (aspect : Aspect) (x : TypeId) (hx : st.made.lookup aspect = some x) :=
    hst.depicts aspect x hx (hpending x (hst.made_lt aspect x hx))
  obtain ⟨whole, ⟨-, hwhole⟩, hmatch⟩ := h
  rw [if_pos hobject] at hwhole
  split at hmatch
  case h_1 single hsingle =>
    obtain ⟨rfl, rfl⟩ := hmatch
    rw [Document.aspect, hsingle] at hwhole
    rw [hsingle]
    exact ⟨List.mem_singleton_self _, id, fun _ _ => rfl, (hdepicts _ _ hwhole).2⟩
  case h_2 several hseveral =>
    obtain ⟨types, hshape, hmem⟩ := hmatch
    have haspect : st.document.aspect id = (id, none) := by
      rw [Document.aspect]
      split
      case h_1 single hsingle => exact absurd hsingle (hseveral single)
      case h_2 => rfl
    rw [haspect] at hwhole
    obtain ⟨-, copy, members, types', hcopy, hnode, hfiltered, htypes, heq⟩ :=
      hdepicts _ _ hwhole
    obtain rfl : types = types' := Shape.intersection.inj (hshape.symm.trans heq)
    have hmade : st.made.lookup (copy, some category) = some t :=
      (List.forall₂_iff_zip.mp htypes).2 hmem
    refine ⟨(List.of_mem_zip hmem).1, copy, fun key hkey => ?_, (hdepicts _ _ hmade).2⟩
    rw [Document.get?_of_node hfiltered, Document.get?_of_node hnode]
    exact Keyed.get?_filter fun _ => by simpa using hkey

/-! ### Arrays and tuples -/

lemma Gives.unique (hobject : st.document.isObject c = true) {t t' : TypeId} (h : st.Gives c t)
    (h' : st.Gives c t') : t = t' := by
  have ht := h.2
  have ht' := h'.2
  rw [if_pos hobject] at ht ht'
  exact Option.some.inj (ht.symm.trans ht')

lemma admitsOnly_untypedShape {top : TypeId} (hle : ∀ n, most = some n → least ≤ n) :
    (untypedShape least most top).AdmitsOnly top least most := by
  rw [untypedShape]
  split
  case isTrue hfree =>
    rw [Bool.and_eq_true, beq_iff_eq, Option.isNone_iff_eq_none] at hfree
    rw [hfree.1, hfree.2]
    exact Shape.admitsOnly_array
  case isFalse => exact Shape.admitsOnly_tuple hle

/-- Types that stand for one schema many times are one type. -/
lemma exists_eq_replicate (hobject : st.document.isObject c = true) {n : Nat} {types : List TypeId}
    (h : List.Forall₂ st.Gives (List.replicate n c) types) :
    ∃ e, types = List.replicate n e ∧ (n ≠ 0 → st.Gives c e) := by
  induction n generalizing types with
  | zero => exact ⟨0, List.forall₂_nil_left_iff.mp h, fun hn => absurd rfl hn⟩
  | succ n ih =>
      obtain ⟨e, rest, he, hrest, rfl⟩ := List.forall₂_cons_left_iff.mp h
      obtain ⟨e', rfl, he'⟩ := ih hrest
      refine ⟨e, ?_, fun _ => he⟩
      cases n with
      | zero => rfl
      | succ n => rw [Gives.unique hobject he (he' (Nat.succ_ne_zero n)), ← List.replicate_succ]

/-- The array or tuple of a schema that describes its items by one schema. -/
lemma exists_admitsOnly_typedArray (hbounded : st.document.Bounded copy (some c) least most)
    (hle : ∀ n, most = some n → least ≤ n)
    (h : st.DepictsTypedArray s st.document copy shape) :
    ∃ e, shape.AdmitsOnly e least most ∧ (most ≠ some 0 → st.Gives c e) := by
  have hobject := hbounded.object c rfl
  obtain ⟨members, hmembers⟩ := Document.exists_members_of_isObject hobject
  rw [DepictsTypedArray] at h
  by_cases hfree : least = 0 ∧ most = none
  · rw [hbounded.single c rfl hfree.1 hfree.2] at h
    simp only [hmembers] at h
    obtain ⟨e, he, rfl⟩ := h
    rw [hfree.1, hfree.2]
    exact ⟨e, Shape.admitsOnly_array, fun _ => he⟩
  · obtain ⟨⟨list, hlist, hnode⟩, hmore⟩ := hbounded.several c rfl (by tauto)
    rw [hlist] at h
    simp only [hnode, hbounded.least_eq, hbounded.most_eq] at h
    obtain ⟨params, rest, hparams, hrest, rfl⟩ := h
    have hitems : st.document.listAt copy "items" = List.replicate (max (most.getD 0) least) c := by
      rw [Document.listAt, hlist, Option.bind_some, Document.items?, hnode]
      rfl
    rw [GivesList, hitems] at hparams
    obtain ⟨e, rfl, he⟩ := exists_eq_replicate hobject hparams
    have hgives (hne : most ≠ some 0) : st.Gives c e := by
      refine he fun hzero => ?_
      cases most with
      | none => exact hfree ⟨by simpa using hzero, rfl⟩
      | some n => exact hne (by rw [Option.getD_some] at hzero; rw [show n = 0 by omega])
    have hrest' : rest = if most.isNone then some e else none := by
      rw [GivesRest, hmore] at hrest
      cases most with
      | none =>
          simp only [Option.isNone_none, if_true, hobject] at hrest ⊢
          obtain ⟨e', he', rfl⟩ := hrest
          rw [Gives.unique hobject he' (hgives (by simp))]
      | some n => simpa using hrest
    rw [hrest']
    exact ⟨e, Shape.admitsOnly_tuple hle, hgives⟩

/-- The type of an array schema admits sequences of one type, that of the items. If no items are
allowed, their type need not have been made. -/
lemma LoweredAs.exists_admitsOnly {items : Option NodeId} (h : st.LoweredAs id category t)
    (hcategory : category = .typedArray ∨ category = .untypedArray) (hst : st.Faithful s d₀)
    (hpending : ∀ t < st.types.size, st.types.shape t ≠ .pending)
    (hobject : st.document.isObject id = true)
    (hbounded : st.document.Bounded id items least most) (hle : ∀ n, most = some n → least ≤ n) :
    ∃ e, (st.types.shape t).AdmitsOnly e least most ∧
      (most ≠ some 0 → st.IsItemType s items e) := by
  obtain ⟨hmem, copy, hget, hdepicts⟩ := h.exists_depictsUnder hst hpending hobject
  have hholds := Document.holds_of_mem_categories hmem
    (by rcases hcategory with rfl | rfl <;> decide) (by rcases hcategory with rfl | rfl <;> decide)
  have hcopy : st.document.Bounded copy items least most :=
    hbounded.of_alters (Document.Extends.refl _).alters hst.document.closed fun key hkey =>
      hget key (by revert key; decide)
  have hitems : (st.document.get? id "items").isSome = items.isSome := by
    cases items with
    | none => rw [hbounded.absent rfl, Option.isSome_none]
    | some c =>
        by_cases hfree : least = 0 ∧ most = none
        · rw [hbounded.single c rfl hfree.1 hfree.2]
        · obtain ⟨⟨list, hlist, -⟩, -⟩ := hbounded.several c rfl (by tauto)
          rw [hlist]
          rfl
  rcases hcategory with rfl | rfl
  · rw [Category.holds, Bool.and_eq_true, Document.has, hitems] at hholds
    obtain ⟨c, rfl⟩ := Option.isSome_iff_exists.mp hholds.2
    exact exists_admitsOnly_typedArray hcopy hle hdepicts
  · rw [Category.holds, Bool.and_eq_true, Document.has, hitems] at hholds
    obtain rfl : items = none := by simpa using hholds.2
    obtain ⟨top, htop, hshape⟩ := hdepicts
    rw [hcopy.least_eq, hcopy.most_eq] at hshape
    rw [hshape]
    exact ⟨top, admitsOnly_untypedShape hle, fun _ => htop⟩

/-- **The type of an array schema admits exactly the lengths between the bounds**, and all positions
have the type of the items. A greatest number is left aside if it is too far above the least one or
above the limit. The schema has to be found where schemas stand also when keywords have been spelled
anew. -/
theorem ofDocument_bounds_exact (s : Settings) (d : Document) (root id : NodeId)
    (name : Option String) (source : String) (hd : d.Closed)
    (hvalid : d.violations root source = []) (hbounds : s.ignoreBounds = false)
    (hid : id ∈ d.schemaIds root) (hstill : id ∈ (d.respelled root).schemaIds root)
    (harray : d.IsArraySchema id) (st : Lowering)
    (hst : st = (ofDocument s (d.normalize s root name) root).2) (category : Category)
    (hcategory : category = .typedArray ∨ category = .untypedArray) (t : TypeId)
    (ht : st.LoweredAs id category t) :
    (∀ n, (∃ xs, (st.types.shape t).Admits xs ∧ xs.length = n) ↔
      d.leastItems id ≤ n ∧ ∀ most, d.bound? id "maxItems" = some most →
        (∀ ceiling, s.ceiling? = some ceiling → most - d.leastItems id ≤ ceiling) →
        most ≤ tupleLimit → n ≤ most) ∧
    ∀ xs, (st.types.shape t).Admits xs → ∀ x ∈ xs,
      ∃ e, x = some e ∧ st.IsItemType s (d.get? id "items") e := by
  have hrules := Document.check_ne_violated hvalid hid
  have hroot := Document.lt_size_of_isObject (Document.isObject_of_mem_schemaIds hid)
  have hlt := Document.lt_size_of_isObject harray.isObject_eq
  have hnormal := Document.keeps_normalize hd s root name
  have hbounded := Document.bounded_normalize name hd harray hbounds
    (Document.leastItems_le_limit hrules) hstill
  obtain ⟨hfaithful, -, -, hpending⟩ :=
    faithful_ofDocument s hnormal.closed (Nat.lt_of_lt_of_le hroot hnormal.size_le)
  rw [← hst] at hfaithful hpending
  -- What is read of the schema in the normal form is read while types are made.
  have hextends := hfaithful.document.base
  have hlt' := Nat.lt_of_lt_of_le hlt hnormal.size_le
  have hobject : st.document.isObject id = true := by
    rw [hextends.isObject_eq hlt', (Document.alters_normalize s d root name).isObject_eq id hlt,
      harray.isObject_eq]
  have hbounded' : st.document.Bounded id _ _ _ :=
    hbounded.of_alters hextends.alters hnormal.closed fun key _ => hextends.get?_eq hlt'
  obtain ⟨e, hadmits, he⟩ := ht.exists_admitsOnly hcategory hfaithful hpending hobject hbounded'
    fun n hn => Document.leastItems_le_of_bound? hrules (Document.mostItems_eq_some_iff.mp hn).1
  refine ⟨fun n => ?_, fun xs hxs x hx => ?_⟩
  · rw [hadmits.exists_length_iff]
    simp only [Document.mostItems_eq_some_iff, and_imp]
  · obtain ⟨hall, -, hlength⟩ := (hadmits xs).mp hxs
    refine ⟨e, hall x hx, he fun hzero => ?_⟩
    have hpos := List.length_pos_of_mem hx
    have hnone := hlength 0 hzero
    omega

/-- One to three strings, in a schema of two categories. -/
def spanDocument : Document :=
  ⟨#[⟨.object [("type", 1), ("items", 2), ("minItems", 4), ("maxItems", 5), ("allOf", 6)], .root⟩,
    ⟨.leaf (.string "array"), .under 0⟩, ⟨.object [("type", 3)], .under 0⟩,
    ⟨.leaf (.string "string"), .under 2⟩, ⟨.leaf (.number (.int 1)), .under 0⟩,
    ⟨.leaf (.number (.int 3)), .under 0⟩, ⟨.array [], .under 0⟩]⟩

/-- The second member of the intersection for the schema admits one to three items, all of the type
of strings. -/
theorem ofDocument_bounds_exact_span :
    spanDocument.Closed ∧ spanDocument.violations 0 "" = [] ∧ 0 ∈ spanDocument.schemaIds 0 ∧
    0 ∈ (spanDocument.respelled 0).schemaIds 0 ∧ spanDocument.IsArraySchema 0 ∧
    ∃ st, st = (ofDocument {} (spanDocument.normalize {} 0 none) 0).2 ∧
      st.LoweredAs 0 .typedArray 2 ∧
      (∀ n, (∃ xs, (st.types.shape 2).Admits xs ∧ xs.length = n) ↔ 1 ≤ n ∧ n ≤ 3) ∧
      ∀ xs, (st.types.shape 2).Admits xs → ∀ x ∈ xs, ∃ e, x = some e ∧ st.Gives 2 e := by
  have hclosed : spanDocument.Closed := by decide
  have hvalid : spanDocument.violations 0 "" = [] := by decide +kernel
  have hid : 0 ∈ spanDocument.schemaIds 0 := by decide +kernel
  have hstill : 0 ∈ (spanDocument.respelled 0).schemaIds 0 := by decide +kernel
  have hitems : spanDocument.get? 0 "items" = some 2 := by decide
  have harray : spanDocument.IsArraySchema 0 := by
    refine ⟨by decide, by decide, fun c hc => ?_, by decide⟩
    obtain rfl := Option.some.inj (hitems.symm.trans hc)
    decide
  have hleast : spanDocument.leastItems 0 = 1 := by decide +kernel
  have hmost : spanDocument.bound? 0 "maxItems" = some 3 := by decide +kernel
  have hceiling : Settings.ceiling? {} = some 20 := by decide
  have hexact := ofDocument_bounds_exact {} spanDocument 0 0 none "" hclosed hvalid rfl hid hstill
    harray _ rfl .typedArray (.inl rfl) 2
  have hmade : (ofDocument {} (spanDocument.normalize {} 0 none) 0).2.made.lookup (0, none)
      = some 0 := by decide +kernel
  have hcategories : (ofDocument {} (spanDocument.normalize {} 0 none) 0).2.document.categories 0
      = [.allOf, .typedArray] := by decide +kernel
  have hobject : (ofDocument {} (spanDocument.normalize {} 0 none) 0).2.document.isObject 0
      = true := by decide +kernel
  have hmembers : (match (ofDocument {} (spanDocument.normalize {} 0 none) 0).2.types.shape 0 with
      | .intersection types => types
      | _ => []) = [1, 2] := by decide +kernel
  generalize (ofDocument {} (spanDocument.normalize {} 0 none) 0).2 = st at *
  have hlowered : st.LoweredAs 0 .typedArray 2 := by
    refine ⟨0, ⟨Document.lt_size_of_isObject hobject, ?_⟩, ?_⟩
    · rw [if_pos hobject, Document.aspect, hcategories]
      exact hmade
    · rw [hcategories]
      split at hmembers
      case h_1 types htypes => exact ⟨types, htypes, hmembers ▸ by decide⟩
      case h_2 => cases hmembers
  obtain ⟨hlengths, hpositions⟩ := hexact hlowered
  rw [hitems] at hpositions
  refine ⟨hclosed, hvalid, hid, hstill, harray, st, rfl, hlowered, fun n => ?_, hpositions⟩
  rw [hlengths n, hleast, hmost, hceiling]
  constructor
  · intro h
    exact ⟨h.1, h.2 3 rfl (by simp) (by decide)⟩
  · rintro ⟨h₁, h₃⟩
    refine ⟨h₁, fun most hmost' _ _ => ?_⟩
    exact Option.some.inj hmost' ▸ h₃

/-- An array of at least two strings that is the entry `extends` of a map of properties. The map is
also a schema, because the array schema excludes it. -/
def strayDocument : Document :=
  ⟨#[⟨.object [("properties", 1), ("enum", 7)], .root⟩, ⟨.object [("extends", 2)], .under 0⟩,
    ⟨.object [("type", 3), ("items", 4), ("minItems", 6), ("not", 1)], .under 1⟩,
    ⟨.leaf (.string "array"), .under 2⟩, ⟨.object [("type", 5)], .under 2⟩,
    ⟨.leaf (.string "string"), .under 4⟩, ⟨.leaf (.number (.int 2)), .under 2⟩,
    ⟨.array [2], .under 0⟩]⟩

/-- Spelling the map anew wraps its entry in a list, and the array schema is found no more. It is a
value of the enumeration, and there it becomes an array of any length. -/
theorem strayDocument_loses_bounds :
    strayDocument.Closed ∧ strayDocument.violations 0 "" = [] ∧ 2 ∈ strayDocument.schemaIds 0 ∧
    2 ∉ (strayDocument.respelled 0).schemaIds 0 ∧ strayDocument.IsArraySchema 2 ∧
    strayDocument.leastItems 2 = 2 ∧
    (∃ t, (ofDocument {} (strayDocument.normalize {} 0 none) 0).2.LoweredAs 2 .typedArray t ∧
      ((ofDocument {} (strayDocument.normalize {} 0 none) 0).2.types.shape t).Admits []) ∧
    (compileDocument {} strayDocument 0 none).result.toOption = some "string[]" := by
  have hitems : strayDocument.get? 2 "items" = some 4 := by decide
  have harray : strayDocument.IsArraySchema 2 := by
    refine ⟨by decide, by decide, fun c hc => ?_, by decide⟩
    obtain rfl := Option.some.inj (hitems.symm.trans hc)
    decide
  have hmade : (ofDocument {} (strayDocument.normalize {} 0 none) 0).2.made.lookup
      (2, some .typedArray) = some 1 := by decide +kernel
  have hcategories : (ofDocument {} (strayDocument.normalize {} 0 none) 0).2.document.categories 2
      = [.typedArray] := by decide +kernel
  have hobject : (ofDocument {} (strayDocument.normalize {} 0 none) 0).2.document.isObject 2
      = true := by decide +kernel
  have hshape : ((ofDocument {} (strayDocument.normalize {} 0 none) 0).2.types.shape 1).isArray
      = true := by decide +kernel
  refine ⟨by decide, by decide +kernel, by decide +kernel, by decide +kernel, harray,
    by decide +kernel, ?_, by decide +kernel⟩
  generalize (ofDocument {} (strayDocument.normalize {} 0 none) 0).2 = st at *
  refine ⟨1, ⟨1, ⟨Document.lt_size_of_isObject hobject, ?_⟩, ?_⟩, ?_⟩
  · rw [if_pos hobject, Document.aspect, hcategories]
    exact hmade
  · rw [hcategories]
    exact ⟨rfl, rfl⟩
  · generalize st.types.shape 1 = shape at hshape
    cases shape with
    | array element => exact fun x hx => absurd hx List.not_mem_nil
    | _ => cases hshape

end Lowering

end SchemaDecl
