/-
Tuples that are longer than they may be.

A tuple with a greatest number of items admits no longer sequence, unless the schema says itself
what follows the listed positions. Such a tail has no end, and the greatest number does not end it.

* `Document.allowsMoreItems`: the schema says what follows its positions.
* `Lowering.exists_record_of_tuple`: every tuple is the type of an array schema.
* `Lowering.ofDocument_tuple_exceeds_iff`: which tuples admit too long a sequence.
* `Lowering.tailDocument_exceeds`: a tuple that does.
-/
import SchemaDecl.Proofs.Document.Form
import SchemaDecl.Proofs.Types.Bounds
import SchemaDecl.Proofs.Types.Provenance

namespace SchemaDecl

/-- The tuple that a shape is, if it is one. -/
def Shape.tuple? : Shape → Option TupleType
  | .tuple t => some t
  | _ => none

lemma Shape.eq_tuple_of_tuple? {shape : Shape} {t : TupleType} (h : shape.tuple? = some t) :
    shape = .tuple t := by
  cases shape with
  | tuple t' => exact congrArg Shape.tuple (Option.some.inj h)
  | _ => cases h

/-- The schema says what follows the listed positions, or allows anything there. -/
def Document.allowsMoreItems (d : Document) (id : NodeId) : Bool :=
  match d.get? id "additionalItems" with
  | some extra => d.isObject extra || d.leafIs extra true
  | none => false

/-- What follows the positions is described alike, if it is the same. -/
lemma Document.Alters.allowsMoreItems_eq {d d' : Document} {keys : List String} {x y : NodeId}
    (h : d.Alters d' keys) (hd : d.Closed)
    (hget : d'.get? y "additionalItems" = d.get? x "additionalItems") :
    d'.allowsMoreItems y = d.allowsMoreItems x := by
  rw [allowsMoreItems, allowsMoreItems, hget]
  cases hextra : d.get? x "additionalItems" with
  | none => rfl
  | some extra =>
      have hlt := hd.get?_lt hextra
      dsimp only
      rw [h.isObject_eq extra hlt, leafIs, leafIs, h.leaf?_eq hlt]

namespace Lowering

open Document

variable {s : Settings} {d d₀ : Document} {root x : NodeId} {st : Lowering} {t : TypeId}
  {tuple : TupleType} {most : Nat}

/-! ### Tuples and their schemas -/

/-- A tuple of an array schema that describes its items. -/
lemma DepictsTypedArray.tuple_eq (h : st.DepictsTypedArray s d x (.tuple tuple)) :
    tuple.rest.isSome = d.allowsMoreItems x ∧ tuple.params.length = (d.listAt x "items").length ∧
      tuple.most = Lower.tupleBound? d x "maxItems" := by
  rw [DepictsTypedArray] at h
  split at h
  case h_1 =>
    obtain ⟨top, -, heq⟩ := h
    cases heq
  case h_2 items hget =>
    split at h
    case h_1 list hnode =>
      obtain ⟨params, rest, hparams, hrest, heq⟩ := h
      obtain rfl := Shape.tuple.inj heq
      refine ⟨?_, hparams.length_eq.symm, rfl⟩
      rw [GivesRest] at hrest
      rw [allowsMoreItems]
      split at hrest
      case h_1 hnone => simp [hnone, hrest]
      case h_2 extra hextra =>
        rw [hextra]
        dsimp only
        split_ifs at hrest with hobject hleaf
        · obtain ⟨t, -, rfl⟩ := hrest
          simp [hobject]
        · obtain ⟨t, -, rfl⟩ := hrest
          simp [hleaf]
        · simp [hrest, hobject, hleaf]
    case h_2 =>
      obtain ⟨t, -, heq⟩ := h
      cases heq
    case h_3 =>
      obtain ⟨top, -, heq⟩ := h
      cases heq

/-- A tuple of an array schema that does not describe its items. -/
lemma untypedShape_tuple_eq {least : Nat} {most : Option Nat} {top : TypeId}
    (h : untypedShape least most top = .tuple tuple) :
    tuple.rest.isSome = most.isNone ∧ tuple.params.length = max (most.getD 0) least ∧
      tuple.most = most := by
  rw [untypedShape] at h
  split at h
  case isTrue => cases h
  case isFalse =>
    obtain rfl := Shape.tuple.inj h
    refine ⟨?_, List.length_replicate, rfl⟩
    cases most <;> rfl

/-- Only array schemas have tuples as their types. -/
lemma DepictsUnder.of_tuple {category : Category}
    (h : st.DepictsUnder s d x (.tuple tuple) category) :
    category = .typedArray ∧ st.DepictsTypedArray s d x (.tuple tuple) ∨
      category = .untypedArray ∧ ∃ top, untypedShape ((Lower.tupleBound? d x "minItems").getD 0)
        (Lower.tupleBound? d x "maxItems") top = .tuple tuple := by
  have hrecord : ¬ st.DepictsRecord s d x (.tuple tuple) := by
    rintro ⟨_, _, _, _, _, -, -, -, -, -, heq⟩
    cases heq
  cases category with
  | typedArray => exact .inl ⟨rfl, h⟩
  | untypedArray =>
      obtain ⟨top, -, heq⟩ := h
      exact .inr ⟨rfl, top, heq.symm⟩
  | namedSchema => exact absurd h hrecord
  | unnamedSchema => exact absurd h hrecord
  | any =>
      rw [DepictsUnder, Shape.top] at h
      split at h <;> cases h
  | allOf | anyOf | oneOf | unnamedEnum | namedEnum | union =>
      obtain ⟨_, -, heq⟩ := h
      cases heq
  | _ => cases h

/-- **Every tuple is the type of an array schema.** -/
lemma exists_record_of_tuple (hst : st.Faithful s d₀) (htraced : st.Traced s d₀ root)
    (ht : st.types.shape t = .tuple tuple) :
    ∃ x category, st.made.lookup (x, some category) = some t := by
  have hpending : st.types.shape t ≠ .pending := by simp [ht]
  rcases htraced.types t (TypeGraph.lt_size_of_shape_ne hpending) with
    ⟨⟨x, category⟩, hmade⟩ | hbare
  · cases category with
    | some category => exact ⟨x, category, hmade⟩
    | none =>
        obtain ⟨-, copy, members, types, -, -, -, -, heq⟩ := hst.depicts _ t hmade hpending
        cases ht.symm.trans heq
  · rw [ht] at hbare
    rcases hbare with heq | ⟨value, heq⟩
    · rw [Shape.top] at heq
      split at heq <;> cases heq
    · cases heq

/-! ### Sequences that are too long -/

/-- A tuple of a schema admits a longer sequence than it may if the schema says what follows its
positions, or lists too many of them; or if it does not describe its items and asks for too many. -/
def Exceeds (d : Document) (x : NodeId) (category : Category) (most : Nat) : Prop :=
  category = .typedArray ∧ (d.allowsMoreItems x = true ∨ most < (d.listAt x "items").length) ∨
    category = .untypedArray ∧ most < (Lower.tupleBound? d x "minItems").getD 0

lemma DepictsUnder.exceeds_iff {category : Category}
    (h : st.DepictsUnder s d x (.tuple tuple) category) (hmost : tuple.most = some most) :
    (category = .typedArray ∨ category = .untypedArray) ∧
      Lower.tupleBound? d x "maxItems" = some most ∧
      ((∃ xs, tuple.arms.Admits xs ∧ most < xs.length) ↔ Exceeds d x category most) := by
  rw [TupleType.exists_admits_gt_iff hmost, Exceeds]
  rcases h.of_tuple with ⟨rfl, htyped⟩ | ⟨rfl, top, hshape⟩
  · obtain ⟨hrest, hlength, hbound⟩ := htyped.tuple_eq
    refine ⟨.inl rfl, hbound ▸ hmost, ?_⟩
    simp [hrest, hlength]
  · obtain ⟨hrest, hlength, hbound⟩ := untypedShape_tuple_eq hshape
    rw [hmost] at hbound
    refine ⟨.inr rfl, hbound.symm, ?_⟩
    rw [← hbound] at hrest hlength
    simp [hrest, hlength]

/-- Whether a schema exceeds a number of items is seen from its bounds and positions. -/
lemma exceeds_iff_of_alters {d' : Document} {y : NodeId} {keys : List String} {category : Category}
    (h : d.Alters d' keys) (hd : d.Closed)
    (hget : ∀ key ∈ boundKeys, d'.get? y key = d.get? x key) :
    Exceeds d' y category most ↔ Exceeds d x category most := by
  rw [Exceeds, Exceeds, h.allowsMoreItems_eq hd (hget _ (by simp [boundKeys])),
    h.listAt_eq hd (hget "items" (by simp [boundKeys])), Lower.tupleBound?, Lower.tupleBound?,
    h.bound?_eq hd (hget "minItems" (by simp [boundKeys]))]

/-- **A tuple admits a longer sequence than it may** just if its schema says what follows the listed
positions. Every tuple is the type of an array schema, or of a copy of one; this is said of schemas
that are found when keywords have been spelled anew, because the bounds of others are not looked
at. -/
theorem ofDocument_tuple_exceeds_iff (s : Settings) (d : Document) (root : NodeId)
    (name : Option String) (source : String) (hd : d.Closed) (hdistinct : d.Distinct)
    (hroot : root < d.size) (hvalid : d.violations root source = []) (st : Lowering)
    (hst : st = (ofDocument s (d.normalize s root name) root).2) (t : TypeId) (tuple : TupleType)
    (ht : st.types.shape t = .tuple tuple) (most : Nat) (hmost : tuple.most = some most) :
    (∃ x category o, st.made.lookup (x, some category) = some t ∧
      (d.normalize s root name).Stems st.document o x) ∧
    ∀ x category o, st.made.lookup (x, some category) = some t →
      (d.normalize s root name).Stems st.document o x →
      (category = .typedArray ∨ category = .untypedArray) ∧
      (o ∈ (d.respelled root).schemaIds root →
        ((∃ xs, tuple.arms.Admits xs ∧ most < xs.length) ↔
          category = .typedArray ∧ d.allowsMoreItems o = true)) := by
  obtain ⟨hthins, hroot', htraced⟩ := traced_normalize s name hd hdistinct hroot
  obtain ⟨hfaithful, -⟩ := faithful_ofDocument s hthins.closed hroot'
  rw [← hst] at hfaithful htraced
  refine ⟨?_, fun x category o hmade hstems => ?_⟩
  · obtain ⟨x, category, hmade⟩ := exists_record_of_tuple hfaithful htraced ht
    obtain ⟨o, hstems⟩ := htraced.exists_stems hthins.distinct hroot' hmade
    exact ⟨x, category, o, hmade, hstems⟩
  have hdepicts := hfaithful.depicts _ t hmade (by simp [ht])
  rw [ht] at hdepicts
  obtain ⟨hcategory, hbound, hexceeds⟩ := hdepicts.2.exceeds_iff hmost
  -- What is read of the copy is read of the schema in the normal form.
  have hextends := hfaithful.document.base
  have hget (key : String) (hkey : key ∈ boundKeys) :
      st.document.get? x key = (d.normalize s root name).get? o key :=
    hstems.get?_eq_base hextends (by revert key; decide)
  rw [exceeds_iff_of_alters hextends.alters hthins.closed hget] at hexceeds
  rw [Lower.tupleBound?, hextends.alters.bound?_eq hthins.closed
    (hget "maxItems" (by simp [boundKeys]))] at hbound
  refine ⟨hcategory, fun hfound => ?_⟩
  have hrules := check_ne_violated hvalid ((thins_respelled hd hdistinct root).mem_schemaIds hfound)
  obtain ⟨hcapped, hmore⟩ := capped_normalize hd hdistinct name hfound (leastItems_le_limit hrules)
    (fun n hn => leastItems_le_of_bound? hrules hn) hbound
  rw [hexceeds, Exceeds, (alters_normalize s d root name).allowsMoreItems_eq hd hmore]
  simp only [Nat.not_lt.mpr hcapped.positions_le, Nat.not_lt.mpr hcapped.least_le, or_false,
    and_false]

/-- Three strings are described, and only two items are allowed. -/
def cutDocument : Document :=
  ⟨#[⟨.object [("type", 1), ("items", 2), ("additionalItems", 5), ("maxItems", 6)], .root⟩,
    ⟨.leaf (.string "array"), .under 0⟩, ⟨.array [3, 3, 3], .under 0⟩,
    ⟨.object [("type", 4)], .under 2⟩, ⟨.leaf (.string "string"), .under 3⟩,
    ⟨.leaf (.bool false), .under 0⟩,
    ⟨.leaf (.number (.int 2)), .under 0⟩]⟩

/-- The third position is cut off, and nothing follows the others. -/
theorem ofDocument_tuple_exceeds_iff_cut :
    cutDocument.Closed ∧ cutDocument.Distinct ∧ cutDocument.violations 0 "" = [] ∧
    ∃ tuple, (ofDocument {} (cutDocument.normalize {} 0 none) 0).2.types.shape 0 = .tuple tuple ∧
      tuple.most = some 2 ∧ ¬ ∃ xs, tuple.arms.Admits xs ∧ 2 < xs.length := by
  have hclosed : cutDocument.Closed := by decide
  have hdistinct : cutDocument.Distinct := by decide
  have hvalid : cutDocument.violations 0 "" = [] := by decide +kernel
  have hshape : ((ofDocument {} (cutDocument.normalize {} 0 none) 0).2.types.shape 0).tuple?
      = some ⟨[1, 1], 0, some 2, none⟩ := by decide +kernel
  have hmade : (ofDocument {} (cutDocument.normalize {} 0 none) 0).2.made.lookup
      (0, some .typedArray) = some 0 := by decide +kernel
  have hstems : (cutDocument.normalize {} 0 none).Stems
      (ofDocument {} (cutDocument.normalize {} 0 none) 0).2.document 0 0 :=
    ⟨by decide +kernel, .refl⟩
  have hfound : 0 ∈ (cutDocument.respelled 0).schemaIds 0 := by decide +kernel
  have hexceeds := (ofDocument_tuple_exceeds_iff {} cutDocument 0 none "" hclosed hdistinct
    (by decide) hvalid _ rfl 0 _ (Shape.eq_tuple_of_tuple? hshape) 2 rfl).2
      0 .typedArray 0 hmade hstems
  refine ⟨hclosed, hdistinct, hvalid, _, Shape.eq_tuple_of_tuple? hshape, rfl, fun hlong => ?_⟩
  exact absurd ((hexceeds.2 hfound).mp hlong).2 (by decide)

/-- One to three items, of which the first is a string, and all that follow it are. -/
def tailDocument : Document :=
  ⟨#[⟨.object [("type", 1), ("items", 2), ("additionalItems", 5), ("minItems", 7), ("maxItems", 8)],
      .root⟩,
    ⟨.leaf (.string "array"), .under 0⟩, ⟨.array [3], .under 0⟩, ⟨.object [("type", 4)], .under 2⟩,
    ⟨.leaf (.string "string"), .under 3⟩, ⟨.object [("type", 6)], .under 0⟩,
    ⟨.leaf (.string "string"), .under 5⟩, ⟨.leaf (.number (.int 1)), .under 0⟩,
    ⟨.leaf (.number (.int 3)), .under 0⟩]⟩

/-- The tail has no end: a tuple of at most three items admits four. -/
theorem tailDocument_exceeds :
    tailDocument.Closed ∧ tailDocument.Distinct ∧ tailDocument.violations 0 "" = [] ∧
    (∃ tuple, (ofDocument {} (tailDocument.normalize {} 0 none) 0).2.types.shape 0 = .tuple tuple ∧
      tuple.most = some 3 ∧ tuple.arms.Admits [some 1, some 2, some 2, some 2]) ∧
    (compileDocument {} tailDocument 0 none).result.toOption = some "[string, ...(string)[]]" := by
  have hshape : ((ofDocument {} (tailDocument.normalize {} 0 none) 0).2.types.shape 0).tuple?
      = some ⟨[1], 1, some 3, some 2⟩ := by decide +kernel
  refine ⟨by decide, by decide, by decide +kernel,
    ⟨_, Shape.eq_tuple_of_tuple? hshape, rfl, .inr ⟨[some 1], some 2, 3, rfl, rfl, rfl⟩⟩,
    by decide +kernel⟩

end Lowering

end SchemaDecl
