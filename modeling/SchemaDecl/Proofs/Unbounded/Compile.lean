/-
Bounds that are ignored.

Compiling a value without references with the bounds of arrays ignored is compiling the value
without these bounds. The normal forms of the two documents are different: on one side bounds are
taken out where they are found, on the other side every array schema gets a least number of items.
Both are compared with the normal form of the value without bounds in which they are ignored as
well.

* `declare_eq_of_types`: whether bounds are ignored counts for the normal form alone.
* `Abreast.ofDocument_normalize`: the types of two documents whose bounds are ignored.
* `Abreast.ofDocument_normalize_bare`: the types of a document without bounds.
* `compile_unbounded`: **the declarations are the same.**
-/
import SchemaDecl.Proofs.Unbounded.Lowering

namespace SchemaDecl

open Document

/-! ### Settings -/

section Settings

variable (s : Settings) (b : Bool) (g : TypeGraph)

lemma Lower.schemaBeyond_ignoreBounds (beyond : Descent) (fuel : Nat) :
    schemaBeyond { s with ignoreBounds := b } beyond fuel = schemaBeyond s beyond fuel := by
  induction fuel with
  | zero => rfl
  | succ fuel ih =>
      rw [schemaBeyond, schemaBeyond, ih]
      rfl

lemma TypeGraph.ofDocument_ignoreBounds (d : Document) (root : NodeId) :
    ofDocument { s with ignoreBounds := b } d root = ofDocument s d root := by
  rw [ofDocument, ofDocument, Lowering.ofDocument, Lowering.ofDocument, Lower.schema, Lower.schema,
    Lower.schemaBeyond_ignoreBounds]

lemma Render.rawWith_ignoreBounds (fuel : Nat) :
    rawWith { s with ignoreBounds := b } g fuel = rawWith s g fuel := by
  induction fuel with
  | zero => rfl
  | succ fuel ih =>
      funext id
      rw [rawWith, rawWith, ih]
      rfl

lemma Render.raw_ignoreBounds : raw { s with ignoreBounds := b } g = raw s g := by
  funext id
  rw [raw, raw, rawWith_ignoreBounds]

lemma Render.inline_ignoreBounds : inline { s with ignoreBounds := b } g = inline s g := by
  funext id
  rw [inline, inline, raw_ignoreBounds]

lemma Render.body_ignoreBounds : body { s with ignoreBounds := b } g = body s g := by
  funext fields
  rw [body, body, inline_ignoreBounds]
  rfl

lemma Render.extended_ignoreBounds : extended { s with ignoreBounds := b } g = extended s g := by
  funext id
  rw [extended, extended, raw_ignoreBounds, inline_ignoreBounds]
  rfl

lemma TypeGraph.simplifyNoting_ignoreBounds (root : TypeId) :
    g.simplifyNoting { s with ignoreBounds := b } root = g.simplifyNoting s root := by
  have hat : simplifyAt { s with ignoreBounds := b } = simplifyAt s := by
    funext g id
    rw [simplifyAt, simplifyAt, memberTexts, memberTexts, Render.raw_ignoreBounds,
      Render.inline_ignoreBounds]
  rw [simplifyNoting, simplifyNoting, hat]

lemma Declare.documentTextNoting_ignoreBounds (root : TypeId) :
    documentTextNoting { s with ignoreBounds := b } g root = documentTextNoting s g root := by
  have halias : aliasText { s with ignoreBounds := b } g = aliasText s g := by
    funext id
    rw [aliasText, aliasText, Render.raw_ignoreBounds]
  have hrecord : recordText { s with ignoreBounds := b } g = recordText s g := by
    funext id
    rw [recordText, recordText, halias, Render.extended_ignoreBounds, Render.body_ignoreBounds,
      Render.inline_ignoreBounds]
  have henum : enumText { s with ignoreBounds := b } g = enumText s g := by
    funext id
    rw [enumText, enumText, halias, Render.inline_ignoreBounds]
  have hall : declarations { s with ignoreBounds := b } g = declarations s g := by
    funext rootName root
    rw [declarations, declarations, halias, hrecord, henum]
    rfl
  rw [documentTextNoting, documentTextNoting, Render.raw_ignoreBounds, hall]

end Settings

/-- Whether bounds are ignored counts for the normal form alone. -/
lemma declare_eq_of_types {s : Settings} {d d' : Document} {root root' : NodeId}
    {name : Option String} {b b' : Bool}
    (h : TypeGraph.ofDocument s (d.normalize { s with ignoreBounds := b } root name) root
      = TypeGraph.ofDocument s (d'.normalize { s with ignoreBounds := b' } root' name) root') :
    declare { s with ignoreBounds := b } d root name
      = declare { s with ignoreBounds := b' } d' root' name := by
  simp only [declare, TypeGraph.ofDocument_ignoreBounds s b, TypeGraph.ofDocument_ignoreBounds s b',
    TypeGraph.simplifyNoting_ignoreBounds s b, TypeGraph.simplifyNoting_ignoreBounds s b',
    Declare.documentTextNoting_ignoreBounds s b, Declare.documentTextNoting_ignoreBounds s b', h]

/-! ### The normal forms -/

namespace Document

variable {d e : Document} {ρ : NodeId → Role} {f : NodeId → NodeId} {root i : NodeId}
  {source : String}

lemma Unsized.distinct (h : Unsized ρ f d e) (hdistinct : e.Distinct) : d.Distinct := by
  intro i
  rw [distinctAt_iff]
  cases hnode : d.node i with
  | object entries =>
      have hobject : d.isObject i = true := by
        rw [isObject, members?, hnode]
        rfl
      obtain ⟨entries', hnode', heq⟩ :=
        (h.joins i (lt_size_of_isObject hobject)).members_eq entries hnode
      have hkeys := distinctAt_iff.mp (hdistinct (f i))
      rw [hnode'] at hkeys
      have hkept : Keyed.Distinct (entries'.filter fun e => (ρ i).keeps e.1) :=
        (List.filter_sublist.map Prod.fst).nodup hkeys
      rw [heq, Keyed.Distinct, List.map_map] at hkept
      exact hkept
  | _ => trivial

lemma Abreast.same (h : Abreast ρ f d e) : Abreast ρ id d d where
  toUnsized := h.toUnsized.same
  roots i hi := by
    obtain ⟨r, hr, hmet, hrooted, -⟩ := h.roots i hi
    exact ⟨r, hr, hmet, hrooted, hrooted⟩

/-- Schemas are found when the root holds all objects. -/
lemma Sorted.mem_schemaIds {sized : Bool} (h : d.Sorted ρ) (hup : d.Upheld root)
    (hdistinct : d.Distinct) (hsuits : d.Suits ρ .schema root) (hi : i < d.size)
    (hrole : ρ i = .schema sized) : i ∈ d.schemaIds root := by
  have hobject := h.isObject_of_schema hi hrole
  rw [mem_schemaIds_iff_position]
  exact ⟨hobject,
    Relation.ReflTransGen.mono (fun _ _ hedge => (edge_schemaEdges_iff.mp hedge).2) _ _
      (h.reaches_of_role hdistinct hsuits (hup i hobject) hrole)⟩

namespace Abreast

variable (h : Abreast ρ f d e) (hm : Marked ρ d) (hroot : root < d.size)
  (hsuits : d.Suits ρ .schema root) (s : Settings) (name : Option String)
include h hm hroot hsuits

/-- **Bounds that are ignored on both sides.** -/
lemma ofDocument_normalize (hup : d.Upheld root) (hdistinct : e.Distinct)
    (hvalid : e.violations (f root) source = []) :
    TypeGraph.ofDocument s (e.normalize { s with ignoreBounds := true } (f root) name) (f root)
      = TypeGraph.ofDocument s (d.normalize { s with ignoreBounds := true } root name) root := by
  have hdistinct' := h.toUnsized.distinct hdistinct
  have hspelled := thins_respelled h.left hdistinct' root
  obtain ⟨ρ₁, f₁, hfollows₁, hm₁⟩ := h.respelled hm hroot hsuits
  have hroot₁ := Nat.lt_of_lt_of_le hroot hfollows₁.later.size_le
  have himage := hfollows₁.later.agree root hroot
  have hsuits₁ := hfollows₁.suits_schema hroot hsuits
  have hids := hfollows₁.abreast.schemaIds_eq hroot₁ hsuits₁.isMet
  obtain ⟨ρ₂, f₂, hfollows₂, hst⟩ :=
    hfollows₁.abreast.contents hm₁ hroot₁ hsuits₁ s true name (.inl rfl)
  rw [himage] at hids
  rw [himage, ← normalize_eq, ← normalize_eq] at hfollows₂ hst
  -- an array schema is still at a position when schemas have been spelled anew, so that its image
  -- is visited, and its bounds are taken out then
  have hcalm : Calm ρ₂ f₂ (d.normalize { s with ignoreBounds := true } root name)
      (e.normalize { s with ignoreBounds := true } (f root) name) := by
    intro i hi hrole
    have hold := hfollows₂.lt_size_of_schema hi hrole
    have hmem := hfollows₁.abreast.sorted.mem_schemaIds (hup.respelled hdistinct' h.left)
      hspelled.distinct hsuits₁ hold ((hfollows₂.agree i hold).symm.trans hrole)
    have hform : (e.normalize { s with ignoreBounds := true } (f root) name).InForm
        { s with ignoreBounds := true } (f₁ i) := by
      refine inForm_normalize h.right hdistinct _ name hvalid ?_
      rw [hids]
      exact List.mem_map_of_mem hmem
    rw [hfollows₂.later.agree i hold]
    have harrays := hfollows₂.abreast.describesArrays_eq hi
    rw [hfollows₂.later.agree i hold, hst.marked i hi true hrole] at harrays
    obtain ⟨hleast, hmost⟩ := hform.unmeasured rfl harrays
    refine .of_not_has fun key hkey => ?_
    rcases List.mem_pair.mp hkey with rfl | rfl
    · exact hleast
    · exact hmost
  have htypes := TypeGraph.ofDocument_eq_of_abreast hfollows₂.abreast hcalm hst.lt
    (hfollows₂.suits_schema hroot₁ hsuits₁).isMet s
  rwa [hst.image] at htypes

/-- **Bounds that are not there.** -/
lemma ofDocument_normalize_bare :
    TypeGraph.ofDocument s (d.normalize { s with ignoreBounds := false } root name) root
      = TypeGraph.ofDocument s (d.normalize { s with ignoreBounds := true } root name) root := by
  obtain ⟨ρ₁, f₁, hfollows₁, hm₁⟩ := h.respelled hm hroot hsuits
  have hroot₁ := Nat.lt_of_lt_of_le hroot hfollows₁.later.size_le
  have hsuits₁ := hfollows₁.suits_schema hroot hsuits
  have hcalm : Calm ρ₁ id (d.respelled root) (d.respelled root) := fun i hi hrole =>
    .of_not_has fun _ hkey => hfollows₁.abreast.has_size_eq_false hi hrole hkey
  obtain ⟨ρ₂, f₂, hfollows₂, hst⟩ :=
    hfollows₁.abreast.same.contents hm₁ hroot₁ hsuits₁ s false name (.inr hcalm)
  rw [id, ← normalize_eq, ← normalize_eq] at hfollows₂ hst
  have htypes := TypeGraph.ofDocument_eq_of_abreast hfollows₂.abreast
    (hst.calm.resolve_left Bool.false_ne_true) hst.lt
    (hfollows₂.suits_schema hroot₁ hsuits₁).isMet s
  rwa [hst.image] at htypes

end Abreast

end Document

/-! ### The declarations -/

/-- **Bounds that are ignored do not count.** A value without references that follows the rules has,
with bounds ignored, the declarations of the value without the bounds of its array schemas; with
valid settings there are some. -/
theorem compile_unbounded (s : Settings) (name : Option String) (value : Json)
    (hdistinct : value.Distinct) (hplain : ∀ o ∈ value.objects, Keyed.get? o "$ref" = none)
    (hvalid : checkValue value (name.getD inlineSource) = []) :
    (compile { s with ignoreBounds := true } value name).result
        = (compile { s with ignoreBounds := false } (value.unbounded .schema) name).result ∧
      (s.isValid = true →
        ∃ text, (compile { s with ignoreBounds := true } value name).result = .ok text) := by
  obtain ⟨ρ, f, h, hm, himage, hsuits, hheld⟩ := exists_abreast value hplain
  -- from here on nothing but this is known of the value without bounds
  generalize value.unbounded .schema = bare at *
  have hroot : (inserted bare).1 < (linked bare).size := by
    rw [size_linked]
    exact (sprouts_insert bare {}).2.2.1
  have hup : (linked bare).Upheld (inserted bare).1 := fun x hx => hheld x (lt_size_of_isObject hx)
  have himages : (linked value).violations (f (inserted bare).1) (name.getD inlineSource) = [] := by
    rw [himage, ← checkValue_eq, hvalid]
  have hbare : checkValue bare (name.getD inlineSource) = [] := by
    rw [checkValue_eq]
    exact h.toUnsized.violations_eq_nil hroot hsuits.isMet himages
  cases hs : s.isValid with
  | false =>
      rw [result_compile_of_not_isValid (by exact hs), result_compile_of_not_isValid (by exact hs)]
      exact ⟨rfl, fun htrue => by cases htrue⟩
  | true =>
      have hlinked := distinct_linked_ofJson hdistinct
      rw [linkFrom_ofJson] at hlinked
      have htypes := (h.ofDocument_normalize hm hroot hsuits s name hup hlinked himages).trans
        (h.ofDocument_normalize_bare hm hroot hsuits s name).symm
      rw [himage] at htypes
      rw [result_compile hvalid (by exact hs), result_compile hbare (by exact hs),
        declare_eq_of_types htypes]
      exact ⟨rfl, fun _ => exists_result_declare _ _ _ name⟩

/-- A record with lists of lists, a list with positions and one that may be null, all with bounds,
and a field that is no list. -/
def sizedLists : Json :=
  .object [("properties", .object [
    ("rows", .object [("type", .string "array"), ("minItems", .int 1),
      ("items", .object [("items", .object [("type", .string "string")]), ("maxItems", .int 2)])]),
    ("pair", .object [("minItems", .int 1), ("maxItems", .int 3),
      ("items",
        .array [.object [("type", .string "string")], .object [("type", .string "number")]])]),
    ("some", .object [("type", .array [.string "array", .string "null"]), ("maxItems", .int 2)]),
    ("any", .object [("minItems", .int 1)])])]

/-- The record without bounds, except on the field that is no list. -/
def bareLists : Json :=
  .object [("properties", .object [
    ("rows", .object [("type", .string "array"),
      ("items", .object [("items", .object [("type", .string "string")])])]),
    ("pair", .object [
      ("items",
        .array [.object [("type", .string "string")], .object [("type", .string "number")]])]),
    ("some", .object [("type", .array [.string "array", .string "null"])]),
    ("any", .object [("minItems", .int 1)])])]

theorem compile_unbounded_sizedLists :
    sizedLists.unbounded .schema = bareLists ∧
      (compile { ignoreBounds := true } sizedLists (some "Lists")).result
        = (compile {} bareLists (some "Lists")).result ∧
      ∃ text, (compile { ignoreBounds := true } sizedLists (some "Lists")).result = .ok text := by
  have hbare : sizedLists.unbounded .schema = bareLists := by rfl
  obtain ⟨hsame, htext⟩ := compile_unbounded {} (some "Lists") sizedLists (by decide +kernel)
    (by decide +kernel) (by decide +kernel)
  rw [hbare] at hsame
  exact ⟨hbare, hsame, htext (by decide)⟩

end SchemaDecl
