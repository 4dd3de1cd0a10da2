/-
Lowering comes to an end.

Every way down from a schema leads to a schema of the document that is not on record yet, or to a
copy with one type in place of several, below which there are no further copies. With `k` schemas
still to be made, nothing is more than `2 * k + 1` levels deep.

* `Lower.Agree`: two ways down do the same, as long as no more than so many schemas are still to be
  made.
* `Lower.runs_shapeOf`, `Lower.runs_under`, `Lower.runs_intersection`, `Lower.runs_schemaWith`: each
  step of lowering does the same with ways down that agree.
* `Lower.agree_schemaBeyond`: with enough fuel it does not matter what lies beyond.
-/
import SchemaDecl.Proofs.Types.Lowering

namespace SchemaDecl.Lower

open Lowering Document

/-- From sound states with at most `k` schemas to be made, two ways down do the same, for the nodes
of which `P` holds in the document. -/
def Agree (d₀ : Document) (k : Nat) (P : Document → NodeId → Prop) (down down' : Descent) : Prop :=
  ∀ id key st, st.Sound d₀ → st.unmade d₀ ≤ k → P st.document id →
    (course d₀).Runs st (down id key) (down' id key) fun t st' => t < st'.types.size

/-- The node does not list several types. -/
def Single (d : Document) (id : NodeId) : Prop := id < d.size ∧ Category.typeIsList d id = false

variable {s : Settings} {d₀ : Document} {k : Nat} {down down' : Descent} {st : Lowering}
  {id : NodeId}

lemma lt_size_of_grows {t : TypeId} (st₁ st₂ : Lowering) (h : (course d₀).le st₁ st₂)
    (ht : t < st₁.types.size) : t < st₂.types.size := Nat.lt_of_lt_of_le ht h.size_le

/-- What was plain in a state is plain in the states that it grows to. -/
lemma Agree.later (h : Agree d₀ k (Plain d₀) down down') (hk : st.unmade d₀ ≤ k) {c : NodeId}
    (hc : Plain d₀ st.document c) (key : Option String) {st' : Lowering} (hst' : st'.Sound d₀)
    (hgrows : st.Grows st') :
    (course d₀).Runs st' (down c key) (down' c key) fun t st'' => t < st''.types.size := by
  refine h c key st' hst' (hgrows.unmade_le.trans hk) ?_
  refine ⟨Nat.lt_of_lt_of_le hc.1 hgrows.document.size_le, ?_⟩
  rw [hgrows.document.isObject_eq hc.1]
  exact hc.2

lemma Agree.mono {P : Document → NodeId → Prop} (h : Agree d₀ k P down down') {j : Nat}
    (hjk : j ≤ k) : Agree d₀ j P down down' :=
  fun id key st hst hj => h id key st hst (hj.trans hjk)

/-! ### Names -/

lemma runs_definitionsOf (hst : st.Sound d₀) (root : NodeId) :
    (course d₀).Runs st (definitionsOf root) (definitionsOf root) fun _ _ => True := by
  refine runs_get_bind ?_
  cases st.definitions.lookup root with
  | some defs => exact .pure hst trivial
  | none =>
      exact runs_document_bind ((runs_modify_aside hst rfl).bind fun _ _ hst' _ _ =>
        .pure hst' trivial)

lemma runs_definitionKey? (hst : st.Sound d₀) :
    (course d₀).Runs st (definitionKey? id) (definitionKey? id) fun _ _ => True :=
  runs_document_bind ((runs_definitionsOf hst _).bind fun _ _ hst' _ _ =>
    (runs_modify_aside hst' rfl).bind fun _ _ hst'' _ _ => .pure hst'' trivial)

lemma runs_nameHint? (hst : st.Sound d₀) (fallback : Option String) :
    (course d₀).Runs st (nameHint? id fallback) (nameHint? id fallback) fun _ _ => True := by
  refine runs_document_bind ?_
  cases (st.document.string? id "title").filter (!·.isEmpty) with
  | some title => exact .pure hst trivial
  | none =>
      cases (st.document.string? id "$id").filter (!·.isEmpty) with
      | some identifier => exact .pure hst trivial
      | none =>
          refine (runs_definitionKey? hst).bind fun key st' hst' _ _ => ?_
          cases key <;> exact .pure hst' trivial

lemma runs_claimName (hst : st.Sound d₀) (fallback : Option String) :
    (course d₀).Runs st (claimName id fallback) (claimName id fallback) fun _ _ => True := by
  refine (runs_nameHint? hst fallback).bind fun hint st' hst' _ _ => ?_
  cases hint with
  | none => exact .pure hst' trivial
  | some hint =>
      exact runs_get_bind ((runs_modify_aside hst' rfl).bind fun _ _ hst'' _ _ =>
        .pure hst'' trivial)

lemma runs_finish (hst : st.Sound d₀) {shape : Shape} (hshape : st.Holds shape)
    (key name : Option String) :
    (course d₀).Runs st (finish id shape key name) (finish id shape key name)
      fun t st' => st'.Holds t.shape :=
  runs_document_bind (.pure hst hshape)

/-! ### Shapes -/

lemma holds_top (unknownTop : Bool) : st.Holds (.top unknownTop) := by
  cases unknownTop <;> exact ⟨by simp [Shape.top], by simp [Shape.top, Shape.children]⟩

lemma runs_allocTop (hst : st.Sound d₀) (key : Option String) :
    (course d₀).Runs st (allocTop s key) (allocTop s key) fun t st' => t < st'.types.size :=
  runs_alloc hst (holds_top _)

section Shapes

variable (hdown : Agree d₀ k (Plain d₀) down down') (hst : st.Sound d₀) (hk : st.unmade d₀ ≤ k)
include hdown hst hk

lemma runs_list (key : String) :
    (course d₀).Runs st (list down id key) (list down' id key)
      fun types st' => ∀ t ∈ types, t < st'.types.size :=
  runs_document_bind (.mapM_all (fun _ => lt_size_of_grows) _ hst fun _ hc _ hst' hgrows =>
    hdown.later hk (hst.document.plain_listAt hc) none hst' hgrows)

lemma runs_enumeration :
    (course d₀).Runs st (enumeration down id) (enumeration down' id)
      fun shape st' => st'.Holds shape := by
  refine runs_document_bind (Course.Runs.bind (P := fun members st' =>
    ∀ e ∈ members, e.2 < st'.types.size) ?_ fun members st' hst' _ hmembers => .pure hst' ?_)
  · refine .mapM_all (fun _ => lt_size_of_grows) _ hst fun e he st' hst' hgrows => ?_
    have hc : Plain d₀ st.document e.1 := hst.document.plain_listAt (List.of_mem_zip he).1
    exact (hdown.later hk hc none hst' hgrows).bind fun t st'' hst'' _ ht => .pure hst'' ht
  · refine ⟨by simp, fun c hc => ?_⟩
    obtain ⟨e, he, rfl⟩ := List.mem_map.mp hc
    exact hmembers e he

lemma runs_restType? :
    (course d₀).Runs st (restType? s down id) (restType? s down' id)
      fun type? st' => ∀ t ∈ type?, t < st'.types.size := by
  refine runs_document_bind ?_
  cases hget : st.document.get? id "additionalItems" with
  | none => exact .pure hst (by simp)
  | some extra =>
      dsimp only
      split
      · exact (hdown.later hk (hst.document.plain_get? hget) none hst (.refl st)).bind
          fun t _ hst' _ ht => .pure hst' (by simpa using ht)
      · split
        · exact (runs_allocTop hst none).bind fun t _ hst' _ ht => .pure hst' (by simpa using ht)
        · exact .pure hst (by simp)

lemma runs_typedArray :
    (course d₀).Runs st (typedArray s down id) (typedArray s down' id)
      fun shape st' => st'.Holds shape := by
  have harray {st' : Lowering} {t : TypeId} (ht : t < st'.types.size) : st'.Holds (.array t) :=
    ⟨by simp, by simpa [Shape.children] using ht⟩
  have htop : (course d₀).Runs st (do return .array (← allocTop s none))
      (do return .array (← allocTop s none)) fun shape st' => st'.Holds shape :=
    (runs_allocTop hst none).bind fun t _ hst' _ ht => .pure hst' (harray ht)
  refine runs_document_bind ?_
  cases hget : st.document.get? id "items" with
  | none => exact htop
  | some items =>
      dsimp only
      cases st.document.node items with
      | leaf value => exact htop
      | object members =>
          exact (hdown.later hk (hst.document.plain_get? hget) none hst (.refl st)).bind
            fun t _ hst' _ ht => .pure hst' (harray ht)
      | array params =>
          refine (runs_list hdown hst hk "items").bind fun params st₁ hst₁ hgrows hparams => ?_
          refine (runs_restType? hdown hst₁ (hgrows.unmade_le.trans hk)).bind
            fun rest st₂ hst₂ hgrows₂ hrest => .pure hst₂ ⟨by simp, fun c hc => ?_⟩
          rcases List.mem_append.mp hc with hc | hc
          · exact Nat.lt_of_lt_of_le (hparams c hc) hgrows₂.size_le
          · exact hrest c (by simpa using hc)

lemma runs_propertyFields :
    (course d₀).Runs st (propertyFields down id) (propertyFields down' id)
      fun fields st' => ∀ f ∈ fields, f.type < st'.types.size := by
  refine runs_document_bind (.mapM_all (fun _ => lt_size_of_grows) _ hst
    fun e he st' hst' hgrows => ?_)
  exact (hdown.later hk (hst.document.plain_membersAt he) (some e.1) hst' hgrows).bind
    fun t _ hst'' _ ht => .pure hst'' ht

/-- The fields of patterns and of definitions: a note is added to the type of each. -/
lemma runs_notedFields (key : String) (note : String → String) (field : String → TypeId → Field)
    (hfield : ∀ key type, (field key type).type = type) :
    (course d₀).Runs st
      ((st.document.membersAt id key).mapM fun e => do
        let type ← down e.2 (some e.1)
        annotate type (note e.1)
        return field e.1 type)
      ((st.document.membersAt id key).mapM fun e => do
        let type ← down' e.2 (some e.1)
        annotate type (note e.1)
        return field e.1 type)
      fun fields st' => ∀ f ∈ fields, f.type < st'.types.size := by
  refine .mapM_all (fun _ => lt_size_of_grows) _ hst fun e he st' hst' hgrows => ?_
  refine (hdown.later hk (hst.document.plain_membersAt he) (some e.1) hst' hgrows).bind
    fun t st₁ hst₁ _ ht => (runs_annotate hst₁ t _).bind fun _ st₂ hst₂ hgrows₂ _ => .pure hst₂ ?_
  rw [hfield]
  exact Nat.lt_of_lt_of_le ht hgrows₂.size_le

lemma runs_patternFields (owner : Option String) :
    (course d₀).Runs st (patternFields down id owner) (patternFields down' id owner)
      fun fields st' => ∀ f ∈ fields, f.type < st'.types.size :=
  runs_document_bind (runs_notedFields hdown hst hk "patternProperties" (patternNote owner)
    (fun key type => {
      key := if hasSinglePattern st.document id then indexKey else key
      required := hasSinglePattern st.document id ||
        (st.document.strings id "required").contains key
      isPattern := !hasSinglePattern st.document id
      type }) fun _ _ => rfl)

lemma runs_definitionFields (owner : Option String) :
    (course d₀).Runs st (definitionFields down id owner) (definitionFields down' id owner)
      fun fields st' => ∀ f ∈ fields, f.type < st'.types.size :=
  runs_document_bind (runs_notedFields hdown hst hk "$defs" (definitionNote owner)
    (fun key type => {
      key
      required := (st.document.strings id "required").contains key
      isDefinition := true
      type }) fun _ _ => rfl)

lemma runs_wantedDefinitionFields (owner : Option String) :
    (course d₀).Runs st (wantedDefinitionFields s down id owner)
      (wantedDefinitionFields s down' id owner)
      fun fields st' => ∀ f ∈ fields, f.type < st'.types.size := by
  rw [wantedDefinitionFields, wantedDefinitionFields]
  split
  · exact runs_definitionFields hdown hst hk owner
  · exact .pure hst (by simp)

lemma runs_indexType? :
    (course d₀).Runs st (indexType? s down id) (indexType? s down' id)
      fun type? st' => ∀ t ∈ type?, t < st'.types.size := by
  have htop : (course d₀).Runs st (do return some (← allocTop s (some indexKey)))
      (do return some (← allocTop s (some indexKey)))
      fun type? st' => ∀ t ∈ type?, t < st'.types.size :=
    (runs_allocTop hst _).bind fun t _ hst' _ ht => .pure hst' (by simpa using ht)
  refine runs_document_bind ?_
  cases hget : st.document.get? id "additionalProperties" with
  | none =>
      dsimp only
      split
      · exact .pure hst (by simp)
      · exact htop
  | some more =>
      dsimp only
      split
      · exact (hdown.later hk (hst.document.plain_get? hget) _ hst (.refl st)).bind
          fun t _ hst' _ ht => .pure hst' (by simpa using ht)
      · split
        · exact .pure hst (by simp)
        · exact htop

lemma runs_record (name : Option String) :
    (course d₀).Runs st (record s down id name) (record s down' id name)
      fun shape st' => st'.Holds shape := by
  refine (runs_propertyFields hdown hst hk).bind fun properties st₁ hst₁ hgrows₁ hproperties => ?_
  have hk₁ := hgrows₁.unmade_le.trans hk
  refine (runs_patternFields hdown hst₁ hk₁ name).bind fun patterns st₂ hst₂ hgrows₂ hpatterns => ?_
  have hk₂ := hgrows₂.unmade_le.trans hk₁
  refine (runs_wantedDefinitionFields hdown hst₂ hk₂ name).bind
    fun definitions st₃ hst₃ hgrows₃ hdefinitions => ?_
  have hk₃ := hgrows₃.unmade_le.trans hk₂
  refine (runs_indexType? hdown hst₃ hk₃).bind fun index st₄ hst₄ hgrows₄ hindex => ?_
  have hk₄ := hgrows₄.unmade_le.trans hk₃
  refine runs_document_bind (Course.Runs.bind
    (P := fun supers st' => ∀ t ∈ supers, t < st'.types.size) ?_
    fun supers st₅ hst₅ hgrows₅ hsupers => .pure hst₅ ⟨by simp, fun c hc => ?_⟩)
  · exact .mapM_all (fun _ => lt_size_of_grows) _ hst₄ fun c hc st' hst' hgrows =>
      hdown.later hk₄ (hst₄.document.plain_listAt hc) none hst' hgrows
  -- What was there when a group of fields had been made is still there at the end.
  have h₄ : st₄.Grows st₅ := hgrows₅
  have h₃ : st₃.Grows st₅ := hgrows₄.trans h₄
  have h₂ : st₂.Grows st₅ := hgrows₃.trans h₃
  have h₁ : st₁.Grows st₅ := hgrows₂.trans h₂
  rcases List.mem_append.mp hc with hc | hc
  · obtain ⟨f, hf, rfl⟩ := List.mem_map.mp hc
    simp only [List.mem_append, List.mem_map] at hf
    rcases hf with ((hf | hf) | hf) | ⟨t, ht, rfl⟩
    · exact Nat.lt_of_lt_of_le (hproperties f hf) h₁.size_le
    · exact Nat.lt_of_lt_of_le (hpatterns f hf) h₂.size_le
    · exact Nat.lt_of_lt_of_le (hdefinitions f hf) h₃.size_le
    · exact Nat.lt_of_lt_of_le (hindex t (by simpa using ht)) h₄.size_le
  · exact hsupers c hc

end Shapes

lemma runs_untypedArray (hst : st.Sound d₀) :
    (course d₀).Runs st (untypedArray s id) (untypedArray s id)
      fun shape st' => st'.Holds shape := by
  refine runs_document_bind ((runs_allocTop hst none).bind fun top st' hst' _ htop => ?_)
  split
  · exact .pure hst' ⟨by simp, by simpa [Shape.children] using htop⟩
  · refine .pure hst' ⟨by simp, fun c hc => ?_⟩
    have heq : c = top := by
      rcases List.mem_append.mp hc with hc | hc
      · exact List.eq_of_mem_replicate hc
      · split at hc
        · exact List.mem_singleton.mp hc
        · cases hc
    exact heq ▸ htop

/-- The union of the copies of a schema with one type in place of several, given ways down that
agree on copies. -/
lemma runs_typeUnion (hcopy : Agree d₀ k Single down down') (hst : st.Sound d₀)
    (hk : st.unmade d₀ ≤ k) (hid : id < st.document.size)
    (hobject : st.document.isObject id = true) :
    (course d₀).Runs st (typeUnion down id) (typeUnion down' id)
      fun shape st' => st'.Holds shape := by
  have halternative {st' : Lowering} (hst' : st'.Sound d₀) (hgrows : st.Grows st') (name : String) :
      (course d₀).Runs st' (alternative down id name) (alternative down' id name)
        fun t st'' => t < st''.types.size := by
    have hobject' : st'.document.isObject id = true :=
      (hgrows.document.isObject_eq hid).trans hobject
    obtain ⟨hextends, hderived, hlt, hsingle⟩ := hst'.document.withType hobject' name
    refine runs_document_bind ((runs_setDocument hst' hextends hderived).bind
      fun _ st'' hst'' hgrows' hdocument => ?_)
    refine hcopy _ none st'' hst'' ((hgrows.trans hgrows').unmade_le.trans hk) ?_
    rw [hdocument]
    exact ⟨hlt, hsingle⟩
  refine runs_document_bind (Course.Runs.bind
    (P := fun types st' => ∀ t ∈ types, t < st'.types.size) ?_
    fun types st' hst' _ htypes => .pure hst' ⟨by simp, htypes⟩)
  exact .mapM_all (fun _ => lt_size_of_grows) _ hst fun name _ st' hst' hgrows =>
    halternative hst' hgrows name

/-- **The shape of a schema** is made, of types that are there. -/
lemma runs_shapeOf (hdown : Agree d₀ k (Plain d₀) down down') {category : Category}
    (hcopy : category = .union → Agree d₀ k Single down down') (hst : st.Sound d₀)
    (hk : st.unmade d₀ ≤ k) (hid : id < st.document.size) (hobject : st.document.isObject id = true)
    (name : Option String) :
    (course d₀).Runs st (shapeOf s down id name category) (shapeOf s down' id name category)
      fun shape st' => st'.Holds shape := by
  have hleaf {shape : Shape} (hne : shape ≠ .pending) (hnil : shape.children = []) :
      st.Holds shape := ⟨hne, by simp [hnil]⟩
  have hlist (key : String) {make : List TypeId → Shape} (hne : ∀ l, make l ≠ .pending)
      (hmake : ∀ l, (make l).children = l) :
      (course d₀).Runs st (do return make (← list down id key))
        (do return make (← list down' id key)) fun shape st' => st'.Holds shape :=
    (runs_list hdown hst hk key).bind fun types _ hst' _ htypes =>
      .pure hst' ⟨hne types, by rw [hmake]; exact htypes⟩
  cases category with
  | allOf => exact hlist "allOf" (by simp) fun _ => rfl
  | any => exact .pure hst (holds_top _)
  | anyOf => exact hlist "anyOf" (by simp) fun _ => rfl
  | boolean => exact .pure hst (hleaf (by simp) rfl)
  | customType => exact runs_document_bind (.pure hst (hleaf (by simp) rfl))
  | namedEnum => exact runs_enumeration hdown hst hk
  | namedSchema => exact runs_record hdown hst hk name
  | null => exact .pure hst (hleaf (by simp) rfl)
  | number => exact .pure hst (hleaf (by simp) rfl)
  | object => exact .pure hst (hleaf (by simp) rfl)
  | oneOf => exact hlist "oneOf" (by simp) fun _ => rfl
  | reference => exact runs_document_bind (.pure hst (hleaf (by simp) rfl))
  | string => exact .pure hst (hleaf (by simp) rfl)
  | typedArray => exact runs_typedArray hdown hst hk
  | union => exact runs_typeUnion (hcopy rfl) hst hk hid hobject
  | unnamedEnum => exact hlist "enum" (by simp) fun _ => rfl
  | unnamedSchema => exact runs_record hdown hst hk name
  | untypedArray => exact runs_untypedArray hst

/-! ### Types of schemas -/

/-- The ways down agree once an aspect is on record. Copies are only made of a schema that lists
several types. -/
def AgreeBelow (d₀ : Document) (st : Lowering) (aspect : Aspect) (copies : Prop)
    (down down' : Descent) : Prop :=
  st.made.lookup aspect = none →
    Agree d₀ ((st.reserved aspect).unmade d₀) (Plain d₀) down down' ∧
    (copies → Agree d₀ ((st.reserved aspect).unmade d₀) Single down down')

section Made

variable (hst : st.Sound d₀) (hid : id < st.document.size)
  (hobject : st.document.isObject id = true)
include hst hid hobject

lemma runs_under {category : Category}
    (hdown : AgreeBelow d₀ st (id, some category) (category = .union) down down')
    (key : Option String) :
    (course d₀).Runs st (under s down id category key) (under s down' id category key)
      fun t st' => t < st'.types.size ∧ st'.made.lookup (id, some category) = some t := by
  refine runs_once hst fun hnone => ?_
  obtain ⟨hplain, hcopy⟩ := hdown hnone
  refine (runs_claimName (hst.reserved hnone) _).bind fun name st₁ hst₁ hgrows _ => ?_
  have hid₁ : id < st₁.document.size := Nat.lt_of_lt_of_le hid hgrows.document.size_le
  have hobject₁ : st₁.document.isObject id = true := (hgrows.document.isObject_eq hid).trans hobject
  exact (runs_shapeOf hplain hcopy hst₁ hgrows.unmade_le hid₁ hobject₁ name).bind
    fun shape _ hst₂ _ hshape => runs_finish hst₂ hshape key name

lemma runs_intersection {categories : List Category}
    (hdown : AgreeBelow d₀ st (id, none) (.union ∈ categories) down down') (key : Option String) :
    (course d₀).Runs st (intersection s down id categories key)
      (intersection s down' id categories key)
      fun t st' => t < st'.types.size ∧ st'.made.lookup (id, none) = some t := by
  refine runs_once hst fun hnone => ?_
  obtain ⟨hplain, hcopy⟩ := hdown hnone
  refine (runs_claimName (hst.reserved hnone) _).bind fun name st₁ hst₁ hgrows₁ _ => ?_
  have hobject₁ : st₁.document.isObject id = true :=
    (hgrows₁.document.isObject_eq hid).trans hobject
  obtain ⟨hextends, hderived, hlt, hcopied⟩ :=
    hst₁.document.copyWithout hobject₁ ["$id", "title", "description", "name"]
  refine runs_document_bind ((runs_setDocument hst₁ hextends hderived).bind
    fun _ st₂ hst₂ hgrows₂ hdocument => ?_)
  rw [← hdocument] at hlt hcopied
  refine Course.Runs.bind (P := fun types st' => ∀ t ∈ types, t < st'.types.size) ?_
    fun members st₃ hst₃ _ hmembers => runs_finish hst₃ ⟨by simp, hmembers⟩ key name
  refine .mapM_all (fun _ => lt_size_of_grows) _ hst₂ fun category hcategory st' hst' hgrows => ?_
  refine (runs_under hst' (Nat.lt_of_lt_of_le hlt hgrows.document.size_le)
    ((hgrows.document.isObject_eq hlt).trans hcopied) (fun hnone' => ?_) key).imp fun _ _ h => h.1
  have hle : (st'.reserved (_, some category)).unmade d₀ ≤ (st.reserved (id, none)).unmade d₀ :=
    (unmade_reserved_le hnone').trans (hgrows₁.trans (hgrows₂.trans hgrows)).unmade_le
  exact ⟨hplain.mono hle, fun heq => (hcopy (heq ▸ hcategory)).mono hle⟩

end Made

/-- The type is on record for the node, if that is a schema. -/
def Recorded (id : NodeId) (t : TypeId) (st : Lowering) : Prop :=
  t < st.types.size ∧
    (st.document.isObject id = true → st.made.lookup (st.document.aspect id) = some t)

lemma runs_literal (hst : st.Sound d₀) (key : Option String) :
    (course d₀).Runs st (literal id key) (literal id key) fun t st' => t < st'.types.size :=
  runs_document_bind (runs_alloc hst ⟨by simp, by simp [Shape.children]⟩)

lemma runs_schemaWith (hst : st.Sound d₀) (hid : id < st.document.size)
    (hdown : st.document.isObject id = true → AgreeBelow d₀ st (st.document.aspect id)
      (.union ∈ st.document.categories id) down down') (key : Option String) :
    (course d₀).Runs st (schemaWith s down id key) (schemaWith s down' id key) (Recorded id) := by
  refine runs_document_bind ?_
  by_cases hobject : st.document.isObject id = true
  · -- The aspect under which a type is made is the same when it is asked for again.
    have hrecorded {t : TypeId} {st' : Lowering} (hgrows : st.Grows st')
        (ht : t < st'.types.size ∧ st'.made.lookup (st.document.aspect id) = some t) :
        Recorded id t st' := by
      rw [Recorded, hgrows.document.aspect_eq hst.document.closed hid]
      exact ⟨ht.1, fun _ => ht.2⟩
    have hbelow := hdown hobject
    rw [if_pos hobject, if_pos hobject]
    rw [Document.aspect] at hrecorded hbelow
    rcases hcategories : st.document.categories id with _ | ⟨category, _ | ⟨second, rest⟩⟩
    · simp only [hcategories] at hrecorded hbelow
      exact (runs_intersection hst hid hobject hbelow key).imp_of_le fun t st' => hrecorded
    · simp only [hcategories] at hrecorded hbelow
      refine (runs_under hst hid hobject (fun hnone => ?_) key).imp_of_le fun t st' => hrecorded
      exact (hbelow hnone).imp_right fun hcopy heq => hcopy (by simp [heq])
    · simp only [hcategories] at hrecorded hbelow
      exact (runs_intersection hst hid hobject hbelow key).imp_of_le fun t st' => hrecorded
  · rw [if_neg hobject, if_neg hobject]
    refine (runs_literal hst key).imp_of_le fun t st' hgrows ht => ⟨ht, fun hobject' => ?_⟩
    rw [hgrows.document.isObject_eq hid] at hobject'
    exact absurd hobject' hobject

lemma runs_answering (hid : id < st.document.size) {make make' : Lower TypeId}
    (h : (course d₀).Runs st make make' (Recorded id)) :
    (course d₀).Runs st (answering id make) (answering id make')
      fun t st' => t < st'.types.size := by
  have hlater := (h.imp_of_le (Q := fun t st' => Recorded id t st' ∧ id < st'.document.size)
    fun _ _ hgrows ht => ⟨ht, Nat.lt_of_lt_of_le hid hgrows.document.size_le⟩)
  refine hlater.bind fun t st' hst' _ ht => Course.Runs.bind (P := fun _ st'' =>
    t < st''.types.size) (.modify ?_ ?_ ht.1.1) fun _ _ hst'' _ ht' => .pure hst'' ht'
  · refine ⟨hst'.document, hst'.types, hst'.made, fun a ha => ?_⟩
    rcases List.mem_cons.mp ha with rfl | ha
    · exact ⟨ht.2, ht.1.2⟩
    · exact hst'.answers a ha
  · exact ⟨.refl _, fun _ _ h => h, Nat.le_refl _, fun _ h h' => ⟨h, h'⟩⟩

/-! ### All the way down -/

/-- A schema that does not list several types is not of the category `union`. -/
lemma union_not_mem_categories {d : Document} (h : Category.typeIsList d id = false) :
    .union ∉ d.categories id := by
  intro hmem
  rw [categories] at hmem
  split at hmem
  · simp at hmem
  · have hfound : .union ∈ Category.sought.filter (Category.holds d id) := by
      revert hmem
      split
      case h_1 hnil => simp
      case h_2 => exact fun h => h
    have hholds := (List.mem_filter.mp hfound).2
    rw [Category.holds, h] at hholds
    cases hholds

/-- **Lowering comes to an end**: with `k` schemas still to be made, `2 * k + 1` levels are enough
for the nodes of the document, and one more for a copy with one type in place of several. What would
lie beyond makes no difference. -/
theorem agree_schemaBeyond (s : Settings) (beyond beyond' : Descent) (n n' : Nat) :
    (∀ k, 2 * k + 1 ≤ n → 2 * k + 1 ≤ n' →
      Agree d₀ k (Plain d₀) (schemaBeyond s beyond n) (schemaBeyond s beyond' n')) ∧
    (∀ k, 2 * k + 2 ≤ n → 2 * k + 2 ≤ n' →
      Agree d₀ k Single (schemaBeyond s beyond n) (schemaBeyond s beyond' n')) := by
  induction n generalizing n' with
  | zero => exact ⟨fun k hn _ => by omega, fun k hn _ => by omega⟩
  | succ n ih =>
      cases n' with
      | zero => exact ⟨fun k _ hn' => by omega, fun k _ hn' => by omega⟩
      | succ n' =>
          obtain ⟨ihplain, ihcopy⟩ := ih n'
          refine ⟨fun k hn hn' id key st hst hk hid => ?_, fun k hn hn' id key st hst hk hid => ?_⟩
          · refine runs_answering hid.1 (runs_schemaWith hst hid.1 (fun hobject hnone => ?_) key)
            -- A schema of the document is one less to be made below.
            have hid₀ : id < d₀.size := hid.2.resolve_right (by simp [hobject])
            rw [hst.document.base.aspect_eq hst.document.base_closed hid₀] at hnone ⊢
            rw [hst.document.base.isObject_eq hid₀] at hobject
            have hlt := unmade_reserved_lt hid₀ hobject hnone
            exact ⟨ihplain _ (by omega) (by omega), fun _ => ihcopy _ (by omega) (by omega)⟩
          · refine runs_answering hid.1 (runs_schemaWith hst hid.1 (fun hobject hnone => ?_) key)
            have hle : (st.reserved (st.document.aspect id)).unmade d₀ ≤ st.unmade d₀ :=
              unmade_reserved_le hnone
            exact ⟨ihplain _ (by omega) (by omega),
              fun hunion => absurd hunion (union_not_mem_categories hid.2)⟩

end SchemaDecl.Lower
