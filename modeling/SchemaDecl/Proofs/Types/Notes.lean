/-
Which notes on types are there in the end.

Each step of lowering keeps the notes on types that are made, and the records that it makes can be
reached from its results. So a note can only be lost on a type that encloses the record.

* `Lower.Leads`: a way down gives types from which the records that it makes can be reached.
* `Lower.noted_record`: the types of the patterns and definitions of a record have their notes.
* `Lower.leads_schemaBeyond`: ways down, all the way.
* `Lowering.ofDocument_notes_kept`: **a note is there unless the type encloses the record.**
* `Lowering.selfishDocument_loses_note`: a note that is lost.
-/
import SchemaDecl.Compile
import SchemaDecl.Proofs.Types.Enclosure

namespace SchemaDecl

namespace Lower

open Lowering Document

variable {s : Settings} {d₀ : Document} {st st' : Lowering} {id : NodeId} {α β : Type}

/-! ### Shapes -/

/-- The results for the items of a list, one after the other. -/
lemma noted_mapM {f : α → Lower β} (kid : β → TypeId) {Q : α → β → Lowering → Prop}
    (hQ : ∀ a b st₁ st₂, st₁.Keeps st₂ → Q a b st₁ → Q a b st₂) (l : List α)
    (hst : st.IsNoted s d₀)
    (h : ∀ a ∈ l, ∀ st', st'.IsNoted s d₀ → st.Keeps st' → (notedCourse s d₀).Runs st' (f a) (f a)
      fun b st'' => Spans st'.types.size st'' [kid b] ∧ Q a b st'') :
    (notedCourse s d₀).Runs st (l.mapM f) (l.mapM f) fun bs st' =>
      Spans st.types.size st' (bs.map kid) ∧ List.Forall₂ (Q · · st') l bs := by
  induction l generalizing st with
  | nil => exact .pure hst ⟨.nil st, .nil⟩
  | cons a l ih =>
      rw [List.mapM_cons]
      refine .bind (h a List.mem_cons_self st hst (.refl st)) fun b st₁ hst₁ hle₁ hb => ?_
      have hrest := ih hst₁ fun a' ha' st' hst' hle' =>
        h a' (List.mem_cons_of_mem _ ha') st' hst' (hle₁.trans hle')
      refine .bind hrest fun bs st₂ hst₂ hle₂ hbs => .pure hst₂ ⟨?_, ?_⟩
      · exact hb.1.append hle₂.adds hle₁.adds.size_le hbs.1
      · exact .cons (hQ a b st₁ st₂ hle₂ hb.2) hbs.2

/-- From noted states a way down gives a type from which the records that it makes can be
reached. -/
def Leads (s : Settings) (d₀ : Document) (down : Descent) : Prop :=
  ∀ id key st, st.IsNoted s d₀ → id < st.document.size →
    (notedCourse s d₀).Runs st (down id key) (down id key)
      fun t st' => Spans st.types.size st' [t]

section Shapes

variable {down : Descent} (hdown : Leads s d₀ down) (hst : st.IsNoted s d₀)
include hdown

/-- A node that was there in a state is asked for in a later one. -/
lemma Leads.later {c : NodeId} (hc : c < st.document.size) (key : Option String)
    {st' : Lowering} (hst' : st'.IsNoted s d₀) (hkeeps : st.Keeps st') :
    (notedCourse s d₀).Runs st' (down c key) (down c key)
      fun t st'' => Spans st'.types.size st'' [t] :=
  hdown c key st' hst' (Nat.lt_of_lt_of_le hc hkeeps.adds.document.size_le)

include hst

lemma noted_items (key : String) :
    (notedCourse s d₀).Runs st ((st.document.listAt id key).mapM fun item => down item none)
      ((st.document.listAt id key).mapM fun item => down item none)
      fun types st' => Spans st.types.size st' types := by
  refine (noted_mapM (fun t => t) (Q := fun _ _ _ => True) (fun _ _ _ _ _ h => h) _ hst
    fun c hc st' hst' hkeeps => ?_).imp fun types st' h => by simpa using h.1
  exact (hdown.later (hst.faithful.document.closed.listAt_lt hc) none hst' hkeeps).imp
    fun _ _ h => ⟨h, trivial⟩

lemma noted_list (key : String) :
    (notedCourse s d₀).Runs st (list down id key) (list down id key)
      fun types st' => Spans st.types.size st' types :=
  runs_document_bind (noted_items hdown hst key)

lemma noted_enumeration :
    (notedCourse s d₀).Runs st (enumeration down id) (enumeration down id)
      fun shape st' => Spans st.types.size st' shape.children := by
  refine runs_document_bind (Course.Runs.bind (noted_mapM Prod.snd
    (Q := fun _ _ _ => True) (fun _ _ _ _ _ h => h) _ hst fun e he st' hst' hkeeps => ?_)
    fun members st' hst' _ h => .pure hst' h.1)
  have hlt := hst.faithful.document.closed.listAt_lt (List.of_mem_zip he).1
  exact (hdown.later hlt none hst' hkeeps).bind fun t st'' hst'' _ h => .pure hst'' ⟨h, trivial⟩

lemma noted_restType? :
    (notedCourse s d₀).Runs st (restType? s down id) (restType? s down id)
      fun rest st' => Spans st.types.size st' rest.toList := by
  refine runs_document_bind ?_
  cases hget : st.document.get? id "additionalItems" with
  | none => exact .pure hst (.nil st)
  | some extra =>
      have hlt := hst.faithful.document.closed.get?_lt hget
      dsimp only
      split_ifs
      · exact (hdown.later hlt none hst (.refl st)).bind fun t _ hst' _ h => .pure hst' h
      · exact (noted_allocTop hst none).bind fun t _ hst' _ h =>
          .pure hst' (h.2.of_nil (by simpa using h.1))
      · exact .pure hst (.nil st)

lemma noted_typedArray :
    (notedCourse s d₀).Runs st (typedArray s down id) (typedArray s down id)
      fun shape st' => Spans st.types.size st' shape.children := by
  have htop : (notedCourse s d₀).Runs st (do return Shape.array (← allocTop s none))
      (do return Shape.array (← allocTop s none))
      fun shape st' => Spans st.types.size st' shape.children :=
    (noted_allocTop hst none).bind fun t _ hst' _ h =>
      .pure hst' (h.2.of_nil (by simpa [Shape.children] using h.1))
  refine runs_document_bind ?_
  cases hget : st.document.get? id "items" with
  | none => exact htop
  | some items =>
      dsimp only
      cases st.document.node items with
      | leaf value => exact htop
      | object members =>
          exact (hdown.later (hst.faithful.document.closed.get?_lt hget) none hst (.refl st)).bind
            fun t _ hst' _ h => .pure hst' h
      | array list =>
          refine (noted_list hdown hst "items").bind fun params st₁ hst₁ hle₁ h₁ => ?_
          refine (noted_restType? hdown hst₁).bind fun rest st₂ hst₂ hle₂ h₂ => .pure hst₂ ?_
          exact h₁.append hle₂.adds hle₁.adds.size_le h₂

/-- A field, with a note on its type. -/
lemma noted_remarked {c : NodeId} (hc : c < st.document.size) (key : Option String) (note : String)
    {field : TypeId → Field} (htype : ∀ t, (field t).type = t) :
    (notedCourse s d₀).Runs st
      (down c key >>= fun t => annotate t note >>= fun _ => pure (field t))
      (down c key >>= fun t => annotate t note >>= fun _ => pure (field t))
      fun f st' => Spans st.types.size st' [f.type] ∧ st'.Placed f.type note := by
  refine (hdown.later hc key hst (.refl st)).bind fun t st₁ hst₁ _ h₁ => ?_
  refine (noted_annotate hst₁ (h₁.lt t (List.mem_singleton_self t)) note).bind
    fun _ st₂ hst₂ _ h₂ => .pure hst₂ ?_
  rw [htype]
  exact ⟨h₁.of_shape h₂.2.1 h₂.2.2, h₂.1⟩

omit hdown in
/-- The fields of the members of a map, with a note on the type of each. -/
lemma noted_fields {key : String} {note : String → String} {make : String × NodeId → Lower Field}
    (hmake : ∀ e st', st'.IsNoted s d₀ → e.2 < st'.document.size →
      (notedCourse s d₀).Runs st' (make e) (make e)
        fun f st'' => Spans st'.types.size st'' [f.type] ∧ st''.Placed f.type (note e.1)) :
    (notedCourse s d₀).Runs st ((st.document.membersAt id key).mapM make)
      ((st.document.membersAt id key).mapM make)
      fun fields st' => Spans st.types.size st' (fields.map (·.type)) ∧
        List.Forall₂ (fun e f => st'.Placed f.type (note e.1)) (st.document.membersAt id key)
          fields :=
  noted_mapM Field.type (Q := fun (e : String × NodeId) f st' => st'.Placed f.type (note e.1))
    (fun _ _ _ _ hkeeps h => h.later hkeeps) _ hst fun e he st' hst' hkeeps =>
      hmake e st' hst' (Nat.lt_of_lt_of_le (hst.faithful.document.closed.membersAt_lt he)
        hkeeps.adds.document.size_le)

lemma noted_propertyFields :
    (notedCourse s d₀).Runs st (propertyFields down id) (propertyFields down id)
      fun fields st' => Spans st.types.size st' (fields.map (·.type)) ∧
        fields.length = (st.document.membersAt id "properties").length := by
  refine runs_document_bind ((noted_mapM Field.type (Q := fun _ _ _ => True)
    (fun _ _ _ _ _ h => h) _ hst fun e he st' hst' hkeeps => ?_).imp
      fun fields st' h => ⟨h.1, h.2.length_eq.symm⟩)
  have hlt := hst.faithful.document.closed.membersAt_lt he
  exact (hdown.later hlt _ hst' hkeeps).bind fun t st'' hst'' _ h => .pure hst'' ⟨h, trivial⟩

lemma noted_patternFields (owner : Option String) :
    (notedCourse s d₀).Runs st (patternFields down id owner) (patternFields down id owner)
      fun fields st' => Spans st.types.size st' (fields.map (·.type)) ∧
        List.Forall₂ (fun e f => st'.Placed f.type (patternNote owner e.1))
          (st.document.membersAt id "patternProperties") fields :=
  runs_document_bind (noted_fields hst fun e _ hst' he =>
    noted_remarked hdown hst' he (some e.1) _ fun _ => rfl)

lemma noted_definitionFields (owner : Option String) :
    (notedCourse s d₀).Runs st (definitionFields down id owner) (definitionFields down id owner)
      fun fields st' => Spans st.types.size st' (fields.map (·.type)) ∧
        List.Forall₂ (fun e f => st'.Placed f.type (definitionNote owner e.1))
          (st.document.membersAt id "$defs") fields :=
  runs_document_bind (noted_fields hst fun e _ hst' he =>
    noted_remarked hdown hst' he (some e.1) _ fun _ => rfl)

lemma noted_wantedDefinitionFields (owner : Option String) :
    (notedCourse s d₀).Runs st (wantedDefinitionFields s down id owner)
      (wantedDefinitionFields s down id owner)
      fun fields st' => Spans st.types.size st' (fields.map (·.type)) ∧
        (s.unreachableDefinitions = true →
          List.Forall₂ (fun e f => st'.Placed f.type (definitionNote owner e.1))
            (st.document.membersAt id "$defs") fields) := by
  rw [wantedDefinitionFields]
  split
  · exact (noted_definitionFields hdown hst owner).imp fun _ _ h => ⟨h.1, fun _ => h.2⟩
  · next hwanted => exact .pure hst ⟨.nil st, fun h => absurd h hwanted⟩

lemma noted_indexType? :
    (notedCourse s d₀).Runs st (indexType? s down id) (indexType? s down id)
      fun index st' => Spans st.types.size st' index.toList := by
  have htop : (notedCourse s d₀).Runs st (do return some (← allocTop s (some indexKey)))
      (do return some (← allocTop s (some indexKey)))
      fun index st' => Spans st.types.size st' index.toList :=
    (noted_allocTop hst _).bind fun t _ hst' _ h =>
      .pure hst' (h.2.of_nil (by simpa using h.1))
  refine runs_document_bind ?_
  cases hget : st.document.get? id "additionalProperties" with
  | none =>
      dsimp only
      split_ifs
      · exact .pure hst (.nil st)
      · exact htop
  | some more =>
      dsimp only
      split_ifs
      · exact (hdown.later (hst.faithful.document.closed.get?_lt hget) _ hst (.refl st)).bind
          fun t _ hst' _ h => .pure hst' h
      · exact .pure hst (.nil st)
      · exact htop

lemma noted_record (hid : id < st.document.size) (name : Option String) :
    (notedCourse s d₀).Runs st (record s down id name) (record s down id name)
      fun shape st' => Spans st.types.size st' shape.children ∧
        NotedShape s st'.document id name st'.Placed shape := by
  have hd := hst.faithful.document.closed
  refine (noted_propertyFields hdown hst).bind fun properties st₁ hst₁ hle₁ h₁ => ?_
  refine (noted_patternFields hdown hst₁ name).bind fun patterns st₂ hst₂ hle₂ h₂ => ?_
  refine (noted_wantedDefinitionFields hdown hst₂ name).bind
    fun definitions st₃ hst₃ hle₃ h₃ => ?_
  refine (noted_indexType? hdown hst₃).bind fun index st₄ hst₄ hle₄ h₄ => ?_
  refine runs_document_bind ((noted_items hdown hst₄ "extends").bind
    fun supers st₅ hst₅ hle₅ h₅ => .pure hst₅ ⟨?_, ?_⟩)
  · have hfields := (((h₁.1.append hle₂.adds hle₁.adds.size_le h₂.1).append hle₃.adds
      (hle₁.trans hle₂).adds.size_le h₃.1).append hle₄.adds
        ((hle₁.trans hle₂).trans hle₃).adds.size_le h₄).append hle₅.adds
          (((hle₁.trans hle₂).trans hle₃).trans hle₄).adds.size_le h₅
    simpa [Shape.children, List.map_append, Function.comp_def] using hfields
  · -- All of it is read in the schema as it was at the start.
    have hext₁ : st.document.Extends st₁.document := hle₁.adds.document
    have hext₂ := hext₁.trans hle₂.adds.document
    have hext₅ := ((hext₂.trans hle₃.adds.document).trans hle₄.adds.document).trans
      hle₅.adds.document
    rw [hext₁.membersAt_eq hd hid] at h₂
    rw [hext₂.membersAt_eq hd hid] at h₃
    have hkeeps₃ := hle₄.trans hle₅
    refine ⟨properties, patterns, definitions, index.toList.map fun type =>
      { key := indexKey, required := true, type : Field }, supers, by simp, ?_, ?_, ?_⟩ <;>
      rw [hext₅.membersAt_eq hd hid]
    · exact h₁.2
    · exact h₂.2.imp fun _ _ h => h.later (hle₃.trans hkeeps₃)
    · exact fun hwanted => (h₃.2 hwanted).imp fun _ _ h => h.later hkeeps₃

/-- The union of the copies of a schema with one type in place of several. -/
lemma noted_typeUnion (hid : id < st.document.size) (hobject : st.document.isObject id = true) :
    (notedCourse s d₀).Runs st (typeUnion down id) (typeUnion down id)
      fun shape st' => Spans st.types.size st' shape.children := by
  refine runs_document_bind (Course.Runs.bind (noted_mapM (fun t => t) (Q := fun _ _ _ => True)
    (fun _ _ _ _ _ h => h) _ hst fun name _ st' hst' hkeeps => ?_)
    fun types st' hst' _ h => .pure hst' (by simpa [Shape.children] using h.1))
  have hobject' : st'.document.isObject id = true :=
    (hkeeps.adds.document.isObject_eq hid).trans hobject
  obtain ⟨hextends, hderived, hlt, -⟩ := hst'.faithful.document.withType hobject' name
  refine runs_document_bind ?_
  generalize withType st'.document id name = copied at *
  obtain ⟨copy, d⟩ := copied
  refine (noted_setDocument hst' hextends hderived).bind fun _ st₁ hst₁ _ hst₁' => ?_
  rw [← hst₁'.1] at hlt
  refine (hdown copy none st₁ hst₁ hlt).imp fun t st₂ h => ⟨?_, trivial⟩
  rwa [hst₁'.2] at h

omit hdown in
lemma noted_untypedArray :
    (notedCourse s d₀).Runs st (untypedArray s id) (untypedArray s id)
      fun shape st' => Spans st.types.size st' shape.children := by
  refine runs_document_bind ((noted_allocTop hst none).bind fun top st' hst' _ h => ?_)
  split
  · exact .pure hst' (h.2.of_nil (by simpa [Shape.children] using h.1))
  · refine .pure hst' (h.2.of_nil fun c hc => ?_)
    obtain rfl : c = top := by
      simp only [Shape.children, List.mem_append, List.mem_replicate] at hc
      rcases hc with hc | hc
      · exact hc.2
      · split at hc <;> simp_all
    exact h.1

end Shapes

/-- **The shape of a schema**, with the notes on what it is made of. -/
lemma noted_shapeOf {down : Descent} (hdown : Leads s d₀ down) (hst : st.IsNoted s d₀)
    (hid : id < st.document.size) (hobject : st.document.isObject id = true) (name : Option String)
    (category : Category) :
    (notedCourse s d₀).Runs st (shapeOf s down id name category) (shapeOf s down id name category)
      fun shape st' => Spans st.types.size st' shape.children ∧
        (category ∈ [Category.namedSchema, .unnamedSchema] →
          NotedShape s st'.document id name st'.Placed shape) := by
  have hplain {m : Lower Shape} (hcategory : category ∉ [Category.namedSchema, .unnamedSchema])
      (h : (notedCourse s d₀).Runs st m m fun shape st' => Spans st.types.size st' shape.children) :
      (notedCourse s d₀).Runs st m m fun shape st' => Spans st.types.size st' shape.children ∧
        (category ∈ [Category.namedSchema, .unnamedSchema] →
          NotedShape s st'.document id name st'.Placed shape) :=
    h.imp fun _ _ hspans => ⟨hspans, fun hmem => absurd hmem hcategory⟩
  have hlist (key : String) (make : List TypeId → Shape)
      (hmake : ∀ types, (make types).children = types) :
      (notedCourse s d₀).Runs st (do return make (← list down id key))
        (do return make (← list down id key))
        fun shape st' => Spans st.types.size st' shape.children :=
    (noted_list hdown hst key).bind fun types _ hst' _ h => .pure hst' (by rwa [hmake])
  cases category with
  | allOf => exact hplain (by decide) (hlist "allOf" .intersection fun _ => rfl)
  | anyOf => exact hplain (by decide) (hlist "anyOf" .union fun _ => rfl)
  | oneOf => exact hplain (by decide) (hlist "oneOf" .union fun _ => rfl)
  | unnamedEnum => exact hplain (by decide) (hlist "enum" .union fun _ => rfl)
  | customType => exact hplain (by decide) (runs_document_bind (.pure hst (.nil st)))
  | reference => exact hplain (by decide) (runs_document_bind (.pure hst (.nil st)))
  | namedEnum => exact hplain (by decide) (noted_enumeration hdown hst)
  | namedSchema => exact (noted_record hdown hst hid name).imp fun _ _ h => ⟨h.1, fun _ => h.2⟩
  | unnamedSchema => exact (noted_record hdown hst hid name).imp fun _ _ h => ⟨h.1, fun _ => h.2⟩
  | typedArray => exact hplain (by decide) (noted_typedArray hdown hst)
  | untypedArray => exact hplain (by decide) (noted_untypedArray hst)
  | union => exact hplain (by decide) (noted_typeUnion hdown hst hid hobject)
  | any => exact hplain (by decide) (.pure hst (by rw [children_top]; exact .nil st))
  | _ => exact hplain (by decide) (.pure hst (.nil st))

/-! ### All the way down -/

section Made

variable {down : Descent} (hanswers : Answers s d₀ down) (hdown : Leads s d₀ down)
  (hst : st.IsNoted s d₀) (hid : id < st.document.size)
  (hobject : st.document.isObject id = true)
include hanswers hdown hst hid hobject

lemma noted_under (category : Category) (key : Option String) :
    (notedCourse s d₀).Runs st (under s down id category key) (under s down id category key)
      fun t st' => Spans st.types.size st' [t] := by
  refine noted_once _ hst (answers_under hanswers hst.faithful hid hobject category key)
    fun name st' hst' hdocument => ?_
  rw [← hdocument] at hid hobject
  refine (noted_shapeOf hdown hst' hid hobject name category).imp
    fun shape st'' h => ⟨h.1, fun x category' hcategory' haspect => ?_⟩
  obtain ⟨rfl, rfl⟩ : id = x ∧ category = category' := by simpa using haspect
  exact h.2 hcategory'

lemma noted_intersection (key : Option String) :
    (notedCourse s d₀).Runs st (intersection s down id (st.document.categories id) key)
      (intersection s down id (st.document.categories id) key)
      fun t st' => Spans st.types.size st' [t] := by
  refine noted_once (fun _ => do
    let copied := (← document).copyWithout id ["$id", "title", "description", "name"]
    setDocument copied.2
    let members ← (st.document.categories id).mapM fun category =>
      under s down copied.1 category key
    return .intersection members) hst (answers_intersection hanswers hst.faithful hid hobject key)
    fun _ st' hst' hdocument => ?_
  rw [← hdocument] at hid hobject
  obtain ⟨hextends, hderived, hlt, hcopied⟩ :=
    hst'.faithful.document.copyWithout hobject ["$id", "title", "description", "name"]
  refine runs_document_bind ?_
  generalize st'.document.copyWithout id ["$id", "title", "description", "name"] = copied at *
  obtain ⟨copy, d⟩ := copied
  refine (noted_setDocument hst' hextends hderived).bind fun _ st₁ hst₁ _ hst₁' => ?_
  rw [← hst₁'.1] at hlt hcopied
  rw [← hst₁'.2]
  refine Course.Runs.bind (noted_mapM (fun t => t) (Q := fun _ _ _ => True) (fun _ _ _ _ _ h => h) _
    hst₁ fun category _ st₂ hst₂ hkeeps => ?_)
    fun types st₂ hst₂ _ h => .pure hst₂ ⟨by simpa [Shape.children] using h.1, by simp⟩
  exact (noted_under hanswers hdown hst₂ (Nat.lt_of_lt_of_le hlt hkeeps.adds.document.size_le)
    ((hkeeps.adds.document.isObject_eq hlt).trans hcopied) category key).imp
      fun _ _ h => ⟨h, trivial⟩

end Made

lemma leads_schemaWith {down : Descent} (hanswers : Answers s d₀ down) (hdown : Leads s d₀ down) :
    Leads s d₀ (schemaWith s down) := by
  intro id key st hst hid
  refine runs_document_bind ?_
  by_cases hobject : st.document.isObject id = true
  · rw [if_pos hobject]
    have hintersection := noted_intersection hanswers hdown hst hid hobject key
    rcases hcategories : st.document.categories id with _ | ⟨category, _ | ⟨second, rest⟩⟩
    · rw [hcategories] at hintersection
      exact hintersection
    · exact noted_under hanswers hdown hst hid hobject category key
    · rw [hcategories] at hintersection
      exact hintersection
  · rw [if_neg hobject]
    exact noted_literal hst key

lemma leads_promise : Leads s d₀ promise := by
  intro id key st hst hid
  refine runs_document_bind ?_
  by_cases hobject : st.document.isObject id = true
  · rw [if_pos hobject]
    cases hmade : st.made.lookup (st.document.aspect id) with
    | some t => exact noted_once_of_made hst hmade
    | none =>
        have hsize : (st.reserved (st.document.aspect id)).types.size = st.types.size + 1 :=
          size_types_reserved
        refine noted_once_of_fills hst hmade (runs_once_pending hst.faithful _) rfl
          (isNoted_reserved hst hmade)
          ⟨hsize ▸ Nat.lt_succ_self _, fun t _ => shape_reserved t, ?_, hsize ▸ .nil _⟩
          (keeps_reserved hmade).bears fun _ _ _ _ h => absurd rfl h
        rw [shape_reserved, TypeGraph.shape, TypeGraph.node_of_size_le (Nat.le_refl _)]
  · rw [if_neg hobject]
    exact noted_literal hst key

lemma leads_schemaBeyond {beyond : Descent} (hanswers : Answers s d₀ beyond)
    (hbeyond : Leads s d₀ beyond) (fuel : Nat) : Leads s d₀ (schemaBeyond s beyond fuel) := by
  induction fuel with
  | zero => exact hbeyond
  | succ fuel ih =>
      exact fun id key st hst hid => noted_answering
        (leads_schemaWith (answers_schemaBeyond hanswers fuel) ih id key st hst hid)

end Lower

namespace Lowering

open Lower

variable {s : Settings} {d d₀ : Document} {st : Lowering} {x root : NodeId} {shape : Shape}

/-- The fields of the members of a map: the type of each stands for the value, and what is said of
it holds. -/
def NotedFields (st : Lowering) (d : Document) (x : NodeId) (key : String)
    (field : String → TypeId → Field) (Q : TypeId → String → Prop) (fields : List Field) : Prop :=
  ∀ e ∈ d.membersAt x key, ∃ u, st.Gives e.2 u ∧ field e.1 u ∈ fields ∧ Q u e.1

lemma GivesFields.noted {key : String} {field : String → TypeId → Field} {fields all : List Field}
    {Q : TypeId → String → Prop} (htype : ∀ name t, (field name t).type = t)
    (h : st.GivesFields d x key field fields)
    (hQ : List.Forall₂ (fun e f => Q f.type e.1) (d.membersAt x key) fields) (hsub : fields ⊆ all) :
    NotedFields st d x key field Q all := by
  rw [GivesFields] at h
  rw [NotedFields]
  generalize d.membersAt x key = members at h hQ ⊢
  induction h with
  | nil => simp
  | cons hf _ ih =>
      obtain ⟨u, hu, rfl⟩ := hf
      obtain ⟨hhead, htail⟩ := List.forall₂_cons.mp hQ
      obtain ⟨hmem, hsub⟩ := List.cons_subset.mp hsub
      rw [htype] at hhead
      exact List.forall_mem_cons.mpr ⟨⟨u, hu, hmem, hhead⟩, ih hsub htail⟩

/-- What a record says, and the notes on what it is made of. -/
lemma DepictsRecord.noted {name : Option String} {Q : TypeId → String → Prop}
    (hdepicts : st.DepictsRecord s d x shape) (hnoted : NotedShape s d x name Q shape) :
    ∃ r, shape = .record r ∧
      NotedFields st d x "patternProperties" (patternField d x)
        (fun u key => Q u (patternNote name key)) r.fields ∧
      (s.unreachableDefinitions = true →
        NotedFields st d x "$defs" (definitionField d x)
          (fun u key => Q u (definitionNote name key)) r.fields) := by
  obtain ⟨properties, patterns, definitions, index, supers, hproperties, hpatterns, hdefinitions,
    -, -, rfl⟩ := hdepicts
  obtain ⟨properties', patterns', definitions', rest, supers', hshape, hlength, hnotes, hnotes'⟩ :=
    hnoted
  simp only [List.append_assoc, Shape.record.injEq, RecordType.mk.injEq] at hshape
  -- The groups of fields are as long as the maps they come from, and so the same.
  obtain ⟨-, htail⟩ := List.append_inj hshape.1 (hproperties.length_eq.symm.trans hlength.symm)
  obtain ⟨rfl, hlast⟩ := List.append_inj htail (hpatterns.length_eq.symm.trans hnotes.length_eq)
  refine ⟨_, rfl, hpatterns.noted (fun _ _ => rfl) hnotes fun f hf => by simp [hf],
    fun hwanted => ?_⟩
  rw [GivesDefinitions, if_pos hwanted] at hdefinitions
  have hlength' := hdefinitions.length_eq.symm.trans (hnotes' hwanted).length_eq
  obtain ⟨rfl, -⟩ := List.append_inj hlast hlength'
  exact hdefinitions.noted (fun _ _ => rfl) (hnotes' hwanted) fun f hf => by simp [hf]

lemma isNoted_start (hd : d.Closed) : IsNoted s d { document := d } where
  faithful := faithful_start hd
  closed := (sound_start hd).types
  noted x category hcategory t ht := by simp at ht

/-- **A note is there unless the type encloses the record.** The type of an object schema is a
record. The type of each of its patterns, and of each of its definitions if those are asked for,
stands for the value; it carries the note that names the record and the key, unless the record was
made inside it. -/
theorem ofDocument_notes_kept (s : Settings) (d : Document) (root : NodeId) (hd : d.Closed)
    (hroot : root < d.size) (x : NodeId) (category : Category)
    (hcategory : category = .namedSchema ∨ category = .unnamedSchema) (t : TypeId)
    (hmade : (ofDocument s d root).2.made.lookup (x, some category) = some t) :
    let st := (ofDocument s d root).2
    ∃ r, st.types.shape t = .record r ∧
      NotedFields st st.document x "patternProperties" (patternField st.document x)
        (fun u key => ¬ st.types.Encloses u t →
          st.types.Bears u (patternNote (st.types.node t).name key)) r.fields ∧
      (s.unreachableDefinitions = true →
        NotedFields st st.document x "$defs" (definitionField st.document x)
          (fun u key => ¬ st.types.Encloses u t →
            st.types.Bears u (definitionNote (st.types.node t).name key)) r.fields) := by
  intro st
  obtain ⟨hfaithful, -, -, hpending⟩ := faithful_ofDocument s hd hroot
  have hnoted : st.IsNoted s d := by
    have hruns := leads_schemaBeyond (s := s) answers_promise leads_promise (2 * d.size + 1) root
      none { document := d } (isNoted_start hd) hroot
    have hsame : ofDocument s d root =
        (schemaBeyond s promise (2 * d.size + 1) root none).run { document := d } :=
      (runs_ofDocument (s := s) hd hroot promise (Nat.le_refl _)).same
    change (ofDocument s d root).2.IsNoted s d
    rw [hsame]
    exact hruns.inv
  have hmade' := hpending t (hfaithful.made_lt _ t hmade)
  have hrecord : st.DepictsRecord s st.document x (st.types.shape t) := by
    obtain ⟨-, hdepicts⟩ := hfaithful.depicts _ t hmade hmade'
    rcases hcategory with rfl | rfl <;> exact hdepicts
  have hshape := hnoted.noted x category (by simpa using hcategory) t hmade hmade'
  refine hrecord.noted (Q := fun u note => ¬ st.types.Encloses u t → st.types.Bears u note)
    (hshape.imp fun u _ note hsafe hencloses => ?_)
  obtain ⟨hlt, hplaced⟩ := hsafe.resolve_right hencloses
  exact hplaced.resolve_left (hpending u hlt)

/-- A record with a pattern of which the values have a property that is the record again. -/
def ringedRecord : Document :=
  ⟨#[⟨.object [("title", 1), ("type", 2), ("patternProperties", 3)], .root⟩,
    ⟨.leaf (.string "R"), .under 0⟩, ⟨.leaf (.string "object"), .under 0⟩,
    ⟨.object [("^a", 4)], .under 0⟩,
    ⟨.object [("title", 5), ("type", 6), ("properties", 7)], .under 3⟩,
    ⟨.leaf (.string "S"), .under 4⟩, ⟨.leaf (.string "object"), .under 4⟩,
    ⟨.object [("r", 0)], .under 4⟩]⟩

/-- The type of the values leads back to the record, and carries the note. -/
theorem ofDocument_notes_kept_ringedRecord :
    let d := ringedRecord.normalize {} 0 none
    let st := (ofDocument {} d 0).2
    d.Closed ∧ st.made.lookup (0, some .unnamedSchema) = some 0 ∧ st.Gives 4 1 ∧
      st.types.Child 0 1 ∧ st.types.Child 1 0 ∧
      st.types.Bears 1 (patternNote (some "R") "^a") := by
  intro d st
  have hclosed : d.Closed := by decide +kernel
  have hroot : 0 < d.size := by decide +kernel
  have hmade : (ofDocument {} d 0).2.made.lookup (0, some .unnamedSchema) = some 0 := by
    decide +kernel
  have hobject : st.document.isObject 4 = true := by decide +kernel
  have hlt : 4 < st.document.size := by decide +kernel
  have hvalue : st.made.lookup (st.document.aspect 4) = some 1 := by decide +kernel
  have hmembers : st.document.membersAt 0 "patternProperties" = [("^a", 4)] := by decide +kernel
  have hname : (st.types.node 0).name = some "R" := by decide +kernel
  have hchild : st.types.Child 0 1 := by
    rw [TypeGraph.Child]
    decide +kernel
  have hchild' : st.types.Child 1 0 := by
    rw [TypeGraph.Child]
    decide +kernel
  obtain ⟨r, -, hpatterns, -⟩ :=
    ofDocument_notes_kept {} d 0 hclosed hroot 0 .unnamedSchema (.inr rfl) 0 hmade
  refine ⟨hclosed, hmade, ⟨hlt, by rw [if_pos hobject]; exact hvalue⟩, hchild, hchild', ?_⟩
  obtain ⟨u, hu, -, hnote⟩ := hpatterns ("^a", 4) (by
    change _ ∈ st.document.membersAt 0 "patternProperties"
    rw [hmembers]
    exact List.mem_singleton_self _)
  change st.Gives 4 u at hu
  change ¬ st.types.Encloses u 0 →
    st.types.Bears u (patternNote (st.types.node 0).name "^a") at hnote
  clear_value st
  obtain rfl : u = 1 := by
    obtain ⟨-, hu⟩ := hu
    rw [if_pos hobject, hvalue] at hu
    exact (Option.some.inj hu).symm
  rw [hname] at hnote
  exact hnote fun hencloses => absurd hencloses.le (by decide)

/-- A record with a pattern of which the values are records like it. -/
def selfishDocument : Document :=
  ⟨#[⟨.object [("title", 1), ("type", 2), ("patternProperties", 3)], .root⟩,
    ⟨.leaf (.string "R"), .under 0⟩, ⟨.leaf (.string "object"), .under 0⟩,
    ⟨.object [("^a", 0)], .under 0⟩]⟩

/-- The record takes its comment from its schema when it is made, and the note is lost. -/
theorem selfishDocument_loses_note :
    let d := selfishDocument.normalize {} 0 none
    let st := (ofDocument {} d 0).2
    d.Closed ∧ st.made.lookup (0, some .unnamedSchema) = some 0 ∧
      st.document.membersAt 0 "patternProperties" = [("^a", 0)] ∧ st.Gives 0 0 ∧
      st.types.Encloses 0 0 ∧ (st.types.node 0).name = some "R" ∧
      ¬ st.types.Bears 0 (patternNote (some "R") "^a") ∧
      (compileDocument {} selfishDocument 0 none).result.toOption
        = some "export interface R \x7b\n[k: string]: R\n\x7d\n" := by
  intro d st
  have hcomment : (st.types.node 0).comment = none := by decide +kernel
  have hobject : st.document.isObject 0 = true := by decide +kernel
  have hvalue : st.made.lookup (st.document.aspect 0) = some 0 := by decide +kernel
  refine ⟨by decide +kernel, by decide +kernel, by decide +kernel,
    ⟨by decide +kernel, by rw [if_pos hobject]; exact hvalue⟩, .refl, by decide +kernel, ?_,
    by decide +kernel⟩
  rintro ⟨text, htext, -⟩
  rw [hcomment] at htext
  cases htext

end Lowering

end SchemaDecl
