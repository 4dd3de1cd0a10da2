/-
The trail of lowering.

Lowering is a sequence of small steps: a number is taken for the type of a schema and put on record,
a schema is looked up among the definitions, a name is handed out, a type is made and fills its
number, a comment gets a note, a copy is added to the document, and an answer is noted down. What
such steps keep is kept by lowering as a whole.

* `Lowering.Step`: one step, with what has to be so when it is taken.
* `Lower.Follows`: a way down takes such steps, and notes its answer down.
* `Lower.follows_shapeOf`, `Lower.follows_schemaWith`, `Lower.follows_schemaBeyond`: so do the parts
  of lowering.
* `Lowering.trail_ofDocument`: **lowering a document is a sequence of steps.**
* `Lowering.Traced`: what is found on the way comes from the root, types come from schemas, and
  comments are made of descriptions and notes (`Lowering.traced_ofDocument`).
-/
import SchemaDecl.Proofs.Document.Reach
import SchemaDecl.Proofs.Types.Making

namespace SchemaDecl

namespace Lowering

variable {s : Settings} {d₀ : Document} {root : NodeId} {st st' st'' : Lowering}

/-! ### Steps -/

/-- A name that was handed out, or none. -/
def HandedOut (owner : Option String) : Prop :=
  ∃ (names : Names) (hints : List String), owner.toList = names.issued hints

/-- The schema is on record under a category of schemas that records are made of. -/
def OnRecord (st : Lowering) (x : NodeId) : Prop :=
  ∃ category ∈ [Category.namedSchema, Category.unnamedSchema], ∃ t,
    st.made.lookup (x, some category) = some t

/-- The text is a note on the type that was answered for an entry of a schema: for a pattern, or for
a definition if those are asked for. -/
inductive Note (s : Settings) (st : Lowering) (t : TypeId) : String → Prop
  | pattern {x value : NodeId} {key : String} {owner : Option String} (hx : st.OnRecord x)
      (hentry : (key, value) ∈ st.document.membersAt x "patternProperties")
      (hvalue : ⟨value, t⟩ ∈ st.answers) (howner : HandedOut owner) :
      Note s st t (Lower.patternNote owner key)
  | definition {x value : NodeId} {key : String} {owner : Option String}
      (hwanted : s.unreachableDefinitions = true) (hx : st.OnRecord x)
      (hentry : (key, value) ∈ st.document.membersAt x "$defs")
      (hvalue : ⟨value, t⟩ ∈ st.answers) (howner : HandedOut owner) :
      Note s st t (Lower.definitionNote owner key)

/-- The shape needs no schema: it is the one of what nothing describes, or a literal. -/
def IsBare (s : Settings) (shape : Shape) : Prop :=
  shape = .top s.unknownTop ∨ ∃ value, shape = .literal value

/-- One step of lowering a document `d₀` from a root. -/
inductive Step (s : Settings) (d₀ : Document) (root : NodeId) : Lowering → Lowering → Prop
  | name {st : Lowering} (names : Names) : Step s d₀ root st { st with names }
  | lookup {st : Lowering} {id : NodeId} (hreached : d₀.Reached st.document root id)
      (hobject : st.document.isObject id = true) : Step s d₀ root st (Lower.consulted st id)
  | bare {st : Lowering} {t : TypeNode} (hshape : IsBare s t.shape) (hcomment : t.comment = none) :
      Step s d₀ root st { st with types := (st.types.alloc t).2 }
  | reserve {st : Lowering} {aspect : Aspect} (hnone : st.made.lookup aspect = none)
      (hasked : d₀.Asked st.document root aspect) : Step s d₀ root st (st.reserved aspect)
  | fill {st : Lowering} {aspect : Aspect} {id : TypeId} {t : TypeNode}
      (hmade : st.made.lookup aspect = some id)
      (hcomment : t.comment = st.document.string? aspect.1 "description") :
      Step s d₀ root st (st.filled id t)
  | note {st : Lowering} {t : TypeId} {text : String} (h : st.Note s t text) :
      Step s d₀ root st ((Lower.annotate t text).run st).2
  | copy {st : Lowering} {d : Document} (hextends : st.document.Extends d)
      (hderived : d.DerivedFrom d₀) : Step s d₀ root st { st with document := d }
  | answer {st : Lowering} {id : NodeId} {t : TypeId}
      (hreached : d₀.Reached st.document root id) :
      Step s d₀ root st { st with answers := ⟨id, t⟩ :: st.answers }

/-- Nodes, records and answers stay. -/
structure Carries (st st' : Lowering) : Prop where
  document : st.document.Extends st'.document
  made : ∀ aspect t, st.made.lookup aspect = some t → st'.made.lookup aspect = some t
  answers : st.answers ⊆ st'.answers

lemma Carries.refl (st : Lowering) : st.Carries st := ⟨.refl _, fun _ _ h => h, List.Subset.refl _⟩

lemma Carries.trans (h : st.Carries st') (h' : st'.Carries st'') : st.Carries st'' :=
  ⟨h.document.trans h'.document, fun aspect t ht => h'.made aspect t (h.made aspect t ht),
    List.Subset.trans h.answers h'.answers⟩

lemma Step.carries (h : Step s d₀ root st st') : st.Carries st' := by
  cases h with
  | reserve hnone _ => exact ⟨.refl _, fun _ _ ht => lookup_reserved hnone ht, List.Subset.refl _⟩
  | copy hextends _ => exact ⟨hextends, fun _ _ ht => ht, List.Subset.refl _⟩
  | answer _ => exact ⟨.refl _, fun _ _ ht => ht, List.subset_cons_self _ _⟩
  | @lookup id _ _ =>
      obtain ⟨definitions, lookups, hstate⟩ := Lower.keepsAside_consulted st id
      rw [hstate]
      exact ⟨.refl _, fun _ _ ht => ht, List.Subset.refl _⟩
  | _ => exact ⟨.refl _, fun _ _ ht => ht, List.Subset.refl _⟩

/-- Steps one after the other. -/
def Trail (s : Settings) (d₀ : Document) (root : NodeId) : Lowering → Lowering → Prop :=
  Relation.ReflTransGen (Step s d₀ root)

lemma Trail.carries (h : Trail s d₀ root st st') : st.Carries st' := by
  induction h with
  | refl => exact .refl st
  | tail _ hstep ih => exact ih.trans hstep.carries

/-- States with a document derived from `d₀`, along trails. -/
def trailCourse (s : Settings) (d₀ : Document) (root : NodeId) : Course Lowering where
  inv st := st.document.DerivedFrom d₀
  le := Trail s d₀ root
  refl _ := .refl
  trans := Relation.ReflTransGen.trans

/-- An entry of a map under a key of a node stays. -/
lemma Carries.mem_membersAt (h : st.Carries st') (hd : st.document.Closed) {x : NodeId}
    {key : String} {e : String × NodeId} (he : e ∈ st.document.membersAt x key) :
    e ∈ st'.document.membersAt x key := by
  obtain ⟨map, hget, -⟩ := Document.exists_get?_of_mem_membersAt he
  have hx := Document.lt_size_of_isObject (Document.isObject_of_get? hget)
  rwa [h.document.membersAt_eq hd hx]

lemma OnRecord.later {x : NodeId} (h : st.OnRecord x) (hcarries : st.Carries st') :
    st'.OnRecord x := by
  obtain ⟨category, hcategory, t, ht⟩ := h
  exact ⟨category, hcategory, t, hcarries.made _ t ht⟩

end Lowering

namespace Lower

open Lowering Document

/-- A way down goes along a trail, for nodes that are found from the root, and notes its answer
down. -/
def Follows (s : Settings) (d₀ : Document) (root : NodeId) (down : Descent) : Prop :=
  ∀ id key st, st.document.DerivedFrom d₀ → d₀.Reached st.document root id →
    (trailCourse s d₀ root).Runs st (down id key) (down id key) fun t st' => ⟨id, t⟩ ∈ st'.answers

variable {s : Settings} {d₀ : Document} {root : NodeId} {down : Descent} {st st' : Lowering}
  {id c : NodeId}

/-! ### Single steps -/

lemma follows_step {α : Type} {m : Lower α} {Q : α → Lowering → Prop}
    (hstep : Step s d₀ root st (m.run st).2) (hst : (m.run st).2.document.DerivedFrom d₀)
    (hQ : Q (m.run st).1 (m.run st).2) : (trailCourse s d₀ root).Runs st m m Q :=
  ⟨rfl, hst, .single hstep, hQ⟩

/-- A type with a note added to its comment. -/
def noted (t : TypeNode) (note : String) : TypeNode :=
  { t with comment := some (match t.remark? with
      | some remark => remark ++ "\n\n" ++ note
      | none => note) }

lemma annotate_run (t : TypeId) (note : String) (st : Lowering) :
    ((annotate t note).run st).2 = st.filled t (noted (st.types.node t) note) := rfl

lemma follows_allocTop (hst : st.document.DerivedFrom d₀) (key : Option String) :
    (trailCourse s d₀ root).Runs st (allocTop s key) (allocTop s key) fun _ _ => True :=
  follows_step (.bare (.inl rfl) rfl) hst trivial

lemma follows_literal (hst : st.document.DerivedFrom d₀) (key : Option String) :
    (trailCourse s d₀ root).Runs st (literal id key) (literal id key) fun _ _ => True :=
  follows_step (.bare (.inr ⟨_, rfl⟩) rfl) hst trivial

lemma follows_claimName (hst : st.document.DerivedFrom d₀) (hid : d₀.Reached st.document root id)
    (hobject : st.document.isObject id = true) (fallback : Option String) :
    (trailCourse s d₀ root).Runs st (claimName id fallback) (claimName id fallback)
      fun name _ => HandedOut name := by
  obtain ⟨hints, st', hst', hname, hstate⟩ := claimName_run id fallback st
  have htrail : Trail s d₀ root st st' := by
    rcases hst' with rfl | rfl
    · exact .refl
    · exact .single (.lookup hid hobject)
  refine ⟨rfl, ?_, ?_, ⟨_, hints, hname⟩⟩ <;> rw [hstate]
  · obtain ⟨definitions, lookups, haside⟩ := keepsAside_consulted st id
    rcases hst' with rfl | rfl
    · exact hst
    · rw [haside]
      exact hst
  · exact htrail.tail (.name _)

/-- What is made once goes along a trail, if what makes it does and it takes the description of the
schema as the comment. -/
lemma follows_once (hst : st.document.DerivedFrom d₀) {aspect : Aspect} {make : Lower TypeNode}
    (hasked : d₀.Asked st.document root aspect)
    (hmake : ∀ t, (st.reserved aspect).made.lookup aspect = some t →
      (trailCourse s d₀ root).Runs (st.reserved aspect) make make fun t st' =>
        t.comment = st'.document.string? aspect.1 "description") :
    (trailCourse s d₀ root).Runs st (once aspect make) (once aspect make) fun _ _ => True := by
  cases hmade : st.made.lookup aspect with
  | some t =>
      have hrun : (once aspect make).run st = (t, st) := by rw [once_run, hmade]
      refine ⟨rfl, ?_, ?_, trivial⟩ <;> rw [hrun]
      · exact hst
      · exact .refl
  | none =>
      have hrun : (once aspect make).run st = (st.types.size,
          (make.run (st.reserved aspect)).2.filled st.types.size
            (make.run (st.reserved aspect)).1) := by
        rw [once_run, hmade]
      obtain ⟨-, hderived, htrail, hcomment⟩ := hmake _ lookup_reserved_self
      have hfill := Trail.carries htrail |>.made aspect _ lookup_reserved_self
      refine ⟨rfl, ?_, ?_, trivial⟩ <;> rw [hrun]
      · exact hderived
      · exact ((Relation.ReflTransGen.single (.reserve hmade hasked)).trans htrail).tail
          (.fill hfill hcomment)

/-! ### Shapes -/

section Shapes

variable (hdown : Follows s d₀ root down) (hst : st.document.DerivedFrom d₀)
  (hid : d₀.Reached st.document root id)
include hdown hst hid

/-- A node below a schema is asked for later. -/
lemma Follows.later (hc : st.document.Below id c) (key : Option String)
    (hst' : st'.document.DerivedFrom d₀) (htrail : (trailCourse s d₀ root).le st st') :
    (trailCourse s d₀ root).Runs st' (down c key) (down c key)
      fun t st'' => ⟨c, t⟩ ∈ st''.answers := by
  have hextends := (Trail.carries htrail).document
  exact hdown c key st' hst' (hextends.reached hst.closed (.down hid hc))

lemma follows_items {key : String}
    (hkey : key ∈ ["allOf", "anyOf", "oneOf", "enum", "items", "extends"]) :
    (trailCourse s d₀ root).Runs st ((st.document.listAt id key).mapM fun item => down item none)
      ((st.document.listAt id key).mapM fun item => down item none) fun _ _ => True := by
  refine Course.Runs.imp (.mapM_all (Q := fun _ _ => True) (fun _ _ _ _ _ => trivial) _ hst
    fun c hc st' hst' hle => ?_) fun _ _ _ => trivial
  exact (hdown.later hst hid (.listed hkey hc) none hst' hle).imp fun _ _ _ => trivial

lemma follows_list {key : String}
    (hkey : key ∈ ["allOf", "anyOf", "oneOf", "enum", "items", "extends"]) :
    (trailCourse s d₀ root).Runs st (list down id key) (list down id key) fun _ _ => True :=
  runs_document_bind (follows_items hdown hst hid hkey)

lemma follows_enumeration :
    (trailCourse s d₀ root).Runs st (enumeration down id) (enumeration down id)
      fun _ _ => True := by
  refine runs_document_bind (Course.Runs.bind (.mapM_all (Q := fun _ _ => True)
    (fun _ _ _ _ _ => trivial) _ hst fun e he st' hst' hle => ?_) fun _ _ hst' _ _ =>
      .pure hst' trivial)
  exact (hdown.later hst hid (.listed (by simp) (List.of_mem_zip he).1) none hst' hle).bind
    fun _ _ hst'' _ _ => .pure hst'' trivial

lemma follows_restType? :
    (trailCourse s d₀ root).Runs st (restType? s down id) (restType? s down id)
      fun _ _ => True := by
  refine runs_document_bind ?_
  cases hget : st.document.get? id "additionalItems" with
  | none => exact .pure hst trivial
  | some extra =>
      dsimp only
      split_ifs with hobject
      · exact (hdown.later hst hid (.single (by simp) hget hobject) none hst .refl).bind
          fun _ _ hst' _ _ => .pure hst' trivial
      · exact (follows_allocTop hst none).bind fun _ _ hst' _ _ => .pure hst' trivial
      · exact .pure hst trivial

lemma follows_typedArray :
    (trailCourse s d₀ root).Runs st (typedArray s down id) (typedArray s down id)
      fun _ _ => True := by
  have htop : (trailCourse s d₀ root).Runs st (do return Shape.array (← allocTop s none))
      (do return Shape.array (← allocTop s none)) fun _ _ => True :=
    (follows_allocTop hst none).bind fun _ _ hst' _ _ => .pure hst' trivial
  refine runs_document_bind ?_
  cases hget : st.document.get? id "items" with
  | none => exact htop
  | some items =>
      dsimp only
      cases hnode : st.document.node items with
      | leaf value => exact htop
      | object members =>
          have hobject : st.document.isObject items = true := by
            rw [isObject, members?_of_node hnode]
            rfl
          exact (hdown.later hst hid (.single (by simp) hget hobject) none hst .refl).bind
            fun _ _ hst' _ _ => .pure hst' trivial
      | array list =>
          refine (follows_list hdown hst hid (by simp)).bind fun _ st₁ hst₁ hle₁ _ => ?_
          have hid₁ := (Trail.carries hle₁).document.reached hst.closed hid
          exact (follows_restType? hdown hst₁ hid₁).bind fun _ _ hst₂ _ _ => .pure hst₂ trivial

lemma follows_propertyFields :
    (trailCourse s d₀ root).Runs st (propertyFields down id) (propertyFields down id)
      fun _ _ => True := by
  refine runs_document_bind (Course.Runs.imp (.mapM_all (Q := fun _ _ => True)
    (fun _ _ _ _ _ => trivial) _ hst fun e he st' hst' hle => ?_) fun _ _ _ => trivial)
  exact (hdown.later hst hid (.named (by simp) he) _ hst' hle).bind
    fun _ _ hst'' _ _ => .pure hst'' trivial

/-- The fields of patterns and of definitions: each type gets a note. -/
lemma follows_notedFields {key : String} (hkey : key ∈ ["properties", "patternProperties", "$defs"])
    {note : String → String} (field : String → TypeId → Field)
    (hnote : ∀ e ∈ st.document.membersAt id key, ∀ st' t, st.Carries st' →
      ⟨e.2, t⟩ ∈ st'.answers → st'.Note s t (note e.1)) :
    (trailCourse s d₀ root).Runs st
      ((st.document.membersAt id key).mapM fun e => do
        let type ← down e.2 (some e.1)
        annotate type (note e.1)
        return field e.1 type)
      ((st.document.membersAt id key).mapM fun e => do
        let type ← down e.2 (some e.1)
        annotate type (note e.1)
        return field e.1 type) fun _ _ => True := by
  refine Course.Runs.imp (.mapM_all (Q := fun _ _ => True) (fun _ _ _ _ _ => trivial) _ hst
    fun e he st' hst' hle => ?_) fun _ _ _ => trivial
  refine (hdown.later hst hid (.named hkey he) _ hst' hle).bind fun t st₁ hst₁ hle₁ ht => ?_
  have hcarries := (Trail.carries hle).trans (Trail.carries hle₁)
  have hannotate : (trailCourse s d₀ root).Runs st₁ (annotate t (note e.1)) (annotate t (note e.1))
      fun _ _ => True := follows_step (.note (hnote e he st₁ t hcarries ht)) hst₁ trivial
  exact hannotate.bind fun _ _ hst₂ _ _ => .pure hst₂ trivial

variable (hrecord : st.OnRecord id) {owner : Option String} (howner : HandedOut owner)
include hrecord howner

lemma follows_patternFields :
    (trailCourse s d₀ root).Runs st (patternFields down id owner) (patternFields down id owner)
      fun _ _ => True :=
  runs_document_bind (follows_notedFields hdown hst hid (by simp) (patternField st.document id)
    fun _ he _ _ hcarries ht =>
      .pattern (hrecord.later hcarries) (hcarries.mem_membersAt hst.closed he) ht howner)

lemma follows_wantedDefinitionFields :
    (trailCourse s d₀ root).Runs st (wantedDefinitionFields s down id owner)
      (wantedDefinitionFields s down id owner) fun _ _ => True := by
  rw [wantedDefinitionFields]
  split
  case isTrue hwanted =>
    exact runs_document_bind (follows_notedFields hdown hst hid (by simp)
      (definitionField st.document id) fun _ he _ _ hcarries ht =>
        .definition hwanted (hrecord.later hcarries) (hcarries.mem_membersAt hst.closed he) ht
          howner)
  case isFalse => exact .pure hst trivial

omit hrecord howner in
lemma follows_indexType? :
    (trailCourse s d₀ root).Runs st (indexType? s down id) (indexType? s down id)
      fun _ _ => True := by
  have htop : (trailCourse s d₀ root).Runs st (do return some (← allocTop s (some indexKey)))
      (do return some (← allocTop s (some indexKey))) fun _ _ => True :=
    (follows_allocTop hst _).bind fun _ _ hst' _ _ => .pure hst' trivial
  refine runs_document_bind ?_
  cases hget : st.document.get? id "additionalProperties" with
  | none =>
      dsimp only
      split_ifs
      · exact .pure hst trivial
      · exact htop
  | some more =>
      dsimp only
      split_ifs with hobject
      · exact (hdown.later hst hid (.single (by simp) hget hobject) _ hst .refl).bind
          fun _ _ hst' _ _ => .pure hst' trivial
      · exact .pure hst trivial
      · exact htop

lemma follows_record :
    (trailCourse s d₀ root).Runs st (record s down id owner) (record s down id owner)
      fun _ _ => True := by
  -- The schema is found, and on record, in every state that is passed.
  have hlater {st' : Lowering} (hle : (trailCourse s d₀ root).le st st') :
      d₀.Reached st'.document root id ∧ st'.OnRecord id :=
    ⟨(Trail.carries hle).document.reached hst.closed hid, hrecord.later (Trail.carries hle)⟩
  refine (follows_propertyFields hdown hst hid).bind fun _ st₁ hst₁ hle₁ _ => ?_
  obtain ⟨hid₁, hrecord₁⟩ := hlater hle₁
  refine (follows_patternFields hdown hst₁ hid₁ hrecord₁ howner).bind fun _ st₂ hst₂ hle₂ _ => ?_
  have hle₂ := hle₁.trans hle₂
  obtain ⟨hid₂, hrecord₂⟩ := hlater hle₂
  refine (follows_wantedDefinitionFields hdown hst₂ hid₂ hrecord₂ howner).bind
    fun _ st₃ hst₃ hle₃ _ => ?_
  have hle₃ := hle₂.trans hle₃
  refine (follows_indexType? hdown hst₃ (hlater hle₃).1).bind fun _ st₄ hst₄ hle₄ _ => ?_
  have hle₄ := hle₃.trans hle₄
  exact runs_document_bind ((follows_items hdown hst₄ (hlater hle₄).1 (by simp)).bind
    fun _ _ hst₅ _ _ => .pure hst₅ trivial)

end Shapes

lemma follows_untypedArray (hst : st.document.DerivedFrom d₀) :
    (trailCourse s d₀ root).Runs st (untypedArray s id) (untypedArray s id) fun _ _ => True := by
  refine runs_document_bind ((follows_allocTop hst none).bind fun _ _ hst' _ _ => ?_)
  split <;> exact .pure hst' trivial

/-- The document is added to. -/
lemma follows_setDocument {d : Document} (hextends : st.document.Extends d)
    (hderived : d.DerivedFrom d₀) :
    (trailCourse s d₀ root).Runs st (setDocument d) (setDocument d)
      fun _ st' => st' = { st with document := d } :=
  follows_step (.copy hextends hderived) hderived rfl

section Schema

variable (hdown : Follows s d₀ root down) (hst : st.document.DerivedFrom d₀)
  (hid : d₀.Reached st.document root id) (hobject : st.document.isObject id = true)
include hdown hst hid hobject

lemma follows_typeUnion :
    (trailCourse s d₀ root).Runs st (typeUnion down id) (typeUnion down id) fun _ _ => True := by
  refine runs_document_bind (Course.Runs.bind (.mapM_all (Q := fun _ _ => True)
    (fun _ _ _ _ _ => trivial) _ hst fun name hname st' hst' hle => ?_) fun _ _ hst' _ _ =>
      .pure hst' trivial)
  have hextends := (Trail.carries hle).document
  rw [← hextends.strings_eq hst.closed (lt_size_of_isObject hobject)] at hname
  have hobject' := (hextends.isObject_eq (lt_size_of_isObject hobject)).trans hobject
  obtain ⟨hextends', hderived, -, -⟩ := hst'.withType hobject' name
  have hcopy := isCopy_withType hst' hobject' hname
  -- The copy is found because the schema is.
  have hid' := hextends'.reached hst'.closed (hextends.reached hst.closed hid)
  refine runs_document_bind ?_
  generalize withType st'.document id name = copied at *
  obtain ⟨copy, d⟩ := copied
  refine (follows_setDocument hextends' hderived).bind fun _ st₁ hst₁ _ hstate => ?_
  obtain rfl := hstate
  exact (hdown copy none _ hst₁ (.copy hid' hcopy)).imp fun _ _ _ => trivial

lemma follows_shapeOf {category : Category}
    (hmade : ∃ t, st.made.lookup (id, some category) = some t) {name : Option String}
    (hname : HandedOut name) :
    (trailCourse s d₀ root).Runs st (shapeOf s down id name category)
      (shapeOf s down id name category) fun _ _ => True := by
  have hlist {key : String} (hkey : key ∈ ["allOf", "anyOf", "oneOf", "enum", "items", "extends"])
      (make : List TypeId → Shape) :
      (trailCourse s d₀ root).Runs st (do return make (← list down id key))
        (do return make (← list down id key)) fun _ _ => True :=
    (follows_list hdown hst hid hkey).bind fun _ _ hst' _ _ => .pure hst' trivial
  cases category with
  | allOf => exact hlist (by simp) .intersection
  | anyOf => exact hlist (by simp) .union
  | oneOf => exact hlist (by simp) .union
  | unnamedEnum => exact hlist (by simp) .union
  | customType => exact runs_document_bind (.pure hst trivial)
  | reference => exact runs_document_bind (.pure hst trivial)
  | namedEnum => exact follows_enumeration hdown hst hid
  | namedSchema => exact follows_record hdown hst hid ⟨_, by simp, hmade⟩ hname
  | unnamedSchema => exact follows_record hdown hst hid ⟨_, by simp, hmade⟩ hname
  | typedArray => exact follows_typedArray hdown hst hid
  | untypedArray => exact follows_untypedArray hst
  | union => exact follows_typeUnion hdown hst hid hobject
  | _ => exact .pure hst trivial

lemma follows_under {category : Category}
    (hcategory : ∃ y, (y = id ∨ d₀.IsCopy st.document y id) ∧ category ∈ st.document.categories y)
    (key : Option String) :
    (trailCourse s d₀ root).Runs st (under s down id category key) (under s down id category key)
      fun _ _ => True := by
  have hasked : d₀.Asked st.document root (id, some category) :=
    ⟨hid, hobject, fun _ heq => Option.some.inj heq ▸ hcategory⟩
  refine follows_once hst hasked fun t ht => ?_
  have hst₀ : (st.reserved (id, some category)).document.DerivedFrom d₀ := hst
  refine (follows_claimName hst₀ hid hobject _).bind fun name st₁ hst₁ hle₁ hname => ?_
  have hcarries := Trail.carries hle₁
  have hobject₁ := (hcarries.document.isObject_eq (lt_size_of_isObject hobject)).trans hobject
  refine (follows_shapeOf hdown hst₁ (hcarries.document.reached hst.closed hid) hobject₁
    ⟨t, hcarries.made _ t ht⟩ hname).bind fun _ _ hst₂ _ _ => ?_
  exact runs_document_bind (.pure hst₂ rfl)

lemma follows_intersection (key : Option String) :
    (trailCourse s d₀ root).Runs st (intersection s down id (st.document.categories id) key)
      (intersection s down id (st.document.categories id) key) fun _ _ => True := by
  have hasked : d₀.Asked st.document root (id, none) := ⟨hid, hobject, by simp⟩
  refine follows_once hst hasked fun t ht => ?_
  have hst₀ : (st.reserved (id, none)).document.DerivedFrom d₀ := hst
  refine (follows_claimName hst₀ hid hobject none).bind fun _ st₁ hst₁ hle₁ _ =>
    runs_document_bind ?_
  have hextends₁ : st.document.Extends st₁.document := (Trail.carries hle₁).document
  have hobject₁ := (hextends₁.isObject_eq (lt_size_of_isObject hobject)).trans hobject
  obtain ⟨hextends, hderived, -, hcopied⟩ :=
    hst₁.copyWithout hobject₁ ["$id", "title", "description", "name"]
  have hcopy : d₀.IsCopy (st₁.document.copyWithout id ["$id", "title", "description", "name"]).2 id
      (st₁.document.copyWithout id ["$id", "title", "description", "name"]).1 :=
    isCopy_copyWithout hst₁ hobject₁ (by decide) (by decide)
  have hid₁ := hextends.reached hst₁.closed (hextends₁.reached hst.closed hid)
  have hcategories :=
    (hextends₁.trans hextends).categories_eq hst.closed (lt_size_of_isObject hobject)
  generalize st₁.document.copyWithout id ["$id", "title", "description", "name"] = copied at *
  obtain ⟨copy, d⟩ := copied
  refine (follows_setDocument hextends hderived).bind fun _ st₂ hst₂ _ hstate => ?_
  obtain rfl := hstate
  refine Course.Runs.bind (.mapM_all (Q := fun _ _ => True) (fun _ _ _ _ _ => trivial) _ hst₂
    fun category hcategory st₃ hst₃ hle => ?_)
    fun _ _ hst₃ _ _ => runs_document_bind (.pure hst₃ rfl)
  have hextends₃ : d.Extends st₃.document := (Trail.carries hle).document
  refine follows_under hdown hst₃ (hextends₃.reached hderived.closed (.copy hid₁ hcopy))
    ((hextends₃.isObject_eq (lt_size_of_isObject hcopied)).trans hcopied)
    ⟨id, .inr (hextends₃.isCopy hderived.closed hcopy), ?_⟩ key
  rwa [hextends₃.categories_eq hderived.closed (lt_size_of_isObject hcopy.source), hcategories]

end Schema

/-! ### Ways down -/

lemma follows_schemaWith (hdown : Follows s d₀ root down) (key : Option String)
    (hst : st.document.DerivedFrom d₀) (hid : d₀.Reached st.document root id) :
    (trailCourse s d₀ root).Runs st (schemaWith s down id key) (schemaWith s down id key)
      fun _ _ => True := by
  refine runs_document_bind ?_
  split
  case isTrue hobject =>
    have hintersection := follows_intersection hdown hst hid hobject key
    rcases hcategories : st.document.categories id with _ | ⟨category, _ | ⟨second, rest⟩⟩
    · rw [hcategories] at hintersection
      exact hintersection
    · exact follows_under hdown hst hid hobject ⟨id, .inl rfl, by simp [hcategories]⟩ key
    · rw [hcategories] at hintersection
      exact hintersection
  case isFalse => exact follows_literal hst key

/-- An answer is noted down for a node that is found. -/
lemma follows_answering {make : Lower TypeId} (hst : st.document.DerivedFrom d₀)
    (hid : d₀.Reached st.document root id)
    (hmake : (trailCourse s d₀ root).Runs st make make fun _ _ => True) :
    (trailCourse s d₀ root).Runs st (answering id make) (answering id make)
      fun t st' => ⟨id, t⟩ ∈ st'.answers := by
  refine hmake.bind fun t st₁ hst₁ hle₁ _ => ?_
  have hid₁ := (Trail.carries hle₁).document.reached hst.closed hid
  have hanswer : (trailCourse s d₀ root).Runs st₁
      (modify fun st => { st with answers := ⟨id, t⟩ :: st.answers })
      (modify fun st => { st with answers := ⟨id, t⟩ :: st.answers })
      fun _ st' => ⟨id, t⟩ ∈ st'.answers :=
    follows_step (.answer hid₁) hst₁ List.mem_cons_self
  exact hanswer.bind fun _ _ hst₂ _ ht => .pure hst₂ ht

/-- A way down that knows nothing. -/
def unknowing (s : Settings) : Descent := fun id _ => answering id (allocTop s none)

lemma follows_schemaBeyond (fuel : Nat) :
    Follows s d₀ root (schemaBeyond s (unknowing s) fuel) := by
  induction fuel with
  | zero =>
      exact fun _ _ _ hst hid => follows_answering hst hid (follows_allocTop hst none)
  | succ fuel ih =>
      exact fun _ key _ hst hid => follows_answering hst hid (follows_schemaWith ih key hst hid)

end Lower

namespace Lowering

open Lower

variable {s : Settings} {d d₀ : Document} {root : NodeId} {st st' : Lowering}

/-- **Lowering a document is a sequence of steps.** -/
theorem trail_ofDocument (s : Settings) (hd : d.Closed) (hroot : root < d.size) :
    Trail s d root { document := d } (ofDocument s d root).2 := by
  have hsame : ofDocument s d root =
      (schemaBeyond s (unknowing s) (2 * d.size + 1) root none).run { document := d } :=
    (runs_ofDocument (s := s) hd hroot (unknowing s) (Nat.le_refl _)).same
  have hfollows : Follows s d root (schemaBeyond s (unknowing s) (2 * d.size + 1)) :=
    follows_schemaBeyond _
  have hrun := hfollows root none { document := d } (.refl hd) .start
  rw [hsame]
  exact hrun.le

/-! ### What is kept along the trail -/

/-- The comment is the description of a schema that the type is on record for, or it is made of
notes, or notes come after such a description. -/
inductive Says (s : Settings) (st : Lowering) (t : TypeId) : String → Prop
  | description {aspect : Aspect} {text : String} (hmade : st.made.lookup aspect = some t)
      (htext : st.document.string? aspect.1 "description" = some text) : Says s st t text
  | note {text : String} (h : st.Note s t text) : Says s st t text
  | more {text text' : String} (h : Says s st t text) (h' : st.Note s t text') :
      Says s st t (text ++ "\n\n" ++ text')

lemma Note.later {t : TypeId} {text : String} (h : st.Note s t text) (hcarries : st.Carries st')
    (hd : st.document.Closed) : st'.Note s t text := by
  cases h with
  | pattern hx hentry hvalue howner =>
      exact .pattern (hx.later hcarries) (hcarries.mem_membersAt hd hentry)
        (hcarries.answers hvalue) howner
  | definition hwanted hx hentry hvalue howner =>
      exact .definition hwanted (hx.later hcarries) (hcarries.mem_membersAt hd hentry)
        (hcarries.answers hvalue) howner

lemma Says.later {t : TypeId} {text : String} (h : st.Says s t text) (hcarries : st.Carries st')
    (hd : st.document.Closed) : st'.Says s t text := by
  induction h with
  | @description aspect text hmade htext =>
      obtain ⟨c, hget⟩ := Document.exists_get?_of_string? htext
      have hlt := Document.lt_size_of_isObject (Document.isObject_of_get? hget)
      exact .description (hcarries.made _ _ hmade)
        ((hcarries.document.string?_eq hd hlt).trans htext)
  | note h => exact .note (h.later hcarries hd)
  | more _ h' ih => exact .more ih (h'.later hcarries hd)

/-- What is on record, and what was answered for, was asked for; types are on record, or need no
schema; and comments say what they should. -/
structure Traced (s : Settings) (d₀ : Document) (root : NodeId) (st : Lowering) : Prop where
  document : st.document.DerivedFrom d₀
  recorded : ∀ aspect t, st.made.lookup aspect = some t → d₀.Asked st.document root aspect
  answered : ∀ a ∈ st.answers, d₀.Reached st.document root a.node
  types : ∀ t < st.types.size,
    (∃ aspect, st.made.lookup aspect = some t) ∨ IsBare s (st.types.shape t)
  comments : ∀ t text, (st.types.node t).comment = some text → st.Says s t text

/-- What is new in a state has to be looked at, and nothing else. -/
lemma Traced.of_carries (h : st.Traced s d₀ root) (hcarries : st.Carries st')
    (hderived : st'.document.DerivedFrom d₀)
    (hmade : ∀ aspect t, st'.made.lookup aspect = some t →
      st.made.lookup aspect = some t ∨ d₀.Asked st'.document root aspect)
    (hanswers : ∀ a ∈ st'.answers, a ∈ st.answers ∨ d₀.Reached st'.document root a.node)
    (htypes : ∀ t < st'.types.size, t < st.types.size ∧ st'.types.shape t = st.types.shape t ∨
      (∃ aspect, st'.made.lookup aspect = some t) ∨ IsBare s (st'.types.shape t))
    (hcomments : ∀ t text, (st'.types.node t).comment = some text →
      (st.types.node t).comment = some text ∨ st'.Says s t text) : st'.Traced s d₀ root where
  document := hderived
  recorded aspect t ht := (hmade aspect t ht).elim
    (fun ht => hcarries.document.asked h.document.closed (h.recorded aspect t ht)) id
  answered a ha := (hanswers a ha).elim
    (fun ha => hcarries.document.reached h.document.closed (h.answered a ha)) id
  types t ht := by
    rcases htypes t ht with ⟨hlt, hshape⟩ | hnew
    · rw [hshape]
      exact (h.types t hlt).imp_left fun ⟨aspect, hmade⟩ => ⟨aspect, hcarries.made _ t hmade⟩
    · exact hnew
  comments t text ht := (hcomments t text ht).elim
    (fun ht => (h.comments t text ht).later hcarries h.document.closed) id

/-- **A step leaves states traced.** -/
lemma Traced.step (h : st.Traced s d₀ root) (hstep : Step s d₀ root st st') :
    st'.Traced s d₀ root := by
  have hcarries := hstep.carries
  cases hstep with
  | name names =>
      exact h.of_carries hcarries h.document (fun _ _ => .inl) (fun _ => .inl)
        (fun _ ht => .inl ⟨ht, rfl⟩) fun _ _ => .inl
  | @lookup id _ _ =>
      obtain ⟨definitions, lookups, hstate⟩ := keepsAside_consulted st id
      rw [hstate] at hcarries ⊢
      exact h.of_carries hcarries h.document (fun _ _ => .inl) (fun _ => .inl)
        (fun _ ht => .inl ⟨ht, rfl⟩) fun _ _ => .inl
  | copy hextends hderived =>
      exact h.of_carries hcarries hderived (fun _ _ => .inl) (fun _ => .inl)
        (fun _ ht => .inl ⟨ht, rfl⟩) fun _ _ => .inl
  | answer hreached =>
      refine h.of_carries hcarries h.document (fun _ _ => .inl) (fun a ha => ?_)
        (fun _ ht => .inl ⟨ht, rfl⟩) fun _ _ => .inl
      rcases List.mem_cons.mp ha with rfl | ha
      · exact .inr hreached
      · exact .inl ha
  | @bare t hshape hcomment =>
      refine h.of_carries hcarries h.document (fun _ _ => .inl) (fun _ => .inl) (fun x hx => ?_)
        fun x text hx => ?_
      · by_cases hnew : x = st.types.size
        · refine .inr (.inr ?_)
          rwa [hnew, TypeGraph.shape, TypeGraph.node_alloc_self]
        · rw [TypeGraph.size_alloc] at hx
          refine .inl ⟨by omega, ?_⟩
          rw [TypeGraph.shape, TypeGraph.node_alloc_of_ne hnew, TypeGraph.shape]
      · by_cases hnew : x = st.types.size
        · rw [hnew, TypeGraph.node_alloc_self, hcomment] at hx
          cases hx
        · rw [TypeGraph.node_alloc_of_ne hnew] at hx
          exact .inl hx
  | @reserve aspect hnone hasked =>
      refine h.of_carries hcarries h.document (fun other t ht => ?_) (fun _ => .inl)
        (fun x hx => ?_) fun x text hx => ?_
      · by_cases hother : other = aspect
        · exact .inr (hother ▸ hasked)
        · exact .inl (lookup_reserved_of_ne hother ▸ ht)
      · by_cases hnew : x = st.types.size
        · exact .inr (.inl ⟨aspect, hnew ▸ lookup_reserved_self⟩)
        · rw [size_types_reserved] at hx
          exact .inl ⟨by omega, shape_reserved x⟩
      · by_cases hnew : x = st.types.size
        · rw [hnew, reserved, TypeGraph.node_alloc_self] at hx
          cases hx
        · rw [reserved, TypeGraph.node_alloc_of_ne hnew] at hx
          exact .inl hx
  | @fill aspect id t hmade hcomment =>
      refine h.of_carries hcarries h.document (fun _ _ => .inl) (fun _ => .inl) (fun x hx => ?_)
        fun x text hx => ?_
      · rw [filled, TypeGraph.size_set] at hx
        rcases TypeGraph.shape_set st.types id t x with ⟨rfl, -⟩ | hshape
        · exact .inr (.inl ⟨aspect, hmade⟩)
        · exact .inl ⟨hx, hshape⟩
      · rcases TypeGraph.node_set st.types id t x with ⟨rfl, hnode⟩ | hnode
        · rw [filled, hnode, hcomment] at hx
          exact .inr (.description hmade hx)
        · rw [filled, hnode] at hx
          exact .inl hx
  | @note t note hnote =>
      refine h.of_carries hcarries h.document (fun _ _ => .inl) (fun _ => .inl)
        (fun x hx => .inl ⟨Nat.lt_of_lt_of_eq hx TypeGraph.size_set, TypeGraph.shape_set_of_eq rfl⟩)
        fun x text hx => ?_
      rcases TypeGraph.node_set st.types t (noted (st.types.node t) note) x with
        ⟨rfl, hnode⟩ | hnode
      · rw [annotate_run, filled, hnode, noted] at hx
        have hnote' := hnote.later hcarries h.document.closed
        refine .inr ?_
        cases hremark : (st.types.node x).remark? with
        | none =>
            obtain rfl : note = text := by simpa [hremark] using hx
            exact .note hnote'
        | some remark =>
            obtain rfl : remark ++ "\n\n" ++ note = text := by simpa [hremark] using hx
            have hsaid := h.comments x remark (Option.filter_eq_some_iff.mp hremark).1
            exact .more (hsaid.later hcarries h.document.closed) hnote'
      · rw [annotate_run, filled, hnode] at hx
        exact .inl hx

/-- **All states along a trail are traced**, if the first one is. -/
lemma Traced.trail (h : st.Traced s d₀ root) (htrail : Trail s d₀ root st st') :
    st'.Traced s d₀ root := by
  induction htrail with
  | refl => exact h
  | tail _ hstep ih => exact ih.step hstep

/-- **What comes out of lowering is traced.** -/
theorem traced_ofDocument (s : Settings) (hd : d.Closed) (hroot : root < d.size) :
    (ofDocument s d root).2.Traced s d root := by
  have hstart : Traced s d root { document := d } :=
    ⟨.refl hd, by simp, by simp, fun t ht => absurd ht (Nat.not_lt_zero t), fun t text ht => by
      rw [TypeGraph.node_of_size_le (Nat.zero_le t)] at ht
      cases ht⟩
  exact hstart.trail (trail_ofDocument s hd hroot)

end Lowering

end SchemaDecl
