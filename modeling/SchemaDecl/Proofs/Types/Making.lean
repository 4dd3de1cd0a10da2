/-
Lowering is faithful.

Each step of lowering keeps states faithful, if the ways down give types that stand for the nodes
they are asked for. What lies beyond the fuel may then be anything that puts a schema on record:
with enough fuel it is not reached.

* `Lower.Answers`: a way down gives types that stand for nodes.
* `Lower.claimName_run`: a name is handed out, or none, perhaps after a lookup among the
  definitions.
* `Lower.answers_shapeOf`: the shape of a schema depicts it.
* `Lower.answers_schemaWith`, `Lower.answers_schemaBeyond`: ways down, all the way.
* `Lowering.faithful_ofDocument`: **all types of a document depict their schemas.**
-/
import SchemaDecl.Proofs.Types.Outcome
import SchemaDecl.Proofs.Types.Portrait

namespace SchemaDecl

namespace Lower

open Lowering Document

/-- From faithful states a way down gives types that stand for the nodes it is asked for. -/
def Answers (s : Settings) (d₀ : Document) (down : Descent) : Prop :=
  ∀ id key st, st.Faithful s d₀ → id < st.document.size →
    (faithfulCourse s d₀).Runs st (down id key) (down id key) fun t st' => st'.Gives id t

variable {s : Settings} {d₀ : Document} {down : Descent} {st : Lowering} {id : NodeId}

/-! ### Single steps -/

lemma adds_alloc (t : TypeNode) : st.Adds { st with types := (st.types.alloc t).2 } where
  document := .refl _
  made _ _ h := h
  size_le := by
    rw [TypeGraph.size_alloc]
    exact Nat.le_succ _
  shape x hx := by
    rw [TypeGraph.shape, TypeGraph.node_alloc_of_ne (Nat.ne_of_lt hx), TypeGraph.shape]

/-- A type without a name is added. -/
lemma answers_alloc (hst : st.Faithful s d₀) {t : TypeNode} (ht : t.name = none) :
    (faithfulCourse s d₀).Runs st (alloc t) (alloc t)
      fun id st' => st'.document = st.document ∧ st'.types.shape id = t.shape := by
  have hnames : ({ st with types := (st.types.alloc t).2 } : Lowering).types.names
      = st.types.names ++ [none] := by rw [← ht, TypeGraph.names_alloc]
  refine ⟨rfl, hst.of_adds (adds_alloc t) hst.document rfl,
    ⟨adds_alloc t, .of_none [none] hnames (by simp) rfl⟩, rfl, ?_⟩
  exact congrArg TypeNode.shape TypeGraph.node_alloc_self

lemma answers_allocTop (hst : st.Faithful s d₀) (key : Option String) :
    (faithfulCourse s d₀).Runs st (allocTop s key) (allocTop s key)
      fun t st' => st'.IsTop s t :=
  (answers_alloc hst rfl).imp fun _ _ h => h.2

lemma answers_literal (hst : st.Faithful s d₀) (hid : id < st.document.size)
    (hobject : st.document.isObject id = false) (key : Option String) :
    (faithfulCourse s d₀).Runs st (literal id key) (literal id key)
      fun t st' => st'.Gives id t := by
  refine runs_document_bind ((answers_alloc hst rfl).imp fun t st' h => ?_)
  rw [Gives, h.1, hobject]
  exact ⟨hid, h.2⟩

/-- A comment changes no shape and no name. -/
lemma answers_annotate (hst : st.Faithful s d₀) (t : TypeId) (note : String) :
    (faithfulCourse s d₀).Runs st (annotate t note) (annotate t note) fun _ _ => True := by
  have hset (node : TypeNode) (hshape : node.shape = st.types.shape t)
      (hname : node.name = (st.types.node t).name) :
      (st.filled t node).Faithful s d₀ ∧ st.Adds (st.filled t node) ∧
        st.Named (st.filled t node) := by
    have hadds : st.Adds (st.filled t node) :=
      ⟨.refl _, fun _ _ h => h, Nat.le_of_eq TypeGraph.size_set.symm,
        fun x _ => TypeGraph.shape_set_of_eq hshape⟩
    refine ⟨hst.of_adds hadds hst.document rfl, hadds, .of_none [] ?_ (by simp) rfl⟩
    rw [filled, TypeGraph.names_set_of_eq hname, List.append_nil]
  exact .modify (hset _ (by rfl) (by rfl)).1 (hset _ (by rfl) (by rfl)).2 trivial

/-- The document is added to. -/
lemma answers_setDocument (hst : st.Faithful s d₀) {d : Document} (hextends : st.document.Extends d)
    (hderived : d.DerivedFrom d₀) :
    (faithfulCourse s d₀).Runs st (setDocument d) (setDocument d)
      fun _ st' => st'.document = d := by
  have hadds : st.Adds { st with document := d } :=
    ⟨hextends, fun _ _ h => h, Nat.le_refl _, fun _ _ => rfl⟩
  exact .modify (hst.of_adds hadds hderived rfl)
    ⟨hadds, .of_none [] (by simp) (by simp) rfl⟩ rfl

/-! ### Names -/

/-- Nothing has changed but the definitions and lookups that are kept aside. -/
def KeepsAside (st st' : Lowering) : Prop :=
  ∃ definitions lookups, st' = { st with definitions, lookups }

lemma runs_definitionsOf_aside (root : NodeId) :
    Course.free.Runs st (definitionsOf root) (definitionsOf root) fun _ st' =>
      KeepsAside st st' := by
  refine runs_get_bind ?_
  cases st.definitions.lookup root with
  | some defs => exact .pure trivial ⟨_, _, rfl⟩
  | none =>
      refine runs_document_bind (Course.Runs.bind (P := fun _ st' => KeepsAside st st') ?_
        fun _ _ _ _ h => .pure trivial h)
      exact .modify trivial trivial ⟨_, _, rfl⟩

/-- The state after a node has been looked up among the definitions. -/
def consulted (st : Lowering) (id : NodeId) : Lowering := ((definitionKey? id).run st).2

lemma keepsAside_consulted (st : Lowering) (id : NodeId) : KeepsAside st (consulted st id) := by
  have hruns : Course.free.Runs st (definitionKey? id) (definitionKey? id)
      fun _ st' => KeepsAside st st' := by
    refine runs_document_bind ((runs_definitionsOf_aside _).bind fun _ st' _ _ h => ?_)
    obtain ⟨definitions, lookups, rfl⟩ := h
    refine Course.Runs.bind (P := fun _ st' => KeepsAside st st') ?_ fun _ _ _ _ h =>
      .pure trivial h
    exact .modify trivial trivial ⟨_, _, rfl⟩
  exact hruns.result

/-- The node is looked up among the definitions, or nothing changes. -/
lemma runs_nameHint?_consulted (id : NodeId) (fallback : Option String) :
    Course.free.Runs st (nameHint? id fallback) (nameHint? id fallback)
      fun _ st' => st' = st ∨ st' = consulted st id := by
  refine runs_document_bind ?_
  cases (st.document.string? id "title").filter (!·.isEmpty) with
  | some title => exact .pure trivial (.inl rfl)
  | none =>
      cases (st.document.string? id "$id").filter (!·.isEmpty) with
      | some identifier => exact .pure trivial (.inl rfl)
      | none =>
          refine Course.Runs.bind (P := fun _ st' => st' = consulted st id)
            ⟨rfl, trivial, trivial, rfl⟩ fun key st' _ _ h => ?_
          cases key <;> exact .pure trivial (.inr h)

/-- A name is handed out, or none, perhaps after the node has been looked up among the
definitions. -/
lemma claimName_run (id : NodeId) (fallback : Option String) (st : Lowering) :
    ∃ hints st', (st' = st ∨ st' = consulted st id) ∧
      ((claimName id fallback).run st).1.toList = st.names.issued hints ∧
      ((claimName id fallback).run st).2 = { st' with names := st.names.after hints } := by
  have hruns : Course.free.Runs st (claimName id fallback) (claimName id fallback)
      fun name final => ∃ hints st', (st' = st ∨ st' = consulted st id) ∧
        name.toList = st.names.issued hints ∧
        final = { st' with names := st.names.after hints } := by
    refine (runs_nameHint?_consulted id fallback).bind fun hint st' _ _ h => ?_
    have hnames : st'.names = st.names := by
      rcases h with rfl | rfl
      · rfl
      · obtain ⟨definitions, lookups, hstate⟩ := keepsAside_consulted st id
        rw [hstate]
    cases hint with
    | none => exact .pure trivial ⟨[], st', h, rfl, by rw [← hnames]; rfl⟩
    | some hint =>
        rw [← hnames]
        refine runs_get_bind (Course.Runs.bind
          (P := fun _ final => final = { st' with names := st'.names.after [hint] })
          ?_ fun _ _ _ _ hfinal => .pure trivial ⟨[hint], st', h, rfl, hfinal⟩)
        exact .modify trivial trivial rfl
  exact hruns.result

/-- When a name is claimed, nothing changes but the names and what is kept aside. -/
lemma claimName_aside (id : NodeId) (fallback : Option String) (st : Lowering) :
    ∃ hints definitions lookups, ((claimName id fallback).run st).1.toList = st.names.issued hints ∧
      ((claimName id fallback).run st).2
        = { st with names := st.names.after hints, definitions, lookups } := by
  obtain ⟨hints, st', hst', hname, hstate⟩ := claimName_run id fallback st
  rcases hst' with rfl | rfl
  · exact ⟨hints, _, _, hname, hstate⟩
  · obtain ⟨definitions, lookups, haside⟩ := keepsAside_consulted st id
    refine ⟨hints, definitions, lookups, hname, ?_⟩
    rw [hstate, haside]

/-- **What is made under a name that is handed out for it**: the name is that of the type that was
reserved, and the types added in between have the names that were handed out in between. -/
lemma made_of_runs (hst : st.Faithful s d₀) {aspect : Aspect}
    (hnone : st.made.lookup aspect = none) (fallback key : Option String)
    (make : Option String → Lower Shape)
    (hmake : ∀ name st', st'.Faithful s d₀ → st'.document = st.document →
      (faithfulCourse s d₀).Runs st' (make name) (make name)
        fun shape st'' => st''.Depicts s st.document shape aspect) :
    Made s d₀ st aspect
      ((claimName id fallback >>= fun name => make name >>= fun shape =>
        finish id shape key name).run (st.reserved aspect)).1
      ((claimName id fallback >>= fun name => make name >>= fun shape =>
        finish id shape key name).run (st.reserved aspect)).2 := by
  obtain ⟨hints, definitions, lookups, hname, hstate⟩ :=
    claimName_aside id fallback (st.reserved aspect)
  set claimed := (claimName id fallback).run (st.reserved aspect)
  have hadds : (st.reserved aspect).Adds claimed.2 := by
    rw [hstate]
    exact ⟨.refl _, fun _ _ h => h, Nat.le_refl _, fun _ _ => rfl⟩
  have hfaithful : claimed.2.Faithful s d₀ := by
    have hreserved := hst.reserved hnone
    refine hreserved.of_adds hadds ?_ ?_
    · rw [hstate]
      exact hreserved.document
    · rw [hstate]
  have hrun := hmake claimed.1 claimed.2 hfaithful (by rw [hstate]; rfl)
  have hadds' := hadds.trans hrun.le.1
  refine ⟨hrun.inv, hadds', ?_, fun _ =>
    depicts_of_extends hadds'.document hst.document.closed hrun.result⟩
  obtain ⟨more, hints', hmore, hafter, hperm⟩ := hrun.le.2
  have hnames : claimed.2.types.names = st.types.names ++ [none] := by
    rw [hstate]
    exact TypeGraph.names_alloc
  have hissued : claimed.2.names = st.names.after hints := by
    rw [hstate]
    rfl
  refine ⟨more, hints ++ hints', ?_, ?_, ?_⟩
  · refine hmore.trans ?_
    rw [hnames, List.append_assoc, List.singleton_append]
  · refine hafter.trans ?_
    rw [hissued, Names.after_append]
  · have hcons : (claimed.1 :: more).reduceOption = claimed.1.toList ++ more.reduceOption := by
      cases claimed.1 <;> rfl
    refine (List.Perm.of_eq hcons).trans ?_
    rw [Names.issued_append, ← hissued, hname]
    exact hperm.append_left _

/-! ### Shapes -/

lemma gives_later (c : NodeId) (t : TypeId) (st₁ st₂ : Lowering) (hst : st₁.Faithful s d₀)
    (hle : (faithfulCourse s d₀).le st₁ st₂) (h : st₁.Gives c t) : st₂.Gives c t :=
  hle.1.lasts.gives hst.document.closed h

/-- The fields of the members of a map: each has the type that its value is given. -/
lemma answers_fields (hst : st.Faithful s d₀) {key : String} {field : String → TypeId → Field}
    {make : String × NodeId → Lower Field}
    (hmake : ∀ e st', st'.Faithful s d₀ → e.2 < st'.document.size →
      (faithfulCourse s d₀).Runs st' (make e) (make e)
        fun f st'' => ∃ t, st''.Gives e.2 t ∧ f = field e.1 t) :
    (faithfulCourse s d₀).Runs st ((st.document.membersAt id key).mapM make)
      ((st.document.membersAt id key).mapM make)
      fun fields st' => st'.GivesFields st.document id key field fields := by
  let Fits (e : String × NodeId) (f : Field) (st' : Lowering) : Prop :=
    ∃ t, st'.Gives e.2 t ∧ f = field e.1 t
  refine .mapM (Q := Fits) (fun e f st₁ st₂ hst₁ hle h => ?_) _ hst fun e he st' hst' hle => ?_
  · exact h.imp fun t ht => ⟨gives_later _ _ st₁ st₂ hst₁ hle ht.1, ht.2⟩
  · exact hmake e st' hst' (Nat.lt_of_lt_of_le (hst.document.closed.membersAt_lt he)
      hle.1.document.size_le)

section Shapes

variable (hdown : Answers s d₀ down) (hst : st.Faithful s d₀)
include hdown

/-- A node that was there in a state is asked for in a later one. -/
lemma Answers.later {c : NodeId} (hc : c < st.document.size) (key : Option String)
    {st' : Lowering} (hst' : st'.Faithful s d₀) (hadds : st.Adds st') :
    (faithfulCourse s d₀).Runs st' (down c key) (down c key) fun t st'' => st''.Gives c t :=
  hdown c key st' hst' (Nat.lt_of_lt_of_le hc hadds.document.size_le)

include hst

lemma answers_items (key : String) :
    (faithfulCourse s d₀).Runs st ((st.document.listAt id key).mapM fun item => down item none)
      ((st.document.listAt id key).mapM fun item => down item none)
      fun types st' => st'.GivesList st.document id key types :=
  .mapM gives_later _ hst fun _ hc _ hst' hle =>
    hdown.later (hst.document.closed.listAt_lt hc) none hst' hle.1

lemma answers_list (key : String) :
    (faithfulCourse s d₀).Runs st (list down id key) (list down id key)
      fun types st' => st'.GivesList st.document id key types :=
  runs_document_bind (answers_items hdown hst key)

lemma answers_enumeration :
    (faithfulCourse s d₀).Runs st (enumeration down id) (enumeration down id)
      fun shape st' => st'.DepictsUnder s st.document id shape .namedEnum := by
  let Labelled (e : NodeId × String) (m : String × TypeId) (st' : Lowering) : Prop :=
    m.1 = e.2 ∧ st'.Gives e.1 m.2
  refine runs_document_bind (Course.Runs.bind (.mapM (Q := Labelled)
    (fun e m st₁ st₂ hst₁ hle h => ⟨h.1, gives_later _ _ st₁ st₂ hst₁ hle h.2⟩) _ hst
    fun e he st' hst' hle => ?_) fun members st' hst' hle hmembers =>
      .pure hst' ⟨members, hmembers, rfl⟩)
  have hlt := hst.document.closed.listAt_lt (List.of_mem_zip he).1
  exact (hdown.later hlt none hst' hle.1).bind fun t st'' hst'' _ ht => .pure hst'' ⟨rfl, ht⟩

lemma answers_restType? :
    (faithfulCourse s d₀).Runs st (restType? s down id) (restType? s down id)
      fun rest st' => st'.GivesRest s st.document id rest := by
  refine runs_document_bind ?_
  simp only [GivesRest]
  cases hget : st.document.get? id "additionalItems" with
  | none => exact .pure hst rfl
  | some extra =>
      have hlt := hst.document.closed.get?_lt hget
      dsimp only
      split_ifs
      · exact (hdown.later hlt none hst (.refl st)).bind fun t _ hst' _ ht =>
          .pure hst' ⟨t, ht, rfl⟩
      · exact (answers_allocTop hst none).bind fun t _ hst' _ ht => .pure hst' ⟨t, ht, rfl⟩
      · exact .pure hst rfl

lemma answers_typedArray (hid : id < st.document.size) :
    (faithfulCourse s d₀).Runs st (typedArray s down id) (typedArray s down id)
      fun shape st' => st'.DepictsTypedArray s st.document id shape := by
  have htop : (faithfulCourse s d₀).Runs st (do return Shape.array (← allocTop s none))
      (do return Shape.array (← allocTop s none))
      fun shape st' => ∃ top, st'.IsTop s top ∧ shape = .array top :=
    (answers_allocTop hst none).bind fun t _ hst' _ ht => .pure hst' ⟨t, ht, rfl⟩
  refine runs_document_bind ?_
  simp only [DepictsTypedArray]
  cases hget : st.document.get? id "items" with
  | none => exact htop
  | some items =>
      dsimp only
      cases st.document.node items with
      | leaf value => exact htop
      | object members =>
          exact (hdown.later (hst.document.closed.get?_lt hget) none hst (.refl st)).bind
            fun t _ hst' _ ht => .pure hst' ⟨t, ht, rfl⟩
      | array list =>
          refine (answers_list hdown hst "items").bind fun params st₁ hst₁ hle₁ hparams => ?_
          refine (answers_restType? hdown hst₁).bind fun rest st₂ hst₂ hle₂ hrest => .pure hst₂ ?_
          rw [givesRest_eq hle₁.1.document hst.document.closed hid] at hrest
          exact ⟨params, rest, hle₂.1.lasts.givesList hst₁.document.closed hparams, hrest, rfl⟩

lemma answers_propertyFields :
    (faithfulCourse s d₀).Runs st (propertyFields down id) (propertyFields down id)
      fun fields st' => st'.GivesFields st.document id "properties"
        (propertyField st.document id) fields :=
  runs_document_bind (answers_fields hst fun e st' hst' he =>
    (hdown e.2 (some e.1) st' hst' he).bind fun t _ hst'' _ ht => .pure hst'' ⟨t, ht, rfl⟩)

lemma answers_patternFields (owner : Option String) :
    (faithfulCourse s d₀).Runs st (patternFields down id owner) (patternFields down id owner)
      fun fields st' => st'.GivesFields st.document id "patternProperties"
        (patternField st.document id) fields :=
  runs_document_bind (answers_fields hst fun e st' hst' he =>
    (hdown e.2 (some e.1) st' hst' he).bind fun t _ hst₁ _ ht =>
      (answers_annotate hst₁ t _).bind fun _ _ hst₂ hle _ =>
        .pure hst₂ ⟨t, gives_later _ _ _ _ hst₁ hle ht, rfl⟩)

lemma answers_wantedDefinitionFields (owner : Option String) :
    (faithfulCourse s d₀).Runs st (wantedDefinitionFields s down id owner)
      (wantedDefinitionFields s down id owner)
      fun fields st' => st'.GivesDefinitions s st.document id fields := by
  rw [wantedDefinitionFields]
  simp only [GivesDefinitions]
  split
  · exact runs_document_bind (answers_fields hst fun e st' hst' he =>
      (hdown e.2 (some e.1) st' hst' he).bind fun t _ hst₁ _ ht =>
        (answers_annotate hst₁ t _).bind fun _ _ hst₂ hle _ =>
          .pure hst₂ ⟨t, gives_later _ _ _ _ hst₁ hle ht, rfl⟩)
  · exact .pure hst rfl

lemma answers_indexType? :
    (faithfulCourse s d₀).Runs st (indexType? s down id) (indexType? s down id)
      fun index st' => st'.GivesIndex s st.document id index := by
  have htop : (faithfulCourse s d₀).Runs st (do return some (← allocTop s (some indexKey)))
      (do return some (← allocTop s (some indexKey)))
      fun index st' => ∃ t, st'.IsTop s t ∧ index = some t :=
    (answers_allocTop hst _).bind fun t _ hst' _ ht => .pure hst' ⟨t, ht, rfl⟩
  refine runs_document_bind ?_
  simp only [GivesIndex]
  cases hget : st.document.get? id "additionalProperties" with
  | none =>
      dsimp only
      split_ifs
      · exact .pure hst rfl
      · exact htop
  | some more =>
      dsimp only
      split_ifs
      · exact (hdown.later (hst.document.closed.get?_lt hget) _ hst (.refl st)).bind
          fun t _ hst' _ ht => .pure hst' ⟨t, ht, rfl⟩
      · exact .pure hst rfl
      · exact htop

lemma answers_record (hid : id < st.document.size) (name : Option String) :
    (faithfulCourse s d₀).Runs st (record s down id name) (record s down id name)
      fun shape st' => st'.DepictsRecord s st.document id shape := by
  have hd := hst.document.closed
  refine (answers_propertyFields hdown hst).bind fun properties st₁ hst₁ hle₁ h₁ => ?_
  refine (answers_patternFields hdown hst₁ name).bind fun patterns st₂ hst₂ hle₂ h₂ => ?_
  refine (answers_wantedDefinitionFields hdown hst₂ name).bind
    fun definitions st₃ hst₃ hle₃ h₃ => ?_
  refine (answers_indexType? hdown hst₃).bind fun index st₄ hst₄ hle₄ h₄ => ?_
  refine runs_document_bind ((answers_items hdown hst₄ "extends").bind
    fun supers st₅ hst₅ hle₅ h₅ => .pure hst₅ ?_)
  -- All of them are read in the schema as it was at the start.
  have hext₁ : st.document.Extends st₁.document := hle₁.1.document
  have hext₂ := hext₁.trans hle₂.1.document
  have hext₃ := hext₂.trans hle₃.1.document
  have hext₄ := hext₃.trans hle₄.1.document
  rw [patternField_eq hext₁ hd hid, givesFields_eq hext₁ hd hid] at h₂
  rw [givesDefinitions_eq hext₂ hd hid] at h₃
  rw [givesIndex_eq hext₃ hd hid] at h₄
  rw [givesList_eq hext₄ hd hid] at h₅
  -- What was given when a group of fields had been made is still given at the end.
  have hlast₄ : st₄.Lasts st₅ := hle₅.1.lasts
  have hlast₃ : st₃.Lasts st₅ := (hle₄.1.trans hle₅.1).lasts
  have hlast₂ : st₂.Lasts st₅ := (hle₃.1.trans (hle₄.1.trans hle₅.1)).lasts
  have hlast₁ : st₁.Lasts st₅ := (hle₂.1.trans (hle₃.1.trans (hle₄.1.trans hle₅.1))).lasts
  exact ⟨properties, patterns, definitions, index, supers,
    hlast₁.givesFields hst₁.document.closed h₁, hlast₂.givesFields hst₂.document.closed h₂,
    hlast₃.givesDefinitions hst₃.document.closed h₃, hlast₄.givesIndex hst₄.document.closed h₄,
    h₅, rfl⟩

end Shapes

lemma answers_untypedArray (hst : st.Faithful s d₀) :
    (faithfulCourse s d₀).Runs st (untypedArray s id) (untypedArray s id)
      fun shape st' => st'.DepictsUnder s st.document id shape .untypedArray := by
  refine runs_document_bind ((answers_allocTop hst none).bind fun top st' hst' _ htop => ?_)
  simp only [DepictsUnder, untypedShape]
  split
  · exact .pure hst' ⟨top, htop, rfl⟩
  · exact .pure hst' ⟨top, htop, rfl⟩

/-- The union of the copies of a schema with one type in place of several. -/
lemma answers_typeUnion (hdown : Answers s d₀ down) (hst : st.Faithful s d₀)
    (hid : id < st.document.size) (hobject : st.document.isObject id = true) :
    (faithfulCourse s d₀).Runs st (typeUnion down id) (typeUnion down id)
      fun shape st' => st'.DepictsUnder s st.document id shape .union := by
  let Copied (name : String) (t : TypeId) (st' : Lowering) : Prop :=
    ∃ copy, st'.Gives copy t ∧ st'.document.string? copy "type" = some name
  refine runs_document_bind (Course.Runs.bind (.mapM (Q := Copied)
    (fun name t st₁ st₂ hst₁ hle h => ?_) _ hst fun name _ st' hst' hle => ?_)
    fun types st' hst' _ htypes => .pure hst' ⟨types, htypes, rfl⟩)
  · obtain ⟨copy, hgives, htype⟩ := h
    refine ⟨copy, gives_later _ _ st₁ st₂ hst₁ hle hgives, ?_⟩
    rw [hle.1.document.string?_eq hst₁.document.closed hgives.1, htype]
  · have hobject' : st'.document.isObject id = true :=
      (hle.1.document.isObject_eq hid).trans hobject
    obtain ⟨hextends, hderived, hlt, -⟩ := hst'.document.withType hobject' name
    have htype := string?_withType hobject' name
    refine runs_document_bind ?_
    generalize withType st'.document id name = copied at *
    obtain ⟨copy, d⟩ := copied
    refine (answers_setDocument hst' hextends hderived).bind fun _ st₁ hst₁ _ hdocument => ?_
    rw [← hdocument] at hlt
    refine (hdown copy none st₁ hst₁ hlt).imp_of_le fun t st₂ hle₂ ht => ⟨copy, ht, ?_⟩
    rw [hle₂.1.document.string?_eq hst₁.document.closed hlt, hdocument]
    exact htype

/-- **The shape of a schema** says what the schema says. -/
lemma answers_shapeOf (hdown : Answers s d₀ down) (hst : st.Faithful s d₀)
    (hid : id < st.document.size) (hobject : st.document.isObject id = true) (name : Option String)
    (category : Category) :
    (faithfulCourse s d₀).Runs st (shapeOf s down id name category)
      (shapeOf s down id name category)
      fun shape st' => st'.DepictsUnder s st.document id shape category := by
  have hlist (key : String) (make : List TypeId → Shape) :
      (faithfulCourse s d₀).Runs st (do return make (← list down id key))
        (do return make (← list down id key))
        fun shape st' => ∃ types, st'.GivesList st.document id key types ∧ shape = make types :=
    (answers_list hdown hst key).bind fun types _ hst' _ htypes => .pure hst' ⟨types, htypes, rfl⟩
  cases category with
  | allOf => exact hlist "allOf" .intersection
  | anyOf => exact hlist "anyOf" .union
  | oneOf => exact hlist "oneOf" .union
  | unnamedEnum => exact hlist "enum" .union
  | customType => exact runs_document_bind (.pure hst rfl)
  | reference => exact runs_document_bind (.pure hst rfl)
  | namedEnum => exact answers_enumeration hdown hst
  | namedSchema => exact answers_record hdown hst hid name
  | unnamedSchema => exact answers_record hdown hst hid name
  | typedArray => exact answers_typedArray hdown hst hid
  | untypedArray => exact answers_untypedArray hst
  | union => exact answers_typeUnion hdown hst hid hobject
  | _ => exact .pure hst rfl

/-! ### Types of schemas -/

section Made

variable (hdown : Answers s d₀ down) (hst : st.Faithful s d₀) (hid : id < st.document.size)
  (hobject : st.document.isObject id = true)
include hdown hst hid hobject

lemma answers_under (category : Category) (key : Option String) :
    (faithfulCourse s d₀).Runs st (under s down id category key) (under s down id category key)
      fun t st' => st'.made.lookup (id, some category) = some t := by
  refine runs_once_faithful hst fun hnone => ?_
  refine made_of_runs hst hnone _ key _ fun name st' hst' hdocument => ?_
  rw [← hdocument] at hid hobject ⊢
  exact (answers_shapeOf hdown hst' hid hobject name category).imp fun _ _ h => ⟨hid, h⟩

lemma answers_intersection (key : Option String) :
    (faithfulCourse s d₀).Runs st (intersection s down id (st.document.categories id) key)
      (intersection s down id (st.document.categories id) key)
      fun t st' => st'.made.lookup (id, none) = some t := by
  refine runs_once_faithful hst fun hnone => ?_
  refine made_of_runs hst hnone none key (fun _ => do
    let copied := (← document).copyWithout id ["$id", "title", "description", "name"]
    setDocument copied.2
    let members ← (st.document.categories id).mapM fun category =>
      under s down copied.1 category key
    return .intersection members) fun _ st' hst' hdocument => ?_
  rw [← hdocument] at hid hobject ⊢
  obtain ⟨members, hnode⟩ := exists_members_of_isObject hobject
  obtain ⟨hextends, hderived, hlt, hcopied⟩ :=
    hst'.document.copyWithout hobject ["$id", "title", "description", "name"]
  have hcopy : (st'.document.copyWithout id ["$id", "title", "description", "name"]).2.node
      (st'.document.copyWithout id ["$id", "title", "description", "name"]).1 =
        .object (members.filter fun e =>
          !(["$id", "title", "description", "name"].contains e.1)) := by
    rw [copyWithout_eq_adding hnode]
    exact node_adding_add 0
  refine runs_document_bind ?_
  generalize st'.document.copyWithout id ["$id", "title", "description", "name"] = copied at *
  obtain ⟨copy, d⟩ := copied
  refine (answers_setDocument hst' hextends hderived).bind fun _ st₁ hst₁ _ hdocument₁ => ?_
  rw [← hdocument₁] at hlt hcopied hcopy
  let Recorded (category : Category) (t : TypeId) (st' : Lowering) : Prop :=
    st'.made.lookup (copy, some category) = some t
  have hlater (category : Category) (t : TypeId) (st₁ st₂ : Lowering) (_ : st₁.Faithful s d₀)
      (hle : (faithfulCourse s d₀).le st₁ st₂) (h : Recorded category t st₁) :
      Recorded category t st₂ := hle.1.made _ t h
  refine Course.Runs.bind (.mapM hlater _ hst₁ fun category _ st₂ hst₂ hle => ?_)
    fun types st₂ hst₂ hle htypes => .pure hst₂ ?_
  · exact answers_under hdown hst₂ (Nat.lt_of_lt_of_le hlt hle.1.document.size_le)
      ((hle.1.document.isObject_eq hlt).trans hcopied) category key
  · refine ⟨hid, copy, members, types, Nat.lt_of_lt_of_le hlt hle.1.document.size_le, hnode, ?_,
      htypes, rfl⟩
    rw [hle.1.document.node_eq hlt, hcopy]

end Made

/-- A schema on record under its aspect gives its type. -/
lemma gives_of_made {st' : Lowering} (hst : st.Faithful s d₀)
    (hle : (faithfulCourse s d₀).le st st') (hid : id < st.document.size)
    (hobject : st.document.isObject id = true) {t : TypeId}
    (ht : st'.made.lookup (st.document.aspect id) = some t) : st'.Gives id t := by
  refine ⟨Nat.lt_of_lt_of_le hid hle.1.document.size_le, ?_⟩
  rw [hle.1.document.isObject_eq hid, hobject, hle.1.document.aspect_eq hst.document.closed hid]
  exact ht

lemma answers_schemaWith (hdown : Answers s d₀ down) : Answers s d₀ (schemaWith s down) := by
  intro id key st hst hid
  refine runs_document_bind ?_
  by_cases hobject : st.document.isObject id = true
  · rw [if_pos hobject]
    refine Course.Runs.imp_of_le (P := fun t st' =>
      st'.made.lookup (st.document.aspect id) = some t) ?_
      fun t st' hle ht => gives_of_made hst hle hid hobject ht
    have hintersection := answers_intersection hdown hst hid hobject key
    rw [aspect]
    rcases hcategories : st.document.categories id with _ | ⟨category, _ | ⟨second, rest⟩⟩
    · rw [hcategories] at hintersection
      exact hintersection
    · exact answers_under hdown hst hid hobject category key
    · rw [hcategories] at hintersection
      exact hintersection
  · rw [if_neg hobject]
    exact answers_literal hst hid (by simpa using hobject) key

lemma answers_answering {make : Lower TypeId}
    (h : (faithfulCourse s d₀).Runs st make make fun t st' => st'.Gives id t) :
    (faithfulCourse s d₀).Runs st (answering id make) (answering id make)
      fun t st' => st'.Gives id t := by
  refine h.bind fun t st' hst' _ ht => Course.Runs.bind (P := fun _ st'' => st''.Gives id t) ?_
    fun _ _ hst'' _ ht' => .pure hst'' ht'
  have hadds : st'.Adds { st' with answers := ⟨id, t⟩ :: st'.answers } :=
    ⟨.refl _, fun _ _ h => h, Nat.le_refl _, fun _ _ => rfl⟩
  exact .modify (hst'.of_adds hadds hst'.document rfl)
    ⟨hadds, .of_none [] (by simp) (by simp) rfl⟩ ht

/-! ### All the way down -/

/-- A way down that only puts a schema on record. -/
def promise : Descent := fun id key => do
  let d ← document
  if d.isObject id then once (d.aspect id) (pure { shape := .pending }) else literal id key

lemma runs_once_pending (hst : st.Faithful s d₀) (aspect : Aspect) :
    (faithfulCourse s d₀).Runs st (once aspect (pure { shape := .pending }))
      (once aspect (pure { shape := .pending })) fun t st' => st'.made.lookup aspect = some t := by
  refine runs_once_faithful hst fun hnone =>
    ⟨hst.reserved hnone, .refl _, ⟨[], [], ?_, rfl, .refl _⟩, fun h => absurd rfl h⟩
  exact TypeGraph.names_alloc

lemma answers_promise : Answers s d₀ promise := by
  intro id key st hst hid
  refine runs_document_bind ?_
  by_cases hobject : st.document.isObject id = true
  · rw [if_pos hobject]
    exact (runs_once_pending hst _).imp_of_le fun t st' hle ht =>
      gives_of_made hst hle hid hobject ht
  · rw [if_neg hobject]
    exact answers_literal hst hid (by simpa using hobject) key

lemma answers_schemaBeyond {beyond : Descent} (h : Answers s d₀ beyond) (fuel : Nat) :
    Answers s d₀ (schemaBeyond s beyond fuel) := by
  induction fuel with
  | zero => exact h
  | succ fuel ih =>
      exact fun id key st hst hid => answers_answering (answers_schemaWith ih id key st hst hid)

end Lower

namespace Lowering

open Lower

variable {s : Settings} {d : Document} {root : NodeId}

lemma faithful_start (hd : d.Closed) : Faithful s d { document := d } where
  document := .refl hd
  made_lt aspect t h := by simp at h
  injective aspect aspect' t h := by simp at h
  depicts aspect t h := by simp at h

/-- **All types of a document depict their schemas**: whatever is on record says what it is on
record for, types have the names that are handed out, and nothing is left pending. -/
theorem faithful_ofDocument (s : Settings) (hd : d.Closed) (hroot : root < d.size) :
    Faithful s d (ofDocument s d root).2 ∧
    Named { document := d } (ofDocument s d root).2 ∧
    (ofDocument s d root).2.Gives root (ofDocument s d root).1 ∧
    ∀ t < (ofDocument s d root).2.types.size, (ofDocument s d root).2.types.shape t ≠ .pending := by
  have hrun := runs_ofDocument (s := s) hd hroot promise (Nat.le_refl _)
  have hanswers := answers_schemaBeyond (s := s) answers_promise (2 * d.size + 1) root none
    { document := d } (faithful_start hd) hroot
  have hsame : ofDocument s d root =
      (schemaBeyond s promise (2 * d.size + 1) root none).run { document := d } := hrun.same
  have hpending : ∀ t < (ofDocument s d root).2.types.size,
      (ofDocument s d root).2.types.shape t ≠ .pending := fun t ht hpending =>
    absurd (hrun.le.pending t ht hpending).1 (Nat.not_lt_zero t)
  rw [hsame] at hpending ⊢
  exact ⟨hanswers.inv, hanswers.le.2, hanswers.result, hpending⟩

end Lowering

end SchemaDecl
