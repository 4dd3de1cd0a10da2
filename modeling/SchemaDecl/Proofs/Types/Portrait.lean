/-
Portraits: what the type of a schema says about the schema.

Whatever is on record and made says what the schema says: its members stand for the nodes that the
schema names, in order. A name is handed out for one type only, the one that is being made.

* `Lowering.Gives`: a type stands for a node.
* `Lowering.Depicts`: a shape says what a schema says under a category, or under all of them.
* `Lowering.Faithful`: all that is on record and made depicts what it is on record for.
* `Lowering.Lasts`, `Lowering.Named`: what stays, and how names are handed out.
* `Lower.runs_once_faithful`: a type that is made once depicts its schema.
-/
import Mathlib.Data.List.ReduceOption
import SchemaDecl.Proofs.Document.Reading
import SchemaDecl.Proofs.Names
import SchemaDecl.Proofs.Types.Lowering

namespace SchemaDecl

/-! ### Names of types -/

namespace TypeGraph

variable {g : TypeGraph} {id : TypeId} {t : TypeNode}

/-- The names of all types, in order. -/
def names (g : TypeGraph) : List (Option String) := g.nodes.toList.map TypeNode.name

lemma length_names : g.names.length = g.size := by
  rw [names, List.length_map, Array.length_toList, size]

lemma names_getElem? (id : TypeId) : g.names[id]?.join = (g.node id).name := by
  rw [names, List.getElem?_map, Array.getElem?_toList, node]
  cases g.nodes[id]? <;> rfl

lemma names_alloc : (g.alloc t).2.names = g.names ++ [t.name] := by
  rw [names, alloc, Array.toList_push, List.map_append, List.map_singleton, names]

lemma names_set : (g.set id t).names = g.names.set id t.name := by
  refine List.ext_getElem? fun x => ?_
  rw [names, set, List.getElem?_map, Array.getElem?_toList, Array.getElem?_modify,
    List.getElem?_set, length_names, names, List.getElem?_map, Array.getElem?_toList]
  by_cases hx : id = x
  · subst hx
    rw [if_pos rfl, if_pos rfl]
    split
    case isTrue hlt => rw [Array.getElem?_eq_getElem hlt, Option.map_some, Option.map_some]
    case isFalse hle =>
      rw [Array.getElem?_eq_none (Nat.le_of_not_lt hle), Option.map_none, Option.map_none]
  · rw [if_neg hx, if_neg hx]

/-- A change that leaves a type its name leaves all names. -/
lemma names_set_of_eq (h : t.name = (g.node id).name) : (g.set id t).names = g.names := by
  rw [names_set, h, ← names_getElem?]
  refine List.ext_getElem? fun x => ?_
  rw [List.getElem?_set]
  split
  case isTrue hx =>
    subst hx
    split
    case isTrue hlt => rw [List.getElem?_eq_getElem hlt, Option.join_some]
    case isFalse hle => rw [List.getElem?_eq_none (Nat.le_of_not_lt hle)]
  case isFalse => rfl

end TypeGraph

namespace Lowering

/-! ### What a shape says -/

section Depicts

variable (s : Settings) (st : Lowering)

/-- The type stands for the node: it is on record for a schema, and a literal for any other node. -/
def Gives (id : NodeId) (t : TypeId) : Prop :=
  id < st.document.size ∧
    if st.document.isObject id then st.made.lookup (st.document.aspect id) = some t
    else st.types.shape t = .literal (st.document.toJson id)

/-- The type is the one of what nothing describes. -/
def IsTop (t : TypeId) : Prop := st.types.shape t = .top s.unknownTop

variable (d : Document) (id : NodeId)

/-- The types stand for the items of the list under a key. -/
def GivesList (key : String) (types : List TypeId) : Prop :=
  List.Forall₂ st.Gives (d.listAt id key) types

/-- The fields are those of the members of the map under a key. -/
def GivesFields (key : String) (field : String → TypeId → Field) (fields : List Field) : Prop :=
  List.Forall₂ (fun e f => ∃ t, st.Gives e.2 t ∧ f = field e.1 t) (d.membersAt id key) fields

/-- The type of items beyond the listed positions. -/
def GivesRest (rest : Option TypeId) : Prop :=
  match d.get? id "additionalItems" with
  | none => rest = none
  | some extra =>
    if d.isObject extra then ∃ t, st.Gives extra t ∧ rest = some t
    else if d.leafIs extra true then ∃ t, st.IsTop s t ∧ rest = some t
    else rest = none

/-- The array or tuple of a schema that describes its items. -/
def DepictsTypedArray (shape : Shape) : Prop :=
  match d.get? id "items" with
  | none => ∃ top, st.IsTop s top ∧ shape = .array top
  | some items =>
    match d.node items with
    | .array _ => ∃ params rest, st.GivesList d id "items" params ∧ st.GivesRest s d id rest ∧
        shape = .tuple {
          params
          least := (Lower.tupleBound? d id "minItems").getD 0
          most := Lower.tupleBound? d id "maxItems"
          rest }
    | .object _ => ∃ t, st.Gives items t ∧ shape = .array t
    | .leaf _ => ∃ top, st.IsTop s top ∧ shape = .array top

/-- The array or tuple of a schema with the given bounds that does not describe its items. -/
def untypedShape (least : Nat) (most : Option Nat) (top : TypeId) : Shape :=
  if least == 0 && most.isNone then .array top
  else .tuple {
    params := List.replicate (max (most.getD 0) least) top
    least
    most
    rest := if most.isNone then some top else none }

/-- The field of a property. -/
def propertyField (key : String) (type : TypeId) : Field :=
  { key, required := (d.strings id "required").contains key, type }

/-- The field of a pattern. A single pattern stands for all further properties. -/
def patternField (key : String) (type : TypeId) : Field :=
  { key := if Lower.hasSinglePattern d id then indexKey else key
    required := Lower.hasSinglePattern d id || (d.strings id "required").contains key
    isPattern := !Lower.hasSinglePattern d id
    type }

/-- The field of a definition. -/
def definitionField (key : String) (type : TypeId) : Field :=
  { key, required := (d.strings id "required").contains key, isDefinition := true, type }

/-- The field of all further properties. -/
def indexField (type : TypeId) : Field := { key := indexKey, required := true, type }

/-- The fields of definitions, if those are asked for. -/
def GivesDefinitions (fields : List Field) : Prop :=
  if s.unreachableDefinitions then st.GivesFields d id "$defs" (definitionField d id) fields
  else fields = []

/-- The type of all further properties. -/
def GivesIndex (index : Option TypeId) : Prop :=
  match d.get? id "additionalProperties" with
  | some more =>
    if d.isObject more then ∃ t, st.Gives more t ∧ index = some t
    else if d.leafIs more false || Lower.hasSinglePattern d id then index = none
    else ∃ t, st.IsTop s t ∧ index = some t
  | none =>
    if Lower.hasSinglePattern d id then index = none
    else ∃ t, st.IsTop s t ∧ index = some t

/-- The record of an object schema. -/
def DepictsRecord (shape : Shape) : Prop :=
  ∃ properties patterns definitions index supers,
    st.GivesFields d id "properties" (propertyField d id) properties ∧
    st.GivesFields d id "patternProperties" (patternField d id) patterns ∧
    st.GivesDefinitions s d id definitions ∧ st.GivesIndex s d id index ∧
    st.GivesList d id "extends" supers ∧
    shape = .record {
      fields := properties ++ patterns ++ definitions ++ index.toList.map indexField
      supers }

/-- The shape says what the schema says in `d` under a category. -/
def DepictsUnder (shape : Shape) : Category → Prop
  | .allOf => ∃ types, st.GivesList d id "allOf" types ∧ shape = .intersection types
  | .any => shape = .top s.unknownTop
  | .anyOf => ∃ types, st.GivesList d id "anyOf" types ∧ shape = .union types
  | .oneOf => ∃ types, st.GivesList d id "oneOf" types ∧ shape = .union types
  | .boolean => shape = .boolean
  | .null => shape = .null
  | .number => shape = .number
  | .object => shape = .object
  | .string => shape = .string
  | .customType => shape = .custom ((d.string? id "tsType").getD "")
  | .reference => shape = .custom (s.refName ((d.string? id "$ref").getD ""))
  | .namedEnum => ∃ members, List.Forall₂ (fun e m => m.1 = e.2 ∧ st.Gives e.1 m.2)
      ((d.listAt id "enum").zip (d.strings id "tsEnumNames")) members ∧
      shape = .enumeration members
  | .unnamedEnum => ∃ types, st.GivesList d id "enum" types ∧ shape = .union types
  | .namedSchema => st.DepictsRecord s d id shape
  | .unnamedSchema => st.DepictsRecord s d id shape
  | .typedArray => st.DepictsTypedArray s d id shape
  | .untypedArray => ∃ top, st.IsTop s top ∧
      shape = untypedShape ((Lower.tupleBound? d id "minItems").getD 0)
        (Lower.tupleBound? d id "maxItems") top
  | .union => ∃ types, List.Forall₂ (fun name t => ∃ copy, st.Gives copy t ∧
      st.document.string? copy "type" = some name) (d.strings id "type") types ∧
      shape = .union types

/-- The shape says what the schema says under all its categories together: it is an intersection,
and its members are made, one for each category, of a copy of the schema that has no name. -/
def DepictsWhole (shape : Shape) : Prop :=
  ∃ copy members types, copy < st.document.size ∧ d.node id = .object members ∧
    st.document.node copy = .object (members.filter fun e =>
      !(["$id", "title", "description", "name"].contains e.1)) ∧
    List.Forall₂ (fun category t => st.made.lookup (copy, some category) = some t)
      (d.categories id) types ∧
    shape = .intersection types

/-- The shape says what the schema of an aspect says in `d`. -/
def Depicts (shape : Shape) : Aspect → Prop
  | (id, some category) => id < d.size ∧ st.DepictsUnder s d id shape category
  | (id, none) => id < d.size ∧ st.DepictsWhole d id shape

end Depicts

/-! ### Reading in a document that has grown -/

section Reading

variable {s : Settings} {st : Lowering} {d d' : Document} {id : NodeId} (h : d.Extends d')
  (hd : d.Closed) (hid : id < d.size)
include h hd hid

lemma givesList_eq (key : String) : st.GivesList d' id key = st.GivesList d id key := by
  funext types
  rw [GivesList, GivesList, h.listAt_eq hd hid]

lemma givesRest_eq : st.GivesRest s d' id = st.GivesRest s d id := by
  funext rest
  rw [GivesRest, GivesRest, h.get?_eq hid]
  cases hget : d.get? id "additionalItems" with
  | none => rfl
  | some extra =>
      have hlt := hd.get?_lt hget
      dsimp only
      rw [h.isObject_eq hlt, h.leafIs_eq hlt]

lemma givesIndex_eq : st.GivesIndex s d' id = st.GivesIndex s d id := by
  funext index
  rw [GivesIndex, GivesIndex, h.get?_eq hid, h.hasSinglePattern_eq hd hid]
  cases hget : d.get? id "additionalProperties" with
  | none => rfl
  | some more =>
      have hlt := hd.get?_lt hget
      dsimp only
      rw [h.isObject_eq hlt, h.leafIs_eq hlt]

lemma depictsTypedArray_eq : st.DepictsTypedArray s d' id = st.DepictsTypedArray s d id := by
  funext shape
  rw [DepictsTypedArray, DepictsTypedArray, h.get?_eq hid, givesRest_eq h hd hid,
    h.tupleBound?_eq hd hid, h.tupleBound?_eq hd hid]
  cases hget : d.get? id "items" with
  | none => rfl
  | some items =>
      dsimp only
      rw [h.node_eq (hd.get?_lt hget), givesList_eq h hd hid]

lemma propertyField_eq : propertyField d' id = propertyField d id := by
  funext key type
  rw [propertyField, propertyField, h.strings_eq hd hid]

lemma patternField_eq : patternField d' id = patternField d id := by
  funext key type
  rw [patternField, patternField, h.hasSinglePattern_eq hd hid, h.strings_eq hd hid]

lemma givesFields_eq (key : String) : st.GivesFields d' id key = st.GivesFields d id key := by
  funext field fields
  rw [GivesFields, GivesFields, h.membersAt_eq hd hid]

lemma givesDefinitions_eq : st.GivesDefinitions s d' id = st.GivesDefinitions s d id := by
  have hfield : definitionField d' id = definitionField d id := by
    funext key type
    rw [definitionField, definitionField, h.strings_eq hd hid]
  funext fields
  rw [GivesDefinitions, GivesDefinitions, hfield, givesFields_eq h hd hid]

lemma depictsRecord_eq : st.DepictsRecord s d' id = st.DepictsRecord s d id := by
  funext shape
  simp only [DepictsRecord, propertyField_eq h hd hid, patternField_eq h hd hid,
    givesFields_eq h hd hid, givesDefinitions_eq h hd hid, givesIndex_eq h hd hid,
    givesList_eq h hd hid]

/-- What is read of a schema in a document is read in one that it has grown to. -/
lemma depictsUnder_eq : st.DepictsUnder s d' id = st.DepictsUnder s d id := by
  funext shape category
  cases category <;>
    simp only [DepictsUnder, givesList_eq h hd hid, depictsTypedArray_eq h hd hid,
      depictsRecord_eq h hd hid, h.listAt_eq hd hid, h.strings_eq hd hid, h.string?_eq hd hid,
      h.tupleBound?_eq hd hid]

lemma depictsWhole_eq : st.DepictsWhole d' id = st.DepictsWhole d id := by
  funext shape
  rw [DepictsWhole, DepictsWhole, h.node_eq hid, h.categories_eq hd hid]

end Reading

lemma depicts_of_extends {s : Settings} {st : Lowering} {d d' : Document} (h : d.Extends d')
    (hd : d.Closed) {shape : Shape} {aspect : Aspect} (hs : st.Depicts s d shape aspect) :
    st.Depicts s d' shape aspect := by
  obtain ⟨id, _ | category⟩ := aspect
  · exact ⟨Nat.lt_of_lt_of_le hs.1 h.size_le, depictsWhole_eq h hd hs.1 ▸ hs.2⟩
  · exact ⟨Nat.lt_of_lt_of_le hs.1 h.size_le, depictsUnder_eq h hd hs.1 ▸ hs.2⟩

/-! ### What lasts -/

/-- Nodes and records stay as they were, and so do the shapes of types that are made. -/
structure Lasts (st st' : Lowering) : Prop where
  document : st.document.Extends st'.document
  made : ∀ aspect t, st.made.lookup aspect = some t → st'.made.lookup aspect = some t
  shape : ∀ t, st.types.shape t ≠ .pending → st'.types.shape t = st.types.shape t

namespace Lasts

variable {s : Settings} {st st' : Lowering} {d : Document} {id : NodeId}

lemma isTop (h : st.Lasts st') {t : TypeId} (ht : st.IsTop s t) : st'.IsTop s t := by
  have hne : st.types.shape t ≠ .pending := by
    rw [IsTop] at ht
    rw [ht, Shape.top]
    split <;> simp
  rw [IsTop, h.shape t hne]
  exact ht

variable (h : st.Lasts st') (hd : st.document.Closed)
include h hd

lemma gives {t : TypeId} (ht : st.Gives id t) : st'.Gives id t := by
  obtain ⟨hid, ht⟩ := ht
  refine ⟨Nat.lt_of_lt_of_le hid h.document.size_le, ?_⟩
  rw [h.document.isObject_eq hid, h.document.aspect_eq hd hid, h.document.toJson_eq hd hid]
  split_ifs at ht ⊢
  · exact h.made _ _ ht
  · rw [h.shape t (by simp [ht]), ht]

lemma givesList {key : String} {types : List TypeId} (hl : st.GivesList d id key types) :
    st'.GivesList d id key types := hl.imp fun _ _ => h.gives hd

lemma givesFields {key : String} {field : String → TypeId → Field} {fields : List Field}
    (hf : st.GivesFields d id key field fields) : st'.GivesFields d id key field fields :=
  hf.imp fun _ _ ⟨t, ht, heq⟩ => ⟨t, h.gives hd ht, heq⟩

lemma givesRest {rest : Option TypeId} (hr : st.GivesRest s d id rest) :
    st'.GivesRest s d id rest := by
  rw [GivesRest] at hr ⊢
  split
  case h_1 hget => rwa [hget] at hr
  case h_2 extra hget =>
    rw [hget] at hr
    dsimp only at hr
    split_ifs at hr ⊢
    · exact hr.imp fun t ht => ⟨h.gives hd ht.1, ht.2⟩
    · exact hr.imp fun t ht => ⟨h.isTop ht.1, ht.2⟩
    · exact hr

lemma givesIndex {index : Option TypeId} (hi : st.GivesIndex s d id index) :
    st'.GivesIndex s d id index := by
  rw [GivesIndex] at hi ⊢
  split
  case h_1 more hget =>
    rw [hget] at hi
    dsimp only at hi
    split_ifs at hi ⊢
    · exact hi.imp fun t ht => ⟨h.gives hd ht.1, ht.2⟩
    · exact hi
    · exact hi.imp fun t ht => ⟨h.isTop ht.1, ht.2⟩
  case h_2 hget =>
    rw [hget] at hi
    dsimp only at hi
    split_ifs at hi ⊢
    · exact hi
    · exact hi.imp fun t ht => ⟨h.isTop ht.1, ht.2⟩

lemma depictsTypedArray {shape : Shape} (hs : st.DepictsTypedArray s d id shape) :
    st'.DepictsTypedArray s d id shape := by
  rw [DepictsTypedArray] at hs ⊢
  split
  case h_1 hget =>
    rw [hget] at hs
    exact hs.imp fun t ht => ⟨h.isTop ht.1, ht.2⟩
  case h_2 items hget =>
    rw [hget] at hs
    dsimp only at hs
    split
    case h_1 list hnode =>
      rw [hnode] at hs
      obtain ⟨params, rest, hparams, hrest, heq⟩ := hs
      exact ⟨params, rest, h.givesList hd hparams, h.givesRest hd hrest, heq⟩
    case h_2 members hnode =>
      rw [hnode] at hs
      exact hs.imp fun t ht => ⟨h.gives hd ht.1, ht.2⟩
    case h_3 value hnode =>
      rw [hnode] at hs
      exact hs.imp fun t ht => ⟨h.isTop ht.1, ht.2⟩

lemma givesDefinitions {fields : List Field} (hf : st.GivesDefinitions s d id fields) :
    st'.GivesDefinitions s d id fields := by
  rw [GivesDefinitions] at hf ⊢
  split_ifs at hf ⊢
  · exact h.givesFields hd hf
  · exact hf

lemma depictsRecord {shape : Shape} (hs : st.DepictsRecord s d id shape) :
    st'.DepictsRecord s d id shape := by
  obtain ⟨properties, patterns, definitions, index, supers, h₁, h₂, h₃, h₄, h₅, heq⟩ := hs
  exact ⟨properties, patterns, definitions, index, supers, h.givesFields hd h₁,
    h.givesFields hd h₂, h.givesDefinitions hd h₃, h.givesIndex hd h₄, h.givesList hd h₅, heq⟩

/-- A shape goes on to say what a schema says. -/
lemma depictsUnder {shape : Shape} {category : Category}
    (hs : st.DepictsUnder s d id shape category) : st'.DepictsUnder s d id shape category := by
  have hlist {key : String} {make : List TypeId → Shape}
      (hs : ∃ types, st.GivesList d id key types ∧ shape = make types) :
      ∃ types, st'.GivesList d id key types ∧ shape = make types :=
    hs.imp fun types ht => ⟨h.givesList hd ht.1, ht.2⟩
  cases category with
  | allOf => exact hlist hs
  | anyOf => exact hlist hs
  | oneOf => exact hlist hs
  | unnamedEnum => exact hlist hs
  | namedEnum =>
      obtain ⟨members, hmembers, heq⟩ := hs
      exact ⟨members, hmembers.imp fun _ _ hm => ⟨hm.1, h.gives hd hm.2⟩, heq⟩
  | namedSchema => exact h.depictsRecord hd hs
  | unnamedSchema => exact h.depictsRecord hd hs
  | typedArray => exact h.depictsTypedArray hd hs
  | untypedArray => exact hs.imp fun top htop => ⟨h.isTop htop.1, htop.2⟩
  | union =>
      obtain ⟨types, htypes, heq⟩ := hs
      refine ⟨types, htypes.imp fun name t ht => ?_, heq⟩
      obtain ⟨copy, hcopy, htype⟩ := ht
      exact ⟨copy, h.gives hd hcopy, by rw [h.document.string?_eq hd hcopy.1, htype]⟩
  | _ => exact hs

/-- A shape goes on to say what the schema of an aspect says. -/
lemma depicts {shape : Shape} {aspect : Aspect} (hs : st.Depicts s st.document shape aspect) :
    st'.Depicts s st'.document shape aspect := by
  refine depicts_of_extends h.document hd ?_
  obtain ⟨id, _ | category⟩ := aspect
  · obtain ⟨hid, copy, members, types, hcopy, hnode, hfiltered, htypes, heq⟩ := hs
    refine ⟨hid, copy, members, types, Nat.lt_of_lt_of_le hcopy h.document.size_le, hnode, ?_,
      htypes.imp fun _ _ => h.made _ _, heq⟩
    rw [h.document.node_eq hcopy, hfiltered]
  · exact ⟨hs.1, h.depictsUnder hd hs.2⟩

end Lasts

/-- Nodes, records and types are added, and nothing that was there changes. -/
structure Adds (st st' : Lowering) : Prop where
  document : st.document.Extends st'.document
  made : ∀ aspect t, st.made.lookup aspect = some t → st'.made.lookup aspect = some t
  size_le : st.types.size ≤ st'.types.size
  shape : ∀ t < st.types.size, st'.types.shape t = st.types.shape t

lemma Adds.refl (st : Lowering) : st.Adds st :=
  ⟨.refl _, fun _ _ h => h, Nat.le_refl _, fun _ _ => rfl⟩

lemma Adds.trans {st st' st'' : Lowering} (h : st.Adds st') (h' : st'.Adds st'') :
    st.Adds st'' where
  document := h.document.trans h'.document
  made aspect t ht := h'.made aspect t (h.made aspect t ht)
  size_le := Nat.le_trans h.size_le h'.size_le
  shape t ht := (h'.shape t (Nat.lt_of_lt_of_le ht h.size_le)).trans (h.shape t ht)

lemma Adds.lasts {st st' : Lowering} (h : st.Adds st') : st.Lasts st' :=
  ⟨h.document, h.made, fun t ht => h.shape t (TypeGraph.lt_size_of_shape_ne ht)⟩

/-! ### Names handed out -/

/-- The names handed out from one state to another are the names of the types that were added, each
of one of them. -/
def Named (st st' : Lowering) : Prop :=
  ∃ more hints, st'.types.names = st.types.names ++ more ∧ st'.names = st.names.after hints ∧
    more.reduceOption.Perm (st.names.issued hints)

lemma Named.refl (st : Lowering) : st.Named st := ⟨[], [], by simp, rfl, .refl _⟩

lemma Named.trans {st st' st'' : Lowering} (h : st.Named st') (h' : st'.Named st'') :
    st.Named st'' := by
  obtain ⟨more, hints, hmore, hafter, hperm⟩ := h
  obtain ⟨more', hints', hmore', hafter', hperm'⟩ := h'
  refine ⟨more ++ more', hints ++ hints', ?_, ?_, ?_⟩
  · rw [hmore', hmore, List.append_assoc]
  · rw [hafter', hafter, Names.after_append]
  · rw [List.reduceOption_append, Names.issued_append, ← hafter]
    exact hperm.append hperm'

/-- A step that leaves the names of types as they are, apart from types without names at the end. -/
lemma Named.of_none {st st' : Lowering} (more : List (Option String))
    (htypes : st'.types.names = st.types.names ++ more) (hnone : ∀ name ∈ more, name = none)
    (hnames : st'.names = st.names) : st.Named st' := by
  refine ⟨more, [], htypes, hnames, ?_⟩
  have hempty : more.reduceOption = [] :=
    List.filterMap_eq_nil_iff.mpr fun name hname => hnone name hname
  rw [hempty]
  exact .refl _

/-! ### Faithful states -/

/-- All that is on record and made depicts what it is on record for. -/
structure Faithful (s : Settings) (d₀ : Document) (st : Lowering) : Prop where
  document : st.document.DerivedFrom d₀
  made_lt : ∀ aspect t, st.made.lookup aspect = some t → t < st.types.size
  injective : ∀ aspect aspect' t, st.made.lookup aspect = some t →
    st.made.lookup aspect' = some t → aspect = aspect'
  depicts : ∀ aspect t, st.made.lookup aspect = some t → st.types.shape t ≠ .pending →
    st.Depicts s st.document (st.types.shape t) aspect

/-- Faithful states that are added to, with the names that are handed out. -/
def faithfulCourse (s : Settings) (d₀ : Document) : Course Lowering where
  inv := Faithful s d₀
  le st st' := st.Adds st' ∧ st.Named st'
  refl st := ⟨.refl st, .refl st⟩
  trans h h' := ⟨h.1.trans h'.1, h.2.trans h'.2⟩

variable {s : Settings} {d₀ : Document} {st st' : Lowering} {aspect : Aspect}

/-- Nothing changes for what is on record if no record is added. -/
lemma Faithful.of_adds (h : st.Faithful s d₀) (hadds : st.Adds st')
    (hdocument : st'.document.DerivedFrom d₀) (hmade : st'.made = st.made) :
    st'.Faithful s d₀ where
  document := hdocument
  made_lt aspect t ht :=
    Nat.lt_of_lt_of_le (h.made_lt aspect t (hmade ▸ ht)) hadds.size_le
  injective aspect aspect' t ht ht' := h.injective aspect aspect' t (hmade ▸ ht) (hmade ▸ ht')
  depicts aspect t ht hpending := by
    rw [hmade] at ht
    rw [hadds.shape t (h.made_lt aspect t ht)] at hpending ⊢
    exact hadds.lasts.depicts h.document.closed (h.depicts aspect t ht hpending)

lemma shape_reserved (t : TypeId) : (st.reserved aspect).types.shape t = st.types.shape t := by
  rw [reserved, TypeGraph.shape, TypeGraph.shape]
  by_cases ht : t = st.types.size
  · rw [ht, TypeGraph.node_alloc_self, TypeGraph.node_of_size_le (Nat.le_refl _)]
  · rw [TypeGraph.node_alloc_of_ne ht]

lemma adds_reserved (hnone : st.made.lookup aspect = none) : st.Adds (st.reserved aspect) where
  document := .refl _
  made _ _ ht := lookup_reserved hnone ht
  size_le := by
    rw [size_types_reserved]
    exact Nat.le_succ _
  shape t _ := shape_reserved t

/-- What is reserved is on record and not made. -/
lemma Faithful.reserved (h : st.Faithful s d₀) (hnone : st.made.lookup aspect = none) :
    (st.reserved aspect).Faithful s d₀ := by
  -- A record is the new one, or it was there before.
  have hcases {other : Aspect} {t : TypeId} (ht : (st.reserved aspect).made.lookup other = some t) :
      other = aspect ∧ t = st.types.size ∨ st.made.lookup other = some t := by
    by_cases hother : other = aspect
    · rw [hother, lookup_reserved_self] at ht
      exact Or.inl ⟨hother, (Option.some.inj ht).symm⟩
    · exact Or.inr (lookup_reserved_of_ne hother ▸ ht)
  refine ⟨h.document, fun other t ht => ?_, fun other other' t ht ht' => ?_,
    fun other t ht hpending => ?_⟩
  · rw [size_types_reserved]
    rcases hcases ht with ⟨-, rfl⟩ | ht
    · exact Nat.lt_succ_self _
    · exact Nat.lt_succ_of_lt (h.made_lt other t ht)
  · rcases hcases ht with ⟨hother, heq⟩ | hold <;> rcases hcases ht' with ⟨hother', heq'⟩ | hold'
    · rw [hother, hother']
    · exact absurd (h.made_lt other' t hold') (heq ▸ Nat.lt_irrefl _)
    · exact absurd (h.made_lt other t hold) (heq' ▸ Nat.lt_irrefl _)
    · exact h.injective other other' t hold hold'
  · rw [shape_reserved] at hpending ⊢
    rcases hcases ht with ⟨-, rfl⟩ | ht
    · refine absurd ?_ hpending
      rw [TypeGraph.shape, TypeGraph.node_of_size_le (Nat.le_refl _)]
    · exact (adds_reserved hnone).lasts.depicts h.document.closed (h.depicts other t ht hpending)

/-- What has been made of an aspect that was reserved in `st`: a type node and a state. -/
structure Made (s : Settings) (d₀ : Document) (st : Lowering) (aspect : Aspect) (t : TypeNode)
    (st' : Lowering) : Prop where
  faithful : st'.Faithful s d₀
  adds : (st.reserved aspect).Adds st'
  names : ∃ more hints, st'.types.names = st.types.names ++ none :: more ∧
    st'.names = st.names.after hints ∧
    (t.name :: more).reduceOption.Perm (st.names.issued hints)
  depicts : t.shape ≠ .pending → st'.Depicts s st'.document t.shape aspect

namespace Made

variable {t : TypeNode} (h : Made s d₀ st aspect t st')
include h

lemma lookup : st'.made.lookup aspect = some st.types.size :=
  h.adds.made aspect _ lookup_reserved_self

lemma size_lt : st.types.size < st'.types.size := h.faithful.made_lt aspect _ h.lookup

lemma pending : st'.types.shape st.types.size = .pending := by
  rw [h.adds.shape _ (by rw [size_types_reserved]; exact Nat.lt_succ_self _), shape_reserved,
    TypeGraph.shape, TypeGraph.node_of_size_le (Nat.le_refl _)]

/-- The type that is filled was not made. -/
lemma lasts_filled : st'.Lasts (st'.filled st.types.size t) where
  document := .refl _
  made _ _ ht := ht
  shape x hx := by
    have hne : x ≠ st.types.size := fun heq => hx (heq ▸ h.pending)
    rw [filled, TypeGraph.shape, TypeGraph.node_set_of_ne hne, TypeGraph.shape]

/-- When the type is filled, all that is on record and made depicts its schema. -/
lemma faithful_filled : (st'.filled st.types.size t).Faithful s d₀ where
  document := h.faithful.document
  made_lt other x hx :=
    Nat.lt_of_lt_of_eq (h.faithful.made_lt other x hx) TypeGraph.size_set.symm
  injective := h.faithful.injective
  depicts other x hx hpending := by
    refine h.lasts_filled.depicts h.faithful.document.closed ?_
    by_cases heq : x = st.types.size
    · obtain rfl := h.faithful.injective other aspect x hx (heq ▸ h.lookup)
      have hshape : (st'.filled st.types.size t).types.shape x = t.shape := by
        rw [heq, filled, TypeGraph.shape, TypeGraph.node_set_self h.size_lt]
      rw [hshape] at hpending ⊢
      exact h.depicts hpending
    · have hshape : (st'.filled st.types.size t).types.shape x = st'.types.shape x := by
        rw [filled, TypeGraph.shape, TypeGraph.node_set_of_ne heq, TypeGraph.shape]
      rw [hshape] at hpending ⊢
      exact h.faithful.depicts other x hx hpending

/-- When the type is filled, all that was there stays. -/
lemma adds_filled (hnone : st.made.lookup aspect = none) :
    st.Adds (st'.filled st.types.size t) where
  document := h.adds.document
  made other x hx := h.adds.made other x (lookup_reserved hnone hx)
  size_le := (Nat.le_of_lt h.size_lt).trans (Nat.le_of_eq TypeGraph.size_set.symm)
  shape x hx := by
    have hlt : x < (st.reserved aspect).types.size := by
      rw [size_types_reserved]
      exact Nat.lt_succ_of_lt hx
    rw [filled, TypeGraph.shape, TypeGraph.node_set_of_ne (Nat.ne_of_lt hx),
      ← shape_reserved, ← h.adds.shape x hlt, TypeGraph.shape]

lemma named_filled : st.Named (st'.filled st.types.size t) := by
  obtain ⟨more, hints, hmore, hafter, hperm⟩ := h.names
  refine ⟨t.name :: more, hints, ?_, hafter, hperm⟩
  rw [filled, TypeGraph.names_set, hmore, ← TypeGraph.length_names,
    List.set_append_right _ _ (Nat.le_refl _), Nat.sub_self, List.set_cons_zero]

end Made

end Lowering

namespace Lower

open Lowering

variable {s : Settings} {d₀ : Document} {st : Lowering}

/-- **A type that is made once** is on record, and depicts its schema when it is made. -/
lemma runs_once_faithful (hst : st.Faithful s d₀) {aspect : Aspect} {make : Lower TypeNode}
    (hmake : st.made.lookup aspect = none → Made s d₀ st aspect
      (make.run (st.reserved aspect)).1 (make.run (st.reserved aspect)).2) :
    (faithfulCourse s d₀).Runs st (once aspect make) (once aspect make)
      fun t st' => st'.made.lookup aspect = some t := by
  cases hmade : st.made.lookup aspect with
  | some t =>
      have hrun : (once aspect make).run st = (t, st) := by rw [once_run, hmade]
      refine ⟨rfl, ?_, ?_, ?_⟩ <;> rw [hrun]
      · exact hst
      · exact (faithfulCourse s d₀).refl st
      · exact hmade
  | none =>
      have h := hmake hmade
      have hrun : (once aspect make).run st = (st.types.size,
          (make.run (st.reserved aspect)).2.filled st.types.size
            (make.run (st.reserved aspect)).1) := by
        rw [once_run, hmade]
      refine ⟨rfl, ?_, ?_, ?_⟩ <;> rw [hrun]
      · exact h.faithful_filled
      · exact ⟨h.adds_filled hmade, h.named_filled⟩
      · exact h.lookup

end Lower

end SchemaDecl
