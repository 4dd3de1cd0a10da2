/-
The fields of records.

A record is written with one field for each property, in order, and perhaps one more for all further
properties. What that field says comes from one of three places, and patterns and definitions are
not written otherwise.

* `Document.hasObject`, `Document.hasBool`: what stands under a key.
* `Lowering.GivesFurther`: the type of all further properties.
* `Lowering.DepictsRecord.exists_isWritten`: the fields of a record that are written.
* `Lowering.ofDocument_record_written`: **so are the records of a document.**
-/
import SchemaDecl.Proofs.Declaration.Layout
import SchemaDecl.Proofs.Types.Making

namespace SchemaDecl

/-! ### What stands under a key -/

namespace Document

variable (d : Document) (x : NodeId) (key : String)

/-- There is an object under the key. -/
def hasObject : Bool := (d.get? x key).any d.isObject

/-- The truth value is under the key. -/
def hasBool (b : Bool) : Bool := (d.get? x key).any (d.leafIs · b)

variable {d x}

lemma allowsMore_eq : Lower.allowsMore d x =
    (d.hasObject x "additionalProperties" || d.hasBool x "additionalProperties" true) := by
  rw [Lower.allowsMore, hasObject, hasBool]
  cases d.get? x "additionalProperties" <;> rfl

/-- An object is no truth value. -/
lemma leafIs_of_isObject {c : NodeId} (h : d.isObject c = true) (b : Bool) :
    d.leafIs c b = false := by
  obtain ⟨members, hnode⟩ := exists_members_of_isObject h
  rw [leafIs, leaf?, hnode]
  rfl

/-- What is false is neither an object nor true. -/
lemma eq_false_of_hasBool_false {key : String} (h : d.hasBool x key false = true) :
    d.hasObject x key = false ∧ d.hasBool x key true = false := by
  rw [hasBool] at h
  rw [hasObject, hasBool]
  cases hget : d.get? x key with
  | none => exact ⟨rfl, rfl⟩
  | some c =>
      have hfalse : d.leafIs c false = true := by rwa [hget] at h
      constructor
      · by_contra hobject
        rw [Bool.not_eq_false, Option.any_some] at hobject
        rw [leafIs_of_isObject hobject] at hfalse
        cases hfalse
      · rw [leafIs, beq_iff_eq] at hfalse
        rw [Option.any_some, leafIs, hfalse]
        rfl

lemma hasSinglePattern_eq_true_iff : Lower.hasSinglePattern d x = true ↔
    d.hasObject x "additionalProperties" = false ∧
      d.hasBool x "additionalProperties" true = false ∧
      (d.membersAt x "patternProperties").length = 1 := by
  rw [Lower.hasSinglePattern, allowsMore_eq, Bool.and_eq_true, Bool.not_eq_true',
    Bool.or_eq_false_iff, beq_iff_eq, and_assoc]

end Document

/-- The text of the fields is that of those that are written. -/
lemma Render.body_filter (s : Settings) (g : TypeGraph) (fields : List Field) :
    Render.body s g fields = Render.body s g (fields.filter Field.isShown) := by
  have hfilter : (fields.filter Field.isShown).filter Field.isShown
      = fields.filter Field.isShown := List.filter_filter.trans (by simp)
  rw [body, body, bodyText_eq, bodyText_eq, hfilter]

namespace Lowering

open Document

variable {s : Settings} {st : Lowering} {d : Document} {x : NodeId} {key : String}
  {field : String → TypeId → Field} {fields : List Field} {shape : Shape}

/-! ### Fields of a group -/

/-- A group of fields, seen one by one. -/
lemma GivesFields.imp {R : String × NodeId → Field → Prop} (h : st.GivesFields d x key field fields)
    (hR : ∀ e t, st.Gives e.2 t → R e (field e.1 t)) :
    List.Forall₂ R (d.membersAt x key) fields := by
  refine List.Forall₂.imp (fun e f hf => ?_) h
  obtain ⟨t, ht, rfl⟩ := hf
  exact hR e t ht

/-- What holds of the field of any key and type holds of all fields of a group. -/
lemma GivesFields.forall_mem {p : Field → Prop} (h : st.GivesFields d x key field fields)
    (hp : ∀ key t, p (field key t)) : ∀ f ∈ fields, p f := by
  rw [GivesFields] at h
  generalize d.membersAt x key = members at h
  induction h with
  | nil => simp
  | @cons e f _ _ hf _ ih =>
      obtain ⟨t, -, rfl⟩ := hf
      exact List.forall_mem_cons.mpr ⟨hp e.1 t, ih⟩

lemma GivesDefinitions.isShown_eq_false (h : st.GivesDefinitions s d x fields) :
    ∀ f ∈ fields, f.isShown = false ∧ f.isPattern = false := by
  rw [GivesDefinitions] at h
  split at h
  · exact h.forall_mem fun _ _ => ⟨rfl, rfl⟩
  · simp [h]

/-! ### Further properties -/

/-- The type of all further properties: what the schema says of them, else what its only pattern
says unless anything is allowed, else the type of what nothing describes. -/
def GivesFurther (s : Settings) (st : Lowering) (d : Document) (x : NodeId) (t : TypeId) : Prop :=
  if d.hasObject x "additionalProperties" = true then
    ∃ more, d.get? x "additionalProperties" = some more ∧ st.Gives more t
  else if (d.membersAt x "patternProperties").length = 1 ∧
      d.hasBool x "additionalProperties" true = false then
    ∃ e ∈ d.membersAt x "patternProperties", st.Gives e.2 t
  else st.IsTop s t

/-- With a single pattern there is no other field for further properties. -/
lemma GivesIndex.eq_none_of_single {index : Option TypeId} (h : st.GivesIndex s d x index)
    (hsingle : Lower.hasSinglePattern d x = true) : index = none := by
  have hobject := (hasSinglePattern_eq_true_iff.mp hsingle).1
  rw [GivesIndex] at h
  split at h
  case h_1 more hget =>
    have hmore : d.isObject more = false := by simpa [hasObject, hget] using hobject
    rw [hmore, hsingle, Bool.or_true, if_neg Bool.false_ne_true, if_pos rfl] at h
    exact h
  case h_2 =>
    rwa [if_pos hsingle] at h

/-- Without a single pattern the field is there unless further properties are forbidden. -/
lemma GivesIndex.eq_none_iff {index : Option TypeId} (h : st.GivesIndex s d x index)
    (hsingle : Lower.hasSinglePattern d x = false) :
    (index = none ↔ d.hasBool x "additionalProperties" false = true) ∧
      ∀ t ∈ index, st.GivesFurther s d x t := by
  have hpattern : d.hasObject x "additionalProperties" = false →
      ¬((d.membersAt x "patternProperties").length = 1 ∧
        d.hasBool x "additionalProperties" true = false) := fun hobject hone =>
    Bool.false_ne_true (hsingle.symm.trans
      (hasSinglePattern_eq_true_iff.mpr ⟨hobject, hone.2, hone.1⟩))
  rw [GivesIndex] at h
  split at h
  case h_1 more hget =>
    rw [hsingle, Bool.or_false] at h
    split_ifs at h with hobject hfalse
    · obtain ⟨t, ht, rfl⟩ := h
      have hmore : d.hasObject x "additionalProperties" = true := by simp [hasObject, hget, hobject]
      refine ⟨by simp [hasBool, hget, leafIs_of_isObject hobject], ?_⟩
      rintro _ ⟨⟩
      rw [GivesFurther, if_pos hmore]
      exact ⟨more, hget, ht⟩
    · subst h
      exact ⟨by simp [hasBool, hget, hfalse], by simp⟩
    · obtain ⟨t, ht, rfl⟩ := h
      have hmore : d.hasObject x "additionalProperties" = false := by
        simp [hasObject, hget, hobject]
      refine ⟨by simp [hasBool, hget, hfalse], ?_⟩
      rintro _ ⟨⟩
      rw [GivesFurther, if_neg (by simp [hmore]), if_neg (hpattern hmore)]
      exact ht
  case h_2 hget =>
    rw [hsingle, if_neg Bool.false_ne_true] at h
    obtain ⟨t, ht, rfl⟩ := h
    have hmore : d.hasObject x "additionalProperties" = false := by simp [hasObject, hget]
    refine ⟨by simp [hasBool, hget], ?_⟩
    rintro _ ⟨⟩
    rw [GivesFurther, if_neg (by simp [hmore]), if_neg (hpattern hmore)]
    exact ht

/-! ### Records -/

/-- The record of the schema `x` is written with a field for each property and perhaps one for all
further properties. -/
structure IsWritten (s : Settings) (st : Lowering) (d : Document) (x : NodeId) (r : RecordType)
    (properties : List Field) (further : Option Field) : Prop where
  written : r.fields.filter (fun f => !f.isPattern && !f.isDefinition)
    = properties ++ further.toList
  /-- Properties come in order, each with its key and the type of its value, and are required if the
  schema says so. -/
  properties : List.Forall₂ (fun e f => f.key = e.1 ∧ st.Gives e.2 f.type ∧
    (f.required = true ↔ e.1 ∈ d.strings x "required")) (d.membersAt x "properties") properties
  /-- Further properties are left out if they are forbidden and there is not just one pattern. -/
  further_eq_none_iff : further = none ↔ d.hasBool x "additionalProperties" false = true ∧
    (d.membersAt x "patternProperties").length ≠ 1
  further : ∀ f ∈ further, f.key = indexKey ∧ f.required = true ∧ st.GivesFurther s d x f.type
  /-- Several patterns, or patterns beside further properties, are only there as fields of
  patterns. -/
  patterns : 1 < (d.membersAt x "patternProperties").length ∨ Lower.allowsMore d x = true →
    List.Forall₂ (fun e f => f.key = e.1 ∧ st.Gives e.2 f.type) (d.membersAt x "patternProperties")
      (r.fields.filter Field.isPattern)

/-- **The record of an object schema** is written with its properties and what may come further. -/
lemma DepictsRecord.exists_isWritten (h : st.DepictsRecord s d x shape) :
    ∃ r properties further, shape = .record r ∧ IsWritten s st d x r properties further := by
  obtain ⟨properties, patterns, definitions, index, supers, hproperties, hpatterns, hdefinitions,
    hindex, -, rfl⟩ := h
  have hfields : List.Forall₂ (fun e f => f.key = e.1 ∧ st.Gives e.2 f.type ∧
      (f.required = true ↔ e.1 ∈ d.strings x "required")) (d.membersAt x "properties") properties :=
    hproperties.imp fun e t ht => ⟨rfl, ht, List.contains_iff_mem⟩
  -- Properties are written, and definitions are not.
  have hkept : properties.filter Field.isShown = properties :=
    List.filter_eq_self.mpr (hproperties.forall_mem fun _ _ => rfl)
  have hdropped : definitions.filter Field.isShown = [] :=
    List.filter_eq_nil_iff.mpr fun f hf => by simp [(hdefinitions.isShown_eq_false f hf).1]
  have hlast : (index.toList.map indexField).filter Field.isShown = index.toList.map indexField :=
    List.filter_eq_self.mpr fun f hf => by
      obtain ⟨t, -, rfl⟩ := List.mem_map.mp hf
      rfl
  cases hsingle : Lower.hasSinglePattern d x with
  | true =>
      obtain ⟨hobject, htrue, hone⟩ := hasSinglePattern_eq_true_iff.mp hsingle
      obtain rfl := hindex.eq_none_of_single hsingle
      obtain ⟨e, he⟩ := List.length_eq_one_iff.mp hone
      rw [GivesFields, he] at hpatterns
      obtain ⟨f, rest, ⟨t, ht, hf⟩, hrest, rfl⟩ := List.forall₂_cons_left_iff.mp hpatterns
      obtain rfl := List.forall₂_nil_left_iff.mp hrest
      have hwritten : f.isShown = true := by simp [hf, Field.isShown, patternField, hsingle]
      refine ⟨_, properties, some f, rfl, ?_, hfields, by simp [hone], ?_, ?_⟩
      · change List.filter Field.isShown _ = _
        rw [List.filter_append, List.filter_append, List.filter_append, hkept, hdropped, hlast]
        simp [hwritten]
      · rintro _ ⟨⟩
        refine ⟨by simp [hf, patternField, hsingle], by simp [hf, patternField, hsingle], ?_⟩
        rw [GivesFurther, if_neg (by simp [hobject]), if_pos ⟨hone, htrue⟩, he]
        exact ⟨e, List.mem_singleton_self e, by rw [hf]; exact ht⟩
      · rw [allowsMore_eq, hobject, htrue, hone]
        simp
  | false =>
      obtain ⟨hnone, hfurther⟩ := hindex.eq_none_iff hsingle
      have hflagged : ∀ f ∈ patterns, f.isPattern = true :=
        hpatterns.forall_mem fun _ _ => by simp [patternField, hsingle]
      have hdropped' : patterns.filter Field.isShown = [] :=
        List.filter_eq_nil_iff.mpr fun f hf => by simp [Field.isShown, hflagged f hf]
      refine ⟨_, properties, index.map indexField, rfl, ?_, hfields, ?_, ?_, fun _ => ?_⟩
      · change List.filter Field.isShown _ = _
        rw [List.filter_append, List.filter_append, List.filter_append, hkept, hdropped, hdropped',
          hlast, List.append_nil, List.append_nil, Option.toList_map]
      · rw [Option.map_eq_none_iff, hnone]
        refine ⟨fun hfalse => ⟨hfalse, fun hone => ?_⟩, fun h => h.1⟩
        obtain ⟨hobject, htrue⟩ := eq_false_of_hasBool_false hfalse
        rw [hasSinglePattern_eq_true_iff.mpr ⟨hobject, htrue, hone⟩] at hsingle
        cases hsingle
      · intro f hf
        obtain ⟨t, ht, rfl⟩ := Option.map_eq_some_iff.mp hf
        exact ⟨rfl, rfl, hfurther t ht⟩
      · have hnot : properties.filter Field.isPattern = [] :=
          List.filter_eq_nil_iff.mpr (hproperties.forall_mem fun _ _ => by simp [propertyField])
        have hnot' : definitions.filter Field.isPattern = [] :=
          List.filter_eq_nil_iff.mpr fun f hf => by simp [(hdefinitions.isShown_eq_false f hf).2]
        have hnot'' : (index.toList.map indexField).filter Field.isPattern = [] :=
          List.filter_eq_nil_iff.mpr fun f hf => by
            obtain ⟨t, -, rfl⟩ := List.mem_map.mp hf
            simp [indexField]
        rw [List.filter_append, List.filter_append, List.filter_append, hnot, hnot', hnot'',
          List.filter_eq_self.mpr hflagged, List.nil_append, List.append_nil, List.append_nil]
        exact hpatterns.imp fun e t ht => ⟨by simp [patternField, hsingle], ht⟩

/-- **The records of a document are written as their schemas say.** The type of an object schema is
a record. Its text has a line for each property and for at most one further field: the types of
these are written one after the other, and a line says the key of its field and the text of its
type. -/
theorem ofDocument_record_written (s : Settings) (d : Document) (root : NodeId) (hd : d.Closed)
    (hroot : root < d.size) (x : NodeId) (category : Category)
    (hcategory : category = .namedSchema ∨ category = .unnamedSchema) (t : TypeId)
    (hmade : (ofDocument s d root).2.made.lookup (x, some category) = some t) :
    let st := (ofDocument s d root).2
    ∃ r properties further, st.types.shape t = .record r ∧
      IsWritten s st st.document x r properties further ∧
      (∀ g, Render.body s g r.fields = Render.body s g (properties ++ further.toList)) ∧
      ∀ g, Render.body s g r.fields = Shape.bodyLayout s g (properties ++ further.toList) <$>
        ((properties ++ further.toList).map Field.type).mapM (Render.inline s g) := by
  intro st
  obtain ⟨hfaithful, -, -, hpending⟩ := faithful_ofDocument s hd hroot
  have hrecord : st.DepictsRecord s st.document x (st.types.shape t) := by
    obtain ⟨-, hdepicts⟩ := hfaithful.depicts _ t hmade (hpending t (hfaithful.made_lt _ t hmade))
    rcases hcategory with rfl | rfl <;> exact hdepicts
  obtain ⟨r, properties, further, hshape, hwritten⟩ := hrecord.exists_isWritten
  have hshown : r.fields.filter Field.isShown = properties ++ further.toList := hwritten.written
  refine ⟨r, properties, further, hshape, hwritten, fun g => ?_, fun g => ?_⟩
  · rw [Render.body_filter, hshown]
  · rw [Render.body, Render.bodyText_eq, hshown]

/-- A record with two properties, of which one is required, and one pattern. -/
def patternedRecord : Document :=
  ⟨#[⟨.object [("type", 1), ("properties", 2), ("required", 3), ("patternProperties", 5)], .root⟩,
    ⟨.leaf (.string "object"), .under 0⟩, ⟨.object [("a", 6), ("b", 7)], .under 0⟩,
    ⟨.array [4], .under 0⟩, ⟨.leaf (.string "b"), .under 3⟩, ⟨.object [("^x", 6)], .under 0⟩,
    ⟨.object [], .under 2⟩, ⟨.object [("properties", 2)], .under 2⟩]⟩

/-- The pattern takes the place of further properties. -/
theorem ofDocument_record_written_patterned :
    let d := patternedRecord.normalize {} 0 none
    let st := (ofDocument {} d 0).2
    d.Closed ∧ st.made.lookup (0, some .unnamedSchema) = some 0 ∧
    ∃ r properties further, st.types.shape 0 = .record r ∧
      IsWritten {} st st.document 0 r properties (some further) ∧
      (∀ g, Render.body {} g r.fields = Render.body {} g (properties ++ [further])) ∧
      ∀ g, Render.body {} g r.fields = Shape.bodyLayout {} g (properties ++ [further]) <$>
        ((properties ++ [further]).map Field.type).mapM (Render.inline {} g) := by
  intro d st
  have hclosed : d.Closed := by decide +kernel
  have hmade : st.made.lookup (0, some .unnamedSchema) = some 0 := by decide +kernel
  have hone : (st.document.membersAt 0 "patternProperties").length = 1 := by decide +kernel
  obtain ⟨r, properties, further, hshape, hwritten, hsame, hlines⟩ :=
    ofDocument_record_written {} d 0 hclosed (by decide +kernel) 0 .unnamedSchema (.inr rfl) 0 hmade
  cases further with
  | some further => exact ⟨hclosed, hmade, r, properties, further, hshape, hwritten, hsame, hlines⟩
  | none => exact absurd hone (hwritten.further_eq_none_iff.mp rfl).2

end Lowering

end SchemaDecl
