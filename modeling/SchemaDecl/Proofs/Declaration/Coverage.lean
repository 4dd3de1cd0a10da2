/-
Every named type is picked once.

The aliases, records and enums of a document come from three walks, each with edges and a choice of
its own. If types that the root refers to are declared too, the walks go over the same nodes, and
their choices share the named types among them.

* `Declare.Part`, `Declare.Declarable`: the types that a document has to declare, said without a
  walk.
* `Declare.mem_aliases_iff`, `Declare.mem_records_iff`, `Declare.mem_enums_iff`: what each walk
  picks.
* `Declare.picked`, `Declare.nodup_picked`: no type is picked twice.
-/
import SchemaDecl.Declaration.Document
import SchemaDecl.Proofs.Walk

namespace SchemaDecl.Declare

variable {s : Settings} {g : TypeGraph}

/-! ### What has to be declared -/

/-- `b` is one of the types that `a` is made of, and `a` is no enumeration. -/
def Part (g : TypeGraph) (a b : TypeId) : Prop :=
  (g.shape a).isEnumeration = false ∧ b ∈ g.children a

/-- A type with a name that can be reached from the root, not through the values of enumerations. -/
def Declarable (g : TypeGraph) (root id : TypeId) : Prop :=
  Relation.ReflTransGen (Part g) root id ∧ (g.node id).isNamed = true

/-- The edges along which parts are visited. -/
def partEdges (g : TypeGraph) (id : TypeId) : List (Unit × TypeId) :=
  (g.shape id).parts.map ((), ·)

lemma mem_parts_iff {shape : Shape} {b : TypeId} :
    b ∈ shape.parts ↔ shape.isEnumeration = false ∧ b ∈ shape.children := by
  cases shape <;> simp [Shape.parts, Shape.isEnumeration, Shape.children]

lemma edge_partEdges : Walk.Edge (partEdges g) = Part g := by
  funext a b
  simp [Walk.Edge, partEdges, Part, TypeGraph.children, mem_parts_iff]

/-- Only numbers of types have parts. -/
lemma partEdges_eq_nil (id : TypeId) (hid : g.size ≤ id) : partEdges g id = [] := by
  have hnode : g.node id = { shape := .pending } := by
    rw [TypeGraph.node, Array.getElem?_eq_none hid, Option.getD_none]
  simp [partEdges, TypeGraph.shape, hnode, Shape.parts, Shape.children]

/-- If types that the root refers to are declared too, the walk for aliases leaves no part out. -/
lemma aliasEdges_eq_partEdges (hs : s.declareReferenced = true) (rootName : String) :
    aliasEdges s g rootName = partEdges g := by
  funext id
  have hall (l : List TypeId) : l.filter (isExported s g rootName) = l :=
    List.filter_eq_self.mpr fun id _ => by simp [isExported, hs]
  rw [aliasEdges, partEdges]
  cases g.shape id <;> simp [hall, Shape.parts]

/-! ### What the walks pick -/

lemma mem_reached_iff {root id : TypeId} :
    id ∈ reached g root ↔ Relation.ReflTransGen (Part g) root id := by
  rw [← edge_partEdges]
  exact Walk.mem_entered_iff partEdges_eq_nil ((), root) id

lemma nodup_reached (root : TypeId) : (reached g root).Nodup := by
  have h : ∀ id, g.size ≤ id → partEdges g id = [] := partEdges_eq_nil
  exact Walk.nodup_entered h ((), root)

/-- The walk for records picks the records. -/
lemma mem_records_iff (hs : s.declareReferenced = true) {rootName : String} {root id : TypeId} :
    id ∈ records s g rootName root ↔ Declarable g root id ∧ (g.shape id).isRecord = true := by
  have hexp : isExported s g rootName id = true := by simp [isExported, hs]
  rw [records, List.mem_filter, mem_reached_iff, hexp, Declarable]
  simp only [Bool.and_true, Bool.and_eq_true]
  tauto

/-- The walk for enums picks the enumerations. -/
lemma mem_enums_iff {root id : TypeId} :
    id ∈ enums g root ↔ Declarable g root id ∧ (g.shape id).isEnumeration = true := by
  rw [enums, List.mem_filter, mem_reached_iff, Declarable]
  simp only [Bool.and_eq_true]
  tauto

lemma aliasAt_enter {id id' : TypeId} :
    aliasAt g (.enter () id) = some id' ↔ id = id' ∧ (g.node id).isNamed = true
      ∧ (g.shape id).isRecord = false ∧ (g.shape id).isEnumeration = false
      ∧ (g.shape id).isArray = false := by
  simp only [aliasAt, Option.ite_none_right_eq_some, Option.some.injEq, Bool.and_eq_true,
    Bool.not_eq_true']
  tauto

lemma aliasAt_leave {id id' : TypeId} :
    aliasAt g (.leave id) = some id' ↔ id = id' ∧ (g.node id).isNamed = true
      ∧ (g.shape id).isArray = true := by
  simp only [aliasAt, Option.ite_none_right_eq_some, Option.some.injEq, Bool.and_eq_true]
  tauto

lemma not_record_or_enumeration_of_isArray {shape : Shape} (h : shape.isArray = true) :
    shape.isRecord = false ∧ shape.isEnumeration = false := by
  cases shape <;> simp_all [Shape.isArray, Shape.isRecord, Shape.isEnumeration]

/-- The walk for aliases leaves records and enumerations to the others. -/
lemma shape_of_mem_aliases {rootName : String} {root id : TypeId}
    (h : id ∈ aliases s g rootName root) :
    (g.shape id).isRecord = false ∧ (g.shape id).isEnumeration = false := by
  obtain ⟨step, -, hat⟩ := List.mem_filterMap.mp h
  cases step with
  | enter label i =>
      obtain ⟨rfl, -, hrec, henum, -⟩ := aliasAt_enter.mp hat
      exact ⟨hrec, henum⟩
  | leave i =>
      obtain ⟨rfl, -, harr⟩ := aliasAt_leave.mp hat
      exact not_record_or_enumeration_of_isArray harr

/-- The walk for aliases picks everything else: arrays when it leaves them, other types when it
enters them. -/
lemma mem_aliases_iff (hs : s.declareReferenced = true) {rootName : String} {root id : TypeId} :
    id ∈ aliases s g rootName root ↔
      Declarable g root id ∧ (g.shape id).isRecord = false
        ∧ (g.shape id).isEnumeration = false := by
  have henter := Walk.enter_mem_record_iff (partEdges_eq_nil (g := g)) ((), root) id
  have hleave := Walk.leave_mem_record_iff (partEdges_eq_nil (g := g)) ((), root) id
  simp only [Walk.Reaches, edge_partEdges] at henter hleave
  constructor
  · intro hid
    refine ⟨?_, shape_of_mem_aliases hid⟩
    rw [aliases, aliasEdges_eq_partEdges hs] at hid
    obtain ⟨step, hstep, hat⟩ := List.mem_filterMap.mp hid
    cases step with
    | enter label i =>
        obtain ⟨rfl, hnamed, -⟩ := aliasAt_enter.mp hat
        exact ⟨henter.mp ⟨label, hstep⟩, hnamed⟩
    | leave i =>
        obtain ⟨rfl, hnamed, -⟩ := aliasAt_leave.mp hat
        exact ⟨hleave.mp hstep, hnamed⟩
  · rintro ⟨⟨hreach, hnamed⟩, hrec, henum⟩
    rw [aliases, aliasEdges_eq_partEdges hs, List.mem_filterMap]
    by_cases harr : (g.shape id).isArray = true
    · exact ⟨.leave id, hleave.mpr hreach, aliasAt_leave.mpr ⟨rfl, hnamed, harr⟩⟩
    · obtain ⟨label, hstep⟩ := henter.mpr hreach
      exact ⟨.enter label id, hstep,
        aliasAt_enter.mpr ⟨rfl, hnamed, hrec, henum, by simpa using harr⟩⟩

/-- A type is picked at one step of the walk only. -/
lemma aliasAt_inj {step step' : Walk.Step Unit} {id : TypeId} (h : aliasAt g step = some id)
    (h' : aliasAt g step' = some id) : step = step' := by
  cases step with
  | enter label i =>
      obtain ⟨rfl, -, -, -, harr⟩ := aliasAt_enter.mp h
      cases step' with
      | enter label' j => rw [(aliasAt_enter.mp h').1]
      | leave j =>
          obtain ⟨rfl, -, harr'⟩ := aliasAt_leave.mp h'
          simp [harr] at harr'
  | leave i =>
      obtain ⟨rfl, -, harr⟩ := aliasAt_leave.mp h
      cases step' with
      | enter label' j =>
          obtain ⟨rfl, -, -, -, harr'⟩ := aliasAt_enter.mp h'
          simp [harr] at harr'
      | leave j => rw [(aliasAt_leave.mp h').1]

lemma nodup_aliases (hs : s.declareReferenced = true) (rootName : String) (root : TypeId) :
    (aliases s g rootName root).Nodup := by
  rw [aliases, aliasEdges_eq_partEdges hs]
  refine List.Nodup.filterMap (fun step step' id h h' => aliasAt_inj h h')
    (Walk.nodup_record partEdges_eq_nil ((), root))

/-- The types that the walks pick: aliases, then records, then enums. -/
def picked (s : Settings) (g : TypeGraph) (rootName : String) (root : TypeId) : List TypeId :=
  aliases s g rootName root ++ records s g rootName root ++ enums g root

/-- No type is picked twice, by one walk or by two. -/
lemma nodup_picked (hs : s.declareReferenced = true) (rootName : String) (root : TypeId) :
    (picked s g rootName root).Nodup := by
  refine List.nodup_append'.mpr ⟨List.nodup_append'.mpr
    ⟨nodup_aliases hs rootName root, (nodup_reached root).filter _, ?_⟩,
    (nodup_reached root).filter _, ?_⟩
  · intro id hal hrec
    have h1 := (mem_aliases_iff hs).mp hal
    have h2 := (mem_records_iff hs).mp hrec
    simp [h1.2.1] at h2
  · intro id hid henum
    have h2 := (mem_enums_iff.mp henum).2
    rcases List.mem_append.mp hid with hal | hrec
    · have h1 := (mem_aliases_iff hs).mp hal
      simp [h1.2.2] at h2
    · have h1 := ((mem_records_iff hs).mp hrec).2
      cases hshape : g.shape id <;> simp_all [Shape.isRecord, Shape.isEnumeration]

end SchemaDecl.Declare
