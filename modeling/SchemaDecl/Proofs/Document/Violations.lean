/-
Every schema is visited once, and every violation is reported.

Rules are checked on a tour through the schema positions of a document. The document may be any
graph: nodes may be shared, and contain themselves.

* `Document.Tours`: a tour along some positions, and inside what it visits, said without fuel.
* `Document.Surveys`, `Document.surveys_schemas`: a tour visits the schemas that can be reached,
  each once, and a schema after one where it stands.
* `Document.breaches`: the schemas of a tour with the rules that they violate, in order.
* `violations_exact`: these are the violations, and documents without any are compiled.
-/
import Mathlib.Data.List.ProdSigma
import SchemaDecl.Compile
import SchemaDecl.Proofs.Document.Lineage
import SchemaDecl.Proofs.Document.Ways
import SchemaDecl.Proofs.Walk.Embedding

namespace SchemaDecl

open Relation

/-- What is declared is a text. -/
lemma exists_result_declare (s : Settings) (d : Document) (root : NodeId) (name : Option String) :
    ∃ text, (declare s d root name).result = .ok text := by
  unfold declare
  generalize TypeGraph.ofDocument s (d.normalize s root name) root = lowered
  obtain ⟨id, types⟩ := lowered
  dsimp only
  generalize types.simplifyNoting s id = simplified
  obtain ⟨types', cut⟩ := simplified
  dsimp only
  generalize Declare.documentTextNoting s types' id = written
  obtain ⟨text, cut'⟩ := written
  exact ⟨text, rfl⟩

/-- The document of a value with its references resolved and its containers linked. -/
def Document.linked (value : Json) : Document :=
  ((inserted value).2.resolveReferences (inserted value).1).linkFrom (inserted value).1 .root

lemma Document.linkFrom_ofJson (value : Json) :
    (ofJson value).2.linkFrom (ofJson value).1 .root = linked value := by
  rw [linked, ofJson]

lemma checkValue_eq (value : Json) (source : String) : checkValue value source
    = (Document.linked value).violations (Document.inserted value).1 source := by
  rw [checkValue, Document.linked, Document.ofJson]

/-- What is compiled if the rules are followed. -/
lemma result_compile {s : Settings} {value : Json} {name : Option String}
    (hvalid : checkValue value (name.getD inlineSource) = []) (hs : s.isValid = true) :
    (compile s value name).result
      = (declare s (Document.linked value) (Document.inserted value).1 name).result := by
  rw [checkValue_eq, Document.linked] at hvalid
  rw [compile, Document.ofJson]
  dsimp only
  rw [compileDocument, hs, Bool.not_true, if_neg Bool.false_ne_true]
  dsimp only
  rw [hvalid, Document.linked]

/-- With settings that make no sense nothing is compiled. -/
lemma result_compile_of_not_isValid {s : Settings} (hs : s.isValid = false) (value : Json)
    (name : Option String) : (compile s value name).result = .error (.settings s.maxItems) := by
  rw [compile]
  dsimp only
  rw [compileDocument, hs, Bool.not_false, if_pos rfl]

namespace Document

variable {d d' : Document} {root x c : NodeId}

/-! ### Tours -/

/-- The schemas of a document are the objects that positions lead to. -/
lemma mem_schemaIds_iff_position {id : NodeId} :
    id ∈ d.schemaIds root ↔ d.isObject id = true ∧ ReflTransGen d.Position root id := by
  rw [mem_schemaIds_iff]
  constructor
  · rintro ⟨hroot, hreach⟩
    refine ⟨?_, ReflTransGen.mono (fun _ _ h => (edge_schemaEdges_iff.mp h).2) _ _ hreach⟩
    rcases hreach.cases_tail with rfl | ⟨_, -, hedge⟩
    · exact hroot
    · exact (edge_schemaEdges_iff.mp hedge).1
  · rintro ⟨hobject, hreach⟩
    -- Whatever lies on the way has positions, and so is an object.
    induction hreach using ReflTransGen.head_induction_on with
    | refl => exact ⟨hobject, .refl⟩
    | head hstep _ ih => exact ⟨hstep.isObject, .head (edge_schemaEdges_iff.mpr ⟨ih.1, hstep⟩) ih.2⟩

/-- A tour along some positions makes some visits. What is no object, or has been visited, is passed
by; whatever else is met is visited, and then its own positions. -/
inductive Tours (d : Document) :
    List NodeId → List (Option String × NodeId) → List (Option String × NodeId) → Prop
  | done (seen : List NodeId) : Tours d seen [] []
  | pass {seen : List NodeId} {key : Option String} {id : NodeId}
      {es visits : List (Option String × NodeId)} (hid : d.isObject id = false ∨ id ∈ seen)
      (hrest : Tours d seen es visits) : Tours d seen ((key, id) :: es) visits
  | visit {seen : List NodeId} {key : Option String} {id : NodeId}
      {es inside visits : List (Option String × NodeId)} (hobject : d.isObject id = true)
      (hid : id ∉ seen) (hinside : Tours d (id :: seen) (d.positions id) inside)
      (hrest : Tours d ((inside.map Prod.snd).reverse ++ id :: seen) es visits) :
      Tours d seen ((key, id) :: es) ((key, id) :: inside ++ visits)

/-- What is no object makes no difference. -/
lemma tours_of_filter {seen : List NodeId} {es visits : List (Option String × NodeId)}
    (h : Tours d seen (es.filter fun e => d.isObject e.2) visits) : Tours d seen es visits := by
  induction es generalizing seen visits with
  | nil => exact h
  | cons e es ih =>
      obtain ⟨key, id⟩ := e
      cases hobject : d.isObject id with
      | false =>
          rw [List.filter_cons_of_neg (by simp [hobject])] at h
          exact .pass (.inl hobject) (ih h)
      | true =>
          rw [List.filter_cons_of_pos (by simp [hobject])] at h
          cases h with
          | pass hid hrest => exact .pass hid (ih hrest)
          | visit _ hid hinside hrest => exact .visit hobject hid hinside (ih hrest)

/-- Where a walk goes along objects, a tour makes visits. -/
lemma exists_tours_of_goes {log out : List (Walk.Step (Option String))}
    {es : List (Option String × NodeId)} (h : Walk.Goes d.schemaEdges log es out)
    (hes : ∀ e ∈ es, d.isObject e.2 = true) :
    ∃ visits, out.filterMap Walk.Step.entered?
        = visits.reverse ++ log.filterMap Walk.Step.entered? ∧
      Tours d (Walk.entries log) es visits := by
  induction h with
  | done log => exact ⟨[], rfl, .done _⟩
  | seen hid _ ih =>
      obtain ⟨visits, hout, htour⟩ := ih (List.forall_mem_cons.mp hes).2
      exact ⟨visits, hout, .pass (.inr hid) htour⟩
  | @fresh log mid out key id es hid _ _ ihinside ihrest =>
      obtain ⟨hobject, hes⟩ := List.forall_mem_cons.mp hes
      obtain ⟨inside, hmid, htour⟩ := ihinside fun e he => (List.mem_filter.mp he).2
      obtain ⟨visits, hout, htour'⟩ := ihrest hes
      have hmid' : mid.filterMap Walk.Step.entered?
          = inside.reverse ++ (key, id) :: log.filterMap Walk.Step.entered? := hmid
      have hseen : Walk.entries (.leave id :: mid)
          = (inside.map Prod.snd).reverse ++ id :: Walk.entries log := by
        rw [Walk.entries_leave, Walk.entries, hmid', List.map_append, List.map_reverse]
        rfl
      rw [hseen] at htour'
      refine ⟨(key, id) :: inside ++ visits, ?_, .visit hobject hid (tours_of_filter htour) htour'⟩
      have hleave : (Walk.Step.leave id :: mid).filterMap Walk.Step.entered?
          = mid.filterMap Walk.Step.entered? := rfl
      rw [hout, hleave, hmid']
      simp

/-- **The schemas of a document are the visits of a tour.** -/
lemma tours_schemas (d : Document) (root : NodeId) :
    Tours d [] [(none, root)] (d.schemas root) := by
  rw [schemas]
  split
  case isFalse hroot => exact .pass (.inl (by simpa using hroot)) (.done _)
  case isTrue hroot =>
    have hgoes := Walk.goes_record (fun _ => schemaEdges_of_size_le (d := d)) (none, root)
    obtain ⟨visits, hout, htour⟩ := exists_tours_of_goes hgoes (by simpa using hroot)
    have hvisits : Walk.entered d.schemaEdges d.size (none, root) = visits := by
      rw [Walk.entered, ← List.reverse_inj, ← List.filterMap_reverse, hout]
      exact List.append_nil _
    rw [hvisits]
    exact htour

/-- The visits of a tour from the root: the tour ends, visits all objects that schema positions lead
to and nothing else, each once, and after an object at one of whose positions it stands. -/
structure Surveys (d : Document) (root : NodeId) (visits : List (Option String × NodeId)) :
    Prop where
  tours : Tours d [] [(none, root)] visits
  nodup : (visits.map Prod.snd).Nodup
  mem_iff : ∀ id, id ∈ visits.map Prod.snd ↔ d.isObject id = true ∧ ReflTransGen d.Position root id
  after : ∀ before e later, visits = before ++ e :: later →
    e.2 = root ∨ ∃ p ∈ before, d.Position p.2 e.2

theorem surveys_schemas (d : Document) (root : NodeId) : d.Surveys root (d.schemas root) where
  tours := tours_schemas d root
  nodup := nodup_schemaIds d root
  mem_iff _ := mem_schemaIds_iff_position
  after before e later h := by
    rw [schemas] at h
    split at h
    case isFalse => simp at h
    case isTrue =>
      have hgrown := Walk.grown_entered (fun _ => schemaEdges_of_size_le (d := d)) (none, root)
      rw [h, List.reverse_append, List.reverse_cons, List.append_assoc] at hgrown
      rcases hgrown.of_append with rfl | ⟨p, hp, hedge⟩
      · exact .inl rfl
      · obtain ⟨q, hq, rfl⟩ := List.mem_map.mp hp
        refine .inr ⟨q, List.mem_reverse.mp hq, ?_⟩
        exact (edge_schemaEdges_iff.mp ⟨e.1, hedge⟩).2

/-! ### Violations -/

/-- The visits with the rules that are violated there: visit by visit, and for each in the order of
rules. -/
def breaches (d : Document) (visits : List (Option String × NodeId)) :
    List ((Option String × NodeId) × Rule) :=
  (visits.product Rule.all).filter fun b => b.2.check d b.1.2 = .violated

/-- Some schema that can be reached from the root violates a rule. -/
def Breached (d : Document) (root : NodeId) : Prop :=
  ∃ (id : NodeId) (rule : Rule), d.isObject id = true ∧ ReflTransGen d.Position root id ∧
    rule.check d id = .violated

/-- The violations come from the breaches, one each. -/
lemma violations_eq_map (d : Document) (root : NodeId) (source : String) :
    d.violations root source
      = (d.breaches (d.schemas root)).map fun b => { rule := b.2, key := b.1.1, source } := by
  rw [violations, breaches, List.product]
  induction d.schemas root with
  | nil => rfl
  | cons e es ih =>
      rw [List.flatMap_cons, List.flatMap_cons, ih, List.filter_append, List.map_append]
      congr 1
      rw [List.filter_map, List.map_map, violatedAt]
      rfl

lemma mem_breaches_iff {visits : List (Option String × NodeId)} {id : NodeId} {rule : Rule} :
    (id, rule) ∈ (d.breaches visits).map (fun b => (b.1.2, b.2)) ↔
      id ∈ visits.map Prod.snd ∧ rule.check d id = .violated := by
  simp only [breaches, List.mem_map, List.mem_filter, Prod.exists, Prod.mk.injEq,
    List.pair_mem_product, decide_eq_true_eq]
  constructor
  · rintro ⟨key, _, _, ⟨⟨hvisit, -⟩, hcheck⟩, rfl, rfl⟩
    exact ⟨⟨key, _, hvisit, rfl⟩, hcheck⟩
  · rintro ⟨⟨key, _, hvisit, rfl⟩, hcheck⟩
    exact ⟨key, _, _, ⟨⟨hvisit, Rule.mem_all rule⟩, hcheck⟩, rfl, rfl⟩

/-- If no node is visited twice, there is one breach for a node and a rule. -/
lemma nodup_breaches {visits : List (Option String × NodeId)} (h : (visits.map Prod.snd).Nodup) :
    ((d.breaches visits).map fun b => (b.1.2, b.2)).Nodup := by
  have hpairs : ((visits.product Rule.all).map fun b => (b.1.2, b.2)).Nodup := by
    have hmap : ((visits.product Rule.all).map fun b => (b.1.2, b.2))
        = (visits.map Prod.snd).product Rule.all := by
      simp [List.product, List.map_flatMap, List.flatMap_map, Function.comp_def]
    rw [hmap]
    exact h.product (by decide)
  exact hpairs.sublist (List.filter_sublist.map _)

lemma violations_eq_nil_iff {source : String} :
    d.violations root source = [] ↔ ¬ d.Breached root := by
  rw [violations_eq_map, List.map_eq_nil_iff, ← List.map_eq_nil_iff (f := fun b => (b.1.2, b.2)),
    List.eq_nil_iff_forall_not_mem, Prod.forall, Breached, not_exists]
  refine forall_congr' fun id => ?_
  rw [not_exists]
  refine forall_congr' fun rule => not_congr ?_
  rw [mem_breaches_iff, (surveys_schemas d root).mem_iff, and_assoc]

/-! ### Compiling -/

/-- Violations depend on nodes, and not on their links. -/
lemma violations_congr (hnode : ∀ x, d'.node x = d.node x) (hsize : d'.size = d.size)
    (root : NodeId) (source : String) : d'.violations root source = d.violations root source := by
  have hmembers : d'.members? = d.members? := funext fun x => by rw [members?, members?, hnode]
  have hitems : d'.items? = d.items? := funext fun x => by rw [items?, items?, hnode]
  have hleaf : d'.leaf? = d.leaf? := funext fun x => by rw [leaf?, leaf?, hnode]
  have hget : d'.get? = d.get? := by
    funext x key
    rw [get?, get?, hmembers]
  have hindexed : d'.indexed = d.indexed := funext fun x => by rw [indexed, indexed, hitems]
  have hnamed : d'.named = d.named := funext fun x => by rw [named, named, hnode, hindexed]
  have heither : d'.oneOrMany = d.oneOrMany := funext fun x => by
    rw [oneOrMany, oneOrMany, isArray, isArray, hitems, hindexed]
  have hobject : d'.isObject = d.isObject := funext fun x => by rw [isObject, isObject, hmembers]
  have hedges : d'.schemaEdges = d.schemaEdges := funext fun x => by
    simp only [schemaEdges, positions, hget, hindexed, hnamed, heither, hmembers, hobject]
  have hcheck (rule : Rule) (x : NodeId) : rule.check d' x = rule.check d x := by
    cases rule <;> simp only [Rule.check, Rule.ofNumber, double?, scalar?, leafString?, hget,
      hitems, hleaf]
  have hviolated : d'.violatedAt = d.violatedAt := funext fun x => by
    simp only [violatedAt, hcheck]
  rw [violations, violations, schemas, schemas, hobject, hedges, hsize, hviolated]

/-- **A document is refused for violations iff there are some.** -/
lemma exists_invalid_iff {s : Settings} (hs : s.isValid = true) (d : Document) (root : NodeId)
    (name : Option String) :
    (∃ diagnostics, (compileDocument s d root name).result = .error (.invalid diagnostics)) ↔
      d.Breached root := by
  have hlink : (d.linkFrom root .root).violations root (name.getD inlineSource)
      = d.violations root (name.getD inlineSource) :=
    violations_congr (fun x => node_linkAll) size_linkFrom root _
  rw [compileDocument, hs, Bool.not_true, if_neg Bool.false_ne_true]
  dsimp only
  rw [hlink]
  cases hviolations : d.violations root (name.getD inlineSource) with
  | nil =>
      obtain ⟨text, htext⟩ := exists_result_declare s (d.linkFrom root .root) root name
      refine iff_of_false ?_ (violations_eq_nil_iff.mp hviolations)
      rintro ⟨diagnostics, herror⟩
      rw [htext] at herror
      cases herror
  | cons v vs =>
      dsimp only
      refine iff_of_true ⟨v :: vs, rfl⟩ ?_
      by_contra hnone
      rw [violations_eq_nil_iff.mpr hnone] at hviolations
      cases hviolations

end Document

open Document

/-- **Rules are checked at every schema, and every violation is reported once.** The tour of a
document ends. It visits the objects that schema positions lead to from the root, each once, and
each after one at whose positions it stands, the root apart. For each of them and each rule that it
violates there is one violation, visit by visit and in the order of rules. With valid settings, a
document, or a value, is refused for violations iff there is one. -/
theorem violations_exact (s : Settings) (hs : s.isValid = true) (d : Document) (root : NodeId) :
    d.Surveys root (d.schemas root) ∧
    (∀ source, d.violations root source
      = (d.breaches (d.schemas root)).map fun b => { rule := b.2, key := b.1.1, source }) ∧
    ((d.breaches (d.schemas root)).map fun b => (b.1.2, b.2)).Nodup ∧
    (∀ id rule, (id, rule) ∈ (d.breaches (d.schemas root)).map (fun b => (b.1.2, b.2)) ↔
      d.isObject id = true ∧ ReflTransGen d.Position root id ∧ rule.check d id = .violated) ∧
    (∀ name, (∃ diagnostics,
      (compileDocument s d root name).result = .error (.invalid diagnostics)) ↔ d.Breached root) ∧
    ∀ value name, (∃ diagnostics,
      (compile s value name).result = .error (.invalid diagnostics)) ↔
        (ofJson value).2.Breached (ofJson value).1 := by
  have hsurveys := surveys_schemas d root
  have hcompile (value : Json) (name : Option String) : (compile s value name).result
      = (compileDocument s (ofJson value).2 (ofJson value).1 name).result := by
    rw [compile]
  refine ⟨hsurveys, violations_eq_map d root, nodup_breaches hsurveys.nodup, fun id rule => ?_,
    exists_invalid_iff hs d root, fun value name => ?_⟩
  · rw [mem_breaches_iff, hsurveys.mem_iff, and_assoc]
  · rw [hcompile]
    exact exists_invalid_iff hs _ _ name

/-- An object with a property that is the object itself, under two keys, and another. Both have
labels that are no list, and the first has values that are none. -/
def selfishDocument : Document :=
  ⟨#[⟨.object [("properties", 1), ("enum", 2), ("tsEnumNames", 3)], .free⟩,
    ⟨.object [("me", 0), ("again", 0), ("other", 4)], .free⟩, ⟨.leaf (.string "x"), .free⟩,
    ⟨.leaf (.string "A"), .free⟩, ⟨.object [("tsEnumNames", 3)], .free⟩]⟩

theorem violations_exact_selfish :
    Settings.isValid {} = true ∧ selfishDocument.schemas 0 = [(none, 0), (some "other", 4)] ∧
    selfishDocument.violations 0 "Loop" = [⟨.enumNamesLength, none, "Loop"⟩,
      ⟨.enumNamesStrings, none, "Loop"⟩, ⟨.enumNamesStrings, some "other", "Loop"⟩] ∧
    ∃ diagnostics,
      (compileDocument {} selfishDocument 0 none).result = .error (.invalid diagnostics) := by
  have hbreached : selfishDocument.Breached 0 :=
    ⟨0, .enumNamesLength, rfl, .refl, by decide +kernel⟩
  have hschemas : selfishDocument.schemas 0 = [(none, 0), (some "other", 4)] := by decide +kernel
  have hviolations : selfishDocument.violations 0 "Loop" = [⟨.enumNamesLength, none, "Loop"⟩,
      ⟨.enumNamesStrings, none, "Loop"⟩, ⟨.enumNamesStrings, some "other", "Loop"⟩] := by
    decide +kernel
  obtain ⟨-, -, -, -, hrefused, -⟩ := violations_exact {} rfl selfishDocument 0
  exact ⟨rfl, hschemas, hviolations, (hrefused none).mpr hbreached⟩

end SchemaDecl
