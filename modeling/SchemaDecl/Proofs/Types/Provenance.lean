/-
Where the schemas that are lowered come from.

Rules are checked and the normal form is made for the schemas at schema positions. Lowering goes its
own way down: it also makes types of the values that a schema lists, and takes a value that is an
object for a schema. So a schema that is lowered stands at a schema position, or is a copy of one
that does, or is found below a listed value; what is found there is neither checked nor in normal
form.

* `Lowering.ofDocument_lowers_found`: where everything that is lowered comes from.
* `Lowering.listedDocument_escapes_check`: a listed value that breaks a rule and is lowered.
-/
import SchemaDecl.Compile
import SchemaDecl.Proofs.Types.Trail

namespace SchemaDecl

namespace Document

variable {d : Document} {root o x c : NodeId}

lemma isObject_of_mem_values (h : c ∈ d.values x) : d.isObject x = true := by
  rw [values] at h
  split at h
  · obtain ⟨list, hget, -⟩ := exists_get?_of_mem_listAt h
    exact isObject_of_get? hget
  · exact isObject_of_get? (Option.mem_toList.mp h)

lemma Leads.isObject_eq (h : d.Leads x c) (hdistinct : d.DistinctAt x) : d.isObject x = true := by
  rcases h with hedge | ⟨hvalue, -⟩
  · obtain ⟨-, key, m, hget, -⟩ := (edge_iff hdistinct).mp hedge
    exact isObject_of_get? hget
  · exact isObject_of_mem_values hvalue

/-- Ways to a schema begin at a schema. -/
lemma isObject_of_way (h : Relation.ReflTransGen d.Leads root o) (hdistinct : d.Distinct)
    (hobject : d.isObject o = true) : d.isObject root = true := by
  rcases Relation.ReflTransGen.cases_head h with rfl | ⟨c, hlead, -⟩
  · exact hobject
  · exact hlead.isObject_eq (hdistinct root)

end Document

namespace Lowering

open Document

variable {s : Settings} {d d₀ : Document} {root x : NodeId} {st : Lowering}
  {category : Option Category}

/-- A node is lowered: a type is answered for it, or it is on record. -/
def Lowered (st : Lowering) (x : NodeId) : Prop :=
  (∃ t, ⟨x, t⟩ ∈ st.answers) ∨ ∃ category t, st.made.lookup (x, category) = some t

lemma Traced.reached (h : st.Traced s d₀ root) (hx : st.Lowered x) :
    d₀.Reached st.document root x := by
  rcases hx with ⟨t, ht⟩ | ⟨category, t, ht⟩
  · exact h.answered _ ht
  · exact (h.recorded _ t ht).reached

/-- What is on record stems from a schema of the document. -/
lemma Traced.exists_stems (h : st.Traced s d₀ root) (hdistinct : d₀.Distinct)
    (hroot : root < d₀.size) {aspect : Aspect} {t : TypeId} (ht : st.made.lookup aspect = some t) :
    ∃ o, d₀.Stems st.document o aspect.1 := by
  have hasked := h.recorded aspect t ht
  obtain ⟨o, hstems, -⟩ := hasked.reached.exists_stems h.document hdistinct hroot hasked.object
  exact ⟨o, hstems⟩

lemma Traced.isObject_of_stems (h : st.Traced s d₀ root) {aspect : Aspect} {t : TypeId} {o : NodeId}
    (ht : st.made.lookup aspect = some t) (hstems : d₀.Stems st.document o aspect.1) :
    d₀.isObject o = true :=
  (h.document.base.isObject_eq hstems.1).symm.trans
    (hstems.isObject_eq (h.recorded aspect t ht).object)

/-- Lowering the normal form of a document finds nothing but what is in the document. -/
lemma traced_normalize (s : Settings) (name : Option String) (hd : d.Closed)
    (hdistinct : d.Distinct) (hroot : root < d.size) :
    d.Thins (d.normalize s root name) ∧ root < (d.normalize s root name).size ∧
      (ofDocument s (d.normalize s root name) root).2.Traced s (d.normalize s root name) root := by
  have hthins :=
    (thins_respelled hd hdistinct root).trans (thins_normalize hd hdistinct s root name)
  have hroot' := Nat.lt_of_lt_of_le hroot hthins.size_le
  exact ⟨hthins, hroot', traced_ofDocument s hthins.closed hroot'⟩

/-- **Every schema that is lowered comes from a schema position or from a listed value.** It is a
schema of the document, or a copy, made on the way, of one, or of such a copy. The schema was found
when rules were checked and when the normal form was made; or else it is found below an object among
the values that a schema at a schema position lists. -/
theorem ofDocument_lowers_found (s : Settings) (d : Document) (root : NodeId) (name : Option String)
    (hd : d.Closed) (hdistinct : d.Distinct) (hroot : root < d.size) (st : Lowering)
    (hst : st = (ofDocument s (d.normalize s root name) root).2) (x : NodeId) (hx : st.Lowered x)
    (hobject : st.document.isObject x = true) :
    ∃ o, (d.normalize s root name).Stems st.document o x ∧
      (o ∈ d.schemaIds root ∧ o ∈ (d.respelled root).schemaIds root ∨
        ∃ y ∈ d.schemaIds root, ∃ v ∈ d.values y, d.isObject v = true ∧
          Relation.ReflTransGen d.Leads v o) := by
  have hspelled := thins_respelled hd hdistinct root
  have hnormal := thins_normalize hd hdistinct s root name
  obtain ⟨hthins, hroot', htraced⟩ := traced_normalize s name hd hdistinct hroot
  rw [← hst] at htraced
  obtain ⟨o, hstems, hway⟩ :=
    (htraced.reached hx).exists_stems htraced.document hthins.distinct hroot' hobject
  have hobject' : (d.normalize s root name).isObject o = true :=
    (htraced.document.base.isObject_eq hstems.1).symm.trans (hstems.isObject_eq hobject)
  refine ⟨o, hstems, ?_⟩
  rcases stands_or_listed (isObject_of_way hway hnormal.distinct hobject') hway with
    ho | ⟨y, hy, v, hv, hvobject, hbelow⟩
  · have hstill := hnormal.mem_schemaIds ho
    exact .inl ⟨hspelled.mem_schemaIds hstill, hstill⟩
  · have hvobject' := (hthins.isObject_eq v).symm.trans hvobject
    exact .inr ⟨y, hthins.mem_schemaIds hy, v, hthins.value hv hvobject', hvobject',
      Relation.ReflTransGen.mono (fun _ _ hlead => hthins.leads hlead) _ _ hbelow⟩

/-- A schema of two types that offers another schema. -/
def pairDocument : Document :=
  ⟨#[⟨.object [("type", 1), ("anyOf", 4)], .root⟩, ⟨.array [2, 3], .under 0⟩,
    ⟨.leaf (.string "string"), .under 1⟩, ⟨.leaf (.string "null"), .under 1⟩,
    ⟨.array [5], .under 0⟩, ⟨.object [("type", 6)], .under 4⟩,
    ⟨.leaf (.string "number"), .under 5⟩]⟩

/-- The last schema that is lowered is a copy, under one of its categories, of a copy for one of the
types, of a copy. It stems from a schema at a schema position. -/
theorem ofDocument_lowers_found_pair :
    pairDocument.Closed ∧ pairDocument.Distinct ∧ 0 < pairDocument.size ∧
    ∃ st, st = (ofDocument {} (pairDocument.normalize {} 0 none) 0).2 ∧ st.Lowered 13 ∧
      st.document.isObject 13 = true ∧
      ∃ o, (pairDocument.normalize {} 0 none).Stems st.document o 13 ∧
        o ∈ pairDocument.schemaIds 0 := by
  have hclosed : pairDocument.Closed := by decide
  have hdistinct : pairDocument.Distinct := by decide
  have hvalues : ∀ y ∈ pairDocument.schemaIds 0, pairDocument.values y = [] := by decide +kernel
  have hmade : (ofDocument {} (pairDocument.normalize {} 0 none) 0).2.made.lookup (13, some .null)
      = some 9 := by decide +kernel
  have hobject : (ofDocument {} (pairDocument.normalize {} 0 none) 0).2.document.isObject 13
      = true := by decide +kernel
  have hfound :=
    ofDocument_lowers_found {} pairDocument 0 none hclosed hdistinct (by decide) _ rfl 13
      (.inr ⟨_, 9, hmade⟩) hobject
  obtain ⟨o, hstems, ⟨ho, -⟩ | ⟨y, hy, v, hv, -⟩⟩ := hfound
  · exact ⟨hclosed, hdistinct, by decide, _, rfl, .inr ⟨_, 9, hmade⟩, hobject, o, hstems, ho⟩
  · rw [hvalues y hy] at hv
    cases hv

/-- A schema that lists one value: an object that asks for at least three items and at most one. -/
def listedDocument : Document :=
  ⟨#[⟨.object [("enum", 1)], .root⟩, ⟨.array [2], .under 0⟩,
    ⟨.object [("type", 3), ("minItems", 4), ("maxItems", 5)], .under 1⟩,
    ⟨.leaf (.string "array"), .under 2⟩, ⟨.leaf (.number (.int 3)), .under 2⟩,
    ⟨.leaf (.number (.int 1)), .under 2⟩]⟩

/-- The document follows all rules, because the value is at no schema position. The value is lowered
nevertheless, as the schema that it is not, and comes from no schema that was checked. -/
theorem listedDocument_escapes_check :
    listedDocument.Closed ∧ listedDocument.Distinct ∧ listedDocument.violations 0 "" = [] ∧
    Rule.maxItemsAtLeastMinItems.check listedDocument 2 = .violated ∧
    (ofDocument {} (listedDocument.normalize {} 0 none) 0).2.Lowered 2 ∧
    (ofDocument {} (listedDocument.normalize {} 0 none) 0).2.document.isObject 2 = true ∧
    (∀ o, (listedDocument.normalize {} 0 none).Stems
      (ofDocument {} (listedDocument.normalize {} 0 none) 0).2.document o 2 →
        o ∉ listedDocument.schemaIds 0) ∧
    (compileDocument {} listedDocument 0 none).result.toOption
      = some "[unknown, unknown, unknown]" := by
  have hanswers : ⟨2, 1⟩ ∈ (ofDocument {} (listedDocument.normalize {} 0 none) 0).2.answers := by
    decide +kernel
  have hlt : 2 < (listedDocument.normalize {} 0 none).size := by decide +kernel
  have hstray : 2 ∉ listedDocument.schemaIds 0 := by decide +kernel
  refine ⟨by decide, by decide, by decide +kernel, by decide +kernel, .inl ⟨1, hanswers⟩,
    by decide +kernel, fun o hstems => ?_, by decide +kernel⟩
  exact hstems.eq_of_lt hlt ▸ hstray

end Lowering

end SchemaDecl
