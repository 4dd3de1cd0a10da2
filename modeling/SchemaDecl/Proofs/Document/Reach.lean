/-
What lowering finds in a document.

Lowering goes from a schema to the nodes right below it, and to copies that it makes of schemas. A
copy holds what its schema holds, so that nothing new is found below it: whatever is found stems
from a schema to which ways lead in the document that lowering began with.

* `Document.Below`: the nodes right below a schema.
* `Document.IsCopy`, `Document.Stems`: copies of schemas, and copies of copies.
* `Document.Reached`, `Document.Asked`: what is found from a root, and what is asked for there.
* `Document.Reached.exists_stems`: where it stems from.
-/
import SchemaDecl.Proofs.Document.Reading
import SchemaDecl.Proofs.Document.Ways

namespace SchemaDecl.Document

variable {d d' d₀ : Document} {id root x o c : NodeId} {key : String}

/-! ### Nodes below a schema -/

/-- The node is right below the schema: in a list, in a map, or by itself. -/
inductive Below (d : Document) (x : NodeId) : NodeId → Prop
  | listed {key : String} {c : NodeId}
      (hkey : key ∈ ["allOf", "anyOf", "oneOf", "enum", "items", "extends"])
      (hc : c ∈ d.listAt x key) : Below d x c
  | named {key : String} {e : String × NodeId}
      (hkey : key ∈ ["properties", "patternProperties", "$defs"])
      (he : e ∈ d.membersAt x key) : Below d x e.2
  | single {key : String} {c : NodeId}
      (hkey : key ∈ ["items", "additionalItems", "additionalProperties"])
      (hc : d.get? x key = some c) (hobject : d.isObject c = true) : Below d x c

namespace Below

lemma isObject_eq (h : d.Below x c) : d.isObject x = true := by
  cases h with
  | listed _ hc =>
      obtain ⟨list, hget, -⟩ := exists_get?_of_mem_listAt hc
      exact isObject_of_get? hget
  | named _ he =>
      obtain ⟨map, hget, -⟩ := exists_get?_of_mem_membersAt he
      exact isObject_of_get? hget
  | single _ hc _ => exact isObject_of_get? hc

/-- A node that holds the same as another has the same below it. -/
lemma of_get?_eq (h : d.Below x c)
    (hget : ∀ key ∉ ["$id", "title", "description", "name", "type", "default"],
      d.get? x key = d.get? o key) : d.Below o c := by
  cases h with
  | @listed key _ hkey hc =>
      have hother : key ∉ ["$id", "title", "description", "name", "type", "default"] := by
        clear hc
        revert key
        decide
      rw [listAt, hget key hother] at hc
      exact .listed hkey hc
  | @named key e hkey he =>
      have hother : key ∉ ["$id", "title", "description", "name", "type", "default"] := by
        clear he
        revert key
        decide
      rw [membersAt, hget key hother] at he
      exact .named hkey he
  | @single key _ hkey hc hobject =>
      have hother : key ∉ ["$id", "title", "description", "name", "type", "default"] := by
        clear hc
        revert key
        decide
      rw [hget key hother] at hc
      exact .single hkey hc hobject

lemma lt_size (h : d.Below x c) (hd : d.Closed) : c < d.size := by
  cases h with
  | listed _ hc => exact hd.listAt_lt hc
  | named _ he => exact hd.membersAt_lt he
  | single _ hc _ => exact hd.get?_lt hc

/-- A schema leads to the schemas right below it. -/
lemma leads (h : d.Below x c) (hdistinct : d.DistinctAt x) (hobject : d.isObject c = true) :
    d.Leads x c := by
  have hheld {key : String} {m : NodeId} (hget : d.get? x key = some m) (hc : c ∈ d.held key m) :
      d.Leads x c := .inl ((edge_iff hdistinct).mpr ⟨hobject, key, m, hget, hc⟩)
  cases h with
  | @listed key _ hkey hc =>
      obtain ⟨list, hget, -⟩ := exists_get?_of_mem_listAt hc
      by_cases henum : key = "enum"
      · subst henum
        refine .inr ⟨?_, hobject⟩
        rwa [values, has, hget, Option.isSome_some, if_pos rfl]
      · rw [listAt, hget, Option.bind_some] at hc
        refine hheld hget ?_
        have hlist : d.isArray list = true := by
          rw [isArray]
          cases hitems : d.items? list with
          | none => simp [hitems] at hc
          | some items => rfl
        simp only [List.mem_cons, List.not_mem_nil, or_false] at hkey
        rcases hkey with rfl | rfl | rfl | rfl | rfl | rfl
        all_goals first
          | exact absurd rfl henum
          | simpa [held, hlist] using hc
  | @named key e hkey he =>
      obtain ⟨map, hget, hc⟩ := exists_get?_of_mem_membersAt he
      refine hheld hget ?_
      simp only [List.mem_cons, List.not_mem_nil, or_false] at hkey
      rcases hkey with rfl | rfl | rfl <;> simpa [held] using hc
  | @single key _ hkey hc _ =>
      refine hheld hc ?_
      obtain ⟨members, hnode⟩ := exists_members_of_isObject hobject
      simp only [List.mem_cons, List.not_mem_nil, or_false] at hkey
      rcases hkey with rfl | rfl | rfl <;> simp [held, isArray, items?, hnode]

end Below

/-- Nothing is found below a schema in a document that has grown but what was found there. -/
lemma Extends.below_iff (h : d.Extends d') (hd : d.Closed) (hx : x < d.size) :
    d'.Below x c ↔ d.Below x c := by
  constructor
  · intro hbelow
    cases hbelow with
    | listed hkey hc => exact .listed hkey (h.listAt_eq hd hx ▸ hc)
    | named hkey he => exact .named hkey (h.membersAt_eq hd hx ▸ he)
    | single hkey hc hobject =>
        rw [h.get?_eq hx] at hc
        exact .single hkey hc ((h.isObject_eq (hd.get?_lt hc)).symm.trans hobject)
  · intro hbelow
    cases hbelow with
    | listed hkey hc => exact .listed hkey (h.listAt_eq hd hx ▸ hc)
    | named hkey he => exact .named hkey (h.membersAt_eq hd hx ▸ he)
    | single hkey hc hobject =>
        exact .single hkey ((h.get?_eq hx).trans hc) ((h.isObject_eq (hd.get?_lt hc)).trans hobject)

/-! ### Copies -/

/-- The schema `c` is a copy of `x` that was not there in `d₀`: it has no name and no description,
its types are among those of `x`, and it holds the same apart from them and a default. -/
structure IsCopy (d₀ d : Document) (x c : NodeId) : Prop where
  new : d₀.size ≤ c
  source : d.isObject x = true
  object : d.isObject c = true
  get?_eq : ∀ key ∉ ["$id", "title", "description", "name", "type", "default"],
    d.get? c key = d.get? x key
  nameless : ∀ key ∈ ["$id", "title", "description"], d.get? c key = none
  type : ∀ name, d.hasType c name = true → d.hasType x name = true

lemma Extends.isCopy (h : d.Extends d') (hd : d.Closed) (hcopy : d₀.IsCopy d x c) :
    d₀.IsCopy d' x c := by
  have hx := lt_size_of_isObject hcopy.source
  have hc := lt_size_of_isObject hcopy.object
  refine ⟨hcopy.new, (h.isObject_eq hx).trans hcopy.source, (h.isObject_eq hc).trans hcopy.object,
    fun key hkey => ?_, fun key hkey => ?_, fun name => ?_⟩
  · rw [h.get?_eq hc, h.get?_eq hx, hcopy.get?_eq key hkey]
  · rw [h.get?_eq hc, hcopy.nameless key hkey]
  · rw [h.hasType_eq hd hc, h.hasType_eq hd hx]
    exact hcopy.type name

/-- What types a schema has is seen from its member `type`. -/
lemma hasType_of_get?_eq (h : d.get? c "type" = d.get? x "type") (name : String) :
    d.hasType c name = d.hasType x name := by
  rw [hasType, hasType, string?, string?, scalar?, scalar?, strings, strings, listAt, listAt, h]

/-- A copy whose type and default are changed is a copy, if its types are still among the same. -/
lemma IsCopy.of_altersAt (h : d₀.IsCopy d x c) (halters : d.AltersAt d' c ["type", "default"])
    (htype : ∀ name, d'.hasType c name = true → d'.hasType x name = true) : d₀.IsCopy d' x c := by
  have hx := lt_size_of_isObject h.source
  have hc := lt_size_of_isObject h.object
  have hget (y : NodeId) (hy : y < d.size) {keys : List String} (hkeys : ["type", "default"] ⊆ keys)
      (key : String) (hkey : key ∉ keys) : d'.get? y key = d.get? y key :=
    halters.get?_eq y hy key fun hmem => hkey (hkeys hmem)
  refine ⟨h.new, (halters.isObject_eq x hx).trans h.source,
    (halters.isObject_eq c hc).trans h.object, fun key hkey => ?_, fun key hkey => ?_, htype⟩
  · rw [hget c hc (by decide) key hkey, hget x hx (by decide) key hkey, h.get?_eq key hkey]
  · rw [halters.get?_eq c hc key (by revert key; decide), h.nameless key hkey]

/-- A copy with one type in place of several has that type only. -/
lemma eq_of_hasType_withType (hobject : d.isObject id = true) {name other : String}
    (h : (Lower.withType d id name).2.hasType (Lower.withType d id name).1 other = true) :
    other = name := by
  obtain ⟨leaf, hget, hleaf⟩ := exists_type_withType hobject name
  have hstrings :
      (Lower.withType d id name).2.strings (Lower.withType d id name).1 "type" = [] := by
    rw [strings, listAt, hget, Option.bind_some, items?, hleaf]
    rfl
  rw [hasType, string?_withType hobject, hstrings] at h
  have heq : name = other := by simpa using h
  exact heq.symm

section Copies

variable (hd : d.DerivedFrom d₀) (hobject : d.isObject id = true)
include hd hobject

/-- A copy without names and descriptions. -/
lemma isCopy_copyWithout {keys : List String} (hkeys : ["$id", "title", "description"] ⊆ keys)
    (hkeys' : keys ⊆ ["$id", "title", "description", "name"]) :
    d₀.IsCopy (d.copyWithout id keys).2 id (d.copyWithout id keys).1 := by
  obtain ⟨members, hnode⟩ := exists_members_of_isObject hobject
  obtain ⟨hextends, -, -, hcopied⟩ := hd.copyWithout hobject keys
  have hid := lt_size_of_isObject hobject
  have hcopy : (d.copyWithout id keys).2.node (d.copyWithout id keys).1
      = .object (members.filter fun e => !keys.contains e.1) := by
    rw [copyWithout_eq_adding hnode]
    exact node_adding_add 0
  have hget (key : String) (hkey : key ∉ ["$id", "title", "description", "name"]) :
      (d.copyWithout id keys).2.get? (d.copyWithout id keys).1 key
        = (d.copyWithout id keys).2.get? id key := by
    rw [hextends.get?_eq hid, get?_of_node hcopy, get?_of_node hnode]
    refine Keyed.get?_filter fun _ => ?_
    have hmem : key ∉ keys := fun hmem => hkey (hkeys' hmem)
    simpa using hmem
  refine ⟨?_, (hextends.isObject_eq hid).trans hobject, hcopied, fun key hkey => ?_,
    fun key hkey => ?_, fun name htype => ?_⟩
  · rw [copyWithout_eq_adding hnode]
    exact hd.base.size_le
  · exact hget key fun hmem => hkey (List.mem_append_left ["type", "default"] hmem)
  · rw [get?_of_node hcopy]
    refine Option.eq_none_iff_forall_ne_some.mpr fun c hc => ?_
    have hmem := (List.mem_filter.mp (Keyed.mem_of_get? hc)).2
    simp [hkeys hkey] at hmem
  · rwa [hasType_of_get?_eq (hget "type" (by simp))] at htype

/-- A copy with one type in place of several. -/
lemma isCopy_withType {name : String} (hname : name ∈ d.strings id "type") :
    d₀.IsCopy (Lower.withType d id name).2 id (Lower.withType d id name).1 := by
  have hid := lt_size_of_isObject hobject
  obtain ⟨hextends, -, -, -⟩ := hd.withType hobject name
  have htype (other : String) (hother : (Lower.withType d id name).2.hasType
      (Lower.withType d id name).1 other = true) :
      (Lower.withType d id name).2.hasType id other = true := by
    obtain rfl := eq_of_hasType_withType hobject hother
    rw [hextends.hasType_eq hd.closed hid, hasType, List.contains_iff_mem.mpr hname, Bool.or_true]
  have hcopy : d₀.IsCopy (d.copyWithout id ["$id", "description", "title"]).2 id
      (d.copyWithout id ["$id", "description", "title"]).1 :=
    isCopy_copyWithout hd hobject (by decide) (by decide)
  clear hextends
  rw [Lower.withType] at htype ⊢
  generalize d.copyWithout id ["$id", "description", "title"] = copied at hcopy htype ⊢
  obtain ⟨copy, d₁⟩ := copied
  have halters : d₁.AltersAt (d₁.setValue copy "type" (.string name)) copy ["type", "default"] :=
    (altersAt_setValue d₁ copy "type" _).mono (by simp)
  dsimp only at htype ⊢
  split at htype
  case isTrue hfits =>
    rw [if_pos hfits]
    exact hcopy.of_altersAt halters htype
  case isFalse hfits =>
    rw [if_neg hfits]
    exact hcopy.of_altersAt (halters.trans ((altersAt_erase _ copy _).mono (by simp))) htype

end Copies

/-- The schema is one of `d₀`, a copy of it, a copy of such a copy, and so on. -/
def Stems (d₀ d : Document) (o x : NodeId) : Prop :=
  o < d₀.size ∧ Relation.ReflTransGen (d₀.IsCopy d) o x

lemma Stems.get?_eq (h : d₀.Stems d o x)
    (hkey : key ∉ ["$id", "title", "description", "name", "type", "default"]) :
    d.get? x key = d.get? o key := by
  obtain ⟨-, hcopies⟩ := h
  induction hcopies with
  | refl => rfl
  | tail _ hcopy ih => rw [hcopy.get?_eq key hkey, ih]

/-- What a copy holds is what its schema held at the start. -/
lemma Stems.get?_eq_base (h : d₀.Stems d o x) (hextends : d₀.Extends d)
    (hkey : key ∉ ["$id", "title", "description", "name", "type", "default"]) :
    d.get? x key = d₀.get? o key := (h.get?_eq hkey).trans (hextends.get?_eq h.1)

lemma Stems.isObject_eq (h : d₀.Stems d o x) (hobject : d.isObject x = true) :
    d.isObject o = true := by
  rcases Relation.ReflTransGen.cases_head h.2 with rfl | ⟨c, hcopy, -⟩
  · exact hobject
  · exact hcopy.source

lemma Stems.membersAt_eq_base (h : d₀.Stems d o x) (hextends : d₀.Extends d) (hd₀ : d₀.Closed)
    (hkey : key ∉ ["$id", "title", "description", "name", "type", "default"]) :
    d.membersAt x key = d₀.membersAt o key := by
  rw [membersAt, h.get?_eq hkey, ← membersAt, hextends.membersAt_eq hd₀ h.1]

/-- A schema with a name or a description is no copy. -/
lemma Stems.eq_of_get? (h : d₀.Stems d o x) (hkey : key ∈ ["$id", "title", "description"])
    (hget : d.get? x key = some c) : x = o := by
  rcases Relation.ReflTransGen.cases_tail h.2 with rfl | ⟨y, -, hcopy⟩
  · rfl
  · cases hget.symm.trans (hcopy.nameless key hkey)

/-- A node that was there in `d₀` is no copy. -/
lemma Stems.eq_of_lt (h : d₀.Stems d o x) (hx : x < d₀.size) : x = o := by
  rcases Relation.ReflTransGen.cases_tail h.2 with rfl | ⟨c, -, hcopy⟩
  · rfl
  · exact absurd hcopy.new (Nat.not_le.mpr hx)

/-! ### What is found -/

/-- What is found from a root: the root, what is below a schema that is found, and its copies. -/
inductive Reached (d₀ d : Document) (root : NodeId) : NodeId → Prop
  | start : Reached d₀ d root root
  | down {x c : NodeId} (hx : Reached d₀ d root x) (hc : d.Below x c) : Reached d₀ d root c
  | copy {x c : NodeId} (hx : Reached d₀ d root x) (hc : d₀.IsCopy d x c) : Reached d₀ d root c

/-- What is found in a document is found in one that it has grown to. -/
lemma Extends.reached (h : d.Extends d') (hd : d.Closed) (hx : d₀.Reached d root x) :
    d₀.Reached d' root x := by
  induction hx with
  | start => exact .start
  | down _ hc ih => exact .down ih ((h.below_iff hd (lt_size_of_isObject hc.isObject_eq)).mpr hc)
  | copy _ hc ih => exact .copy ih (h.isCopy hd hc)

/-- A schema is asked for under a category, or as a whole: it is found from the root, and it is of
the category, or it is a copy of a schema that is. -/
structure Asked (d₀ d : Document) (root : NodeId) (aspect : Aspect) : Prop where
  reached : d₀.Reached d root aspect.1
  object : d.isObject aspect.1 = true
  category : ∀ category, aspect.2 = some category →
    ∃ y, (y = aspect.1 ∨ d₀.IsCopy d y aspect.1) ∧ category ∈ d.categories y

lemma Extends.asked {aspect : Aspect} (h : d.Extends d') (hd : d.Closed)
    (hasked : d₀.Asked d root aspect) : d₀.Asked d' root aspect := by
  have hlt := lt_size_of_isObject hasked.object
  refine ⟨h.reached hd hasked.reached, (h.isObject_eq hlt).trans hasked.object,
    fun category hcategory => ?_⟩
  obtain ⟨y, hy, hmem⟩ := hasked.category category hcategory
  refine ⟨y, hy.imp_right (h.isCopy hd), ?_⟩
  have hlt' : y < d.size := hy.elim (· ▸ hlt) fun hcopy => lt_size_of_isObject hcopy.source
  rwa [h.categories_eq hd hlt']

/-- **Whatever is found stems from a schema to which ways lead.** -/
lemma Reached.exists_stems (h : d₀.Reached d root x) (hd : d.DerivedFrom d₀)
    (hdistinct : d₀.Distinct) (hroot : root < d₀.size) (hobject : d.isObject x = true) :
    ∃ o, d₀.Stems d o x ∧ Relation.ReflTransGen d₀.Leads root o := by
  induction h with
  | start => exact ⟨root, ⟨hroot, .refl⟩, .refl⟩
  | @down x c _ hc ih =>
      obtain ⟨o, hstems, hway⟩ := ih hc.isObject_eq
      have hbelow := hc.of_get?_eq fun key hkey => hstems.get?_eq hkey
      rw [hd.base.below_iff hd.base_closed hstems.1] at hbelow
      have hlt := hbelow.lt_size hd.base_closed
      exact ⟨c, ⟨hlt, .refl⟩,
        hway.tail (hbelow.leads (hdistinct o) ((hd.base.isObject_eq hlt).symm.trans hobject))⟩
  | copy _ hc ih =>
      obtain ⟨o, hstems, hway⟩ := ih hc.source
      exact ⟨o, ⟨hstems.1, hstems.2.tail hc⟩, hway⟩

end SchemaDecl.Document
