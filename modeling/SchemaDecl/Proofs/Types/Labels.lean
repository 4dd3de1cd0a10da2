/-
The labels of enumerations.

An enumeration pairs the values that a schema lists with the labels that it lists. The rules ask for
as many labels as values, so that nothing is left over; but they are checked before a constant is
turned into a list of one value, and nothing is asked of the number of its labels.

* `Document.LabelsFit`: as many labels as values, and all of them strings.
* `Lowering.Labels`: every value and every label has its member.
* `Lowering.ofDocument_labels_iff`: which enumerations lose nothing.
* `Lowering.spareDocument_loses_label`: one that loses a label.
-/
import SchemaDecl.Proofs.Document.Form
import SchemaDecl.Proofs.Types.Bounds
import SchemaDecl.Proofs.Types.Provenance

namespace SchemaDecl

namespace Document

variable {d d' : Document} {x y root : NodeId} {keys : List String}

/-! ### Labels and values -/

/-- There are as many labels as values, and all labels are strings. -/
@[mk_iff] structure LabelsFit (d : Document) (x : NodeId) : Prop where
  length_eq : (d.values x).length = (d.listAt x "tsEnumNames").length
  strings : ∀ label ∈ d.listAt x "tsEnumNames", (d.leafString? label).isSome = true

section Rules

variable (h : ∀ rule : Rule, rule.check d x ≠ .violated)
include h

lemma isSome_leafString?_label {label : NodeId} (hlabel : label ∈ d.listAt x "tsEnumNames") :
    (d.leafString? label).isSome = true := by
  have hrule := h .enumNamesStrings
  rw [Rule.check] at hrule
  rw [listAt] at hlabel
  cases hget : d.get? x "tsEnumNames" with
  | none => simp [hget] at hlabel
  | some list =>
      rw [hget] at hrule hlabel
      cases hitems : d.items? list with
      | none => simp [hitems] at hlabel
      | some labels =>
          simp only [hitems, Option.bind_some, Option.getD_some] at hrule hlabel
          exact List.all_eq_true.mp (Verdict.ofBool_ne_violated.mp hrule) label hlabel

lemma length_enum_eq (henum : d.has x "enum" = true) (hlabels : d.has x "tsEnumNames" = true) :
    (d.listAt x "enum").length = (d.listAt x "tsEnumNames").length := by
  have hrule := h .enumNamesLength
  obtain ⟨values, hvalues⟩ := Option.isSome_iff_exists.mp henum
  obtain ⟨labels, hlabels⟩ := Option.isSome_iff_exists.mp hlabels
  rw [Rule.check, hvalues, hlabels] at hrule
  rw [listAt, listAt, hvalues, hlabels, Option.bind_some, Option.bind_some]
  cases hlist : d.items? values with
  | none => simp [hlist] at hrule
  | some list =>
      cases hlist' : d.items? labels with
      | none => simp [hlist, hlist'] at hrule
      | some list' =>
          simp only [hlist, hlist'] at hrule
          exact beq_iff_eq.mp (Verdict.ofBool_ne_violated.mp hrule)

/-- The labels of a schema that follows the rules fit its values, if these are listed. A constant
has to have one label. -/
lemma labelsFit_iff_of_rules (hvalues : (d.has x "enum" || d.has x "const") = true)
    (hlabels : d.has x "tsEnumNames" = true) :
    d.LabelsFit x ↔ d.has x "enum" = true ∨ (d.listAt x "tsEnumNames").length = 1 := by
  have hfit : d.LabelsFit x ↔ (d.values x).length = (d.listAt x "tsEnumNames").length :=
    ⟨LabelsFit.length_eq, fun hlength => ⟨hlength, fun _ => isSome_leafString?_label h⟩⟩
  rw [hfit, values]
  split
  case isTrue henum => simp only [length_enum_eq h henum hlabels, henum, true_or]
  case isFalse henum =>
    have hconst : d.has x "const" = true := by simpa [henum] using hvalues
    obtain ⟨value, hget⟩ := Option.isSome_iff_exists.mp hconst
    simp only [hget, henum, Option.toList_some, List.length_singleton, Bool.false_eq_true, false_or]
    exact eq_comm

end Rules

/-- A schema that lists values in the normal form had the same values at the start. -/
lemma values_of_has_enum_normalize {s : Settings} {name : Option String} (hd : d.Closed)
    (hdistinct : d.Distinct) (hx : x < d.size)
    (henum : (d.normalize s root name).has x "enum" = true) :
    (d.has x "enum" || d.has x "const") = true ∧
      (d.normalize s root name).listAt x "enum" = d.values x := by
  by_cases hfound : x ∈ (d.respelled root).schemaIds root
  · rw [has_enum_normalize hd hdistinct name hfound] at henum
    exact ⟨henum, listAt_enum_normalize hd hdistinct name hfound s⟩
  · have hget : (d.normalize s root name).get? x "enum" = d.get? x "enum" :=
      get?_normalize_of_not_mem s name hx hfound (by decide)
    rw [has, hget, ← has] at henum
    rw [(alters_normalize s d root name).listAt_eq hd hget, values, if_pos henum, henum]
    exact ⟨rfl, rfl⟩

end Document

namespace Lowering

open Document

variable {s : Settings} {d d₀ : Document} {root x o : NodeId} {st : Lowering}
  {members : List (String × TypeId)}

/-! ### Members -/

/-- If all items are mapped to something, none is left out. -/
lemma forall₂_filterMap {α β : Type} {f : α → Option β} {l : List α}
    (h : ∀ a ∈ l, (f a).isSome = true) :
    List.Forall₂ (fun a b => f a = some b) l (l.filterMap f) := by
  induction l with
  | nil => exact .nil
  | cons a l ih =>
      obtain ⟨b, hb⟩ := Option.isSome_iff_exists.mp (h a List.mem_cons_self)
      rw [List.filterMap_cons_some hb]
      exact .cons hb (ih fun c hc => h c (List.mem_cons_of_mem a hc))

/-- Every value that the schema lists and every label has its member, in order. -/
structure Labels (st : Lowering) (x : NodeId) (members : List (String × TypeId)) : Prop where
  values : List.Forall₂ (fun value m => st.Gives value m.2) (st.document.listAt x "enum") members
  labels : List.Forall₂ (fun label m => st.document.leafString? label = some m.1)
    (st.document.listAt x "tsEnumNames") members

/-- Pairs leave nothing out if there are as many labels as values, and all of them are strings. -/
lemma labels_iff (h : List.Forall₂ (fun e m => m.1 = e.2 ∧ st.Gives e.1 m.2)
      ((st.document.listAt x "enum").zip (st.document.strings x "tsEnumNames")) members) :
    st.Labels x members ↔
      (st.document.listAt x "enum").length = (st.document.listAt x "tsEnumNames").length ∧
      ∀ label ∈ st.document.listAt x "tsEnumNames",
        (st.document.leafString? label).isSome = true := by
  constructor
  · rintro ⟨hvalues, hlabels⟩
    refine ⟨hvalues.length_eq.trans hlabels.length_eq.symm, ?_⟩
    have hboth := hlabels.imp fun label m hm => And.intro (Option.isSome_of_eq_some hm) hm
    exact ((List.forall₂_and_left _ _).mp hboth).1
  · rintro ⟨hlength, hstrings⟩
    have hall := forall₂_filterMap hstrings
    have hlength' := hlength.trans hall.length_eq
    rw [strings] at h
    generalize (st.document.listAt x "tsEnumNames").filterMap st.document.leafString? = texts
      at h hall hlength'
    have htexts : texts = members.map Prod.fst := by
      rw [← List.forall₂_eq_eq_eq, List.forall₂_map_right_iff,
        ← List.map_snd_zip (Nat.le_of_eq hlength'.symm), List.forall₂_map_left_iff]
      exact h.imp fun _ _ hm => hm.1.symm
    refine ⟨?_, ?_⟩
    · rw [← List.map_fst_zip (Nat.le_of_eq hlength'), List.forall₂_map_left_iff]
      exact h.imp fun _ _ hm => hm.2
    · rwa [htexts, List.forall₂_map_right_iff] at hall

/-- A schema that becomes an enumeration has values and labels. -/
lemma Traced.has_of_namedEnum (h : st.Traced s d₀ root) {t : TypeId}
    (ht : st.made.lookup (x, some .namedEnum) = some t) :
    st.document.has x "enum" = true ∧ st.document.has x "tsEnumNames" = true := by
  obtain ⟨y, hy, hcategory⟩ := (h.recorded _ t ht).category _ rfl
  have hholds : (st.document.has y "enum" && st.document.has y "tsEnumNames") = true :=
    holds_of_mem_categories hcategory (by decide) (by decide)
  have hsame (key : String) (hkey : key ∈ ["enum", "tsEnumNames"]) :
      st.document.has x key = st.document.has y key := by
    rcases hy with rfl | hcopy
    · rfl
    · rw [has, has, hcopy.get?_eq key (by revert key; decide)]
  rw [hsame "enum" (by simp), hsame "tsEnumNames" (by simp)]
  exact Bool.and_eq_true_iff.mp hholds

/-- **An enumeration loses nothing** just if its schema lists the values, or has one label for a
constant. This is so for schemas at schema positions. No rule is checked for others, and nothing is
lost just if their labels happen to fit. -/
theorem ofDocument_labels_iff (s : Settings) (d : Document) (root : NodeId) (name : Option String)
    (source : String) (hd : d.Closed) (hdistinct : d.Distinct) (hroot : root < d.size)
    (hvalid : d.violations root source = []) (st : Lowering)
    (hst : st = (ofDocument s (d.normalize s root name) root).2) (x : NodeId) (t : TypeId)
    (ht : st.made.lookup (x, some .namedEnum) = some t) :
    ∃ members, st.types.shape t = .enumeration members ∧
      (∃ o, (d.normalize s root name).Stems st.document o x) ∧
      ∀ o, (d.normalize s root name).Stems st.document o x →
        (o ∈ d.schemaIds root →
          (st.Labels x members ↔
            d.has o "enum" = true ∨ (d.listAt o "tsEnumNames").length = 1)) ∧
        (o ∉ d.schemaIds root → (st.Labels x members ↔ d.LabelsFit o)) := by
  obtain ⟨hthins, hroot', htraced⟩ := traced_normalize s name hd hdistinct hroot
  obtain ⟨hfaithful, -, -, hpending⟩ := faithful_ofDocument s hthins.closed hroot'
  rw [← hst] at hfaithful htraced hpending
  obtain ⟨-, members, hmembers, hshape⟩ :=
    hfaithful.depicts _ t ht (hpending t (hfaithful.made_lt _ t ht))
  refine ⟨members, hshape, htraced.exists_stems hthins.distinct hroot' ht, fun o hstems => ?_⟩
  obtain ⟨henum, hlabels⟩ := htraced.has_of_namedEnum ht
  have hlt : o < d.size := lt_size_of_isObject ((hthins.isObject_eq o).symm.trans
    (htraced.isObject_of_stems ht hstems))
  have hextends := htraced.document.base
  have henum' : st.document.get? x "enum" = (d.normalize s root name).get? o "enum" :=
    hstems.get?_eq_base hextends (by decide)
  rw [has, henum', ← has] at henum
  obtain ⟨hvalues, hlist⟩ := values_of_has_enum_normalize hd hdistinct hlt henum
  -- Nothing is done to labels on the way.
  have halters := (alters_normalize s d root name).trans (hextends.alters.mono (List.nil_subset _))
  have hsame : st.document.get? x "tsEnumNames" = d.get? o "tsEnumNames" :=
    (hstems.get?_eq (by decide)).trans (halters.get?_eq o hlt _ (by decide))
  rw [has, hsame, ← has] at hlabels
  have hfit : st.Labels x members ↔ d.LabelsFit o := by
    rw [labels_iff hmembers, labelsFit_iff, hextends.alters.listAt_eq hthins.closed henum', hlist,
      halters.listAt_eq hd hsame]
    refine and_congr Iff.rfl (forall₂_congr fun label hlabel => ?_)
    rw [leafString?, leafString?, halters.leaf?_eq (hd.listAt_lt hlabel)]
  refine ⟨fun hmem => ?_, fun _ => hfit⟩
  rw [hfit, labelsFit_iff_of_rules (check_ne_violated hvalid hmem) hvalues hlabels]

/-- A constant with one label. -/
def labelledDocument : Document :=
  ⟨#[⟨.object [("title", 1), ("const", 2), ("tsEnumNames", 3)], .root⟩,
    ⟨.leaf (.string "E"), .under 0⟩, ⟨.leaf (.string "a"), .under 0⟩, ⟨.array [4], .under 0⟩,
    ⟨.leaf (.string "A"), .under 3⟩]⟩

/-- The label goes with the constant. -/
theorem ofDocument_labels_iff_constant :
    labelledDocument.Closed ∧ labelledDocument.Distinct ∧ labelledDocument.violations 0 "" = [] ∧
    ∃ members, (ofDocument {} (labelledDocument.normalize {} 0 none) 0).2.types.shape 0
        = .enumeration members ∧
      (ofDocument {} (labelledDocument.normalize {} 0 none) 0).2.Labels 0 members := by
  have hclosed : labelledDocument.Closed := by decide
  have hdistinct : labelledDocument.Distinct := by decide
  have hvalid : labelledDocument.violations 0 "" = [] := by decide +kernel
  have hmade : (ofDocument {} (labelledDocument.normalize {} 0 none) 0).2.made.lookup
      (0, some .namedEnum) = some 0 := by decide +kernel
  have hstems : (labelledDocument.normalize {} 0 none).Stems
      (ofDocument {} (labelledDocument.normalize {} 0 none) 0).2.document 0 0 :=
    ⟨by decide +kernel, .refl⟩
  have hmem : 0 ∈ labelledDocument.schemaIds 0 := by decide +kernel
  obtain ⟨members, hshape, -, hlabels⟩ :=
    ofDocument_labels_iff {} labelledDocument 0 none "" hclosed hdistinct (by decide) hvalid _ rfl
      0 0 hmade
  exact ⟨hclosed, hdistinct, hvalid, members, hshape,
    ((hlabels 0 hstems).1 hmem).mpr (.inr (by decide))⟩

/-- A constant with two labels. -/
def spareDocument : Document :=
  ⟨#[⟨.object [("title", 1), ("const", 2), ("tsEnumNames", 3)], .root⟩,
    ⟨.leaf (.string "E"), .under 0⟩, ⟨.leaf (.string "a"), .under 0⟩, ⟨.array [4, 5], .under 0⟩,
    ⟨.leaf (.string "A"), .under 3⟩,
    ⟨.leaf (.string "B"), .under 3⟩]⟩

/-- No rule is broken, and the second label is lost. -/
theorem spareDocument_loses_label :
    spareDocument.Closed ∧ spareDocument.Distinct ∧ spareDocument.violations 0 "" = [] ∧
    (ofDocument {} (spareDocument.normalize {} 0 none) 0).2.made.lookup (0, some .namedEnum)
      = some 0 ∧
    (¬ ∃ members, (ofDocument {} (spareDocument.normalize {} 0 none) 0).2.types.shape 0
        = .enumeration members ∧
      (ofDocument {} (spareDocument.normalize {} 0 none) 0).2.Labels 0 members) ∧
    (compileDocument {} spareDocument 0 none).result.toOption
      = some "export enum E \x7b\nA = \"a\"\n\x7d\n" := by
  have hvalues : ((ofDocument {} (spareDocument.normalize {} 0 none) 0).2.document.listAt 0
      "enum").length = 1 := by decide +kernel
  have hlabels : ((ofDocument {} (spareDocument.normalize {} 0 none) 0).2.document.listAt 0
      "tsEnumNames").length = 2 := by decide +kernel
  refine ⟨by decide, by decide, by decide +kernel, by decide +kernel, ?_, by decide +kernel⟩
  rintro ⟨members, -, hall⟩
  have hone := hvalues.symm.trans hall.values.length_eq
  have htwo := hlabels.symm.trans hall.labels.length_eq
  omega

end Lowering

end SchemaDecl
