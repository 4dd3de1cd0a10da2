/-
Definitions by name, and names by definition.

Definitions are offered on a tour of the schemas of a document. One is registered if its name is
new, and its node goes by that name if it has none yet. The same node may be offered under several
names and the same name for several nodes, in any order, and still the names that nodes go by tell
them apart.

* `Definitions.Registers`: an offer that is registered, and what was offered before it.
* `Definitions.IsFirstName`: the first name that a node is registered under.
* `Definitions.Reflects`: definitions are found, and named, as offers say. One more offer keeps this
  (`Reflects.register`), and so it holds of all that are collected (`reflects_foldl`).
* `Definitions.collect_identifies`: **the name of a definition leads to that definition.**
-/
import SchemaDecl.Proofs.Document.Definitions
import SchemaDecl.Proofs.Document.Violations

namespace SchemaDecl.Definitions

open Document

variable {offers before before' : List (String × NodeId)} {e a : String × NodeId}
  {defs : Definitions} {n : NodeId} {k k' : String}

/-- An offer that comes right after those of `before`, and whose name has not come before. -/
def Registers (offers before : List (String × NodeId)) (e : String × NodeId) : Prop :=
  before ++ [e] <+: offers ∧ e.1 ∉ before.map Prod.fst

/-- No offer of the node is registered before one under the name. -/
def IsFirstName (offers : List (String × NodeId)) (n : NodeId) (k : String) : Prop :=
  ∃ before, Registers offers before (k, n) ∧
    ∀ before' k', Registers offers before' (k', n) → before.length ≤ before'.length

/-! ### One more offer -/

lemma Registers.length_lt (h : Registers offers before e) : before.length < offers.length := by
  have hle := h.1.length_le
  rw [List.length_append, List.length_singleton] at hle
  exact hle

lemma Registers.mem (h : Registers offers before e) : e.1 ∈ offers.map Prod.fst :=
  List.mem_map_of_mem (h.1.subset (List.mem_append_right _ List.mem_cons_self))

/-- What is registered of one more offer: what was registered, and the offer if its name is new. -/
lemma registers_concat_iff : Registers (offers ++ [a]) before e ↔
    Registers offers before e ∨ before = offers ∧ e = a ∧ a.1 ∉ offers.map Prod.fst := by
  rw [Registers, List.prefix_concat_iff, Registers, or_and_right, or_comm]
  refine or_congr_right ⟨?_, ?_⟩
  · rintro ⟨heq, hnew⟩
    obtain ⟨rfl, hlast⟩ := List.append_inj' heq rfl
    obtain rfl := List.singleton_inj.mp hlast
    exact ⟨rfl, rfl, hnew⟩
  · rintro ⟨rfl, rfl, hnew⟩
    exact ⟨rfl, hnew⟩

/-- A node that has a name keeps it, for offers that come later are registered later. -/
lemma isFirstName_concat_of_registers (h : Registers offers before (k', n)) :
    IsFirstName (offers ++ [a]) n k ↔ IsFirstName offers n k := by
  constructor
  · rintro ⟨first, hfirst, hleast⟩
    have hold {b : List (String × NodeId)} {k : String} (hb : Registers offers b (k, n)) :
        first.length ≤ b.length := hleast b k (registers_concat_iff.mpr (.inl hb))
    rcases registers_concat_iff.mp hfirst with hfirst | ⟨rfl, -, -⟩
    · exact ⟨first, hfirst, fun b k hb => hold hb⟩
    · exact absurd (hold h) (Nat.not_le_of_lt h.length_lt)
  · rintro ⟨first, hfirst, hleast⟩
    refine ⟨first, registers_concat_iff.mpr (.inl hfirst), fun b k hb => ?_⟩
    rcases registers_concat_iff.mp hb with hb | ⟨rfl, -, -⟩
    · exact hleast b k hb
    · exact Nat.le_of_lt hfirst.length_lt

/-- A node that has none gets the name of the offer, if it is the node offered. -/
lemma isFirstName_concat_of_not_registers (h : ∀ before k, ¬ Registers offers before (k, n))
    (hnew : a.1 ∉ offers.map Prod.fst) : IsFirstName (offers ++ [a]) n k ↔ a = (k, n) := by
  constructor
  · rintro ⟨first, hfirst, -⟩
    rcases registers_concat_iff.mp hfirst with hfirst | ⟨-, heq, -⟩
    · exact absurd hfirst (h first k)
    · exact heq.symm
  · rintro rfl
    refine ⟨offers, registers_concat_iff.mpr (.inr ⟨rfl, rfl, hnew⟩), fun b k' hb => ?_⟩
    rcases registers_concat_iff.mp hb with hb | ⟨rfl, -, -⟩
    · exact absurd hb (h b k')
    · exact Nat.le_refl _

/-! ### All offers -/

/-- The names that are found are those that were offered, the node under a name is the one that was
registered, and a node goes by its first name. -/
structure Reflects (offers : List (String × NodeId)) (defs : Definitions) : Prop where
  has_iff : ∀ k, Keyed.has defs.entries k = true ↔ k ∈ offers.map Prod.fst
  get?_iff : ∀ k n, defs.get? k = some n ↔ ∃ before, Registers offers before (k, n)
  keyOf?_iff : ∀ n k, defs.keyOf? n = some k ↔ IsFirstName offers n k

/-- What is found under a name goes by some name. -/
lemma exists_keyOf?_of_get? (h : defs.get? k = some n) : ∃ key, defs.keyOf? n = some key := by
  have hsome : (defs.entries.find? fun e => e.2 == n).isSome = true :=
    List.find?_isSome.mpr ⟨(k, n), Keyed.mem_of_get? h, beq_self_eq_true n⟩
  obtain ⟨e, he⟩ := Option.isSome_iff_exists.mp hsome
  exact ⟨e.1, by rw [keyOf?_eq_find?, he]; rfl⟩

namespace Reflects

lemma nil : Reflects [] empty where
  has_iff k := by simp [empty, Keyed.has, Keyed.get?]
  get?_iff k n := by simp [empty, get?, Keyed.get?, Registers]
  keyOf?_iff n k := by simp [empty, keyOf?, IsFirstName, Registers]

/-- An offer under a name that is taken changes nothing. -/
lemma skip (h : Reflects offers defs) (hold : a.1 ∈ offers.map Prod.fst) :
    Reflects (offers ++ [a]) defs := by
  have hsame (before : List (String × NodeId)) (e : String × NodeId) :
      Registers (offers ++ [a]) before e ↔ Registers offers before e :=
    registers_concat_iff.trans (or_iff_left fun hnew => hnew.2.2 hold)
  refine ⟨fun k => ?_, fun k n => ?_, fun n k => ?_⟩
  · rw [h.has_iff, List.map_append, List.mem_append]
    refine (or_iff_left_of_imp fun hk => ?_).symm
    rwa [List.mem_singleton.mp hk]
  · rw [h.get?_iff]
    simp only [hsame]
  · rw [h.keyOf?_iff, IsFirstName, IsFirstName]
    simp only [hsame]

/-- An offer under a new name is added. -/
lemma add {defs' : Definitions} (h : Reflects offers defs) (hnew : a.1 ∉ offers.map Prod.fst)
    (hentries : defs'.entries = defs.entries ++ [a]) : Reflects (offers ++ [a]) defs' := by
  obtain ⟨key, node⟩ := a
  have hnone : Keyed.get? defs.entries key = none := by
    rw [← Option.not_isSome_iff_eq_none, ← Keyed.has, h.has_iff]
    exact hnew
  refine ⟨fun k => ?_, fun k n => ?_, fun n k => ?_⟩
  · rw [hentries, Keyed.has_iff, List.map_append, List.mem_append, ← Keyed.has_iff, h.has_iff,
      List.map_append, List.mem_append]
  · rw [get?, hentries]
    by_cases hk : k = key
    · subst hk
      rw [Keyed.get?_append_of_get?_eq_none _ hnone, Option.some_inj]
      refine ⟨?_, ?_⟩
      · rintro rfl
        exact ⟨offers, registers_concat_iff.mpr (.inr ⟨rfl, rfl, hnew⟩)⟩
      · rintro ⟨before, hbefore⟩
        rcases registers_concat_iff.mp hbefore with hold | ⟨-, heq, -⟩
        · exact absurd hold.mem hnew
        · exact (Prod.mk.inj heq).2.symm
    · rw [Keyed.get?_append_of_ne _ hk, ← get?, h.get?_iff]
      refine exists_congr fun before => ?_
      rw [registers_concat_iff, or_iff_left fun hlast => hk (Prod.mk.inj hlast.2.1).1]
  · have hfound := h.keyOf?_iff n
    rw [keyOf?_eq_find?] at hfound
    rw [keyOf?_eq_find?, hentries, List.find?_append]
    cases hfind : defs.entries.find? fun e => e.2 == n with
    | some e =>
        rw [hfind] at hfound
        obtain ⟨before, hbefore, -⟩ := (hfound e.1).mp rfl
        rw [Option.some_or, hfound, isFirstName_concat_of_registers hbefore]
    | none =>
        have hunnamed (before : List (String × NodeId)) (k : String) :
            ¬ Registers offers before (k, n) := fun hbefore => by
          obtain ⟨name, hname⟩ := exists_keyOf?_of_get? ((h.get?_iff k n).mpr ⟨before, hbefore⟩)
          rw [keyOf?_eq_find?, hfind] at hname
          cases hname
        rw [Option.none_or, isFirstName_concat_of_not_registers hunnamed hnew]
        by_cases hnode : node = n
        · simp [hnode]
        · simp [hnode]

/-- **One more offer.** -/
lemma register (h : Reflects offers defs) (a : String × NodeId) :
    Reflects (offers ++ [a]) (defs.register a) := by
  by_cases hhas : Keyed.has defs.entries a.1 = true
  · rw [Definitions.register, if_pos hhas]
    exact h.skip ((h.has_iff a.1).mp hhas)
  · refine h.add (fun hmem => hhas ((h.has_iff a.1).mpr hmem)) ?_
    rw [entries_register, if_neg hhas]

end Reflects

/-- **All that are offered, one after the other.** -/
lemma reflects_foldl (offers : List (String × NodeId)) :
    Reflects offers (offers.foldl register empty) := by
  induction offers using List.reverseRecOn with
  | nil => exact .nil
  | append_singleton offers a ih =>
      rw [List.foldl_append]
      exact ih.register a

/-- **The name of a definition leads to that definition.** Definitions are offered on the tour of
the schemas below a root, at each schema those under `$defs` before those under `definitions`. The
name that a node goes by leads to the node, so that different nodes go by different names. A node
that is found under some name goes by the first name that it is registered under; and the node under
a name is that of the first offer with the name. -/
theorem collect_identifies (d : Document) (root : NodeId) :
    let visits := d.schemas root
    let offers := visits.flatMap fun v => d.membersAt v.2 "$defs" ++ d.membersAt v.2 "definitions"
    let defs := collect d root
    Tours d [] [(none, root)] visits ∧
    (∀ n k, defs.keyOf? n = some k → defs.get? k = some n) ∧
    (∀ n n' k, defs.keyOf? n = some k → defs.keyOf? n' = some k → n = n') ∧
    (∀ k n, defs.get? k = some n → ∃ key, defs.keyOf? n = some key ∧ IsFirstName offers n key) ∧
    ∀ k n, defs.get? k = some n ↔ ∃ before, Registers offers before (k, n) := by
  intro visits offers defs
  have hoffers : (d.schemaIds root).flatMap (offered d) = offers := by
    rw [schemaIds, List.flatMap_map]
    rfl
  have hreflects : Reflects offers defs := hoffers ▸ reflects_foldl _
  have hleads (n : NodeId) (k : String) (hname : defs.keyOf? n = some k) :
      defs.get? k = some n := by
    obtain ⟨before, hbefore, -⟩ := (hreflects.keyOf?_iff n k).mp hname
    exact (hreflects.get?_iff k n).mpr ⟨before, hbefore⟩
  refine ⟨tours_schemas d root, hleads, fun n n' k hn hn' => ?_, fun k n hget => ?_,
    hreflects.get?_iff⟩
  · exact Option.some.inj ((hleads n k hn).symm.trans (hleads n' k hn'))
  · obtain ⟨key, hkey⟩ := exists_keyOf?_of_get? hget
    exact ⟨key, hkey, (hreflects.keyOf?_iff n key).mp hkey⟩

/-- A definition under two names, and inside a property another one, under a new name and under the
first of these. -/
def sharedNames : Document :=
  ⟨#[⟨.object [("$defs", 1), ("properties", 3)], .free⟩,
    ⟨.object [("Pet", 2), ("Alias", 2)], .free⟩, ⟨.object [], .free⟩,
    ⟨.object [("inner", 4)], .free⟩, ⟨.object [("definitions", 5)], .free⟩,
    ⟨.object [("Pet", 6), ("Deep", 6)], .free⟩, ⟨.object [], .free⟩]⟩

theorem collect_identifies_sharedNames :
    let defs := collect sharedNames 0
    (defs.keyOf? 2 = some "Pet" ∧ defs.get? "Pet" = some 2) ∧
    (defs.keyOf? 6 = some "Deep" ∧ defs.get? "Deep" = some 6) ∧
    defs.get? "Alias" = some 2 ∧
    ∃ before,
      Registers [("Pet", 2), ("Alias", 2), ("Pet", 6), ("Deep", 6)] before ("Alias", 2) := by
  intro defs
  have hoffers : ((sharedNames.schemas 0).flatMap fun v =>
      sharedNames.membersAt v.2 "$defs" ++ sharedNames.membersAt v.2 "definitions")
      = [("Pet", 2), ("Alias", 2), ("Pet", 6), ("Deep", 6)] := by decide +kernel
  have hpet : defs.keyOf? 2 = some "Pet" := by decide +kernel
  have hdeep : defs.keyOf? 6 = some "Deep" := by decide +kernel
  have halias : defs.get? "Alias" = some 2 := by decide +kernel
  obtain ⟨-, hleads, -, -, hregisters⟩ := collect_identifies sharedNames 0
  refine ⟨⟨hpet, hleads 2 "Pet" hpet⟩, ⟨hdeep, hleads 6 "Deep" hdeep⟩, halias, ?_⟩
  rw [← hoffers]
  exact (hregisters "Alias" 2).mp halias

end SchemaDecl.Definitions
