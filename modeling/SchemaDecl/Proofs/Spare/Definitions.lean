/-
Named definitions of twins.

The spare definition is among those that the twin offers, and it may keep its name from another one.
But what is called like it is no object on either side, so that schemas are called alike.

* `Definitions.Echoes`: two lists of definitions that differ in what is called like the spare one.
* `Definitions.Echoes.keyOf?_eq`: objects are found under the same names.
* `Document.Twin.echoes_collect`: such are the definitions below a root.
-/
import Mathlib.Data.List.Find
import SchemaDecl.Proofs.Document.Definitions
import SchemaDecl.Proofs.Spare.Lineage

namespace SchemaDecl

namespace Definitions

variable {d e : Document} {k : String} {f : NodeId → NodeId} {l l' : List (String × NodeId)}

/-! ### Entries under other names -/

/-- The entries that are not called `k`. -/
def besides (k : String) (l : List (String × NodeId)) : List (String × NodeId) :=
  l.filter fun e => e.1 != k

lemma besides_append : besides k (l ++ l') = besides k l ++ besides k l' := List.filter_append ..

lemma besides_cons_of_ne {a : String × NodeId} (h : a.1 ≠ k) :
    besides k (a :: l) = a :: besides k l :=
  List.filter_cons_of_pos (by simpa using h)

lemma besides_cons_of_eq {a : String × NodeId} (h : a.1 = k) : besides k (a :: l) = besides k l :=
  List.filter_cons_of_neg (by simpa using h)

lemma has_besides {key : String} (h : key ≠ k) : Keyed.has (besides k l) key = Keyed.has l key := by
  rw [Keyed.has, besides, Keyed.get?_filter fun _ => by simpa using h, Keyed.has]

/-- Registering an entry called `k` has no effect on the others. -/
lemma besides_foldl_register {defs defs' : Definitions}
    (hdefs : defs'.entries = besides k defs.entries) : besides k (l.foldl register defs).entries
      = ((besides k l).foldl register defs').entries := by
  induction l generalizing defs defs' with
  | nil => exact hdefs.symm
  | cons a l ih =>
      rw [List.foldl_cons]
      by_cases hk : a.1 = k
      · rw [besides_cons_of_eq hk]
        refine ih (hdefs.trans ?_)
        rw [entries_register]
        split
        · rfl
        · rw [besides_append, besides_cons_of_eq hk]
          exact (List.append_nil _).symm
      · rw [besides_cons_of_ne hk, List.foldl_cons]
        refine ih ?_
        rw [entries_register, entries_register, hdefs, has_besides hk]
        split
        · rfl
        · rw [besides_append, besides_cons_of_ne hk]
          rfl

/-- A node that is not called `k` is looked for among the other entries. -/
lemma keyOf?_eq_besides {defs : Definitions} {i : NodeId}
    (h : ∀ a ∈ defs.entries, a.1 = k → a.2 ≠ i) :
    defs.keyOf? i = ((besides k defs.entries).find? fun e => e.2 == i).map (·.1) := by
  rw [keyOf?_eq_find?, besides, List.find?_filter]
  refine congrArg (Option.map _) (List.find?_congr fun a ha => ?_)
  rw [Bool.eq_iff_iff, decide_eq_true_iff, bne_iff_ne]
  exact ⟨fun heq => ⟨fun hk => h a ha hk (beq_iff_eq.mp heq), heq⟩, And.right⟩

/-! ### Two lists of definitions -/

/-- The entries in `l'` are the images of those in `l`, apart from entries called `k`, and those are
no objects of `d` nor images of objects. -/
structure Echoes (k : String) (f : NodeId → NodeId) (d e : Document)
    (l l' : List (String × NodeId)) :
    Prop where
  besides_eq : besides k l' = (besides k l).map fun e => (e.1, f e.2)
  lt : ∀ a ∈ l, a.2 < d.size
  lt' : ∀ a ∈ l', a.2 < e.size
  inert : ∀ a ∈ l, a.1 = k → d.isObject a.2 = false
  inert' : ∀ a ∈ l', a.1 = k → ∀ i < d.size, d.isObject i = true → a.2 ≠ f i

namespace Echoes

lemma nil : Echoes k f d e [] [] :=
  ⟨rfl, (fun _ ha => nomatch ha), (fun _ ha => nomatch ha), (fun _ ha => nomatch ha),
    fun _ ha => nomatch ha⟩

lemma append {r r' : List (String × NodeId)} (h : Echoes k f d e l l') (h' : Echoes k f d e r r') :
    Echoes k f d e (l ++ r) (l' ++ r') where
  besides_eq := by rw [besides_append, besides_append, List.map_append, h.besides_eq, h'.besides_eq]
  lt := List.forall_mem_append.mpr ⟨h.lt, h'.lt⟩
  lt' := List.forall_mem_append.mpr ⟨h.lt', h'.lt'⟩
  inert := List.forall_mem_append.mpr ⟨h.inert, h'.inert⟩
  inert' := List.forall_mem_append.mpr ⟨h.inert', h'.inert'⟩

lemma flatMap {α : Type} {as : List α} {g g' : α → List (String × NodeId)}
    (h : ∀ a ∈ as, Echoes k f d e (g a) (g' a)) :
    Echoes k f d e (as.flatMap g) (as.flatMap g') := by
  induction as with
  | nil => exact nil
  | cons a as ih =>
      obtain ⟨ha, has⟩ := List.forall_mem_cons.mp h
      exact ha.append (ih has)

/-- What is registered of them. -/
lemma register (h : Echoes k f d e l l') :
    Echoes k f d e (l.foldl Definitions.register .empty).entries
      (l'.foldl Definitions.register .empty).entries := by
  have hmem {l : List (String × NodeId)} {a : String × NodeId}
      (ha : a ∈ (l.foldl Definitions.register .empty).entries) : a ∈ l :=
    (mem_of_mem_foldl_register ha).resolve_left fun ha => nomatch ha
  refine ⟨?_, fun a ha => h.lt a (hmem ha), fun a ha => h.lt' a (hmem ha),
    fun a ha => h.inert a (hmem ha), fun a ha => h.inert' a (hmem ha)⟩
  have hnone : empty.entries = besides k empty.entries := rfl
  rw [besides_foldl_register hnone, h.besides_eq, besides_foldl_register hnone]
  exact entries_foldl_register _ rfl

/-- **Objects are found under the same names.** -/
theorem keyOf?_eq {defs defs' : Definitions} (h : Echoes k f d e defs.entries defs'.entries)
    (hinj : ∀ i < d.size, ∀ j < d.size, f i = f j → i = j) {i : NodeId} (hi : i < d.size)
    (hobject : d.isObject i = true) : defs'.keyOf? (f i) = defs.keyOf? i := by
  have hright : ∀ a ∈ defs'.entries, a.1 = k → a.2 ≠ f i :=
    fun a ha hk => h.inert' a ha hk i hi hobject
  have hleft : ∀ a ∈ defs.entries, a.1 = k → a.2 ≠ i := by
    rintro a ha hk rfl
    rw [h.inert a ha hk] at hobject
    cases hobject
  rw [keyOf?_eq_besides hright, keyOf?_eq_besides hleft, h.besides_eq, List.find?_map,
    Option.map_map]
  refine congrArg (Option.map _) (List.find?_congr fun a ha => ?_)
  have hlt := h.lt a (List.mem_filter.mp ha).1
  rw [Bool.eq_iff_iff, Function.comp, beq_iff_eq, beq_iff_eq]
  exact ⟨hinj a.2 hlt i hi, fun heq => congrArg f heq⟩

end Echoes

end Definitions

namespace Document.Twin

open Definitions

variable {d e : Document} {k key : String} {m extra i x root : NodeId} {f : NodeId → NodeId}
  (h : Twin k m extra f d e)
include h

/-- The entries of a map and their images. -/
lemma echoes_entries {c : NodeId} {entries : Keyed NodeId} (hnode : d.node c = .object entries) :
    Echoes k f d e entries (entries.map fun e => (e.1, f e.2)) := by
  have hinert := (h.left.fits c).fresh entries hnode
  refine ⟨?_, h.entry_lt hnode, ?_, hinert, ?_⟩
  · rw [besides, List.filter_map]
    rfl
  · intro a ha
    obtain ⟨b, hb, rfl⟩ := List.mem_map.mp ha
    exact h.lt b.2 (h.entry_lt hnode b hb)
  · intro a ha hk j hj hobject heq
    obtain ⟨b, hb, rfl⟩ := List.mem_map.mp ha
    obtain rfl := h.inj b.2 (h.entry_lt hnode b hb) j hj heq
    rw [hinert b hb hk] at hobject
    cases hobject

/-- The spare definition is an image of nothing. -/
lemma echoes_spare : Echoes k f d e [] [(k, extra)] := by
  refine ⟨besides_cons_of_eq rfl, (fun _ ha => nomatch ha), ?_, (fun _ ha => nomatch ha), ?_⟩
  · exact List.forall_mem_singleton.mpr h.extra_lt
  · exact List.forall_mem_singleton.mpr fun _ j hj _ heq => h.extra_apart j hj heq.symm

/-- The entries of a map under a keyword, also if that is the map of definitions. -/
lemma echoes_membersAt (hi : i < d.size) (hm : i ≠ m) :
    Echoes k f d e (d.membersAt i key) (e.membersAt (f i) key) := by
  rw [membersAt, membersAt, h.get?_eq hi (.inl hm)]
  cases hc : d.get? i key with
  | none => exact .nil
  | some c =>
      rw [Option.map_some, Option.bind_some, Option.bind_some]
      by_cases hcm : c = m
      · subst hcm
        obtain ⟨entries, hd, -, he⟩ := h.map_eq
        have hboth := (h.echoes_entries hd).append h.echoes_spare
        rw [List.append_nil] at hboth
        rw [members?_of_node hd, members?_of_node he]
        exact hboth
      · rw [h.members?_eq (h.left.closed.get?_lt hc) hcm]
        cases hobject : d.isObject c with
        | false =>
            rw [isObject, Option.isSome_eq_false_iff, Option.isNone_iff_eq_none] at hobject
            rw [hobject]
            exact .nil
        | true =>
            obtain ⟨entries, hnode⟩ := exists_members_of_isObject hobject
            rw [members?_of_node hnode]
            exact h.echoes_entries hnode

lemma offered_spare (hx : Apart f d.size x) : offered e x = [] := by
  rw [offered, membersAt, membersAt, h.get?_spare hx (by decide), h.get?_spare hx (by decide)]
  rfl

/-- **The definitions below a root are echoed in the twin.** -/
theorem echoes_collect (hroot : root < d.size) (hm : root ≠ m) :
    Echoes k f d e (collect d root).entries (collect e (f root)).entries := by
  have hspare : (e.schemaIds (f root)).flatMap (offered e)
      = (d.schemaIds root).flatMap fun i => offered e (f i) := by
    rw [← List.flatMap_map f, ← h.schemaIds_eq hroot]
    induction e.schemaIds (f root) with
    | nil => rfl
    | cons x xs ih =>
        cases hx : spareIn f d.size x with
        | true =>
            rw [List.flatMap_cons, h.offered_spare (spareIn_eq_true_iff.mp hx), List.nil_append, ih,
              List.filter_cons_of_neg (by simp [hx])]
        | false =>
            rw [List.flatMap_cons, ih, List.filter_cons_of_pos (by simp [hx]), List.flatMap_cons]
  rw [collect, collect, hspare]
  refine (Echoes.flatMap fun i hi => ?_).register
  have hlt := lt_size_of_mem_schemaIds hi
  have hne := h.ne_of_mem_schemaIds hm hi
  exact (h.echoes_membersAt hlt hne).append (h.echoes_membersAt hlt hne)

end Document.Twin

end SchemaDecl
