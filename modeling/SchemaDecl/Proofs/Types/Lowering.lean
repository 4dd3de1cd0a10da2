/-
The state of lowering, and what its steps do to it.

* `Lowering.Sound`: types are made of types that are there, the document has only been added to, and
  whatever was answered for a schema is on record.
* `Lowering.Grows`: nodes and records stay, and a type that is pending was pending before.
* `Lowering.course`: the course of sound states that grow.
* `Lower.runs_once`: a type that is made once, on record before it is made, leaves nothing pending.
* `Lowering.unmade`: how many schemas of the document are still to be made. It goes down when one of
  them is put on record (`Lowering.unmade_reserved_lt`).
-/
import Mathlib.Data.Finset.Card
import SchemaDecl.Proofs.Course
import SchemaDecl.Proofs.Document.Growth
import SchemaDecl.Proofs.Types.Pool

namespace SchemaDecl

namespace Lowering

/-- The shape is made, of types that are there. -/
def Holds (st : Lowering) (shape : Shape) : Prop :=
  shape ≠ .pending ∧ ∀ c ∈ shape.children, c < st.types.size

/-- The document comes from `d₀`, types and records are of types that are there, and what was
answered for a schema is on record. -/
structure Sound (d₀ : Document) (st : Lowering) : Prop where
  document : st.document.DerivedFrom d₀
  types : st.types.Closed
  made : ∀ aspect id, st.made.lookup aspect = some id → id < st.types.size
  answers : ∀ a ∈ st.answers, a.node < st.document.size ∧
    (st.document.isObject a.node = true →
      st.made.lookup (st.document.aspect a.node) = some a.type)

/-- Nodes and records stay as they were, types stay, and none is left pending. -/
structure Grows (st st' : Lowering) : Prop where
  document : st.document.Extends st'.document
  made : ∀ aspect id, st.made.lookup aspect = some id → st'.made.lookup aspect = some id
  size_le : st.types.size ≤ st'.types.size
  pending : ∀ id < st'.types.size, st'.types.shape id = .pending →
    id < st.types.size ∧ st.types.shape id = .pending

namespace Grows

variable {st st' st'' : Lowering}

lemma refl (st : Lowering) : st.Grows st :=
  ⟨.refl _, fun _ _ h => h, Nat.le_refl _, fun _ h h' => ⟨h, h'⟩⟩

lemma trans (h : st.Grows st') (h' : st'.Grows st'') : st.Grows st'' where
  document := h.document.trans h'.document
  made aspect id hid := h'.made aspect id (h.made aspect id hid)
  size_le := Nat.le_trans h.size_le h'.size_le
  pending id hid hshape :=
    have hbefore := h'.pending id hid hshape
    h.pending id hbefore.1 hbefore.2

end Grows

/-- Sound states that grow. -/
def course (d₀ : Document) : Course Lowering := ⟨Sound d₀, Grows, Grows.refl, Grows.trans⟩

variable {d₀ : Document} {st st' : Lowering} {aspect : Aspect}

/-! ### Parts of the state -/

/-- The types may be changed, as long as they are made of types that are there. -/
lemma Sound.setTypes (h : st.Sound d₀) {types : TypeGraph} (hsize : st.types.size ≤ types.size)
    (hclosed : types.Closed) : Sound d₀ { st with types } where
  document := h.document
  types := hclosed
  made aspect id hid := Nat.lt_of_lt_of_le (h.made aspect id hid) hsize
  answers := h.answers

/-- The document may be added to. -/
lemma Sound.setDocument (h : st.Sound d₀) {document : Document}
    (hextends : st.document.Extends document) (hderived : document.DerivedFrom d₀) :
    Sound d₀ { st with document } where
  document := hderived
  types := h.types
  made := h.made
  answers a ha := by
    obtain ⟨hlt, hmade⟩ := h.answers a ha
    refine ⟨Nat.lt_of_lt_of_le hlt hextends.size_le, fun hobject => ?_⟩
    rw [hextends.isObject_eq hlt] at hobject
    rw [hextends.aspect_eq h.document.closed hlt]
    exact hmade hobject

/-- The state with a pending type on record for an aspect. -/
def reserved (st : Lowering) (aspect : Aspect) : Lowering :=
  { st with types := (st.types.alloc { shape := .pending }).2
            made := (aspect, st.types.size) :: st.made }

/-- The state with a type in the place of a pending one. -/
def filled (st : Lowering) (id : TypeId) (t : TypeNode) : Lowering :=
  { st with types := st.types.set id t }

lemma lookup_reserved_self : (st.reserved aspect).made.lookup aspect = some st.types.size := by
  simp [reserved]

lemma lookup_reserved_of_ne {other : Aspect} (h : other ≠ aspect) :
    (st.reserved aspect).made.lookup other = st.made.lookup other := by
  have hbeq : (other == aspect) = false := beq_false_of_ne h
  simp [reserved, List.lookup_cons, hbeq]

/-- A new record takes the place of none. -/
lemma lookup_reserved (h : st.made.lookup aspect = none) {other : Aspect} {id : TypeId}
    (hother : st.made.lookup other = some id) :
    (st.reserved aspect).made.lookup other = some id := by
  have hne : other ≠ aspect := fun heq => by simp [heq, h] at hother
  rw [lookup_reserved_of_ne hne, hother]

lemma size_types_reserved : (st.reserved aspect).types.size = st.types.size + 1 :=
  TypeGraph.size_alloc

lemma Sound.reserved (h : st.Sound d₀) (hnone : st.made.lookup aspect = none) :
    Sound d₀ (st.reserved aspect) where
  document := h.document
  types := h.types.alloc (by simp [Shape.children])
  made other id hid := by
    rw [size_types_reserved]
    by_cases hother : other = aspect
    · rw [hother, lookup_reserved_self] at hid
      exact Option.some.inj hid ▸ Nat.lt_succ_self _
    · rw [lookup_reserved_of_ne hother] at hid
      exact Nat.lt_succ_of_lt (h.made other id hid)
  answers a ha :=
    (h.answers a ha).imp_right fun hmade hobject => lookup_reserved hnone (hmade hobject)

/-! ### Schemas still to be made -/

/-- The schemas of `d₀` that are not on record. -/
def toMake (d₀ : Document) (st : Lowering) : Finset NodeId :=
  (Finset.range d₀.size).filter fun id =>
    d₀.isObject id = true ∧ st.made.lookup (d₀.aspect id) = none

/-- How many schemas of `d₀` are not on record. -/
def unmade (d₀ : Document) (st : Lowering) : Nat := (st.toMake d₀).card

lemma unmade_le_size : st.unmade d₀ ≤ d₀.size :=
  (Finset.card_filter_le _ _).trans (Finset.card_range _).le

lemma toMake_subset (h : ∀ aspect id, st.made.lookup aspect = some id →
    st'.made.lookup aspect = some id) : st'.toMake d₀ ⊆ st.toMake d₀ := by
  intro id hid
  obtain ⟨hrange, hobject, hnone⟩ := Finset.mem_filter.mp hid
  refine Finset.mem_filter.mpr ⟨hrange, hobject, ?_⟩
  cases hmade : st.made.lookup (d₀.aspect id) with
  | none => rfl
  | some t => simp [h _ _ hmade] at hnone

lemma Grows.unmade_le (h : st.Grows st') : st'.unmade d₀ ≤ st.unmade d₀ :=
  Finset.card_le_card (toMake_subset h.made)

lemma unmade_reserved_le (hnone : st.made.lookup aspect = none) :
    (st.reserved aspect).unmade d₀ ≤ st.unmade d₀ :=
  Finset.card_le_card (toMake_subset fun _ _ h => lookup_reserved hnone h)

/-- When a schema of `d₀` is put on record, one less is to be made. -/
lemma unmade_reserved_lt {id : NodeId} (hid : id < d₀.size) (hobject : d₀.isObject id = true)
    (hnone : st.made.lookup (d₀.aspect id) = none) :
    (st.reserved (d₀.aspect id)).unmade d₀ < st.unmade d₀ := by
  have hsub : (st.reserved (d₀.aspect id)).toMake d₀ ⊆ st.toMake d₀ :=
    toMake_subset fun _ _ h => lookup_reserved hnone h
  refine Finset.card_lt_card ((Finset.ssubset_iff_of_subset hsub).mpr ⟨id, ?_, fun hmem => ?_⟩)
  · exact Finset.mem_filter.mpr ⟨Finset.mem_range.mpr hid, hobject, hnone⟩
  · have hsome := (Finset.mem_filter.mp hmem).2.2
    rw [lookup_reserved_self] at hsome
    cases hsome

end Lowering

namespace Lower

open Lowering

variable {d₀ : Document} {st : Lowering}

section Basic

variable {α : Type} {c : Course Lowering} {Q : α → Lowering → Prop}

lemma runs_get_bind {f f' : Lowering → Lower α} (h : c.Runs st (f st) (f' st) Q) :
    c.Runs st (get >>= f) (get >>= f') Q := ⟨h.same, h.inv, h.le, h.result⟩

lemma runs_document_bind {f f' : Document → Lower α}
    (h : c.Runs st (f st.document) (f' st.document) Q) :
    c.Runs st (document >>= f) (document >>= f') Q := ⟨h.same, h.inv, h.le, h.result⟩

/-- The document is added to. -/
lemma runs_setDocument (hst : st.Sound d₀) {d : Document} (hextends : st.document.Extends d)
    (hderived : d.DerivedFrom d₀) :
    (course d₀).Runs st (setDocument d) (setDocument d) fun _ st' => st'.document = d := by
  refine .modify (hst.setDocument hextends hderived)
    ⟨hextends, fun _ _ h => h, Nat.le_refl _, ?_⟩ rfl
  exact fun id hid hshape => ⟨hid, hshape⟩

/-- Names, definitions and lookups are kept aside. -/
lemma runs_modify_aside (hst : st.Sound d₀) {names : Names}
    {definitions : List (NodeId × Definitions)} {lookups : List Lookup}
    {f : Lowering → Lowering} (hf : f st = { st with names, definitions, lookups }) :
    (course d₀).Runs st (modify f) (modify f) fun _ _ => True := by
  refine .modify ?_ ?_ trivial
  · rw [hf]
    exact ⟨hst.document, hst.types, hst.made, hst.answers⟩
  · rw [hf]
    exact ⟨.refl _, fun _ _ h => h, Nat.le_refl _, fun _ h h' => ⟨h, h'⟩⟩

end Basic

/-! ### Definitions -/

section Definitions

variable {r : NodeId}

lemma definitionsOf_run_of_some {defs : Definitions} (h : st.definitions.lookup r = some defs) :
    (definitionsOf r).run st = (defs, st) := by
  have hruns : Course.free.Runs st (definitionsOf r) (get >>= fun _ => pure defs)
      fun _ _ => True := by
    refine runs_get_bind ?_
    rw [h]
    exact .pure trivial trivial
  exact hruns.same

lemma definitionsOf_run_of_none (h : st.definitions.lookup r = none) :
    (definitionsOf r).run st = (.collect st.document r,
      { st with definitions := (r, .collect st.document r) :: st.definitions }) := by
  have hruns : Course.free.Runs st (definitionsOf r) (get >>= fun _ => document >>= fun d => do
      modify fun st => { st with definitions := (r, .collect d r) :: st.definitions }
      pure (.collect d r)) fun _ _ => True := by
    refine runs_get_bind ?_
    rw [h]
    exact ⟨rfl, trivial, trivial, trivial⟩
  exact hruns.same

/-- A node is looked up among the definitions below the root of its document, and that is noted
down. -/
lemma definitionKey?_run (id : NodeId) (st : Lowering) : (definitionKey? id).run st
    = (((definitionsOf (st.document.rootOf id)).run st).1.keyOf? id,
      { ((definitionsOf (st.document.rootOf id)).run st).2 with
        lookups := ⟨id, ((definitionsOf (st.document.rootOf id)).run st).1.keyOf? id⟩ ::
          ((definitionsOf (st.document.rootOf id)).run st).2.lookups }) := rfl

end Definitions

/-! ### Types -/

/-- A type is added. -/
lemma runs_alloc (hst : st.Sound d₀) {t : TypeNode} (ht : st.Holds t.shape) :
    (course d₀).Runs st (alloc t) (alloc t) fun id st' => id < st'.types.size := by
  have hle : st.types.size ≤ (st.types.alloc t).2.size := by
    rw [TypeGraph.size_alloc]
    exact Nat.le_succ _
  refine ⟨rfl, hst.setTypes hle (hst.types.alloc ht.2),
    ⟨.refl _, fun _ _ h => h, hle, fun id hid hshape => ?_⟩, ?_⟩
  · change id < (st.types.alloc t).2.size at hid
    change (st.types.alloc t).2.shape id = .pending at hshape
    rw [TypeGraph.size_alloc] at hid
    rw [TypeGraph.shape] at hshape
    have hne : id ≠ st.types.size := by
      rintro rfl
      rw [TypeGraph.node_alloc_self] at hshape
      exact ht.1 hshape
    rw [TypeGraph.node_alloc_of_ne hne] at hshape
    exact ⟨by omega, hshape⟩
  · change st.types.size < (st.types.alloc t).2.size
    rw [TypeGraph.size_alloc]
    exact Nat.lt_succ_self _

/-- A comment changes no shape. -/
lemma runs_annotate (hst : st.Sound d₀) (id : TypeId) (note : String) :
    (course d₀).Runs st (annotate id note) (annotate id note) fun _ _ => True := by
  have hset (t : TypeNode) (ht : t.shape = st.types.shape id) :
      Sound d₀ (st.filled id t) ∧ st.Grows (st.filled id t) := by
    refine ⟨hst.setTypes (Nat.le_of_eq TypeGraph.size_set.symm) (hst.types.set ?_),
      ⟨.refl _, fun _ _ h => h, Nat.le_of_eq TypeGraph.size_set.symm, fun x hx hshape => ?_⟩⟩
    · intro c hc
      rw [ht] at hc
      exact hst.types id c hc
    · exact ⟨Nat.lt_of_lt_of_eq hx TypeGraph.size_set, TypeGraph.shape_set_of_eq ht ▸ hshape⟩
  exact .modify (hset _ (by rfl)).1 (hset _ (by rfl)).2 trivial

/-- What is made once: what is on record, or a type that fills the number taken for it. -/
lemma once_run (aspect : Aspect) (make : Lower TypeNode) (st : Lowering) :
    (once aspect make).run st = match st.made.lookup aspect with
      | some id => (id, st)
      | none => (st.types.size, (make.run (st.reserved aspect)).2.filled st.types.size
          (make.run (st.reserved aspect)).1) := by
  have hrun : (once aspect make).run st = (match st.made.lookup aspect with
      | some id => pure id
      | none => do
        let id ← reserve
        modify fun st => { st with made := (aspect, id) :: st.made }
        let t ← make
        fill id t
        pure id : Lower TypeId).run st := rfl
  rw [hrun]
  cases st.made.lookup aspect <;> rfl

/-- Filling the number that was taken for a type leaves nothing pending but what was. -/
lemma grows_filled {aspect : Aspect} {st' : Lowering} {t : TypeNode}
    (hnone : st.made.lookup aspect = none) (hgrows : (st.reserved aspect).Grows st')
    (ht : t.shape ≠ .pending) : st.Grows (st'.filled st.types.size t) where
  document := hgrows.document
  made other id hid := hgrows.made other id (lookup_reserved hnone hid)
  size_le := by
    have hle := hgrows.size_le
    rw [size_types_reserved] at hle
    exact Nat.le_trans (Nat.le_of_succ_le hle) (Nat.le_of_eq TypeGraph.size_set.symm)
  pending x hx hshape := by
    have hlt : st.types.size < st'.types.size :=
      Nat.lt_of_lt_of_le (by rw [size_types_reserved]; exact Nat.lt_succ_self _) hgrows.size_le
    have hne : x ≠ st.types.size := by
      rintro rfl
      refine ht ?_
      rw [← hshape, filled, TypeGraph.shape, TypeGraph.node_set_self hlt]
    have hshape' : st'.types.shape x = .pending := by
      rw [← hshape, filled, TypeGraph.shape, TypeGraph.shape, TypeGraph.node_set_of_ne hne]
    obtain ⟨hx', hpending⟩ := hgrows.pending x (Nat.lt_of_lt_of_eq hx TypeGraph.size_set) hshape'
    rw [size_types_reserved] at hx'
    refine ⟨by omega, ?_⟩
    rw [← hpending, reserved, TypeGraph.shape, TypeGraph.shape, TypeGraph.node_alloc_of_ne hne]

/-- **A type that is made once** is on record when it is asked for again, and is not pending any
more. -/
lemma runs_once (hst : st.Sound d₀) {aspect : Aspect} {make make' : Lower TypeNode}
    (hmake : st.made.lookup aspect = none →
      (course d₀).Runs (st.reserved aspect) make make' fun t st' => st'.Holds t.shape) :
    (course d₀).Runs st (once aspect make) (once aspect make')
      fun id st' => id < st'.types.size ∧ st'.made.lookup aspect = some id := by
  cases hmade : st.made.lookup aspect with
  | some id =>
      have hrun (make : Lower TypeNode) : (once aspect make).run st = (id, st) := by
        rw [once_run, hmade]
      refine ⟨?_, ?_, ?_, ?_⟩ <;> simp only [hrun]
      · exact hst
      · exact Grows.refl st
      · exact ⟨hst.made aspect id hmade, hmade⟩
  | none =>
      have hrun (make : Lower TypeNode) : (once aspect make).run st = (st.types.size,
          (make.run (st.reserved aspect)).2.filled st.types.size
            (make.run (st.reserved aspect)).1) := by
        rw [once_run, hmade]
      obtain ⟨hsame, hsound, hgrows, hholds⟩ := hmake hmade
      have hmade' := hgrows.made aspect st.types.size lookup_reserved_self
      refine ⟨by rw [hrun, hrun, hsame], ?_, ?_, ?_⟩ <;> rw [hrun]
      · exact hsound.setTypes (Nat.le_of_eq TypeGraph.size_set.symm) (hsound.types.set hholds.2)
      · exact grows_filled hmade hgrows hholds.1
      · exact ⟨Nat.lt_of_lt_of_eq (hsound.made _ _ hmade') TypeGraph.size_set.symm, hmade'⟩

end Lower

end SchemaDecl
