/-
Notes on types, and types that enclose others.

A note is put on the type of a pattern or of a definition while the record is being made. A type
that is made keeps its notes. A type that is still being made, because the record stands inside it,
takes the description of its schema for a comment in the end, and the note is lost.

* `TypeGraph.Bears`: a note is in the comment on a type.
* `TypeGraph.Encloses`: a type has been made around another one: that can be reached from it,
  through younger types only.
* `Lowering.Spans`: the records among new types can be reached from the results of a computation.
* `Lowering.notedCourse`: faithful states in which the notes on types that are made are there.
* `Lower.Fills.isNoted`: **filling a type loses notes of records that it encloses only.**
* `Lower.noted_once`: what is made once under a name.
-/
import SchemaDecl.Proofs.Types.Trail

namespace SchemaDecl

/-! ### Notes and enclosing types -/

namespace TypeGraph

variable {g g' : TypeGraph} {u t a b c : TypeId} {n m : TypeId} {note : String} {node : TypeNode}

/-- The note is in the comment on the type. -/
def Bears (g : TypeGraph) (u : TypeId) (note : String) : Prop :=
  ∃ text, (g.node u).comment = some text ∧ note.toList <:+: text.toList

/-- `b` is one of the types that `a` is made of, and none of the first `n`. -/
def Onward (g : TypeGraph) (n : TypeId) (a b : TypeId) : Prop := g.Child a b ∧ n ≤ b

/-- `t` can be reached from `u` through types that are younger than `u`. -/
def Encloses (g : TypeGraph) (u t : TypeId) : Prop :=
  Relation.ReflTransGen (g.Onward (u + 1)) u t

/-- The types that are made have the same shapes. -/
def Agrees (g g' : TypeGraph) : Prop := ∀ t, g.shape t ≠ .pending → g'.shape t = g.shape t

lemma Child.of_agrees (h : g.Agrees g') (hab : g.Child a b) : g'.Child a b := by
  have hne : g.shape a ≠ .pending := fun hpending => by
    simp [Child, children, hpending, Shape.children] at hab
  rw [Child, children, h a hne]
  exact hab

/-- What can be reached stays so. -/
lemma reaches_of_agrees (h : g.Agrees g') (hnm : n ≤ m)
    (hab : Relation.ReflTransGen (g.Onward m) a b) : Relation.ReflTransGen (g'.Onward n) a b :=
  Relation.ReflTransGen.mono (fun _ _ hstep => ⟨hstep.1.of_agrees h, hnm.trans hstep.2⟩) _ _ hab

lemma Encloses.le (h : g.Encloses u t) : u ≤ t := by
  rcases Relation.ReflTransGen.cases_tail h with rfl | ⟨_, _, hstep⟩
  · exact Nat.le_refl _
  · exact Nat.le_of_succ_le hstep.2

lemma Encloses.of_agrees (h : g.Agrees g') (hut : g.Encloses u t) : g'.Encloses u t :=
  reaches_of_agrees h (Nat.le_refl _) hut

/-- A note that is added is there, and so are the earlier ones. -/
lemma bears_noted (hu : u < g.size) (text : String) :
    (g.set u (Lower.noted (g.node u) text)).Bears u text ∧
      ∀ note, g.Bears u note → (g.set u (Lower.noted (g.node u) text)).Bears u note := by
  cases hremark : (g.node u).remark? with
  | none =>
      have hcomment : ((g.set u (Lower.noted (g.node u) text)).node u).comment = some text := by
        rw [node_set_self hu, Lower.noted, hremark]
      refine ⟨⟨text, hcomment, List.infix_refl _⟩, ?_⟩
      rintro note ⟨old, hold, hnote⟩
      -- A comment that does not count is empty, and so is a note in it.
      have hempty : old.isEmpty = true := by
        rw [TypeNode.remark?, hold] at hremark
        simpa [Option.filter] using hremark
      rw [String.isEmpty_iff.mp hempty, String.toList_empty, List.infix_nil] at hnote
      exact ⟨text, hcomment, by rw [hnote]; exact List.nil_infix⟩
  | some remark =>
      have hcomment : ((g.set u (Lower.noted (g.node u) text)).node u).comment
          = some (remark ++ "\n\n" ++ text) := by
        rw [node_set_self hu, Lower.noted, hremark]
      refine ⟨⟨_, hcomment, ?_⟩, ?_⟩
      · rw [String.toList_append]
        exact (List.suffix_append _ _).isInfix
      · rintro note ⟨old, hold, hnote⟩
        refine ⟨_, hcomment, ?_⟩
        obtain rfl : old = remark := by
          rw [TypeNode.remark?, hold] at hremark
          exact Option.some.inj (Option.filter_eq_some_iff.mp hremark).1
        rw [String.toList_append, String.toList_append, List.append_assoc]
        exact hnote.trans (List.prefix_append _ _).isInfix

/-- A change of one type leaves the comments on others. -/
lemma bears_set_of_ne (hu : u ≠ t) : (g.set t node).Bears u note ↔ g.Bears u note := by
  rw [Bears, Bears, node_set_of_ne hu]

end TypeGraph

namespace Lowering

variable {s : Settings} {d₀ : Document} {st st₁ st₂ st' : Lowering} {n : TypeId} {t u : TypeId}
  {kids kids' : List TypeId} {note : String}

/-! ### New records -/

/-- The results are there, and the records that are none of the first `n` types can be reached from
them through types that are none of these either. -/
structure Spans (n : TypeId) (st : Lowering) (kids : List TypeId) : Prop where
  lt : ∀ c ∈ kids, c < st.types.size
  reaches : ∀ t, n ≤ t → (st.types.shape t).isRecord = true →
    ∃ c ∈ kids, n ≤ c ∧ Relation.ReflTransGen (st.types.Onward n) c t

/-- Types are kept, and so are the notes on those that are made. -/
structure Keeps (st st' : Lowering) : Prop where
  adds : st.Adds st'
  named : st.Named st'
  bears : ∀ u note, st.types.shape u ≠ .pending → st.types.Bears u note → st'.types.Bears u note

lemma Adds.agrees (h : st.Adds st') : st.types.Agrees st'.types := h.lasts.shape

lemma isRecord_pending : Shape.pending.isRecord = false := rfl

/-- Where no record is new there is nothing to be reached. -/
lemma Spans.of_eq (hlt : ∀ c ∈ kids, c < st'.types.size)
    (hnew : ∀ t, st.types.size ≤ t → (st'.types.shape t).isRecord = false) :
    Spans st.types.size st' kids :=
  ⟨hlt, fun t ht hrecord => by rw [hnew t ht] at hrecord; cases hrecord⟩

lemma Spans.nil (st : Lowering) : Spans st.types.size st [] :=
  .of_eq (by simp) fun t ht => by
    rw [TypeGraph.shape, TypeGraph.node_of_size_le ht, isRecord_pending]

/-- The results of one computation and of the next. -/
lemma Spans.append (h : Spans n st₁ kids) (hadds : st₁.Adds st₂) (hn : n ≤ st₁.types.size)
    (h' : Spans st₁.types.size st₂ kids') : Spans n st₂ (kids ++ kids') where
  lt c hc := (List.mem_append.mp hc).elim
    (fun hc => Nat.lt_of_lt_of_le (h.lt c hc) hadds.size_le) (h'.lt c)
  reaches t ht hrecord := by
    by_cases hold : t < st₁.types.size
    · rw [hadds.shape t hold] at hrecord
      obtain ⟨c, hc, hnc, hreaches⟩ := h.reaches t ht hrecord
      exact ⟨c, List.mem_append_left _ hc, hnc,
        TypeGraph.reaches_of_agrees hadds.agrees (Nat.le_refl n) hreaches⟩
    · obtain ⟨c, hc, hnc, hreaches⟩ := h'.reaches t (Nat.le_of_not_lt hold) hrecord
      exact ⟨c, List.mem_append_right _ hc, hn.trans hnc,
        TypeGraph.reaches_of_agrees (fun _ _ => rfl) hn hreaches⟩

/-- More results do no harm. -/
lemma Spans.mono (h : Spans n st kids) (hsub : kids ⊆ kids')
    (hlt : ∀ c ∈ kids', c < st.types.size) : Spans n st kids' :=
  ⟨hlt, fun t ht hrecord => (h.reaches t ht hrecord).imp fun _ hc => ⟨hsub hc.1, hc.2⟩⟩

lemma Spans.of_nil (h : Spans n st []) (hlt : ∀ c ∈ kids, c < st.types.size) : Spans n st kids :=
  h.mono (List.nil_subset _) hlt

/-- Where no shape has changed, nothing has. -/
lemma Spans.of_shape (h : Spans n st kids) (hsize : st'.types.size = st.types.size)
    (hshape : ∀ x, st'.types.shape x = st.types.shape x) : Spans n st' kids where
  lt c hc := hsize ▸ h.lt c hc
  reaches t ht hrecord := by
    obtain ⟨c, hc, hnc, hreaches⟩ := h.reaches t ht (hshape t ▸ hrecord)
    exact ⟨c, hc, hnc, TypeGraph.reaches_of_agrees (fun x _ => hshape x) (Nat.le_refl n) hreaches⟩

/-! ### Notes on the types of a record -/

/-- The note is on a type that is there, or the type is still being made. -/
def Placed (st : Lowering) (u : TypeId) (note : String) : Prop :=
  u < st.types.size ∧ (st.types.shape u = .pending ∨ st.types.Bears u note)

/-- The note of a record `t` is on a type, or that is still being made, or it encloses the
record. -/
def Safe (st : Lowering) (t u : TypeId) (note : String) : Prop :=
  st.Placed u note ∨ st.types.Encloses u t

/-- The shape of a record that is called `name`: what is said of patterns and definitions by `Q`
holds of the types of their fields. -/
def NotedShape (s : Settings) (d : Document) (x : NodeId) (name : Option String)
    (Q : TypeId → String → Prop) (shape : Shape) : Prop :=
  ∃ properties patterns definitions rest supers,
    shape = .record ⟨properties ++ (patterns ++ (definitions ++ rest)), supers⟩ ∧
    properties.length = (d.membersAt x "properties").length ∧
    List.Forall₂ (fun e f => Q f.type (Lower.patternNote name e.1))
      (d.membersAt x "patternProperties") patterns ∧
    (s.unreachableDefinitions = true →
      List.Forall₂ (fun e f => Q f.type (Lower.definitionNote name e.1))
        (d.membersAt x "$defs") definitions)

lemma NotedShape.imp {d : Document} {x : NodeId} {name : Option String}
    {Q Q' : TypeId → String → Prop} {shape : Shape} (h : NotedShape s d x name Q shape)
    (hQ : ∀ u ∈ shape.children, ∀ note, Q u note → Q' u note) : NotedShape s d x name Q' shape := by
  obtain ⟨properties, patterns, definitions, rest, supers, rfl, hlength, hpatterns,
    hdefinitions⟩ := h
  have hlift {members : Keyed NodeId} {fields : List Field} {note : String → String}
      (hsub : ∀ f ∈ fields, f ∈ properties ++ (patterns ++ (definitions ++ rest)))
      (h : List.Forall₂ (fun e f => Q f.type (note e.1)) members fields) :
      List.Forall₂ (fun e f => Q' f.type (note e.1)) members fields := by
    induction h with
    | nil => exact .nil
    | cons hf _ ih =>
        obtain ⟨hmem, hsub⟩ := List.forall_mem_cons.mp hsub
        refine .cons (hQ _ ?_ _ hf) (ih hsub)
        exact List.mem_append_left _ (List.mem_map_of_mem hmem)
  refine ⟨properties, patterns, definitions, rest, supers, rfl, hlength,
    hlift (fun f hf => by simp [hf]) hpatterns,
    fun hwanted => hlift (fun f hf => by simp [hf]) (hdefinitions hwanted)⟩

/-- Faithful states in which the notes on types that are made are there. -/
structure IsNoted (s : Settings) (d₀ : Document) (st : Lowering) : Prop where
  faithful : st.Faithful s d₀
  closed : st.types.Closed
  noted : ∀ x, ∀ category ∈ [Category.namedSchema, .unnamedSchema], ∀ t,
    st.made.lookup (x, some category) = some t → st.types.shape t ≠ .pending →
      NotedShape s st.document x (st.types.node t).name (st.Safe t) (st.types.shape t)

lemma Keeps.refl (st : Lowering) : st.Keeps st := ⟨.refl st, .refl st, fun _ _ _ h => h⟩

lemma Keeps.trans (h : st.Keeps st₁) (h' : st₁.Keeps st₂) : st.Keeps st₂ where
  adds := h.adds.trans h'.adds
  named := h.named.trans h'.named
  bears u note hu hnote :=
    h'.bears u note (by rwa [h.adds.agrees u hu]) (h.bears u note hu hnote)

/-- Such states, added to. -/
def notedCourse (s : Settings) (d₀ : Document) : Course Lowering where
  inv := IsNoted s d₀
  le := Keeps
  refl := .refl
  trans := .trans

lemma Named.name_eq (h : st.Named st') (ht : t < st.types.size) :
    (st'.types.node t).name = (st.types.node t).name := by
  obtain ⟨more, -, hmore, -⟩ := h
  rw [← TypeGraph.names_getElem?, ← TypeGraph.names_getElem?, hmore,
    List.getElem?_append_left (by rwa [TypeGraph.length_names])]

/-- A type that is still being made stays so, until it is filled. -/
lemma Placed.later (h : st.Placed u note) (hkeeps : st.Keeps st') : st'.Placed u note := by
  obtain ⟨hlt, hplaced⟩ := h
  refine ⟨Nat.lt_of_lt_of_le hlt hkeeps.adds.size_le, ?_⟩
  by_cases hpending : st.types.shape u = .pending
  · exact .inl ((hkeeps.adds.shape u hlt).trans hpending)
  · exact .inr (hkeeps.bears u note hpending (hplaced.resolve_left hpending))

lemma Safe.later (h : st.Safe t u note) (hkeeps : st.Keeps st') : st'.Safe t u note :=
  h.imp (·.later hkeeps) (·.of_agrees hkeeps.adds.agrees)

/-- What is on record and made stays noted, if nothing else is. -/
lemma IsNoted.of_keeps (h : st.IsNoted s d₀) (hkeeps : st.Keeps st') (hfaithful : st'.Faithful s d₀)
    (hclosed : st'.types.Closed)
    (hmade : ∀ aspect t, st'.made.lookup aspect = some t → st'.types.shape t ≠ .pending →
      st.made.lookup aspect = some t) : st'.IsNoted s d₀ where
  faithful := hfaithful
  closed := hclosed
  noted x category hcategory t ht hpending := by
    have ht' := hmade _ t ht hpending
    have hlt := h.faithful.made_lt _ t ht'
    have hd := h.faithful.document.closed
    rw [hkeeps.adds.shape t hlt] at hpending ⊢
    have hx : x < st.document.size := (h.faithful.depicts _ t ht' hpending).1
    have hshape := h.noted x category hcategory t ht' hpending
    rw [hkeeps.named.name_eq hlt]
    simp only [NotedShape, hkeeps.adds.document.membersAt_eq hd hx]
    exact hshape.imp fun u _ note hsafe => hsafe.later hkeeps

end Lowering

namespace Lower

open Lowering Document

variable {s : Settings} {d₀ : Document} {st st' : Lowering} {id : NodeId} {α β : Type}

/-! ### Single steps -/

/-- A faithful run that puts nothing on record and keeps the notes. -/
lemma noted_of_faithful {m : Lower α} {Q : α → Lowering → Prop} (hst : st.IsNoted s d₀)
    (h : (faithfulCourse s d₀).Runs st m m Q) (hmade : (m.run st).2.made = st.made)
    (hclosed : (m.run st).2.types.Closed)
    (hbears : ∀ u note, st.types.shape u ≠ .pending → st.types.Bears u note →
      (m.run st).2.types.Bears u note) : (notedCourse s d₀).Runs st m m Q := by
  have hkeeps : st.Keeps (m.run st).2 := ⟨h.le.1, h.le.2, hbears⟩
  exact ⟨rfl, hst.of_keeps hkeeps h.inv hclosed fun _ _ ht _ => hmade ▸ ht, hkeeps, h.result⟩

/-- A type that is made of nothing is added. -/
lemma noted_alloc (hst : st.IsNoted s d₀) {t : TypeNode} (hname : t.name = none)
    (hchildren : t.shape.children = []) (hrecord : t.shape.isRecord = false) :
    (notedCourse s d₀).Runs st (alloc t) (alloc t)
      fun id st' => id < st'.types.size ∧ Spans st.types.size st' [] := by
  have hclosed : (st.types.alloc t).2.Closed := hst.closed.alloc (by simp [hchildren])
  have hruns := noted_of_faithful hst (answers_alloc hst.faithful hname) rfl hclosed
    fun u note hu hnote => by
      have hne := Nat.ne_of_lt (TypeGraph.lt_size_of_shape_ne hu)
      change (st.types.alloc t).2.Bears u note
      rw [TypeGraph.Bears, TypeGraph.node_alloc_of_ne hne]
      exact hnote
  refine ⟨rfl, hruns.inv, hruns.le, ?_, .of_eq (by simp) fun x hx => ?_⟩
  · change st.types.size < (st.types.alloc t).2.size
    simp
  · change ((st.types.alloc t).2.shape x).isRecord = false
    by_cases hnew : x = st.types.size
    · rw [hnew, TypeGraph.shape, TypeGraph.node_alloc_self, hrecord]
    · rw [TypeGraph.shape, TypeGraph.node_alloc_of_ne hnew, TypeGraph.node_of_size_le hx,
        isRecord_pending]

lemma children_top {unknown : Bool} : (Shape.top unknown).children = [] := by
  rw [Shape.top]
  split <;> rfl

lemma noted_allocTop (hst : st.IsNoted s d₀) (key : Option String) :
    (notedCourse s d₀).Runs st (allocTop s key) (allocTop s key)
      fun id st' => id < st'.types.size ∧ Spans st.types.size st' [] := by
  refine noted_alloc hst rfl children_top ?_
  rw [Shape.top]
  split <;> rfl

lemma noted_literal (hst : st.IsNoted s d₀) (key : Option String) :
    (notedCourse s d₀).Runs st (literal id key) (literal id key)
      fun t st' => Spans st.types.size st' [t] :=
  runs_document_bind ((noted_alloc hst rfl rfl rfl).imp fun _ _ h =>
    h.2.of_nil (by simpa using h.1))

/-- A note is put on a type. -/
lemma noted_annotate (hst : st.IsNoted s d₀) {t : TypeId} (ht : t < st.types.size) (note : String) :
    (notedCourse s d₀).Runs st (annotate t note) (annotate t note)
      fun _ st' => st'.Placed t note ∧ st'.types.size = st.types.size ∧
        ∀ x, st'.types.shape x = st.types.shape x := by
  have hshape (x : TypeId) : (st.types.set t (noted (st.types.node t) note)).shape x
      = st.types.shape x := TypeGraph.shape_set_of_eq rfl
  obtain ⟨hnew, hold⟩ := TypeGraph.bears_noted ht note
  have hclosed : (st.types.set t (noted (st.types.node t) note)).Closed :=
    hst.closed.set fun c hc => hst.closed t c hc
  have hruns := noted_of_faithful hst (answers_annotate hst.faithful t note) rfl hclosed
    fun u text hu htext => by
      by_cases hut : u = t
      · subst hut
        exact hold text htext
      · exact (TypeGraph.bears_set_of_ne hut).mpr htext
  refine ⟨rfl, hruns.inv, hruns.le, ⟨?_, .inr hnew⟩, TypeGraph.size_set, hshape⟩
  exact Nat.lt_of_lt_of_eq ht TypeGraph.size_set.symm

/-- The document is added to. -/
lemma noted_setDocument (hst : st.IsNoted s d₀) {d : Document} (hextends : st.document.Extends d)
    (hderived : d.DerivedFrom d₀) :
    (notedCourse s d₀).Runs st (setDocument d) (setDocument d)
      fun _ st' => st'.document = d ∧ st'.types = st.types :=
  have hruns := noted_of_faithful hst (answers_setDocument hst.faithful hextends hderived) rfl
    hst.closed fun _ _ _ hnote => hnote
  ⟨rfl, hruns.inv, hruns.le, rfl, rfl⟩

lemma noted_answering {make : Lower TypeId}
    (h : (notedCourse s d₀).Runs st make make fun t st' => Spans st.types.size st' [t]) :
    (notedCourse s d₀).Runs st (answering id make) (answering id make)
      fun t st' => Spans st.types.size st' [t] := by
  refine h.bind fun t st₁ hst₁ _ hspans => Course.Runs.bind
    (P := fun _ st' => Spans st.types.size st' [t]) ?_ fun _ _ hst' _ h => .pure hst' h
  have hadds : st₁.Adds { st₁ with answers := ⟨id, t⟩ :: st₁.answers } :=
    ⟨.refl _, fun _ _ h => h, Nat.le_refl _, fun _ _ => rfl⟩
  have hkeeps : st₁.Keeps { st₁ with answers := ⟨id, t⟩ :: st₁.answers } :=
    ⟨hadds, .of_none [] (by simp) (by simp) rfl, fun _ _ _ h => h⟩
  exact .modify (hst₁.of_keeps hkeeps (hst₁.faithful.of_adds hadds hst₁.faithful.document rfl)
    hst₁.closed fun _ _ h _ => h) hkeeps ⟨hspans.lt, hspans.reaches⟩

/-! ### What is made once -/

/-- A schema is put on record. -/
lemma keeps_reserved {aspect : Aspect} (hnone : st.made.lookup aspect = none) :
    st.Keeps (st.reserved aspect) where
  adds := adds_reserved hnone
  named := .of_none [none] TypeGraph.names_alloc (by simp) rfl
  bears u note hu hnote := by
    have hne := Nat.ne_of_lt (TypeGraph.lt_size_of_shape_ne hu)
    rw [TypeGraph.Bears, reserved, TypeGraph.node_alloc_of_ne hne]
    exact hnote

lemma isNoted_reserved (hst : st.IsNoted s d₀) {aspect : Aspect}
    (hnone : st.made.lookup aspect = none) : (st.reserved aspect).IsNoted s d₀ := by
  refine hst.of_keeps (keeps_reserved hnone) (hst.faithful.reserved hnone)
    (hst.closed.alloc (by simp [Shape.children])) fun other t ht hpending => ?_
  by_cases hother : other = aspect
  · rw [hother, lookup_reserved_self] at ht
    refine absurd ?_ hpending
    rw [← Option.some.inj ht, shape_reserved, TypeGraph.shape,
      TypeGraph.node_of_size_le (Nat.le_refl _)]
  · rwa [lookup_reserved_of_ne hother] at ht

/-- A note on another type than the one that is filled stays. -/
lemma placed_filled {u t : TypeId} {note : String} {node : TypeNode} (hu : u ≠ t)
    (h : st.Placed u note) : (st.filled t node).Placed u note := by
  refine ⟨Nat.lt_of_lt_of_eq h.1 TypeGraph.size_set.symm, h.2.imp (fun hpending => ?_)
    (TypeGraph.bears_set_of_ne hu).mpr⟩
  exact (congrArg TypeNode.shape (TypeGraph.node_set_of_ne hu)).trans hpending

/-- The type of which the number was next is filled, in a state that goes on from `st`. -/
structure Fills (st st' : Lowering) (node : TypeNode) : Prop where
  size_lt : st.types.size < st'.types.size
  shape : ∀ t < st.types.size, st'.types.shape t = st.types.shape t
  pending : st'.types.shape st.types.size = .pending
  spans : Spans (st.types.size + 1) st' node.shape.children

namespace Fills

variable {node : TypeNode} (h : Fills st st' node)
include h

lemma agrees : st'.types.Agrees (st'.filled st.types.size node).types := fun _ hx =>
  congrArg TypeNode.shape (TypeGraph.node_set_of_ne fun heq => hx (heq ▸ h.pending))

lemma shape_self : (st'.filled st.types.size node).types.shape st.types.size = node.shape :=
  congrArg TypeNode.shape (TypeGraph.node_set_self h.size_lt)

/-- The records that were made meanwhile are enclosed. -/
lemma encloses {t : TypeId} (ht : st.types.size < t)
    (hrecord : (st'.types.shape t).isRecord = true) :
    (st'.filled st.types.size node).types.Encloses st.types.size t := by
  obtain ⟨c, hc, hlt, hreaches⟩ := h.spans.reaches t ht hrecord
  refine .head ⟨?_, hlt⟩ (TypeGraph.reaches_of_agrees h.agrees (Nat.le_refl _) hreaches)
  rw [TypeGraph.Child, TypeGraph.children, h.shape_self]
  exact hc

lemma spans_filled : Spans st.types.size (st'.filled st.types.size node) [st.types.size] where
  lt c hc := by
    rw [List.mem_singleton.mp hc]
    exact Nat.lt_of_lt_of_eq h.size_lt TypeGraph.size_set.symm
  reaches t ht hrecord := by
    refine ⟨_, List.mem_singleton_self _, Nat.le_refl _, ?_⟩
    rcases Nat.eq_or_lt_of_le ht with rfl | hlt
    · exact .refl
    · have hshape : (st'.filled st.types.size node).types.shape t = st'.types.shape t :=
        congrArg TypeNode.shape (TypeGraph.node_set_of_ne (Nat.ne_of_gt hlt))
      exact TypeGraph.reaches_of_agrees (fun _ _ => rfl) (Nat.le_succ _)
        (h.encloses hlt (hshape ▸ hrecord))

/-- **Filling a type loses notes of records that it encloses only.** -/
lemma isNoted (hst : st.IsNoted s d₀) (hst' : st'.IsNoted s d₀)
    (hfaithful : (st'.filled st.types.size node).Faithful s d₀)
    (hrecord : ∀ x, ∀ category ∈ [Category.namedSchema, .unnamedSchema],
      st'.made.lookup (x, some category) = some st.types.size → node.shape ≠ .pending →
        NotedShape s st'.document x node.name st'.Placed node.shape) :
    (st'.filled st.types.size node).IsNoted s d₀ where
  faithful := hfaithful
  closed := hst'.closed.set h.spans.lt
  noted x category hcategory t ht hpending := by
    by_cases htw : t = st.types.size
    · subst htw
      rw [h.shape_self] at hpending ⊢
      have hname : ((st'.filled st.types.size node).types.node st.types.size).name = node.name :=
        congrArg TypeNode.name (TypeGraph.node_set_self h.size_lt)
      rw [hname]
      refine (hrecord x category hcategory ht hpending).imp fun u _ note hplaced => ?_
      by_cases hu : u = st.types.size
      · exact .inr (hu ▸ .refl)
      · exact .inl (placed_filled hu hplaced)
    · have hnode : (st'.filled st.types.size node).types.node t = st'.types.node t :=
        TypeGraph.node_set_of_ne htw
      rw [TypeGraph.shape, hnode] at hpending ⊢
      have hnoted := hst'.noted x category hcategory t ht hpending
      refine hnoted.imp fun u hchild note hsafe => ?_
      rcases hsafe with hplaced | hencloses
      · by_cases hu : u = st.types.size
        · -- An older record is made of older types, and a younger one is enclosed.
          subst hu
          rcases Nat.lt_or_gt_of_ne htw with hlt | hgt
          · change _ ∈ (st'.types.shape t).children at hchild
            rw [h.shape t hlt] at hchild
            exact absurd (hst.closed t _ hchild) (Nat.lt_irrefl _)
          · obtain ⟨properties, patterns, definitions, rest, supers, hshape, -⟩ := hnoted
            refine .inr (h.encloses hgt ?_)
            rw [hshape]
            rfl
        · exact .inl (placed_filled hu hplaced)
      · exact .inr (hencloses.of_agrees h.agrees)

end Fills

/-- A name is claimed for what is on record. -/
lemma exists_claimed (hst : st.IsNoted s d₀) {aspect : Aspect}
    (hnone : st.made.lookup aspect = none) (id : NodeId) (fallback : Option String) :
    ∃ name st₁, (claimName id fallback).run (st.reserved aspect) = (name, st₁) ∧
      st₁.IsNoted s d₀ ∧ st₁.document = st.document ∧
      st₁.types = (st.reserved aspect).types := by
  obtain ⟨hints, definitions, lookups, -, hstate⟩ :=
    claimName_aside id fallback (st.reserved aspect)
  have hreserved := isNoted_reserved hst hnone
  generalize (claimName id fallback).run (st.reserved aspect) = claimed at hstate ⊢
  obtain ⟨name, st₁⟩ := claimed
  cases hstate
  refine ⟨name, _, rfl, ⟨?_, hreserved.closed, hreserved.noted⟩, rfl, rfl⟩
  exact hreserved.faithful.of_adds ⟨.refl _, fun _ _ h => h, Nat.le_refl _, fun _ _ => rfl⟩
    hreserved.faithful.document rfl

/-- What is on record already is not made again. -/
lemma noted_once_of_made (hst : st.IsNoted s d₀) {aspect : Aspect} {make : Lower TypeNode}
    {t : TypeId} (hmade : st.made.lookup aspect = some t) :
    (notedCourse s d₀).Runs st (once aspect make) (once aspect make)
      fun t st' => Spans st.types.size st' [t] := by
  refine ⟨rfl, ?_, ?_, ?_⟩ <;> rw [once_run, hmade]
  · exact hst
  · exact .refl st
  · refine (Spans.nil st).of_nil ?_
    simpa using hst.faithful.made_lt aspect t hmade

/-- What is made once fills the type that was reserved for it. -/
lemma noted_once_of_fills (hst : st.IsNoted s d₀) {aspect : Aspect} {make : Lower TypeNode}
    {node : TypeNode} (hnone : st.made.lookup aspect = none)
    (hruns : (faithfulCourse s d₀).Runs st (once aspect make) (once aspect make)
      fun t st' => st'.made.lookup aspect = some t)
    (hmake : make.run (st.reserved aspect) = (node, st')) (hst' : st'.IsNoted s d₀)
    (hfills : Fills st st' node)
    (hbears : ∀ u note, st.types.shape u ≠ .pending → st.types.Bears u note →
      st'.types.Bears u note)
    (hrecord : ∀ x, ∀ category ∈ [Category.namedSchema, .unnamedSchema],
      aspect = (x, some category) → node.shape ≠ .pending →
        NotedShape s st'.document x node.name st'.Placed node.shape) :
    (notedCourse s d₀).Runs st (once aspect make) (once aspect make)
      fun t st' => Spans st.types.size st' [t] := by
  have hrun : (once aspect make).run st = (st.types.size, st'.filled st.types.size node) := by
    rw [once_run, hnone, hmake]
  obtain ⟨-, hfaithful, hle, hlookup⟩ := hruns
  rw [hrun] at hfaithful hle hlookup
  refine ⟨rfl, ?_, ?_, ?_⟩ <;> rw [hrun]
  · refine hfills.isNoted hst hst' hfaithful fun x category hcategory hx => ?_
    exact hrecord x category hcategory (hfaithful.injective _ _ _ hlookup hx)
  · refine ⟨hle.1, hle.2, fun u note hu hnote => ?_⟩
    have hne : u ≠ st.types.size := Nat.ne_of_lt (TypeGraph.lt_size_of_shape_ne hu)
    exact (TypeGraph.bears_set_of_ne hne).mpr (hbears u note hu hnote)
  · exact hfills.spans_filled

/-- **What is made once under a name**: the shape is made where notes are kept. -/
lemma noted_once (make : Option String → Lower Shape) (hst : st.IsNoted s d₀) {aspect : Aspect}
    {fallback key : Option String}
    (hruns : (faithfulCourse s d₀).Runs st
      (once aspect (claimName id fallback >>= fun name => make name >>= fun shape =>
        finish id shape key name))
      (once aspect (claimName id fallback >>= fun name => make name >>= fun shape =>
        finish id shape key name))
      fun t st' => st'.made.lookup aspect = some t)
    (hmake : ∀ name st', st'.IsNoted s d₀ → st'.document = st.document →
      (notedCourse s d₀).Runs st' (make name) (make name) fun shape st'' =>
        Spans st'.types.size st'' shape.children ∧
        ∀ x, ∀ category ∈ [Category.namedSchema, .unnamedSchema], aspect = (x, some category) →
          NotedShape s st''.document x name st''.Placed shape) :
    (notedCourse s d₀).Runs st
      (once aspect (claimName id fallback >>= fun name => make name >>= fun shape =>
        finish id shape key name))
      (once aspect (claimName id fallback >>= fun name => make name >>= fun shape =>
        finish id shape key name))
      fun t st' => Spans st.types.size st' [t] := by
  cases hmade : st.made.lookup aspect with
  | some t => exact noted_once_of_made hst hmade
  | none =>
      obtain ⟨name, st₁, hclaim, hst₁, hdocument, htypes⟩ := exists_claimed hst hmade id fallback
      obtain ⟨shape, st₂, hshape⟩ : ∃ shape st₂, (make name).run st₁ = (shape, st₂) := ⟨_, _, rfl⟩
      obtain ⟨-, hst₂, hkeeps₂, hspans, hnoted⟩ := hmake name st₁ hst₁ hdocument
      rw [hshape] at hst₂ hkeeps₂ hspans hnoted
      have hbind : (claimName id fallback >>= fun name => make name >>= fun shape =>
          finish id shape key name).run (st.reserved aspect) =
            ({ shape, comment := st₂.document.string? id "description", key, name }, st₂) := by
        change (make ((claimName id fallback).run (st.reserved aspect)).1 >>= fun shape =>
          finish id shape key ((claimName id fallback).run (st.reserved aspect)).1).run
            ((claimName id fallback).run (st.reserved aspect)).2 = _
        rw [hclaim]
        change (finish id ((make name).run st₁).1 key name).run ((make name).run st₁).2 = _
        rw [hshape]
        rfl
      -- What was made before is as it was, and what was reserved is still pending.
      have hsize₁ : st₁.types.size = st.types.size + 1 := by rw [htypes, size_types_reserved]
      have hshape₁ (t : TypeId) : st₁.types.shape t = st.types.shape t := by
        rw [htypes, shape_reserved]
      have hshape₂ (t : TypeId) (ht : t < st.types.size + 1) :
          st₂.types.shape t = st.types.shape t :=
        (hkeeps₂.adds.shape t (hsize₁ ▸ ht)).trans (hshape₁ t)
      refine noted_once_of_fills hst hmade hruns hbind hst₂
        ⟨?_, fun t ht => hshape₂ t (Nat.lt_succ_of_lt ht), ?_, hsize₁ ▸ hspans⟩
        (fun u note hu hnote => ?_) fun x category hcategory haspect _ =>
          hnoted x category hcategory haspect
      · exact Nat.lt_of_lt_of_le (hsize₁ ▸ Nat.lt_succ_self _) hkeeps₂.adds.size_le
      · rw [hshape₂ _ (Nat.lt_succ_self _), TypeGraph.shape,
          TypeGraph.node_of_size_le (Nat.le_refl _)]
      · refine hkeeps₂.bears u note (by rwa [hshape₁ u]) ?_
        rw [htypes]
        exact (keeps_reserved hmade).bears u note hu hnote

end Lower

end SchemaDecl
