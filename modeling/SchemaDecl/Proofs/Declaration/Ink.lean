/-
The ink: what writing keeps on record.

* `Render.inlineWith_run`, `Render.rawWith_run`: what writing one type does to the ink.
* `Render.Carries`: a course that writing single types stays in is one that writing the declarations
  of a document stays in.
* `Ink.NamesRight`: types with names are on record under their names. Writing keeps it so, and only
  adds to the record (`Render.carries_names`).
-/
import SchemaDecl.Declaration.Document
import SchemaDecl.Proofs.Course
import SchemaDecl.Proofs.Declaration.Layout

namespace SchemaDecl

namespace Ink

/-- The text on record for a type. -/
def text? (ink : Ink) (id : TypeId) : Option String := ink.texts.lookup id

/-- Puts a text on record. -/
def kept (ink : Ink) (id : TypeId) (text : String) : Ink :=
  { ink with texts := (id, text) :: ink.texts }

/-- A type is being written. -/
def opened (ink : Ink) (id : TypeId) : Ink := { ink with active := id :: ink.active }

/-- A type has been written. -/
def closed (ink : Ink) (id : TypeId) : Ink := { ink with active := ink.active.erase id }

/-- A type has been cut off. -/
def cutOff (ink : Ink) (id : TypeId) : Ink := { ink with cut := id :: ink.cut }

variable (ink : Ink) (id : TypeId) (text : String)

@[simp] lemma text?_opened (x : TypeId) : (ink.opened id).text? x = ink.text? x := rfl
@[simp] lemma active_closed : (ink.closed id).active = ink.active.erase id := rfl

@[simp] lemma text?_kept_self : (ink.kept id text).text? id = some text := by
  simp [kept, text?]

lemma text?_kept_of_ne {x : TypeId} (h : x ≠ id) : (ink.kept id text).text? x = ink.text? x := by
  have hbeq : (x == id) = false := beq_false_of_ne h
  simp [kept, text?, List.lookup_cons, hbeq]

end Ink

namespace Render

variable {s : Settings} {g : TypeGraph}

/-! ### Writing one type -/

section Inline

variable (raw : TypeId → Render String) (id : TypeId) (ink : Ink)

/-- The text of a type where it is used: what is on record, else the name, else what the type is;
and that goes on record. -/
lemma inlineWith_run : (inlineWith g raw id).run ink = match ink.text? id with
    | some text => (text, ink)
    | none => match (g.node id).declared? with
      | some name => (Text.typeName name, ink.kept id (Text.typeName name))
      | none => (((raw id).run ink).1, ((raw id).run ink).2.kept id ((raw id).run ink).1) := by
  have hrun : (inlineWith g raw id).run ink = (match ink.text? id with
    | some text => pure text
    | none => do
      let text ← match (g.node id).declared? with
        | some name => pure (Text.typeName name)
        | none => raw id
      keep id text
      pure text : Render String).run ink := rfl
  rw [hrun]
  cases ink.text? id with
  | some text => rfl
  | none => cases (g.node id).declared? <;> rfl

variable {raw id ink}

lemma inlineWith_run_kept {text : String} (h : ink.text? id = some text) :
    (inlineWith g raw id).run ink = (text, ink) := by
  rw [inlineWith_run, h]

lemma inlineWith_run_named {name : String} (h : ink.text? id = none)
    (hname : (g.node id).declared? = some name) :
    (inlineWith g raw id).run ink = (Text.typeName name, ink.kept id (Text.typeName name)) := by
  rw [inlineWith_run, h, hname]

lemma inlineWith_run_unnamed (h : ink.text? id = none) (hname : (g.node id).declared? = none) :
    (inlineWith g raw id).run ink
      = (((raw id).run ink).1, ((raw id).run ink).2.kept id ((raw id).run ink).1) := by
  rw [inlineWith_run, h, hname]

end Inline

section Raw

variable (fuel : Nat) (id : TypeId) (ink : Ink)

/-- Writes the types in the slots of a type. -/
def writeSlots : List String × Ink :=
  ((g.shape id).slots.mapM (inlineWith g (rawWith s g fuel))).run (ink.opened id)

/-- The text of what a type is: it is laid out from its slots, and a type that is met again while it
is written is cut off. -/
lemma rawWith_run : (rawWith s g (fuel + 1) id).run ink =
    if id ∈ ink.active then (s.top, ink.cutOff id)
    else ((g.shape id).layout s g (writeSlots (s := s) (g := g) fuel id ink).1,
      (writeSlots (s := s) (g := g) fuel id ink).2.closed id) := by
  have hrun : (rawWith s g (fuel + 1) id).run ink = (if ink.active.contains id then do
      modify fun ink => { ink with cut := id :: ink.cut }
      pure s.top
    else do
      modify fun ink => { ink with active := id :: ink.active }
      let text ← shapeText s g (inlineWith g (rawWith s g fuel)) (g.shape id)
      modify fun ink => { ink with active := ink.active.erase id }
      pure text : Render String).run ink := rfl
  rw [hrun]
  by_cases h : id ∈ ink.active
  · rw [if_pos h, if_pos (List.contains_iff_mem.mpr h)]
    rfl
  · rw [if_neg h, if_neg (fun h' => h (List.contains_iff_mem.mp h')), shapeText_eq]
    rfl

end Raw

/-! ### Writing declarations -/

section Carried

variable {c : Course Ink} (s g)

/-- Writing single types stays in a course. -/
structure Carries (c : Course Ink) : Prop where
  raw : ∀ id ink, c.inv ink → c.Runs ink (raw s g id) (raw s g id) fun _ _ => True
  inline : ∀ id ink, c.inv ink → c.Runs ink (inline s g id) (inline s g id) fun _ _ => True

variable {s g}

namespace Carries

variable (h : Carries s g c)
include h

/-- Writing several types, one after the other. -/
lemma slots (ids : List TypeId) {ink : Ink} (hink : c.inv ink) :
    c.Runs ink (ids.mapM (Render.inline s g)) (ids.mapM (Render.inline s g)) fun _ _ => True :=
  (Course.Runs.mapM (fun _ _ _ _ _ _ h => h) ids hink fun id _ ink' hink' _ =>
    h.inline id ink' hink').imp fun _ _ _ => trivial

lemma body (fields : List Field) {ink : Ink} (hink : c.inv ink) :
    c.Runs ink (Render.body s g fields) (Render.body s g fields) fun _ _ => True := by
  rw [Render.body, bodyText_eq]
  exact (h.slots _ hink).map fun _ _ _ => trivial

lemma extended (id : TypeId) {ink : Ink} (hink : c.inv ink) :
    c.Runs ink (Render.extended s g id) (Render.extended s g id) fun _ _ => True := by
  rw [Render.extended]
  cases g.shape id with
  | record r =>
      simp only [extendedText_eq]
      exact (h.slots _ hink).map fun _ _ _ => trivial
  | _ => exact h.raw id ink hink

open Declare

lemma aliasText (id : TypeId) {ink : Ink} (hink : c.inv ink) :
    c.Runs ink (aliasText s g id) (aliasText s g id) fun _ _ => True :=
  (h.raw id ink hink).bind fun _ _ hink' _ _ => .pure hink' trivial

lemma recordText (id : TypeId) {ink : Ink} (hink : c.inv ink) :
    c.Runs ink (recordText s g id) (recordText s g id) fun _ _ => True := by
  rw [Declare.recordText]
  cases g.shape id with
  | record r =>
      by_cases hall : (r.supers.all fun super => (g.node super).isNamed) = true
      · simp only [hall, if_true]
        exact (h.slots r.supers hink).bind fun _ ink₁ hink₁ _ _ =>
          (h.body r.fields hink₁).bind fun _ ink₂ hink₂ _ _ => .pure hink₂ trivial
      · simp only [hall]
        exact (h.extended id hink).bind fun _ ink₁ hink₁ _ _ => .pure hink₁ trivial
  | _ => exact h.aliasText id hink

lemma enumText (id : TypeId) {ink : Ink} (hink : c.inv ink) :
    c.Runs ink (enumText s g id) (enumText s g id) fun _ _ => True := by
  rw [Declare.enumText]
  cases g.shape id with
  | enumeration members =>
      refine Course.Runs.bind (Course.Runs.mapM (Q := fun _ _ _ => True)
        (fun _ _ _ _ _ _ h => h) members hink ?_) fun _ ink₁ hink₁ _ _ => .pure hink₁ trivial
      exact fun member _ ink' hink' _ => (h.inline member.2 ink' hink').bind
        fun _ ink₁ hink₁ _ _ => .pure hink₁ trivial
  | _ => exact h.aliasText id hink

/-- Writing the declarations of a document. -/
lemma declarations (rootName : String) (root : TypeId) {ink : Ink} (hink : c.inv ink) :
    c.Runs ink (declarations s g rootName root) (declarations s g rootName root)
      fun _ _ => True := by
  have hlist {write : TypeId → Render String} (ids : List TypeId) {ink : Ink} (hink : c.inv ink)
      (hwrite : ∀ id ink, c.inv ink → c.Runs ink (write id) (write id) fun _ _ => True) :
      c.Runs ink (ids.mapM write) (ids.mapM write) fun _ _ => True :=
    (Course.Runs.mapM (Q := fun _ _ _ => True) (fun _ _ _ _ _ _ h => h) ids hink
      fun id _ ink' hink' _ => hwrite id ink' hink').imp fun _ _ _ => trivial
  exact (hlist _ hink fun id _ hink => h.aliasText id hink).bind fun _ _ hink₁ _ _ =>
    (hlist _ hink₁ fun id _ hink => h.recordText id hink).bind fun _ _ hink₂ _ _ =>
      (hlist _ hink₂ fun id _ hink => h.enumText id hink).bind fun _ _ hink₃ _ _ =>
        .pure hink₃ trivial

end Carries

end Carried

end Render

/-! ### Names on record -/

namespace Ink

/-- Whatever is on record for a type with a name is its name. -/
def NamesRight (g : TypeGraph) (ink : Ink) : Prop :=
  ∀ id text name, (id, text) ∈ ink.texts → (g.node id).declared? = some name →
    text = Text.typeName name

/-- The course in which names stay right and the record only grows. -/
def names (g : TypeGraph) : Course Ink where
  inv := NamesRight g
  le ink ink' := ink.texts <:+ ink'.texts
  refl _ := List.suffix_rfl
  trans := List.IsSuffix.trans

lemma mem_texts_of_text? {ink : Ink} {id : TypeId} {text : String} (h : ink.text? id = some text) :
    (id, text) ∈ ink.texts := by
  obtain ⟨l₁, l₂, htexts, -⟩ := List.lookup_eq_some_iff.mp h
  rw [htexts]
  exact List.mem_append_right _ List.mem_cons_self

lemma NamesRight.kept {g : TypeGraph} {ink : Ink} (h : NamesRight g ink) {id : TypeId}
    {text : String}
    (htext : ∀ name, (g.node id).declared? = some name → text = Text.typeName name) :
    NamesRight g (ink.kept id text) := by
  intro x t name hmem hname
  rcases List.mem_cons.mp hmem with heq | hmem
  · obtain ⟨rfl, rfl⟩ := Prod.mk.inj heq
    exact htext name hname
  · exact h x t name hmem hname

lemma NamesRight.of_suffix {g : TypeGraph} {ink ink' : Ink} (h : NamesRight g ink')
    (hsuffix : ink.texts <:+ ink'.texts) : NamesRight g ink :=
  fun id text name hmem => h id text name (hsuffix.subset hmem)

end Ink

namespace Render

variable {s : Settings} {g : TypeGraph}

/-- With names right, a type with a name is written as its name, however others are written. -/
lemma inlineWith_eq_typeName (raw : TypeId → Render String) {id : TypeId} {ink : Ink}
    {name : String}
    (hink : Ink.NamesRight g ink) (hname : (g.node id).declared? = some name) :
    ((inlineWith g raw id).run ink).1 = Text.typeName name := by
  cases htext : ink.text? id with
  | some text =>
      rw [inlineWith_run_kept htext]
      exact hink id text name (Ink.mem_texts_of_text? htext) hname
  | none => rw [inlineWith_run_named htext hname]

lemma runs_inlineWith_names {raw : TypeId → Render String}
    (hraw : ∀ id ink, (Ink.names g).inv ink →
      (Ink.names g).Runs ink (raw id) (raw id) fun _ _ => True)
    (id : TypeId) (ink : Ink) (hink : (Ink.names g).inv ink) :
    (Ink.names g).Runs ink (inlineWith g raw id) (inlineWith g raw id) fun _ _ => True := by
  cases htext : ink.text? id with
  | some text =>
      refine ⟨rfl, ?_, ?_, trivial⟩ <;> rw [inlineWith_run_kept htext]
      · exact hink
      · exact List.suffix_rfl
  | none =>
      cases hname : (g.node id).declared? with
      | some name =>
          refine ⟨rfl, ?_, ?_, trivial⟩ <;> rw [inlineWith_run_named htext hname]
          · refine Ink.NamesRight.kept hink fun name' hname' => ?_
            rw [Option.some.inj (hname.symm.trans hname')]
          · exact List.suffix_cons _ _
      | none =>
          obtain ⟨-, hinv, hle, -⟩ := hraw id ink hink
          refine ⟨rfl, ?_, ?_, trivial⟩ <;> rw [inlineWith_run_unnamed htext hname]
          · exact Ink.NamesRight.kept hinv (by simp [hname])
          · exact List.IsSuffix.trans hle (List.suffix_cons _ _)

lemma runs_rawWith_names (fuel : Nat) (id : TypeId) (ink : Ink) (hink : (Ink.names g).inv ink) :
    (Ink.names g).Runs ink (rawWith s g fuel id) (rawWith s g fuel id) fun _ _ => True := by
  induction fuel generalizing id ink with
  | zero => exact .pure hink trivial
  | succ fuel ih =>
      have hslots : (Ink.names g).Runs (ink.opened id)
          ((g.shape id).slots.mapM (inlineWith g (rawWith s g fuel)))
          ((g.shape id).slots.mapM (inlineWith g (rawWith s g fuel)))
          fun texts _ => List.Forall₂ (fun _ _ => True) (g.shape id).slots texts :=
        .mapM (fun _ _ _ _ _ _ h => h) _ hink fun c _ ink' hink' _ =>
          runs_inlineWith_names ih c ink' hink'
      refine ⟨rfl, ?_, ?_, trivial⟩ <;> rw [rawWith_run] <;> split
      · exact hink
      · exact hslots.inv
      · exact List.suffix_rfl
      · exact hslots.le

/-- Writing keeps names right. -/
theorem carries_names : Carries s g (Ink.names g) where
  raw := runs_rawWith_names (g.size + 1)
  inline := runs_inlineWith_names (runs_rawWith_names (g.size + 1))

end Render

namespace Declare

/-- The ink that is left when a document has been written. -/
def inkAfter (s : Settings) (g : TypeGraph) (root : TypeId) : Ink :=
  match (g.node root).declared? with
  | none => ((Render.raw s g root).run {}).2
  | some rootName => ((declarations s g rootName root).run {}).2

/-- A document leaves nothing on record for a type with a name but that name. -/
theorem namesRight_inkAfter (s : Settings) (g : TypeGraph) (root : TypeId) :
    Ink.NamesRight g (inkAfter s g root) := by
  have hempty : (Ink.names g).inv {} := fun id text name h => by simp at h
  rw [inkAfter]
  cases (g.node root).declared? with
  | none => exact (Render.carries_names.raw root {} hempty).inv
  | some rootName => exact (Render.carries_names.declarations rootName root hempty).inv

end Declare

end SchemaDecl
