/-
Names of types.

Every name that is handed out is the name of one type. A declaration does not carry it as it is,
though: it carries the type name of the name, and a digit at its front is lost there.

* `Lowering.ofDocument_names_unique`: no two types have the same name, and the names are those that
  were handed out.
* `Lowering.ofDocument_declares_apart`: types are declared and used under their names, without a
  digit at the front; names that begin otherwise are kept apart.
* `Lowering.digitDocument_collides`: two types that are declared under the empty text.
-/
import SchemaDecl.Compile
import SchemaDecl.Proofs.Types.Making
import SchemaDecl.Proofs.Types.Narrowing

namespace SchemaDecl

/-! ### Names in a list -/

/-- A name that stands in a list without repetition stands at one place. -/
lemma eq_of_nodup_reduceOption {names : List (Option String)} (h : names.reduceOption.Nodup)
    {name : String} {i j : Nat} (hi : names[i]?.join = some name)
    (hj : names[j]?.join = some name) : i = j := by
  induction names generalizing i j with
  | nil => simp at hi
  | cons head names ih =>
      have hmem {k : Nat} (hk : names[k]?.join = some name) : name ∈ names.reduceOption :=
        List.reduceOption_mem_iff.mpr (List.mem_of_getElem? (Option.join_eq_some_iff.mp hk))
      cases head with
      | none =>
          rw [List.reduceOption_cons_of_none] at h
          cases i with
          | zero => simp at hi
          | succ i =>
              cases j with
              | zero => simp at hj
              | succ j => exact congrArg Nat.succ (ih h hi hj)
      | some first =>
          rw [List.reduceOption_cons_of_some, List.nodup_cons] at h
          cases i with
          | zero =>
              obtain rfl : first = name := by simpa using hi
              cases j with
              | zero => rfl
              | succ j => exact absurd (hmem hj) h.1
          | succ i =>
              cases j with
              | zero =>
                  obtain rfl : first = name := by simpa using hj
                  exact absurd (hmem hi) h.1
              | succ j => exact congrArg Nat.succ (ih h.2 hi hj)

namespace TypeGraph

variable {g : TypeGraph}

lemma exists_name_iff {name : String} :
    (∃ t, (g.node t).name = some name) ↔ name ∈ g.names.reduceOption := by
  rw [List.reduceOption_mem_iff, List.mem_iff_getElem?]
  refine exists_congr fun t => ?_
  rw [← names_getElem?, Option.join_eq_some_iff]

lemma name_simplify (s : Settings) (g : TypeGraph) (root x : TypeId) :
    ((g.simplify s root).node x).name = (g.node x).name := by
  rw [(narrows_simplify s g root).node x]

end TypeGraph

namespace Lowering

variable {s : Settings} {d : Document} {root : NodeId}

/-- The names of the types of a document are those that were handed out. -/
lemma exists_names_perm (s : Settings) (hd : d.Closed) (hroot : root < d.size) :
    ∃ hints, (ofDocument s d root).2.names = ({} : Names).after hints ∧
      (ofDocument s d root).2.types.names.reduceOption.Perm (({} : Names).issued hints) := by
  obtain ⟨-, ⟨more, hints, hmore, hafter, hperm⟩, -⟩ := faithful_ofDocument s hd hroot
  refine ⟨hints, hafter, ?_⟩
  rw [hmore]
  exact hperm

/-- A name belongs to one type. -/
lemma eq_of_name_eq (s : Settings) (hd : d.Closed) (hroot : root < d.size) {t t' : TypeId}
    {name : String} (ht : ((ofDocument s d root).2.types.node t).name = some name)
    (ht' : ((ofDocument s d root).2.types.node t').name = some name) : t = t' := by
  obtain ⟨hints, -, hperm⟩ := exists_names_perm s hd hroot
  rw [← TypeGraph.names_getElem?] at ht ht'
  exact eq_of_nodup_reduceOption (hperm.nodup_iff.mpr (Names.nodup_issued {} hints).1) ht ht'

/-- **No two types have the same name**, when a document has been lowered and when its types have
been simplified, from whatever root. The names of types are the names that were handed out. -/
theorem ofDocument_names_unique (s : Settings) (d : Document) (root : NodeId) (hd : d.Closed)
    (hroot : root < d.size) :
    ∃ hints, (ofDocument s d root).2.names = ({} : Names).after hints ∧
      ∀ g, g = (ofDocument s d root).2.types ∨
          (∃ start, g = (ofDocument s d root).2.types.simplify s start) →
        (∀ name, (∃ t, (g.node t).name = some name) ↔ name ∈ ({} : Names).issued hints) ∧
        ∀ t t' name, (g.node t).name = some name → (g.node t').name = some name → t = t' := by
  obtain ⟨hints, hafter, hperm⟩ := exists_names_perm s hd hroot
  refine ⟨hints, hafter, fun g hg => ?_⟩
  have hname (x : TypeId) : (g.node x).name = ((ofDocument s d root).2.types.node x).name := by
    rcases hg with rfl | ⟨start, rfl⟩
    · rfl
    · rw [TypeGraph.name_simplify]
  simp only [hname]
  refine ⟨fun name => ?_, fun t t' name => eq_of_name_eq s hd hroot⟩
  rw [TypeGraph.exists_name_iff, hperm.mem_iff]

/-- Three schemas that ask for the same name. -/
def twinDocument : Document :=
  ⟨#[⟨.object [("title", 1), ("anyOf", 2)], .root⟩, ⟨.leaf (.string "Twin"), .under 0⟩,
    ⟨.array [3, 6], .under 0⟩, ⟨.object [("title", 4), ("type", 5)], .under 2⟩,
    ⟨.leaf (.string "twin"), .under 3⟩, ⟨.leaf (.string "string"), .under 3⟩,
    ⟨.object [("title", 7), ("type", 8)], .under 2⟩, ⟨.leaf (.string "Twin"), .under 6⟩,
    ⟨.leaf (.string "number"), .under 6⟩]⟩

/-- The three schemas get three names, and when types have been simplified each of the names still
belongs to one type. -/
theorem ofDocument_names_unique_twins :
    twinDocument.Closed ∧ 0 < twinDocument.size ∧
    (ofDocument {} twinDocument 0).2.types.names = [some "Twin", some "Twin1", some "Twin2"] ∧
    ∃ hints, (ofDocument {} twinDocument 0).2.names = ({} : Names).after hints ∧
      ∀ t name, (((ofDocument {} twinDocument 0).2.types.simplify {} 0).node t).name = some name →
        name ∈ ({} : Names).issued hints ∧
        ∀ t', (((ofDocument {} twinDocument 0).2.types.simplify {} 0).node t').name = some name →
          t = t' := by
  have hclosed : twinDocument.Closed := by decide
  have hnames : (ofDocument {} twinDocument 0).2.types.names
      = [some "Twin", some "Twin1", some "Twin2"] := by decide +kernel
  obtain ⟨hints, hafter, hunique⟩ :=
    ofDocument_names_unique {} twinDocument 0 hclosed (by decide)
  obtain ⟨hissued, hone⟩ := hunique _ (.inr ⟨0, rfl⟩)
  refine ⟨hclosed, by decide, hnames, hints, hafter, fun t name ht => ⟨?_, fun t' ht' => ?_⟩⟩
  · exact (hissued name).mp ⟨t, ht⟩
  · exact hone t t' name ht ht'

/-! ### Names in declarations -/

lemma name_of_declared? {start t : TypeId} {name : String}
    (h : (((ofDocument s d root).2.types.simplify s start).node t).declared? = some name) :
    ((ofDocument s d root).2.types.node t).name = some name := by
  rw [TypeNode.declared?, TypeGraph.name_simplify, Option.filter_eq_some_iff] at h
  exact h.1

/-- A name of a type is settled, and it is not empty. -/
lemma settled_of_name (s : Settings) (hd : d.Closed) (hroot : root < d.size) {t : TypeId}
    {name : String} (h : ((ofDocument s d root).2.types.node t).name = some name) :
    Text.Settled name.toList ∧ name ≠ "" := by
  obtain ⟨hints, -, hperm⟩ := exists_names_perm s hd hroot
  have hmem : name ∈ ({} : Names).issued hints :=
    hperm.mem_iff.mp (TypeGraph.exists_name_iff.mp ⟨t, h⟩)
  exact ⟨Names.settled_of_mem_issued hmem, ((Names.nodup_issued {} hints).2 name hmem).2⟩

/-- **Types are declared under their names, without a digit at the front**, and so they are written
wherever they are used. As long as names do not begin with a digit, no type is declared under the
empty text, and no two types under the same one. -/
theorem ofDocument_declares_apart (s : Settings) (d : Document) (root : NodeId) (hd : d.Closed)
    (hroot : root < d.size) (g : TypeGraph)
    (hg : g = (ofDocument s d root).2.types.simplify s (ofDocument s d root).1)
    (t : TypeId) (name : String) (hname : (g.node t).declared? = some name) :
    Declare.declaredName g t = Text.undigited name ∧
    (∀ (raw : TypeId → Render String) (ink : Ink),
      ink.texts <:+ (Declare.inkAfter s g (ofDocument s d root).1).texts →
      ((Render.inlineWith g raw t).run ink).1 = Text.undigited name) ∧
    (Text.leadsWithDigit name = false →
      Declare.declaredName g t ≠ "" ∧
      ∀ t' name', (g.node t').declared? = some name' → Text.leadsWithDigit name' = false →
        t' ≠ t → Declare.declaredName g t' ≠ Declare.declaredName g t) := by
  have hallotted {x : TypeId} {name : String} (h : (g.node x).declared? = some name) :
      ((ofDocument s d root).2.types.node x).name = some name := by
    rw [hg] at h
    exact name_of_declared? h
  have hdeclared {x : TypeId} {name : String} (h : (g.node x).declared? = some name) :
      Declare.declaredName g x = Text.undigited name := by
    rw [Declare.declaredName, h, Option.getD_some,
      Text.typeName_of_settled (settled_of_name s hd hroot (hallotted h)).1]
  refine ⟨hdeclared hname, fun raw ink hsuffix => ?_, fun hlead => ⟨?_, ?_⟩⟩
  · have hnames := (Declare.namesRight_inkAfter s g _).of_suffix hsuffix
    rw [Render.inlineWith_eq_typeName raw hnames hname,
      Text.typeName_of_settled (settled_of_name s hd hroot (hallotted hname)).1]
  · rw [hdeclared hname, Text.undigited_of_not_leads hlead]
    exact (settled_of_name s hd hroot (hallotted hname)).2
  · intro t' name' hname' hlead' hne hsame
    rw [hdeclared hname, hdeclared hname', Text.undigited_of_not_leads hlead,
      Text.undigited_of_not_leads hlead'] at hsame
    subst hsame
    exact hne (eq_of_name_eq s hd hroot (hallotted hname') (hallotted hname))

/-- Two properties whose titles are numbers. -/
def digitDocument : Document :=
  ⟨#[⟨.object [("title", 1), ("properties", 2)], .root⟩, ⟨.leaf (.string "Root"), .under 0⟩,
    ⟨.object [("a", 3), ("b", 6)], .under 0⟩,
    ⟨.object [("title", 4), ("type", 5)], .under 2⟩, ⟨.leaf (.string "12"), .under 3⟩,
    ⟨.leaf (.string "string"), .under 3⟩,
    ⟨.object [("title", 7), ("type", 8)], .under 2⟩, ⟨.leaf (.string "13"), .under 6⟩,
    ⟨.leaf (.string "number"), .under 6⟩]⟩

/-- The types of the two properties have the names `2` and `3`, and are both declared under the
empty text. -/
theorem digitDocument_collides :
    (compileDocument {} digitDocument 0 none).result.toOption
      = some ("export type  = string\n\nexport type  = number\n\n" ++
        "export interface Root \x7b\na?: ;\nb?: \n\x7d\n") ∧
    ∃ t t', t ≠ t' ∧
      ((ofDocument {} digitDocument 0).2.types.node t).declared? = some "2" ∧
      ((ofDocument {} digitDocument 0).2.types.node t').declared? = some "3" ∧
      Declare.declaredName (ofDocument {} digitDocument 0).2.types t = "" ∧
      Declare.declaredName (ofDocument {} digitDocument 0).2.types t' = "" := by
  refine ⟨by decide +kernel, 1, 2, by decide, ?_⟩
  decide +kernel

/-- In the types of the same schema, the root is declared and written under its name, which begins
with no digit. -/
theorem ofDocument_declares_apart_digits :
    digitDocument.Closed ∧ 0 < digitDocument.size ∧ Text.leadsWithDigit "Root" = false ∧
    ∃ g, g = (ofDocument {} digitDocument 0).2.types.simplify {} (ofDocument {} digitDocument 0).1 ∧
      (g.node 0).declared? = some "Root" ∧ (g.node 1).declared? = some "2" ∧
      Declare.declaredName g 0 = "Root" ∧ Declare.declaredName g 1 = "" ∧
      (∀ raw ink, ink.texts <:+ (Declare.inkAfter {} g (ofDocument {} digitDocument 0).1).texts →
        ((Render.inlineWith g raw 0).run ink).1 = "Root") ∧
      ∀ t' name', (g.node t').declared? = some name' → Text.leadsWithDigit name' = false → t' ≠ 0 →
        Declare.declaredName g t' ≠ "Root" := by
  have hclosed : digitDocument.Closed := by decide
  have hlead : Text.leadsWithDigit "Root" = false := by decide
  have hkept : Text.undigited "Root" = "Root" := Text.undigited_of_not_leads hlead
  have hlost : Text.undigited "2" = "" := by decide
  have hnames : ((ofDocument {} digitDocument 0).2.types.node 0).declared? = some "Root" ∧
      ((ofDocument {} digitDocument 0).2.types.node 1).declared? = some "2" := by decide +kernel
  have happart := ofDocument_declares_apart {} digitDocument 0 hclosed (by decide) _ rfl
  generalize ofDocument {} digitDocument 0 = outcome at *
  rw [← TypeGraph.declared?_simplify {} outcome.2.types outcome.1,
    ← TypeGraph.declared?_simplify {} outcome.2.types outcome.1] at hnames
  obtain ⟨hroot, hwritten, hothers⟩ := happart 0 "Root" hnames.1
  rw [hkept] at hroot
  refine ⟨hclosed, by decide, hlead, _, rfl, hnames.1, hnames.2, hroot,
    (happart 1 "2" hnames.2).1.trans hlost, fun raw ink hink => (hwritten raw ink hink).trans hkept,
    fun t' name' hname' hlead' hne => ?_⟩
  rw [← hroot]
  exact (hothers hlead).2 t' name' hname' hlead' hne

end Lowering

end SchemaDecl
