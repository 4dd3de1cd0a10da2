/-
Calls on one ink.

The text of a type can be asked for where the type is used, or without its name. Calls on one ink
share what it has on record, and a call makes others while types are being written. Where every
cycle of types goes through a name, none of this shows: a call gives what it gives on fresh ink.

* `Render.Call`: what can be asked for.
* `Render.Writes`: what calls come to, call inside call, said without fuel.
* `Render.writes_iff`: writing is just that, so that calls always come to an end.
* `Render.Asks`: what is asked for on the way.
* `TypeGraph.CyclesNamed`: every cycle of types goes through a name.
* `Render.calls_alone`: then calls do not depend on one another, and nothing is cut off.
-/
import Mathlib.Data.List.Chain
import SchemaDecl.Proofs.Types.Narrowing

namespace SchemaDecl

open Relation

namespace Render

/-! ### Calls without fuel -/

/-- What can be asked for: the text of a type where it is used, or without its name. -/
inductive Call where
  | inline (id : TypeId)
  | raw (id : TypeId)
deriving DecidableEq, Repr

namespace Call

variable (s : Settings) (g : TypeGraph)

/-- Answers a call. -/
def write : Call → Render String
  | .inline id => Render.inline s g id
  | .raw id => Render.raw s g id

/-- Answers a call with some fuel. -/
def writeWith (fuel : Nat) : Call → Render String
  | .inline id => inlineWith g (rawWith s g fuel) id
  | .raw id => rawWith s g fuel id

/-- The answer to a call on fresh ink. -/
def alone (call : Call) : String := ((call.write s g).run {}).1

end Call

/-- Calls, one after the other, come to some texts and some ink. -/
inductive Writes (s : Settings) (g : TypeGraph) : Ink → List Call → List String → Ink → Prop
  | nil (ink : Ink) : Writes s g ink [] [] ink
  | kept {ink ink' : Ink} {id : TypeId} {text : String} {calls : List Call} {texts : List String}
      (htext : ink.text? id = some text) (hrest : Writes s g ink calls texts ink') :
      Writes s g ink (.inline id :: calls) (text :: texts) ink'
  | named {ink ink' : Ink} {id : TypeId} {name : String} {calls : List Call} {texts : List String}
      (htext : ink.text? id = none) (hname : (g.node id).declared? = some name)
      (hrest : Writes s g (ink.kept id (Text.typeName name)) calls texts ink') :
      Writes s g ink (.inline id :: calls) (Text.typeName name :: texts) ink'
  | unnamed {ink ink₁ ink' : Ink} {id : TypeId} {text : String} {calls : List Call}
      {texts : List String} (htext : ink.text? id = none) (hname : (g.node id).declared? = none)
      (hraw : Writes s g ink [.raw id] [text] ink₁)
      (hrest : Writes s g (ink₁.kept id text) calls texts ink') :
      Writes s g ink (.inline id :: calls) (text :: texts) ink'
  | cut {ink ink' : Ink} {id : TypeId} {calls : List Call} {texts : List String}
      (hid : id ∈ ink.active) (hrest : Writes s g (ink.cutOff id) calls texts ink') :
      Writes s g ink (.raw id :: calls) (s.top :: texts) ink'
  | spelled {ink ink₁ ink' : Ink} {id : TypeId} {parts : List String} {calls : List Call}
      {texts : List String} (hid : id ∉ ink.active)
      (hslots : Writes s g (ink.opened id) ((g.shape id).slots.map .inline) parts ink₁)
      (hrest : Writes s g (ink₁.closed id) calls texts ink') :
      Writes s g ink (.raw id :: calls) ((g.shape id).layout s g parts :: texts) ink'

variable {s : Settings} {g : TypeGraph} {ink ink₁ ink' : Ink} {calls : List Call}
  {texts : List String}

namespace Writes

/-- Calls, and then others. -/
lemma append {calls' : List Call} {texts' : List String} (h : Writes s g ink calls texts ink₁)
    (h' : Writes s g ink₁ calls' texts' ink') :
    Writes s g ink (calls ++ calls') (texts ++ texts') ink' := by
  induction h with
  | nil => exact h'
  | kept htext _ ih => exact .kept htext (ih h')
  | named htext hname _ ih => exact .named htext hname (ih h')
  | unnamed htext hname hraw _ _ ihrest => exact .unnamed htext hname hraw (ihrest h')
  | cut hid _ ih => exact .cut hid (ih h')
  | spelled hid hslots _ _ ihrest => exact .spelled hid hslots (ihrest h')

/-- After calls the same types are being written as before. -/
lemma active_eq (h : Writes s g ink calls texts ink') : ink'.active = ink.active := by
  induction h with
  | nil => rfl
  | kept _ _ ih => exact ih
  | named _ _ _ ih => exact ih
  | unnamed _ _ _ _ ihraw ihrest => exact ihrest.trans ihraw
  | cut _ _ ih => exact ih
  | spelled _ _ _ ihslots ihrest =>
      rw [ihrest, Ink.active_closed, ihslots]
      exact List.erase_cons_head ..

/-- Calls come to one end only. -/
lemma unique {texts' : List String} {ink'' : Ink} (h : Writes s g ink calls texts ink')
    (h' : Writes s g ink calls texts' ink'') : texts = texts' ∧ ink' = ink'' := by
  induction h generalizing texts' ink'' with
  | nil =>
      cases h'
      exact ⟨rfl, rfl⟩
  | kept htext _ ih =>
      cases h' with
      | kept htext' hrest =>
          obtain rfl := Option.some.inj (htext.symm.trans htext')
          exact (ih hrest).imp_left (congrArg _)
      | named htext' => exact absurd (htext.symm.trans htext') (by simp)
      | unnamed htext' => exact absurd (htext.symm.trans htext') (by simp)
  | named htext hname _ ih =>
      cases h' with
      | kept htext' => exact absurd (htext.symm.trans htext') (by simp)
      | named _ hname' hrest =>
          obtain rfl := Option.some.inj (hname.symm.trans hname')
          exact (ih hrest).imp_left (congrArg _)
      | unnamed _ hname' => exact absurd (hname.symm.trans hname') (by simp)
  | unnamed htext hname _ _ ihraw ihrest =>
      cases h' with
      | kept htext' => exact absurd (htext.symm.trans htext') (by simp)
      | named _ hname' => exact absurd (hname.symm.trans hname') (by simp)
      | unnamed _ _ hraw hrest =>
          obtain ⟨htexts, rfl⟩ := ihraw hraw
          obtain rfl := List.singleton_inj.mp htexts
          exact (ihrest hrest).imp_left (congrArg _)
  | cut hid _ ih =>
      cases h' with
      | cut _ hrest => exact (ih hrest).imp_left (congrArg _)
      | spelled hid' => exact absurd hid hid'
  | spelled hid _ _ ihslots ihrest =>
      cases h' with
      | cut hid' => exact absurd hid' hid
      | spelled _ hslots hrest =>
          obtain ⟨rfl, rfl⟩ := ihslots hslots
          exact (ihrest hrest).imp_left (congrArg _)

end Writes

/-! ### Fuel is enough -/

section Fuel

variable {fuel : Nat}

/-- A call without a name comes to an end if the calls for the slots do. -/
lemma writes_rawWith (id : TypeId)
    (hslots : id ∉ ink.active → Writes s g (ink.opened id) ((g.shape id).slots.map .inline)
      (writeSlots (s := s) (g := g) fuel id ink).1 (writeSlots (s := s) (g := g) fuel id ink).2) :
    Writes s g ink [.raw id] [((rawWith s g (fuel + 1) id).run ink).1]
      ((rawWith s g (fuel + 1) id).run ink).2 := by
  rw [rawWith_run]
  by_cases hid : id ∈ ink.active
  · rw [if_pos hid]
    exact .cut hid (.nil _)
  · rw [if_neg hid]
    exact .spelled hid (hslots hid) (.nil _)

/-- So does a call where the type is used. -/
lemma writes_inlineWith {raw : TypeId → Render String} (id : TypeId)
    (hraw : Writes s g ink [.raw id] [((raw id).run ink).1] ((raw id).run ink).2) :
    Writes s g ink [.inline id] [((inlineWith g raw id).run ink).1]
      ((inlineWith g raw id).run ink).2 := by
  cases htext : ink.text? id with
  | some text =>
      rw [inlineWith_run_kept htext]
      exact .kept htext (.nil _)
  | none =>
      cases hname : (g.node id).declared? with
      | some name =>
          rw [inlineWith_run_named htext hname]
          exact .named htext hname (.nil _)
      | none =>
          rw [inlineWith_run_unnamed htext hname]
          exact .unnamed htext hname hraw (.nil _)

/-- **With enough fuel calls come to an end**: fuel runs out only if more types are being written
than there are. -/
lemma writes_mapM (calls : List Call) (ink : Ink) (hfuel : Ink.Fuelled g fuel ink.active) :
    Writes s g ink calls ((calls.mapM (Call.writeWith s g fuel)).run ink).1
      ((calls.mapM (Call.writeWith s g fuel)).run ink).2 := by
  induction fuel generalizing calls ink with
  | zero => exact absurd rfl hfuel.ne_zero
  | succ fuel ih =>
      have hraw (id : TypeId) (ink : Ink) (hfuel : Ink.Fuelled g (fuel + 1) ink.active) :
          Writes s g ink [.raw id] [((rawWith s g (fuel + 1) id).run ink).1]
            ((rawWith s g (fuel + 1) id).run ink).2 := by
        refine writes_rawWith id fun hid => ?_
        rw [writeSlots]
        rcases List.eq_nil_or_concat (g.shape id).slots with hnil | ⟨_, c, hslots⟩
        · rw [hnil]
          exact .nil _
        · have hlt : id < g.size := TypeGraph.lt_size_of_mem_slots (c := c) (by simp [hslots])
          have hmap : (g.shape id).slots.mapM (inlineWith g (rawWith s g fuel))
              = ((g.shape id).slots.map Call.inline).mapM (Call.writeWith s g fuel) := by
            rw [List.mapM_map]
            rfl
          rw [hmap]
          exact ih _ _ (hfuel.opened hid hlt)
      induction calls generalizing ink with
      | nil => exact .nil ink
      | cons call calls ihcalls =>
          have hcall : Writes s g ink [call] [((call.writeWith s g (fuel + 1)).run ink).1]
              ((call.writeWith s g (fuel + 1)).run ink).2 := by
            cases call with
            | inline id => exact writes_inlineWith id (hraw id ink hfuel)
            | raw id => exact hraw id ink hfuel
          rw [List.mapM_cons]
          exact hcall.append (ihcalls _ (hcall.active_eq ▸ hfuel))

end Fuel

lemma write_eq_writeWith : Call.write s g = Call.writeWith s g (g.size + 1) := by
  funext call
  cases call <;> rfl

/-- When nothing is being written, calls come to the texts and the ink that writing gives. -/
lemma writes_run (calls : List Call) (hactive : ink.active = []) :
    Writes s g ink calls ((calls.mapM (Call.write s g)).run ink).1
      ((calls.mapM (Call.write s g)).run ink).2 := by
  rw [write_eq_writeWith]
  exact writes_mapM calls ink (hactive ▸ Ink.fuelled_nil)

lemma writes_raw (id : TypeId) (hactive : ink.active = []) :
    Writes s g ink [.raw id] [((Render.raw s g id).run ink).1] ((Render.raw s g id).run ink).2 := by
  have hwrites := writes_run (s := s) (g := g) [.raw id] hactive
  rwa [List.mapM_cons, List.mapM_nil] at hwrites

/-- The texts of several types where they are used, one after the other. -/
lemma writes_inline (ids : List TypeId) (hactive : ink.active = []) :
    Writes s g ink (ids.map .inline) ((ids.mapM (Render.inline s g)).run ink).1
      ((ids.mapM (Render.inline s g)).run ink).2 := by
  have hwrites := writes_run (s := s) (g := g) (ids.map .inline) hactive
  rwa [List.mapM_map] at hwrites

/-- **Calls are answered as they come to an end**: they come to the texts and the ink that writing
gives, and to nothing else. -/
theorem writes_iff (hactive : ink.active = []) :
    Writes s g ink calls texts ink' ↔ (calls.mapM (Call.write s g)).run ink = (texts, ink') := by
  have hwrites := writes_run (s := s) (g := g) calls hactive
  constructor
  · intro h
    obtain ⟨htexts, hink⟩ := hwrites.unique h
    exact Prod.ext htexts hink
  · intro h
    rwa [h] at hwrites

/-! ### Calls on the way -/

end Render

/-! ### Cycles with names -/

namespace TypeGraph

/-- Every cycle of types goes through a type with a name. -/
def CyclesNamed (g : TypeGraph) : Prop :=
  ∀ a rest, List.IsChain g.Child (a :: rest ++ [a]) → ∃ x ∈ a :: rest, (g.node x).isNamed = true

variable {s : Settings} {g : TypeGraph} {a b : TypeId}

/-- If types without names are only used by later ones, every cycle goes through a name. -/
lemma cyclesNamed_of_lt
    (h : ∀ a < g.size, ∀ b ∈ g.children a, (g.node b).isNamed = true ∨ b < a) :
    g.CyclesNamed := by
  intro a rest hchain
  by_contra hnone
  have hunnamed : ∀ x ∈ a :: rest ++ [a], ¬ (g.node x).isNamed = true := by
    intro x hx hname
    refine hnone ⟨x, ?_, hname⟩
    simpa [or_comm] using hx
  -- Along the cycle numbers would become smaller and smaller.
  have hdown : List.IsChain (· > ·) (a :: rest ++ [a]) := by
    refine List.IsChain.imp_of_mem_imp ?_ hchain
    intro x y _ hy hxy
    exact (h x hxy.lt_size y hxy).resolve_left (hunnamed y hy)
  have hpairs := List.isChain_iff_pairwise.mp hdown
  exact Nat.lt_irrefl a ((List.pairwise_cons.mp hpairs).1 a (by simp))

/-- What is spelled out in a type is reached from it along types without names. -/
lemma exists_isChain_of_shows (h : TransGen g.Shows a b) :
    ∃ rest, List.IsChain g.Child (a :: rest ++ [b]) ∧
      ∀ x ∈ rest ++ [b], (g.node x).declared? = none := by
  have hchild {x y : TypeId} (hxy : g.Shows x y) : g.Child x y :=
    Shape.slots_subset_children _ hxy.1
  induction h using TransGen.head_induction_on with
  | single hab => exact ⟨[], by simpa using hchild hab, by simpa using hab.2⟩
  | head hac _ ih =>
      obtain ⟨rest, hchain, hnone⟩ := ih
      refine ⟨_ :: rest, List.isChain_cons_cons.mpr ⟨hchild hac, hchain⟩, ?_⟩
      exact List.forall_mem_cons.mpr ⟨hac.2, hnone⟩

/-- If every cycle goes through a name, no type is spelled out in its own text. -/
lemma CyclesNamed.not_loops (h : g.CyclesNamed) (id : TypeId) : ¬ g.Loops id := by
  intro hloop
  obtain ⟨rest, hchain, hnone⟩ := exists_isChain_of_shows hloop
  obtain ⟨x, hx, hname⟩ := h id rest hchain
  have hunnamed := hnone x (by simpa [or_comm] using hx)
  simp [TypeNode.isNamed, hunnamed] at hname

lemma CyclesNamed.steady (h : g.CyclesNamed) (id : TypeId) : g.Steady id :=
  fun x _ hloop => absurd hloop (h.not_loops x)

end TypeGraph

namespace Render

variable {s : Settings} {g : TypeGraph} {ink ink' : Ink} {calls : List Call} {texts : List String}

/-! ### Calls that do not depend on one another -/

/-- The call spells out the type. -/
def Call.Spells (g : TypeGraph) (x : TypeId) : Call → Prop
  | .inline id => id = x ∧ (g.node id).declared? = none
  | .raw id => id = x

/-- **Nothing is cut off without loops**, if the types being written all lead to those that the
calls spell out. -/
lemma Writes.cut_eq (h : Writes s g ink calls texts ink') (hloops : ∀ x, ¬ g.Loops x)
    (htrail : ∀ a ∈ ink.active, ∀ call ∈ calls, ∀ x, call.Spells g x → TransGen g.Shows a x) :
    ink'.cut = ink.cut := by
  induction h with
  | nil => rfl
  | kept _ _ ih => exact ih fun a ha => (List.forall_mem_cons.mp (htrail a ha)).2
  | named _ _ _ ih => exact ih fun a ha => (List.forall_mem_cons.mp (htrail a ha)).2
  | unnamed _ hname hraw _ ihraw ihrest =>
      refine (ihrest fun a ha => ?_).trans (ihraw fun a ha => ?_)
      · exact (List.forall_mem_cons.mp (htrail a (hraw.active_eq ▸ ha))).2
      · refine List.forall_mem_singleton.mpr fun x hx => ?_
        exact (List.forall_mem_cons.mp (htrail a ha)).1 x ⟨hx, hname⟩
  | @cut ink _ id _ _ hid _ _ =>
      exact absurd ((List.forall_mem_cons.mp (htrail id hid)).1 id rfl) (hloops id)
  | @spelled ink ink₁ _ id _ _ _ _ hslots _ ihslots ihrest =>
      refine (ihrest fun a ha => ?_).trans (ihslots fun a ha call hcall x hx => ?_)
      · have hactive : (ink₁.closed id).active = ink.active := by
          rw [Ink.active_closed, hslots.active_eq]
          exact List.erase_cons_head ..
        exact (List.forall_mem_cons.mp (htrail a (hactive ▸ ha))).2
      · obtain ⟨c, hc, rfl⟩ := List.mem_map.mp hcall
        obtain ⟨rfl, hname⟩ := hx
        have hstep : g.Shows id c := ⟨hc, hname⟩
        rcases List.mem_cons.mp ha with rfl | ha
        · exact .single hstep
        · exact ((List.forall_mem_cons.mp (htrail a ha)).1 id rfl).tail hstep

/-- Without loops, a call is answered as on fresh ink. -/
lemma runs_write_fresh (hloops : g.CyclesNamed) (call : Call) {ink : Ink}
    (hink : (Ink.fresh s g []).inv ink) :
    (Ink.fresh s g []).Runs ink (call.write s g) (call.write s g)
      fun text _ => text = call.alone s g := by
  cases call with
  | inline id =>
      have hfixed : g.Fixed id := .inr (hloops.steady id)
      refine (TypeGraph.runs_inline_fresh id hink).imp fun text _ htext => ?_
      exact (htext hfixed).trans (TypeGraph.textAlone_eq_shown hfixed).symm
  | raw id =>
      refine (TypeGraph.runs_raw_fresh id hink).imp fun text _ htext => ?_
      exact (htext (hloops.steady id)).trans (TypeGraph.rawAlone_eq_settled (hloops.steady id)).symm

/-- **Calls on one ink do not depend on one another** where every cycle of types goes through a
name: whatever calls are made, and in whatever order, they come to an end, in one way only, each
with the text that it has on fresh ink, and no type is cut off. -/
theorem calls_alone (s : Settings) (g : TypeGraph) (h : g.CyclesNamed) (calls : List Call) :
    (∀ texts ink, Writes s g {} calls texts ink ↔
      (calls.mapM (Call.write s g)).run {} = (texts, ink)) ∧
    ∃ ink, Writes s g {} calls (calls.map (Call.alone s g)) ink ∧ ink.cut = [] := by
  have hiff (texts : List String) (ink : Ink) : Writes s g {} calls texts ink ↔
      (calls.mapM (Call.write s g)).run {} = (texts, ink) := writes_iff rfl
  refine ⟨hiff, ((calls.mapM (Call.write s g)).run {}).2, ?_⟩
  have hrun : (Ink.fresh s g []).Runs {} (calls.mapM (Call.write s g)) (calls.mapM (Call.write s g))
      fun texts _ => texts = calls.map (Call.alone s g) :=
    TypeGraph.runs_mapM_fresh (fun call _ ink hink => runs_write_fresh h call hink)
      TypeGraph.fresh_empty
  have hwrites := (hiff _ _).mpr (Prod.ext hrun.result rfl)
  refine ⟨hwrites, hwrites.cut_eq h.not_loops ?_⟩
  exact fun a ha => absurd ha List.not_mem_nil

/-- A tree with a list of subtrees, each of which may be missing: the record has a name, the list
and the union in it have none. -/
def treeGraph : TypeGraph :=
  ⟨#[{ shape := .null }, { shape := .union [3, 0] }, { shape := .array 1 },
    { shape := .record { fields := [{ key := "subtrees", type := 2 }] }, name := some "Tree" }]⟩

/-- The list reads the same before and after the tree has been spelled out, and the tree is spelled
out the same after it has been used by its name. -/
theorem calls_alone_tree :
    treeGraph.CyclesNamed ∧
    ∃ ink, Writes {} treeGraph {} [.inline 2, .raw 3, .inline 2, .inline 3, .raw 3]
      ["(Tree | null)[]", "\x7b\nsubtrees?: (Tree | null)[]\n\x7d", "(Tree | null)[]", "Tree",
        "\x7b\nsubtrees?: (Tree | null)[]\n\x7d"] ink ∧ ink.cut = [] := by
  have hnamed : treeGraph.CyclesNamed := TypeGraph.cyclesNamed_of_lt (by decide)
  have htexts : [Call.inline 2, .raw 3, .inline 2, .inline 3, .raw 3].map (Call.alone {} treeGraph)
      = ["(Tree | null)[]", "\x7b\nsubtrees?: (Tree | null)[]\n\x7d", "(Tree | null)[]", "Tree",
        "\x7b\nsubtrees?: (Tree | null)[]\n\x7d"] := by decide +kernel
  obtain ⟨-, ink, hwrites, hcut⟩ :=
    calls_alone {} treeGraph hnamed [.inline 2, .raw 3, .inline 2, .inline 3, .raw 3]
  rw [htexts] at hwrites
  exact ⟨hnamed, ink, hwrites, hcut⟩

end Render

end SchemaDecl
