/-
What simplification leaves of a union or intersection.

Of the members that read the same one stays, and members without a name give way to one with a name
that says the same. Whether members read the same is seen from texts that one and the same ink
wrote, and so it can go wrong where types are cut off.

* `TypeGraph.StandsFor`: one type stands for another, by what each reads when it is written by
  itself.
* `TypeGraph.exists_mem_kept`: for every member there is one that stays and has the same text, or
  the same content and a name.
* `TypeGraph.simplifyAt_loses_only_on_loops`: no member is lost where all loops below the members go
  through sets with a single member, and one can be lost on every other loop.
-/
import SchemaDecl.Proofs.Declaration.Loops
import SchemaDecl.Proofs.Types.Pool
import SchemaDecl.Types.Simplify

namespace SchemaDecl.TypeGraph

open Relation

/-! ### Types written by themselves -/

section Alone

variable (s : Settings) (g : TypeGraph)

/-- The text of a type where it is used, with nothing written before. -/
def textAlone (id : TypeId) : String := ((Render.inline s g id).run {}).1

/-- The text of a type without its name, with nothing written before. -/
def rawAlone (id : TypeId) : String := ((Render.raw s g id).run {}).1

/-- The type `k` stands for `m`: they have the same text, or `m` has no name and says the same as
`k`, which has one. -/
def StandsFor (k m : TypeId) : Prop :=
  g.textAlone s k = g.textAlone s m ∨
    (g.node m).isNamed = false ∧ (g.node k).isNamed = true ∧ g.rawAlone s k = g.rawAlone s m

instance (k m : TypeId) : Decidable (g.StandsFor s k m) := inferInstanceAs (Decidable (_ ∨ _))

/-- What a member of a set says, written by itself: an enumeration is used and not spelled out. -/
def saidAlone (id : TypeId) : String :=
  if (g.shape id).isEnumeration then g.textAlone s id else g.rawAlone s id

end Alone

variable {s : Settings} {g : TypeGraph}

lemma isNamed_eq_false_iff {t : TypeNode} : t.isNamed = false ↔ t.declared? = none := by
  simp [TypeNode.isNamed]

lemma fresh_empty : (Ink.fresh s g []).inv {} := ⟨fun _ _ h => by simp [Ink.text?] at h, rfl⟩

lemma runs_raw_fresh (id : TypeId) {ink : Ink} (hink : (Ink.fresh s g []).inv ink) :
    (Ink.fresh s g []).Runs ink (Render.raw s g id) (Render.raw s g id)
      fun text _ => g.Steady id → text = g.settled s id :=
  Render.runs_rawWith_fresh Ink.fuelled_nil (by simp) hink

lemma runs_inline_fresh (id : TypeId) {ink : Ink} (hink : (Ink.fresh s g []).inv ink) :
    (Ink.fresh s g []).Runs ink (Render.inline s g id) (Render.inline s g id)
      fun text _ => g.Fixed id → text = g.shown s id :=
  Render.runs_inlineWith_fresh hink fun _ => runs_raw_fresh id hink

lemma textAlone_eq_shown {id : TypeId} (h : g.Fixed id) : g.textAlone s id = g.shown s id :=
  (runs_inline_fresh id fresh_empty).result h

lemma rawAlone_eq_settled {id : TypeId} (h : g.Steady id) : g.rawAlone s id = g.settled s id :=
  (runs_raw_fresh id fresh_empty).result h

/-- Without a name, a type reads as what it says. -/
lemma textAlone_of_unnamed {id : TypeId} (h : (g.node id).declared? = none) :
    g.textAlone s id = g.rawAlone s id := by
  rw [textAlone, Render.inline, Render.inlineWith_run_unnamed rfl h]
  rfl

/-- What one ink says in answer to a list of calls is what each says by itself, if each does so with
every ink. -/
lemma runs_mapM_fresh {α : Type} {write : α → Render String} {alone : α → String} {calls : List α}
    (h : ∀ call ∈ calls, ∀ ink, (Ink.fresh s g []).inv ink →
      (Ink.fresh s g []).Runs ink (write call) (write call) fun text _ => text = alone call)
    {ink : Ink} (hink : (Ink.fresh s g []).inv ink) :
    (Ink.fresh s g []).Runs ink (calls.mapM write) (calls.mapM write)
      fun texts _ => texts = calls.map alone := by
  have hall := Course.Runs.mapM (Q := fun call text _ => alone call = text)
    (fun _ _ _ _ _ _ h => h) calls hink
    fun call hcall ink' hink' _ => (h call hcall ink' hink').imp fun _ _ => Eq.symm
  refine hall.imp fun texts _ hall => ?_
  have heq := List.forall₂_map_left_iff.mpr hall
  rw [List.forall₂_eq_eq_eq] at heq
  exact heq.symm

/-- If all members are steady, the texts that one ink writes for them are those that each has by
itself. -/
lemma memberTexts_eq {members : List TypeId} (h : ∀ m ∈ members, g.Steady m) :
    ((memberTexts s g members).run {}).1
      = (members.map (g.saidAlone s), members.map (g.textAlone s)) := by
  have hused (m : TypeId) (hm : m ∈ members) (ink : Ink) (hink : (Ink.fresh s g []).inv ink) :
      (Ink.fresh s g []).Runs ink (Render.inline s g m) (Render.inline s g m)
        fun text _ => text = g.textAlone s m :=
    (runs_inline_fresh m hink).imp fun _ _ htext =>
      (htext (.inr (h m hm))).trans (textAlone_eq_shown (.inr (h m hm))).symm
  have hsaying (m : TypeId) (hm : m ∈ members) (ink : Ink) (hink : (Ink.fresh s g []).inv ink) :
      (Ink.fresh s g []).Runs ink
        (if (g.shape m).isEnumeration then Render.inline s g m else Render.raw s g m)
        (if (g.shape m).isEnumeration then Render.inline s g m else Render.raw s g m)
        fun text _ => text = g.saidAlone s m := by
    rw [saidAlone]
    split
    · exact hused m hm ink hink
    · exact (runs_raw_fresh m hink).imp fun _ _ htext =>
        (htext (h m hm)).trans (rawAlone_eq_settled (h m hm)).symm
  have hrun : (Ink.fresh s g []).Runs {} (memberTexts s g members) (memberTexts s g members)
      fun texts _ => texts = (members.map (g.saidAlone s), members.map (g.textAlone s)) :=
    (runs_mapM_fresh hsaying fresh_empty).bind fun saying _ hink₁ _ heq₁ =>
      (runs_mapM_fresh hused hink₁).bind fun used _ hink₂ _ heq₂ =>
        .pure hink₂ (Prod.ext heq₁ heq₂)
  exact hrun.result

/-! ### The members that stay -/

/-- Of members with the same text one stays, unless the text was seen before. -/
lemma exists_mem_firsts {seen : List String} {entries : List (TypeId × String)} {m : TypeId}
    {text : String} (h : (m, text) ∈ entries) :
    text ∈ seen ∨ ∃ k ∈ firsts seen entries, (k, text) ∈ entries := by
  induction entries generalizing seen with
  | nil => cases h
  | cons e rest ih =>
      obtain ⟨m', text'⟩ := e
      rw [firsts]
      by_cases hseen : text' ∈ seen
      · rw [if_pos (List.contains_iff_mem.mpr hseen)]
        rcases List.mem_cons.mp h with heq | hrest
        · obtain ⟨-, rfl⟩ := Prod.mk.inj heq
          exact Or.inl hseen
        · exact (ih hrest).imp_right fun ⟨k, hk, hmem⟩ => ⟨k, hk, List.mem_cons_of_mem _ hmem⟩
      · rw [if_neg (fun h => hseen (List.contains_iff_mem.mp h))]
        by_cases htext : text = text'
        · subst htext
          exact Or.inr ⟨m', List.mem_cons_self, List.mem_cons_self⟩
        · have hrest : (m, text) ∈ rest := by
            refine (List.mem_cons.mp h).resolve_left fun heq => htext ?_
            exact (Prod.mk.inj heq).2
          rcases ih hrest with hmem | ⟨k, hk, hmem⟩
          · exact Or.inl ((List.mem_cons.mp hmem).resolve_left htext)
          · exact Or.inr ⟨k, List.mem_cons_of_mem _ hk, List.mem_cons_of_mem _ hmem⟩

lemma firsts_sublist (seen : List String) (entries : List (TypeId × String)) :
    (firsts seen entries).Sublist (entries.map Prod.fst) := by
  fun_induction firsts seen entries with
  | case1 => exact .slnil
  | case2 seen m text rest _ ih => exact ih.cons m
  | case3 seen m text rest _ ih => exact ih.cons_cons m

/-- Texts that are alike are all the same. -/
lemma eq_of_alike {texts : List String} (h : alike texts = true) :
    ∀ a ∈ texts, ∀ b ∈ texts, a = b := by
  fun_induction alike texts with
  | case1 a b rest ih =>
      rw [Bool.and_eq_true, beq_iff_eq] at h
      obtain ⟨rfl, hrest⟩ := h
      have hall := ih hrest
      intro x hx y hy
      exact hall x (List.mem_cons.mp hx |>.elim (· ▸ List.mem_cons_self) id)
        y (List.mem_cons.mp hy |>.elim (· ▸ List.mem_cons_self) id)
  | case2 texts hshort =>
      match texts with
      | [] => simp
      | [a] => simp
      | a :: b :: rest => exact absurd rfl (hshort a b rest)

lemma kept_sublist (members : List TypeId) (texts : List String × List String)
    (hlen : texts.2.length = members.length) : (g.kept members texts).Sublist members := by
  have hfst : (members.zip texts.2).map Prod.fst = members := List.map_fst_zip hlen.ge
  rw [kept]
  split
  · refine (firsts_sublist _ _).trans ?_
    conv_rhs => rw [← hfst]
    exact List.filter_sublist.map Prod.fst
  · conv_rhs => rw [← hfst]
    exact firsts_sublist _ _

/-- **Every member has one that stays for it**: one with the same text, or, if it has no name, one
with a name that says the same. -/
lemma exists_mem_kept {members : List TypeId} (said used : TypeId → String) {m : TypeId}
    (hm : m ∈ members) :
    ∃ k ∈ g.kept members (members.map said, members.map used), used k = used m ∨
      (g.node m).isNamed = false ∧ (g.node k).isNamed = true ∧ said k = said m := by
  have hfirsts {l : List TypeId} {a : TypeId} (ha : a ∈ l) :
      ∃ k ∈ firsts [] (l.map fun m => (m, used m)), k ∈ l ∧ used k = used a := by
    have hmem : (a, used a) ∈ l.map fun m => (m, used m) := List.mem_map.mpr ⟨a, ha, rfl⟩
    obtain ⟨k, hk, hmem⟩ := (exists_mem_firsts hmem).resolve_left List.not_mem_nil
    obtain ⟨k', hk', heq⟩ := List.mem_map.mp hmem
    obtain ⟨rfl, hused⟩ := Prod.mk.inj heq
    exact ⟨k', hk, hk', hused⟩
  have hnamed : (members.map fun m => (m, used m)).filter (fun e => (g.node e.1).isNamed)
      = (members.filter fun m => (g.node m).isNamed).map fun m => (m, used m) := by
    rw [List.filter_map]
    rfl
  rw [kept, ← List.map_prod_left_eq_zip]
  simp only [hnamed]
  split
  case isFalse =>
    obtain ⟨k, hk, -, hused⟩ := hfirsts hm
    exact ⟨k, hk, Or.inl hused⟩
  case isTrue hcollapse =>
    rw [Bool.and_eq_true] at hcollapse
    by_cases hname : (g.node m).isNamed = true
    · have hmem : m ∈ members.filter fun m => (g.node m).isNamed := List.mem_filter.mpr ⟨hm, hname⟩
      obtain ⟨k, hk, -, hused⟩ := hfirsts hmem
      exact ⟨k, hk, Or.inl hused⟩
    · -- All members say the same, and the first with a name stays.
      obtain ⟨a, ha⟩ := List.exists_mem_of_ne_nil (members.filter fun m => (g.node m).isNamed)
        (fun hnil => by simp [hnil] at hcollapse)
      obtain ⟨k, hk, hmem, -⟩ := hfirsts ha
      obtain ⟨hkm, hkname⟩ := List.mem_filter.mp hmem
      exact ⟨k, hk, Or.inr ⟨by simpa using hname, hkname,
        eq_of_alike hcollapse.1 _ (List.mem_map_of_mem hkm) _ (List.mem_map_of_mem hm)⟩⟩

/-! ### Simplifying one set -/

lemma children_withMembers {shape : Shape} (h : shape.isSet = true) (members : List TypeId) :
    (shape.withMembers members).children = members := by
  cases shape <;> first | rfl | cases h

lemma length_memberTexts (members : List TypeId) (ink : Ink) :
    ((memberTexts s g members).run ink).1.2.length = members.length :=
  Render.length_mapM_run (Render.inline s g) members _

/-- Types keep their names when sets are made simpler. -/
lemma declared?_simplifyAt (s : Settings) (g : TypeGraph) (id x : TypeId) :
    ((simplifyAt s g id).1.node x).declared? = (g.node x).declared? := by
  rw [simplifyAt]
  split
  · exact declared?_setShape _
  · split
    · exact declared?_setShape _
    · split
      dsimp only
      split
      · rfl
      · exact declared?_setShape _

lemma declared?_simplify (s : Settings) (g : TypeGraph) (root x : TypeId) :
    ((g.simplify s root).node x).declared? = (g.node x).declared? := by
  rw [simplify, simplifyNoting]
  generalize g.sets root = ids
  generalize ([] : List TypeId) = cut
  induction ids generalizing g cut with
  | nil => rfl
  | cons id ids ih => exact (ih (simplifyAt s g id).1 _).trans (declared?_simplifyAt s g id x)

/-- If no member takes the whole, the set has the members that stay. -/
lemma children_simplifyAt {id : TypeId} (hset : (g.shape id).isSet = true)
    (htop : ∀ m ∈ g.children id, (g.shape m).isTop = false) :
    (simplifyAt s g id).1.children id
      = g.kept (g.children id) ((memberTexts s g (g.children id)).run {}).1 := by
  have hany : ((g.children id).any fun m => (g.shape m).isAny) = false := by
    refine List.any_eq_false.mpr fun m hm h => ?_
    simpa [Shape.isTop, h] using htop m hm
  have hunknown : ((g.children id).any fun m => (g.shape m).isUnknown) = false := by
    refine List.any_eq_false.mpr fun m hm h => ?_
    simpa [Shape.isTop, h] using htop m hm
  have hsub : (g.kept (g.children id) ((memberTexts s g (g.children id)).run {}).1).Sublist
      (g.children id) := kept_sublist _ _ (length_memberTexts _ _)
  have hrun : (simplifyAt s g id).1 = if (g.kept (g.children id)
      ((memberTexts s g (g.children id)).run {}).1).length == (g.children id).length then g
      else g.setShape id ((g.shape id).withMembers
        (g.kept (g.children id) ((memberTexts s g (g.children id)).run {}).1)) := by
    rw [simplifyAt]
    simp only [hany, hunknown, Bool.false_eq_true, if_false]
    rfl
  rw [hrun]
  split
  case isTrue hlen => exact (hsub.eq_of_length (beq_iff_eq.mp hlen)).symm
  case isFalse =>
    have hlt : id < g.size := lt_size_of_shape_ne fun h => by simp [h, Shape.isSet] at hset
    rw [TypeGraph.children, TypeGraph.shape, setShape, node_set_self hlt]
    exact children_withMembers hset _

/-- A set whose members are all steady loses none of them. -/
lemma exists_standsFor {id : TypeId} (hset : (g.shape id).isSet = true)
    (htop : ∀ m ∈ g.children id, (g.shape m).isTop = false)
    (hsteady : ∀ m ∈ g.children id, g.Steady m) {m : TypeId} (hm : m ∈ g.children id) :
    ∃ k ∈ (simplifyAt s g id).1.children id, g.StandsFor s k m := by
  rw [children_simplifyAt hset htop, memberTexts_eq hsteady]
  obtain ⟨k, hk, hused | ⟨hname, hkname, hsaid⟩⟩ :=
    exists_mem_kept (g.saidAlone s) (g.textAlone s) hm
  · exact ⟨k, hk, Or.inl hused⟩
  · have hraw : g.saidAlone s m = g.rawAlone s m := by
      rw [saidAlone, textAlone_of_unnamed (isNamed_eq_false_iff.mp hname), ite_self]
    refine ⟨k, hk, ?_⟩
    by_cases henum : (g.shape k).isEnumeration = true
    · -- The name of an enumeration is all it says.
      rw [saidAlone, if_pos henum, hraw,
        ← textAlone_of_unnamed (isNamed_eq_false_iff.mp hname)] at hsaid
      exact Or.inl hsaid
    · rw [saidAlone, if_neg henum, hraw] at hsaid
      exact Or.inr ⟨hname, hkname, hsaid⟩

/-! ### Loops in sets -/

section Lost

variable {id x m : TypeId}

/-- A type with slots that is not a set with a single member does not read like a type that nothing
describes. -/
lemma rawAlone_ne_top (hslots : (g.shape x).slots ≠ []) (hwrap : (g.shape x).isWrapper = false) :
    g.rawAlone s x ≠ s.top := by
  have hlen : (Render.writeSlots (s := s) (g := g) g.size x {}).1.length
      = (g.shape x).slots.length := Render.length_mapM_run _ _ _
  rw [rawAlone, Render.raw, Render.rawWith_run, if_neg List.not_mem_nil]
  exact (Shape.bracketed_layout s g hslots hwrap hlen).ne_top s

lemma Loops.slots_ne_nil (h : g.Loops x) : (g.shape x).slots ≠ [] := by
  obtain ⟨_, hstep, -⟩ := TransGen.head'_iff.mp h
  exact List.ne_nil_of_mem hstep.1

/-- A type without slots is steady, and what it says is all there is to it. -/
lemma settled_of_slots_eq_nil (h : (g.shape m).slots = []) :
    g.Steady m ∧ g.settled s m = (g.shape m).layout s g [] := by
  have hloop : ¬ g.Loops m := fun hloop => hloop.slots_ne_nil h
  refine ⟨fun y hmy hy => ?_, by rw [settled_of_not_loops hloop, h, List.map_nil]⟩
  rcases hmy.cases_head with rfl | ⟨c, hstep, -⟩
  · exact absurd hy hloop
  · exact absurd h (List.ne_nil_of_mem hstep.1)

/-- With a type on a loop written before, both it and a type that reads like one that nothing
describes have the same text. -/
lemma memberTexts_of_loops (hx : g.Loops x) (henum : (g.shape x).isEnumeration = false)
    (hm : g.shape m = .custom s.top) (hname : (g.node m).declared? = none) :
    ((memberTexts s g [x, m]).run {}).1.2 = [s.top, s.top] := by
  have hslots : (g.shape m).slots = [] := by rw [hm]; rfl
  obtain ⟨hsteady, hsettled⟩ := settled_of_slots_eq_nil (s := s) hslots
  set ink₁ := ((Render.raw s g x).run {}).2 with hink₁
  set ink₂ := ((Render.raw s g m).run ink₁).2 with hink₂
  have hfresh₁ : (Ink.fresh s g []).inv ink₁ := (runs_raw_fresh x fresh_empty).inv
  have hfresh₂ : (Ink.fresh s g []).inv ink₂ := (runs_raw_fresh m hfresh₁).inv
  have htext : ink₂.text? x = some s.top := by
    rw [hink₂, Render.raw, Render.rawWith_run, if_neg (hfresh₁.2 ▸ List.not_mem_nil),
      Render.writeSlots, hslots]
    exact Render.text?_raw_of_loops hx
  have hx₂ : (Render.inline s g x).run ink₂ = (s.top, ink₂) := Render.inlineWith_run_kept htext
  have hm₂ : ((Render.inline s g m).run ink₂).1 = s.top := by
    rw [(runs_inline_fresh m hfresh₂).result (.inr hsteady), shown_of_unnamed hname, hsettled, hm]
    rfl
  have hrun : ((memberTexts s g [x, m]).run {}).1.2 = [((Render.inline s g x).run ink₂).1,
      ((Render.inline s g m).run ((Render.inline s g x).run ink₂).2).1] := by
    simp only [memberTexts, List.mapM_cons, List.mapM_nil, henum, hm]
    rfl
  rw [hrun, hx₂, hm₂]

/-- A type on a loop drives out a member that nothing else in the set stands for. -/
lemma not_standsFor_of_loops (hid : g.shape id = .union [x, m]) (hx : g.Loops x)
    (hwrap : (g.shape x).isWrapper = false) (henum : (g.shape x).isEnumeration = false)
    (hm : g.shape m = .custom s.top) (hname : (g.node m).declared? = none) :
    (simplifyAt s g id).1.children id = [x] ∧ ¬ g.StandsFor s x m := by
  have hchildren : g.children id = [x, m] := by rw [TypeGraph.children, hid]; rfl
  have hxname := hx.declared?_eq_none
  have htexts := memberTexts_of_loops hx henum hm hname
  constructor
  · have htop : ∀ c ∈ g.children id, (g.shape c).isTop = false := by
      rw [hchildren]
      refine List.forall_mem_cons.mpr ⟨?_, List.forall_mem_singleton.mpr (by rw [hm]; rfl)⟩
      have hslots := hx.slots_ne_nil
      cases hshape : g.shape x <;> simp_all [Shape.slots, Shape.isTop, Shape.isAny, Shape.isUnknown]
    rw [children_simplifyAt (by rw [hid]; rfl) htop, hchildren, kept, htexts]
    simp [TypeNode.isNamed, hxname, hname, firsts]
  · have hraw : g.rawAlone s x ≠ s.top := rawAlone_ne_top hx.slots_ne_nil hwrap
    have hslots : (g.shape m).slots = [] := by rw [hm]; rfl
    have hsaid : g.textAlone s m = s.top := by
      obtain ⟨hsteady, hsettled⟩ := settled_of_slots_eq_nil (s := s) hslots
      rw [textAlone_of_unnamed hname, rawAlone_eq_settled hsteady, hsettled, hm]
      rfl
    rintro (htext | ⟨-, hnamed, -⟩)
    · rw [textAlone_of_unnamed hxname, hsaid] at htext
      exact hraw htext
    · simp [TypeNode.isNamed, hxname] at hnamed

end Lost

/-- **No member is lost where all loops below the members go through sets with a single member**:
for every member there is one that stays and stands for it. On any other loop, save those of
enumerations, a member can be lost: in the union of a type on the loop with one that reads like a
type that nothing describes, only the type on the loop stays, and it does not stand for the
other. -/
theorem simplifyAt_loses_only_on_loops (s : Settings) (g : TypeGraph) (id : TypeId)
    (hset : (g.shape id).isSet = true)
    (htop : ∀ m ∈ g.children id, (g.shape m).isTop = false) :
    (simplifyAt s g id).1.children id ⊆ g.children id ∧
    ((∀ m ∈ g.children id, g.Steady m) →
      ∀ m ∈ g.children id, ∃ k ∈ (simplifyAt s g id).1.children id, g.StandsFor s k m) ∧
    ∀ x m, g.shape id = .union [x, m] → g.Loops x → (g.shape x).isWrapper = false →
      (g.shape x).isEnumeration = false → g.shape m = .custom s.top →
      (g.node m).isNamed = false →
      (simplifyAt s g id).1.children id = [x] ∧ ¬ g.StandsFor s x m := by
  refine ⟨?_, fun hsteady m hm => exists_standsFor hset htop hsteady hm, ?_⟩
  · rw [children_simplifyAt hset htop]
    exact (kept_sublist _ _ (length_memberTexts _ _)).subset
  · intro x m hid hx hwrap henum hm hname
    exact not_standsFor_of_loops hid hx hwrap henum hm (isNamed_eq_false_iff.mp hname)

/-- A union of two lists, one with a name, of a union with itself as its only member; and a union of
a list of itself and a text. -/
def wrappedLoop : TypeGraph :=
  ⟨#[{ shape := .union [1, 2] }, { shape := .array 3 }, { shape := .array 3, name := some "Lists" },
    { shape := .union [3] }, { shape := .union [5, 6] }, { shape := .array 5 },
    { shape := .custom "unknown" }]⟩

lemma wrappedLoop_steady : ∀ m ∈ wrappedLoop.children 0, wrappedLoop.Steady m := by
  -- The lists lead to the union of itself only, and that leads nowhere else.
  have hstay {x : TypeId} (h : ReflTransGen wrappedLoop.Shows 3 x) : x = 3 := by
    induction h with
    | refl => rfl
    | tail _ hstep ih =>
        subst ih
        exact List.mem_singleton.mp hstep.1
  intro m hm x hmx hloop
  have hslots : (wrappedLoop.shape m).slots = [3] :=
    (by decide : ∀ m ∈ wrappedLoop.children 0, (wrappedLoop.shape m).slots = [3]) m hm
  have hx : TransGen wrappedLoop.Shows m x := TransGen.trans_right hmx hloop
  obtain ⟨c, hstep, hcx⟩ := TransGen.head'_iff.mp hx
  obtain rfl : c = 3 := List.mem_singleton.mp (hslots ▸ hstep.1)
  rw [hstay hcx]
  rfl

/-- The list without a name goes, and the one with a name stands for it; beside the list of itself
the text is lost. -/
theorem simplifyAt_wrappedLoop :
    ((simplifyAt {} wrappedLoop 0).1.children 0 ⊆ [1, 2] ∧
      ∀ m ∈ [1, 2], ∃ k ∈ (simplifyAt {} wrappedLoop 0).1.children 0,
        wrappedLoop.StandsFor {} k m) ∧
    (simplifyAt {} wrappedLoop 4).1.children 4 = [5] ∧ ¬ wrappedLoop.StandsFor {} 5 6 :=
  have hsteady := simplifyAt_loses_only_on_loops {} wrappedLoop 0 rfl (by decide)
  have hloop := simplifyAt_loses_only_on_loops {} wrappedLoop 4 rfl (by decide)
  ⟨⟨hsteady.1, hsteady.2.1 wrappedLoop_steady⟩,
    hloop.2.2 5 6 rfl (.single ⟨List.mem_singleton_self 5, rfl⟩) rfl rfl rfl rfl⟩

/-- Lists of themselves, one directly and one by way of another. -/
def listLoops : TypeGraph :=
  ⟨#[{shape := .array 0}, {shape := .array 2}, {shape := .array 1}, {shape := .union [0, 1]}]⟩

/-- A list of lists of itself is lost beside a list of itself, though each reads differently by
itself. -/
theorem listLoops_loses_member :
    (listLoops.shape 3).isSet = true ∧
    (∀ m ∈ listLoops.children 3, (listLoops.shape m).isTop = false) ∧
    1 ∈ listLoops.children 3 ∧
    ∀ k ∈ (simplifyAt {} listLoops 3).1.children 3, ¬ listLoops.StandsFor {} k 1 := by
  decide +kernel

end SchemaDecl.TypeGraph
