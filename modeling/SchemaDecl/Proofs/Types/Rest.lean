/-
Simplification at rest.

A second run of simplification finds nothing to do where every union and intersection that the first
run left is at rest. Where types do not contain themselves, a first run leaves only one thing to do:
members that all say the same, some with names and some without. Such members come about when a
member is dropped that said something else.

* `TypeGraph.AtRest`: a union or intersection stays as it is.
* `TypeGraph.settled_congr`: types read the same as long as nothing below them changes.
* `TypeGraph.Mixed`: members with and without names that all say the same.
* `TypeGraph.simplify_simplify_eq_iff`: when a second run changes nothing.
* `TypeGraph.aliasGraph_not_at_rest`: types on which it does.
* `TypeGraph.simplify_canonical`: what every run leaves where types do not contain themselves.
-/
import SchemaDecl.Proofs.Types.Narrowing

namespace SchemaDecl.TypeGraph

open Relation

variable {s : Settings} {g g' : TypeGraph} {id root : TypeId} {ids : List TypeId}

/-! ### Nothing to do -/

/-- The union or intersection stays as it is: no member takes the whole, and all members stay. -/
def AtRest (s : Settings) (g : TypeGraph) (id : TypeId) : Prop :=
  (∀ m ∈ g.children id, (g.shape m).isTop = false) ∧
    g.kept (g.children id) ((memberTexts s g (g.children id)).run {}).1 = g.children id

/-- If a union or intersection is still one, no member has taken the whole. -/
lemma simplified_of_isSet (h : (g.simplified s id).isSet = true) :
    (∀ m ∈ g.children id, (g.shape m).isTop = false) ∧
      g.simplified s id = (g.shape id).withMembers
        (g.kept (g.children id) ((memberTexts s g (g.children id)).run {}).1) := by
  rw [simplified] at h ⊢
  split at h
  · cases h
  · rename_i hany
    rw [if_neg hany]
    split at h
    · cases h
    · rename_i hunknown
      rw [if_neg hunknown]
      refine ⟨fun m hm => ?_, rfl⟩
      rw [Bool.not_eq_true, List.any_eq_false] at hany hunknown
      rw [Shape.isTop, Bool.or_eq_false_iff]
      exact ⟨Bool.eq_false_iff.mpr (hany m hm), Bool.eq_false_iff.mpr (hunknown m hm)⟩

lemma simplified_of_isTop_eq_false (h : ∀ m ∈ g.children id, (g.shape m).isTop = false) :
    g.simplified s id = (g.shape id).withMembers
      (g.kept (g.children id) ((memberTexts s g (g.children id)).run {}).1) := by
  have hany : ¬ ((g.children id).any fun m => (g.shape m).isAny) = true := by
    rw [Bool.not_eq_true, List.any_eq_false]
    exact fun m hm hm' => by simpa [Shape.isTop, hm'] using h m hm
  have hunknown : ¬ ((g.children id).any fun m => (g.shape m).isUnknown) = true := by
    rw [Bool.not_eq_true, List.any_eq_false]
    exact fun m hm hm' => by simpa [Shape.isTop, hm'] using h m hm
  rw [simplified, if_neg hany, if_neg hunknown]

lemma simplified_eq_iff (hset : (g.shape id).isSet = true) :
    g.simplified s id = g.shape id ↔ g.AtRest s id := by
  constructor
  · intro heq
    have hset' : (g.simplified s id).isSet = true := by rw [heq, hset]
    obtain ⟨htop, hkept⟩ := simplified_of_isSet hset'
    refine ⟨htop, ?_⟩
    rw [hkept] at heq
    rw [← children_withMembers hset (g.kept (g.children id) _), heq]
    rfl
  · rintro ⟨htop, hkept⟩
    rw [simplified_of_isTop_eq_false htop, hkept, children, Shape.withMembers_children]

/-- A step changes nothing where there is nothing to do. -/
lemma simplifyAt_eq_self_iff (hset : (g.shape id).isSet = true) :
    (simplifyAt s g id).1 = g ↔ g.AtRest s id := by
  have hlt : id < g.size := lt_size_of_shape_ne fun h => by simp [h, Shape.isSet] at hset
  rw [simplifyAt_eq_setShape, ← simplified_eq_iff hset]
  constructor
  · intro heq
    have hshape : (g.setShape id (g.simplified s id)).shape id = g.simplified s id :=
      shape_setShape_self hlt
    rw [heq] at hshape
    exact hshape.symm
  · intro heq
    rw [heq, setShape_self]

/-- A run of steps changes nothing where no step has anything to do: types that have become narrower
do not come back. -/
lemma AllSets.simplifyAll_eq_self_iff (h : g.AllSets ids) :
    g.simplifyAll s ids = g ↔ ∀ id ∈ ids, g.AtRest s id := by
  induction ids with
  | nil => simp [simplifyAll]
  | cons id ids ih =>
      have hset := h.isSet id List.mem_cons_self
      have htail : g.AllSets ids :=
        ⟨(List.nodup_cons.mp h.nodup).2, fun x hx => h.isSet x (List.mem_cons_of_mem _ hx)⟩
      have hrun : g.simplifyAll s (id :: ids) = (simplifyAt s g id).1.simplifyAll s ids := rfl
      rw [List.forall_mem_cons, ← simplifyAt_eq_self_iff hset, ← ih htail, hrun]
      constructor
      · intro heq
        have hstep : g.Narrows (simplifyAt s g id).1 := by
          rw [simplifyAt_eq_setShape]
          exact narrows_setShape (narrows_simplified s hset)
        have hback : (simplifyAt s g id).1.Narrows g := by
          conv_rhs => rw [← heq]
          exact (AllSets.narrows s h.tail).1
        have hsame := hstep.antisymm hback
        exact ⟨hsame.symm, by rwa [← hsame] at heq⟩
      · rintro ⟨hstep, hrest⟩
        rw [hstep, hrest]

/-! ### What types read when others are narrowed -/

/-- The text of a shape depends on other types only by their names and comments. -/
lemma layout_congr (h : ∀ x, g'.node x = { g.node x with shape := g'.shape x }) (shape : Shape)
    (texts : List String) : shape.layout s g' texts = shape.layout s g texts := by
  have hfield (f : Field) (text : String) :
      Shape.fieldLayout s g' f text = Shape.fieldLayout s g f text := by
    rw [Shape.fieldLayout, Shape.fieldLayout, h]
    rfl
  have hbody (fields : List Field) (texts : List String) :
      Shape.bodyLayout s g' fields texts = Shape.bodyLayout s g fields texts := by
    rw [Shape.bodyLayout, Shape.bodyLayout, show Shape.fieldLayout s g' = Shape.fieldLayout s g from
      funext fun f => funext (hfield f)]
  cases shape with
  | record r => simp only [Shape.layout, hbody]
  | _ => rfl

section Region

variable {R : TypeId → Prop} (hnode : ∀ x, R x → g'.node x = g.node x)
  (hkeep : ∀ x, g'.node x = { g.node x with shape := g'.shape x })
include hnode hkeep

lemma shows_iff_of_region {x y : TypeId} (hx : R x) : g'.Shows x y ↔ g.Shows x y := by
  have hname : (g'.node y).declared? = (g.node y).declared? := by
    rw [hkeep y]
    rfl
  rw [Shows, Shows, shape, hnode x hx, hname]
  rfl

variable (hclosed : ∀ x y, R x → g.Shows x y → R y)
include hclosed

/-- In a region that is closed under showing, the same types are shown. -/
lemma reaches_iff_of_region {x y : TypeId} (hx : R x) :
    TransGen g'.Shows x y ↔ TransGen g.Shows x y := by
  have hstep {a b : TypeId} := shows_iff_of_region hnode hkeep (x := a) (y := b)
  constructor
  · intro hxy
    suffices h : TransGen g.Shows x y ∧ R y from h.1
    induction hxy with
    | single hab => exact ⟨.single ((hstep hx).mp hab), hclosed _ _ hx ((hstep hx).mp hab)⟩
    | tail _ hbc ih =>
        have hshows := (hstep ih.2).mp hbc
        exact ⟨ih.1.tail hshows, hclosed _ _ ih.2 hshows⟩
  · intro hxy
    suffices h : TransGen g'.Shows x y ∧ R y from h.1
    induction hxy with
    | single hab => exact ⟨.single ((hstep hx).mpr hab), hclosed _ _ hx hab⟩
    | tail _ hbc ih => exact ⟨ih.1.tail ((hstep ih.2).mpr hbc), hclosed _ _ ih.2 hbc⟩

/-- **Types read the same as long as nothing below them changes.** -/
lemma settled_congr {x : TypeId} (hx : R x) : g'.settled s x = g.settled s x := by
  induction hn : g.countBelow x using Nat.strong_induction_on generalizing x with
  | _ n ih =>
    by_cases hloop : g.Loops x
    · have hloop' : g'.Loops x := (reaches_iff_of_region hnode hkeep hclosed hx).mpr hloop
      rw [settled_of_loops hloop, settled_of_loops hloop']
    · have hloop' : ¬ g'.Loops x := fun h =>
        hloop ((reaches_iff_of_region hnode hkeep hclosed hx).mp h)
      have hshape : g'.shape x = g.shape x := by rw [shape, hnode x hx, shape]
      rw [settled_of_not_loops hloop, settled_of_not_loops hloop', layout_congr hkeep, hshape]
      refine congrArg _ (List.map_congr_left fun c hc => ?_)
      have hname : (g'.node c).declared? = (g.node c).declared? := by
        rw [hkeep c]
        rfl
      cases hdeclared : (g.node c).declared? with
      | some name => rw [shown_of_named hdeclared, shown_of_named (hname.trans hdeclared)]
      | none =>
          have hshows : g.Shows x c := ⟨hc, hdeclared⟩
          rw [shown_of_unnamed hdeclared, shown_of_unnamed (hname.trans hdeclared)]
          exact ih _ (hn ▸ countBelow_lt hloop hshows) (hclosed x c hx hshows) rfl

end Region

/-! ### Members that are kept -/

lemma alike_of_eq {texts : List String} (h : ∀ a ∈ texts, ∀ b ∈ texts, a = b) :
    alike texts = true := by
  fun_induction alike texts with
  | case1 a b rest ih =>
      rw [Bool.and_eq_true, beq_iff_eq]
      refine ⟨h a (by simp) b (by simp), ih fun x hx y hy => ?_⟩
      exact h x (List.mem_cons_of_mem _ hx) y (List.mem_cons_of_mem _ hy)
  | case2 => rfl

/-- The members that stay have different texts, none of which was seen before. -/
lemma nodup_firsts (used : TypeId → String) (seen : List String) (members : List TypeId) :
    ((firsts seen (members.map fun m => (m, used m))).map used).Nodup ∧
      ∀ m ∈ firsts seen (members.map fun m => (m, used m)), used m ∉ seen := by
  induction members generalizing seen with
  | nil => simp [firsts]
  | cons m rest ih =>
      rw [List.map_cons, firsts]
      by_cases hseen : used m ∈ seen
      · rw [if_pos (List.contains_iff_mem.mpr hseen)]
        exact ih seen
      · rw [if_neg fun h => hseen (List.contains_iff_mem.mp h)]
        obtain ⟨hnodup, hfresh⟩ := ih (used m :: seen)
        refine ⟨List.nodup_cons.mpr ⟨fun hmem => ?_, hnodup⟩, ?_⟩
        · obtain ⟨k, hk, heq⟩ := List.mem_map.mp hmem
          exact hfresh k hk (heq ▸ List.mem_cons_self)
        · intro k hk
          rcases List.mem_cons.mp hk with rfl | hk
          · exact hseen
          · exact fun hmem => hfresh k hk (List.mem_cons_of_mem _ hmem)

/-- Members with different texts all stay. -/
lemma firsts_eq_self {used : TypeId → String} {seen : List String} {members : List TypeId}
    (hnodup : (members.map used).Nodup) (hfresh : ∀ m ∈ members, used m ∉ seen) :
    firsts seen (members.map fun m => (m, used m)) = members := by
  induction members generalizing seen with
  | nil => rfl
  | cons m rest ih =>
      obtain ⟨hnew, hrest⟩ := List.nodup_cons.mp hnodup
      obtain ⟨hm, hfresh⟩ := List.forall_mem_cons.mp hfresh
      rw [List.map_cons, firsts, if_neg fun h => hm (List.contains_iff_mem.mp h)]
      refine congrArg (m :: ·) (ih hrest fun k hk hseen => ?_)
      rcases List.mem_cons.mp hseen with heq | hseen
      · exact hnew (List.mem_map.mpr ⟨k, hk, heq⟩)
      · exact hfresh k hk hseen

section Kept

variable (said used : TypeId → String) (members : List TypeId)

/-- The members that stay, where texts are given by what types say and how they are used. -/
lemma kept_eq_firsts :
    g.kept members (members.map said, members.map used) = firsts []
      ((if alike (members.map said) && !(members.filter fun m => (g.node m).isNamed).isEmpty
        then members.filter fun m => (g.node m).isNamed
        else members).map fun m => (m, used m)) := by
  have hnamed : (members.map fun m => (m, used m)).filter (fun e => (g.node e.1).isNamed)
      = (members.filter fun m => (g.node m).isNamed).map fun m => (m, used m) := by
    rw [List.filter_map]
    rfl
  rw [kept, ← List.map_prod_left_eq_zip]
  simp only [hnamed, List.isEmpty_map]
  split <;> rfl

/-- Members that were kept have different texts. -/
lemma nodup_kept : ((g.kept members (members.map said, members.map used)).map used).Nodup := by
  rw [kept_eq_firsts]
  exact (nodup_firsts used [] _).1

variable {said used members}

/-- Of members with different texts some go only if all say the same, and some have names and some
do not. -/
lemma kept_eq_self_iff (hnodup : (members.map used).Nodup) :
    g.kept members (members.map said, members.map used) = members ↔
      ¬ ((∀ a ∈ members, ∀ b ∈ members, said a = said b) ∧
        (∃ a ∈ members, (g.node a).isNamed = true) ∧
        ∃ b ∈ members, (g.node b).isNamed = false) := by
  have hfilter : ((members.filter fun m => (g.node m).isNamed).map used).Nodup :=
    hnodup.sublist (List.filter_sublist.map used)
  rw [kept_eq_firsts]
  split
  case isTrue hall =>
    rw [Bool.and_eq_true, Bool.not_eq_true', List.isEmpty_eq_false_iff] at hall
    have hsame (a : TypeId) (ha : a ∈ members) (b : TypeId) (hb : b ∈ members) : said a = said b :=
      eq_of_alike hall.1 _ (List.mem_map_of_mem ha) _ (List.mem_map_of_mem hb)
    obtain ⟨a, ha⟩ := List.exists_mem_of_ne_nil _ hall.2
    have hnamed : ∃ a ∈ members, (g.node a).isNamed = true := ⟨a, List.mem_filter.mp ha⟩
    rw [firsts_eq_self hfilter (by simp), List.filter_eq_self]
    simp only [hnamed, true_and, not_and, not_exists, Bool.not_eq_false]
    exact ⟨fun h _ => h, fun h => h hsame⟩
  case isFalse hnot =>
    rw [firsts_eq_self hnodup (by simp)]
    refine iff_of_true rfl ?_
    rintro ⟨hsame, ⟨a, ha, hnamed⟩, -⟩
    refine hnot ?_
    rw [Bool.and_eq_true, Bool.not_eq_true', List.isEmpty_eq_false_iff]
    refine ⟨alike_of_eq fun x hx y hy => ?_, List.ne_nil_of_mem (List.mem_filter.mpr ⟨ha, hnamed⟩)⟩
    obtain ⟨x, hx', rfl⟩ := List.mem_map.mp hx
    obtain ⟨y, hy', rfl⟩ := List.mem_map.mp hy
    exact hsame x hx' y hy'

end Kept

/-! ### Types that do not contain themselves -/

/-- Nothing below the root contains itself, and the values of enumerations are made of nothing
else. -/
structure Layered (g : TypeGraph) (root : TypeId) : Prop where
  acyclic : ∀ x, ReflTransGen (Declare.Part g) root x → ¬ TransGen (Declare.Part g) x x
  values : ∀ x, ReflTransGen (Declare.Part g) root x → (g.shape x).isEnumeration = true →
    ∀ v ∈ g.children x, (g.shape v).isSet = false ∧ g.children v = []

/-- What leads to smaller numbers does not lead back. -/
lemma not_transGen_self_of_lt {r : TypeId → TypeId → Prop} (h : ∀ a b, r a b → b < a) (x : TypeId) :
    ¬ TransGen r x x := fun hloop =>
  Nat.lt_irrefl x (hloop.trans_induction_on (motive := fun {a b} _ => b < a) (h _ _)
    fun _ _ hab hbc => Nat.lt_trans hbc hab)

/-- Types that are made of earlier ones do not contain themselves. -/
lemma layered_of_lt (hparts : ∀ a < g.size, ∀ b ∈ (g.shape a).parts, b < a)
    (hvalues : ∀ a < g.size, (g.shape a).isEnumeration = true →
      ∀ v ∈ g.children a, (g.shape v).isSet = false ∧ g.children v = []) : g.Layered root where
  acyclic x _ := not_transGen_self_of_lt (fun a b (hab : Declare.Part g a b) =>
    hparts a (Child.lt_size hab.2) b (Declare.mem_parts_iff.mpr hab)) x
  values x _ henum := by
    refine hvalues x (lt_size_of_shape_ne fun hpending => ?_) henum
    simp [hpending, Shape.isEnumeration] at henum

/-- The type is below another, or made of nothing. -/
def Below (g : TypeGraph) (a x : TypeId) : Prop :=
  TransGen (Declare.Part g) a x ∨ (g.shape x).isSet = false ∧ g.children x = []

namespace Layered

variable {a x y : TypeId} (h : g.Layered root) (ha : ReflTransGen (Declare.Part g) root a)
include h ha

lemma below_of_mem_children (hy : y ∈ g.children a) : g.Below a y := by
  cases henum : (g.shape a).isEnumeration with
  | true => exact Or.inr (h.values a ha henum y hy)
  | false => exact Or.inl (.single ⟨henum, hy⟩)

variable (hnarrows : g.Narrows g')
include hnarrows

/-- What is shown after narrowing is below. -/
lemma below_of_shows (hx : g.Below a x) (hxy : g'.Shows x y) : g.Below a y := by
  have hy : y ∈ g.children x :=
    Shape.slots_subset_children _ ((hnarrows.shape x).slots_subset hxy.1)
  rcases hx with hx | ⟨-, hnil⟩
  · rcases h.below_of_mem_children (ha.trans hx.to_reflTransGen) hy with hpart | hleaf
    · exact Or.inl (hx.trans hpart)
    · exact Or.inr hleaf
  · rw [hnil] at hy
    cases hy

lemma below_of_reaches (hx : g.Below a x) (hxy : ReflTransGen g'.Shows x y) : g.Below a y := by
  induction hxy with
  | refl => exact hx
  | tail _ hbc ih => exact h.below_of_shows ha hnarrows ih hbc

lemma not_loops : ¬ g'.Loops a := by
  intro hloop
  obtain ⟨b, hab, hba⟩ := TransGen.head'_iff.mp hloop
  have hb : b ∈ g.children a :=
    Shape.slots_subset_children _ ((hnarrows.shape a).slots_subset hab.1)
  have hself := h.below_of_reaches ha hnarrows (h.below_of_mem_children ha hb) hba
  rcases hself with hself | ⟨-, hnil⟩
  · exact h.acyclic a ha hself
  · rw [hnil] at hb
    cases hb

/-- Types below have no loops, and so read the same everywhere. -/
lemma steady (hx : g.Below a x) : g'.Steady x := by
  intro y hxy hloop
  rcases h.below_of_reaches ha hnarrows hx hxy with hy | ⟨-, hnil⟩
  · exact absurd hloop (h.not_loops (ha.trans hy.to_reflTransGen) hnarrows)
  · obtain ⟨b, hyb, -⟩ := TransGen.head'_iff.mp hloop
    have hb : b ∈ g.children y :=
      Shape.slots_subset_children _ ((hnarrows.shape y).slots_subset hyb.1)
    rw [hnil] at hb
    cases hb

end Layered

/-- Inner unions and intersections come before outer ones. -/
lemma Layered.exists_split (h : g.Layered root) (hid : id ∈ g.sets root) :
    ∃ before after, g.sets root = before ++ id :: after ∧ ∀ x, g.Below id x → x ∉ id :: after := by
  have hset := (mem_sets_iff.mp hid).2
  obtain ⟨before, after, hleft⟩ := List.append_of_mem (List.mem_filter.mp hid).1
  refine ⟨before.filter fun x => (g.shape x).isSet, after.filter fun x => (g.shape x).isSet, ?_, ?_⟩
  · rw [sets, hleft, List.filter_append, List.filter_cons, if_pos hset]
  · have hfilter : (id :: after).filter (fun x => (g.shape x).isSet)
        = id :: after.filter fun x => (g.shape x).isSet := by
      rw [List.filter_cons, if_pos hset]
    intro x hx hmem
    rw [← hfilter, List.mem_filter] at hmem
    rcases hx with hx | ⟨hx, -⟩
    · -- The walk has left what is below `id` before it leaves `id`, and leaves nothing twice.
      have hnodup := Walk.nodup_left (Declare.partEdges_eq_nil (g := g)) ((), root)
      have hbefore : x ∈ before := by
        refine Walk.mem_before_of_reaches Declare.partEdges_eq_nil (fun y hy => ?_) hleft ?_
        · rw [Walk.Reaches, Declare.edge_partEdges] at hy
          rw [Declare.edge_partEdges]
          exact h.acyclic y hy
        · rw [Declare.edge_partEdges]
          exact hx
      have hleft' : Walk.left (Declare.partEdges g) g.size ((), root) = before ++ id :: after :=
        hleft
      rw [hleft'] at hnodup
      exact (List.nodup_append'.mp hnodup).2.2 hbefore hmem.1
    · rw [hmem.2] at hx
      cases hx

/-- When it is the turn of a union or intersection, all below it is as it will be in the end. -/
lemma Layered.exists_stage (s : Settings) (h : g.Layered root) (hid : id ∈ g.sets root) :
    ∃ g₁, g.Narrows g₁ ∧ g₁.Narrows (g.simplify s root) ∧ g₁.shape id = g.shape id ∧
      (g.simplify s root).shape id = g₁.simplified s id ∧
      ∀ x, g.Below id x → (g.simplify s root).node x = g₁.node x := by
  obtain ⟨before, after, hsets, hbelow⟩ := h.exists_split hid
  have hall := allSets_sets g root
  rw [hsets] at hall
  obtain ⟨hnarrows, hnarrows', hshape, hshape', hnode⟩ := hall.turn s
  rw [simplify_eq_simplifyAll, hsets]
  exact ⟨_, hnarrows, hnarrows', hshape, hshape', fun x hx => hnode x (hbelow x hx)⟩

/-- The members of a union or intersection all say the same, and some have names and some do not. -/
def Mixed (s : Settings) (g : TypeGraph) (id : TypeId) : Prop :=
  (∀ a ∈ g.children id, ∀ b ∈ g.children id, g.saidAlone s a = g.saidAlone s b) ∧
    (∃ a ∈ g.children id, (g.node a).isNamed = true) ∧
    ∃ b ∈ g.children id, (g.node b).isNamed = false

instance (s : Settings) (g : TypeGraph) (id : TypeId) : Decidable (g.Mixed s id) :=
  inferInstanceAs (Decidable (_ ∧ _))

/-- Members read the same at the turn of their set as in the end. -/
lemma Layered.textAlone_eq (h : g.Layered root) (hid : id ∈ g.sets root) {g₁ g' : TypeGraph}
    (hnarrows : g.Narrows g₁) (hnarrows' : g₁.Narrows g')
    (hnode : ∀ x, g.Below id x → g'.node x = g₁.node x) {m : TypeId} (hm : g.Below id m) :
    g'.textAlone s m = g₁.textAlone s m := by
  have hreach := (mem_sets_iff.mp hid).1
  have hsteady := h.steady hreach hnarrows hm
  have hsteady' := h.steady hreach (hnarrows.trans hnarrows') hm
  have hsettled : g'.settled s m = g₁.settled s m :=
    settled_congr hnode hnarrows'.node (fun x y => h.below_of_shows hreach hnarrows) hm
  rw [textAlone_eq_shown (.inr hsteady), textAlone_eq_shown (.inr hsteady'), shown, shown,
    hnarrows'.declared?_eq, hsettled]

/-- **What a run leaves of a union or intersection**, where types do not contain themselves: none of
the members takes the whole, and they read differently, by themselves as with any ink. -/
lemma Layered.members (h : g.Layered root) (hid : id ∈ g.sets root)
    (hset' : ((g.simplify s root).shape id).isSet = true) :
    (∀ m ∈ (g.simplify s root).children id,
      ((g.simplify s root).shape m).isTop = false ∧ (g.simplify s root).Steady m) ∧
    (((g.simplify s root).children id).map ((g.simplify s root).textAlone s)).Nodup := by
  obtain ⟨hreach, hset⟩ := mem_sets_iff.mp hid
  obtain ⟨g₁, hnarrows, hnarrows', hshape, hshape', hnode⟩ := h.exists_stage s hid
  generalize g.simplify s root = g' at *
  rw [hshape'] at hset'
  obtain ⟨htop, hmembers⟩ := simplified_of_isSet hset'
  have hchildren₁ : g₁.children id = g.children id := by rw [children, hshape, children]
  have hbelow (m : TypeId) (hm : m ∈ g₁.children id) : g.Below id m :=
    h.below_of_mem_children hreach (hchildren₁ ▸ hm)
  have htexts := memberTexts_eq (s := s) fun m hm => h.steady hreach hnarrows (hbelow m hm)
  have hchildren : g'.children id = g₁.kept (g₁.children id)
      ((g₁.children id).map (g₁.saidAlone s), (g₁.children id).map (g₁.textAlone s)) := by
    rw [children, hshape', hmembers, children_withMembers (hshape ▸ hset), htexts]
  have hsub : g'.children id ⊆ g₁.children id := (hnarrows'.shape id).children_subset
  refine ⟨fun m hm => ⟨?_, h.steady hreach (hnarrows.trans hnarrows') (hbelow m (hsub hm))⟩, ?_⟩
  · rw [shape, hnode m (hbelow m (hsub hm))]
    exact htop m (hsub hm)
  · have halone (m : TypeId) (hm : m ∈ g'.children id) : g'.textAlone s m = g₁.textAlone s m :=
      h.textAlone_eq hid hnarrows hnarrows' hnode (hbelow m (hsub hm))
    rw [List.map_congr_left halone, hchildren]
    exact nodup_kept _ _ _

/-- **What a run leaves to do**, where types do not contain themselves: a union or intersection is
at rest unless its members all say the same, some with names and some without. -/
lemma Layered.atRest_iff (h : g.Layered root) (hid : id ∈ (g.simplify s root).sets root) :
    (g.simplify s root).AtRest s id ↔ ¬ (g.simplify s root).Mixed s id := by
  obtain ⟨hmembers, hnodup⟩ :=
    h.members ((narrows_simplify s g root).mem_sets hid) (mem_sets_iff.mp hid).2
  rw [AtRest, memberTexts_eq fun m hm => (hmembers m hm).2, Mixed, ← kept_eq_self_iff hnodup]
  exact and_iff_right fun m hm => (hmembers m hm).1

/-- **Simplification is at rest after one run** iff every union and intersection that it leaves is
at rest. If types do not contain themselves, this is so iff no union or intersection is left whose
members all say the same, some with names and some without. -/
theorem simplify_simplify_eq_iff (s : Settings) (g : TypeGraph) (root : TypeId) :
    ((g.simplify s root).simplify s root = g.simplify s root ↔
      ∀ id ∈ (g.simplify s root).sets root, (g.simplify s root).AtRest s id) ∧
    (g.Layered root → ((g.simplify s root).simplify s root = g.simplify s root ↔
      ∀ id ∈ (g.simplify s root).sets root, ¬ (g.simplify s root).Mixed s id)) := by
  have hrest : (g.simplify s root).simplify s root = g.simplify s root ↔
      ∀ id ∈ (g.simplify s root).sets root, (g.simplify s root).AtRest s id := by
    rw [simplify_eq_simplifyAll s (g.simplify s root)]
    exact (allSets_sets _ root).simplifyAll_eq_self_iff
  refine ⟨hrest, fun h => ?_⟩
  rw [hrest]
  exact forall₂_congr fun id hid => h.atRest_iff hid

/-- A union in a union. The inner one says the same with and without a name, and the outer one then
has two members that read as that name. -/
def nestedGraph : TypeGraph :=
  ⟨#[{ shape := .string, name := some "Foo" }, { shape := .string }, { shape := .union [0, 1] },
    { shape := .union [2, 0] }]⟩

/-- Both unions are at rest after one run, in which each has lost a member. -/
theorem simplify_simplify_eq_iff_nested :
    nestedGraph.Layered 3 ∧ (nestedGraph.simplify {} 3).children 2 = [0] ∧
    (nestedGraph.simplify {} 3).children 3 = [2] ∧
    (nestedGraph.simplify {} 3).simplify {} 3 = nestedGraph.simplify {} 3 := by
  have hlayered : nestedGraph.Layered 3 := layered_of_lt (by decide) (by decide)
  refine ⟨hlayered, by decide +kernel, by decide +kernel, ?_⟩
  refine ((simplify_simplify_eq_iff {} nestedGraph 3).2 hlayered).mpr ?_
  decide +kernel

/-- A union of a type with a name, a text that reads as that name, and a type that says the same as
the first. -/
def aliasGraph : TypeGraph :=
  ⟨#[{ shape := .string, name := some "Foo" }, { shape := .custom "Foo" }, { shape := .string },
    { shape := .union [0, 1, 2], name := some "Root" }]⟩

/-- A first run drops the text that reads as the name, and only then all members say the same: a
second run drops the one without a name. -/
theorem aliasGraph_not_at_rest :
    (aliasGraph.simplify {} 3).children 3 = [0, 2] ∧
    ((aliasGraph.simplify {} 3).simplify {} 3).children 3 = [0] ∧
    Declare.documentText {} (aliasGraph.simplify {} 3) 3
      = "export type Root = (Foo | string)\n\nexport type Foo = string\n" ∧
    Declare.documentText {} ((aliasGraph.simplify {} 3).simplify {} 3) 3
      = "export type Root = Foo\n\nexport type Foo = string\n" := by
  decide +kernel

/-! ### Canonical form -/

/-- The type is a literal. -/
def IsLiteral (g : TypeGraph) (id : TypeId) : Prop := ∃ value, g.shape id = .literal value

/-- Nothing that can be reached from the root contains itself, and the values of enumerations are
literals. -/
structure Grounded (g : TypeGraph) (root : TypeId) : Prop where
  acyclic : ∀ x, ReflTransGen g.Child root x → ¬ TransGen g.Child x x
  literal : ∀ x, ReflTransGen g.Child root x → (g.shape x).isEnumeration = true →
    ∀ v ∈ g.children x, g.IsLiteral v

lemma IsLiteral.children_eq (h : g.IsLiteral id) : g.children id = [] := by
  obtain ⟨value, hshape⟩ := h
  rw [children, hshape]
  rfl

lemma IsLiteral.isSet_eq (h : g.IsLiteral id) : (g.shape id).isSet = false := by
  obtain ⟨value, hshape⟩ := h
  rw [hshape]
  rfl

/-- Types that are made of earlier ones do not contain themselves. -/
lemma grounded_of_lt (hchildren : ∀ a < g.size, ∀ b ∈ g.children a, b < a)
    (hliteral : ∀ a, (g.shape a).isEnumeration = true → ∀ v ∈ g.children a, g.IsLiteral v) :
    g.Grounded root where
  acyclic x _ := not_transGen_self_of_lt (fun a b (hab : g.Child a b) =>
    hchildren a hab.lt_size b hab) x
  literal x _ := hliteral x

namespace Grounded

lemma layered (h : g.Grounded root) : g.Layered root := by
  have hreach {x : TypeId} (hx : ReflTransGen (Declare.Part g) root x) :
      ReflTransGen g.Child root x := ReflTransGen.mono (fun _ _ hab => hab.2) _ _ hx
  refine ⟨fun x hx hloop => ?_, fun x hx henum v hv => ?_⟩
  · exact h.acyclic x (hreach hx) (TransGen.mono (fun _ _ hab => hab.2) _ _ hloop)
  · have hliteral := h.literal x (hreach hx) henum v hv
    exact ⟨hliteral.isSet_eq, hliteral.children_eq⟩

/-- Apart from literals, all that can be reached is reached without going through the values of
enumerations. -/
lemma part_or_isLiteral (h : g.Grounded root) (hid : ReflTransGen g.Child root id) :
    ReflTransGen (Declare.Part g) root id ∨ g.IsLiteral id := by
  induction hid with
  | refl => exact .inl .refl
  | @tail b c hb hbc ih =>
      rcases ih with hpart | hliteral
      · cases henum : (g.shape b).isEnumeration with
        | true => exact .inr (h.literal b hb henum c hbc)
        | false => exact .inl (hpart.tail ⟨henum, hbc⟩)
      · rw [Child, hliteral.children_eq] at hbc
        cases hbc

end Grounded

/-- **Unions and intersections are left in canonical form**, where nothing contains itself and the
values of enumerations are literals: of all that can be reached from the root, before or after, no
member of a union or intersection is a type that nothing describes, and no two members have the same
text. -/
theorem simplify_canonical (s : Settings) (g : TypeGraph) (root : TypeId) (h : g.Grounded root)
    (id : TypeId)
    (hid : ReflTransGen g.Child root id ∨ ReflTransGen (g.simplify s root).Child root id)
    (hset : ((g.simplify s root).shape id).isSet = true) :
    (∀ m ∈ (g.simplify s root).children id, ((g.simplify s root).shape m).isTop = false) ∧
    (((g.simplify s root).children id).map ((g.simplify s root).textAlone s)).Nodup := by
  have hnarrows := narrows_simplify s g root
  have hreach : ReflTransGen g.Child root id :=
    hid.elim (fun h => h)
      (ReflTransGen.mono (fun a _ hab => (hnarrows.shape a).children_subset hab) _ _)
  have hset₀ : (g.shape id).isSet = true := (hnarrows.shape id).isSet hset
  have hpart : ReflTransGen (Declare.Part g) root id :=
    (h.part_or_isLiteral hreach).resolve_right fun hliteral => by simp [hliteral.isSet_eq] at hset₀
  obtain ⟨hmembers, hnodup⟩ := h.layered.members (s := s) (mem_sets_iff.mpr ⟨hpart, hset₀⟩) hset
  exact ⟨fun m hm => (hmembers m hm).1, hnodup⟩

/-- Lists of texts, one of them by way of a union of a text with itself, and an enumeration, in a
union; and that union with a type that nothing describes. -/
def shelfGraph : TypeGraph :=
  ⟨#[{ shape := .string }, { shape := .union [0, 0] }, { shape := .array 1 }, { shape := .array 0 },
    { shape := .literal (.scalar (.string "a")) },
    { shape := .enumeration [("A", 4)], name := some "Letter" }, { shape := .union [2, 3, 5] },
    { shape := .any }, { shape := .intersection [6, 7] },
    { shape := .tuple ⟨[6, 8], 2, none, none⟩ }]⟩

/-- One of the lists goes, though they read the same only after the inner union has been simplified,
and the intersection becomes a type that nothing describes. -/
theorem simplify_canonical_shelf :
    shelfGraph.Grounded 9 ∧ (shelfGraph.simplify {} 9).children 6 = [2, 5] ∧
    ((shelfGraph.simplify {} 9).shape 8).isAny = true ∧
    (∀ m ∈ (shelfGraph.simplify {} 9).children 6,
      ((shelfGraph.simplify {} 9).shape m).isTop = false) ∧
    (((shelfGraph.simplify {} 9).children 6).map
      ((shelfGraph.simplify {} 9).textAlone {})).Nodup := by
  have hliteral : ∀ a, (shelfGraph.shape a).isEnumeration = true →
      ∀ v ∈ shelfGraph.children a, shelfGraph.IsLiteral v := by
    intro a henum v hv
    have hlt : a < 10 := lt_size_of_shape_ne (g := shelfGraph) fun h => by
      simp [h, Shape.isEnumeration] at henum
    have ha : a = 5 := (by decide : ∀ a < 10, (shelfGraph.shape a).isEnumeration = true → a = 5)
      a hlt henum
    subst ha
    obtain rfl := List.mem_singleton.mp hv
    exact ⟨_, rfl⟩
  have hgrounded : shelfGraph.Grounded 9 := grounded_of_lt (by decide) hliteral
  have hreach : ReflTransGen shelfGraph.Child 9 6 := .single List.mem_cons_self
  exact ⟨hgrounded, by decide +kernel, by decide +kernel,
    simplify_canonical {} shelfGraph 9 hgrounded 6 (.inl hreach) (by decide +kernel)⟩

end SchemaDecl.TypeGraph
