/-
Simplification in place.

Types are visited from a root. A union or intersection is simplified when its members have been
visited, in its own place, so that what is visited later sees what has become of it, and what a type
is made of is looked up when it is visited. All of this comes to an end, also where types contain
themselves, and comes to the same as simplifying the sets below the root as they were at first.

* `TypeGraph.Turns`: one union or intersection is simplified; its texts are written without fuel.
* `TypeGraph.Visits`: types are visited, one after the other and one inside the other, without fuel.
* `TypeGraph.visits_simplify`: this is what simplification does.
* `TypeGraph.simplify_only_shrinks`: what it changes, and what it leaves as it was.
-/
import SchemaDecl.Proofs.Declaration.Calls
import SchemaDecl.Proofs.Walk.Embedding

namespace SchemaDecl.TypeGraph

open Render

variable {s : Settings} {g g₁ g₂ g' : TypeGraph} {id root x : TypeId}

/-! ### The turn of one set -/

/-- The call for what a member of a set says: an enumeration is used and not spelled out. -/
def sayingCall (g : TypeGraph) (m : TypeId) : Call :=
  if (g.shape m).isEnumeration then .inline m else .raw m

/-- A union or intersection is simplified: a member that nothing describes takes the whole, or else
some members are kept, as their texts say. -/
inductive Turns (s : Settings) (g : TypeGraph) (id : TypeId) : TypeGraph → Prop
  | any {m : TypeId} (hm : m ∈ g.children id) (hany : (g.shape m).isAny = true) :
      Turns s g id (g.setShape id .any)
  | unknown {m : TypeId} (hnone : ∀ m ∈ g.children id, (g.shape m).isAny = false)
      (hm : m ∈ g.children id) (hunknown : (g.shape m).isUnknown = true) :
      Turns s g id (g.setShape id .unknown)
  | members {said used : List String} {ink ink' : Ink}
      (hnone : ∀ m ∈ g.children id, (g.shape m).isAny = false ∧ (g.shape m).isUnknown = false)
      (hsaid : Writes s g {} ((g.children id).map g.sayingCall) said ink)
      (hused : Writes s g ink ((g.children id).map .inline) used ink') :
      Turns s g id
        (g.setShape id ((g.shape id).withMembers (g.kept (g.children id) (said, used))))

/-- The texts of the members of a set come from calls on one ink. -/
lemma writes_memberTexts (members : List TypeId) :
    ∃ ink ink', Writes s g {} (members.map g.sayingCall)
      ((memberTexts s g members).run {}).1.1 ink ∧
      Writes s g ink (members.map .inline) ((memberTexts s g members).run {}).1.2 ink' := by
  have hsaying : (members.map g.sayingCall).mapM (Call.write s g) = members.mapM fun m =>
      if (g.shape m).isEnumeration then Render.inline s g m else Render.raw s g m := by
    rw [List.mapM_map]
    congr 1
    funext m
    rw [Function.comp_apply, sayingCall]
    split <;> rfl
  have hused : (members.map Call.inline).mapM (Call.write s g) = members.mapM (Render.inline s g) :=
    List.mapM_map
  have hempty : ({} : Ink).active = [] := rfl
  have hsaid := writes_run (s := s) (g := g) (members.map g.sayingCall) hempty
  have hafter := writes_run (s := s) (g := g) (members.map .inline) hsaid.active_eq
  rw [hsaying] at hsaid hafter
  rw [hused] at hafter
  exact ⟨_, _, hsaid, hafter⟩

/-- **Every union and intersection has its turn**, and it is the step of simplification. -/
lemma turns_simplifyAt (s : Settings) (g : TypeGraph) (id : TypeId) :
    Turns s g id (simplifyAt s g id).1 := by
  rw [simplifyAt_eq_setShape, simplified]
  split
  case isTrue hany =>
    obtain ⟨m, hm, hany⟩ := List.any_eq_true.mp hany
    exact .any hm hany
  case isFalse hany =>
    have hnone (m : TypeId) (hm : m ∈ g.children id) : (g.shape m).isAny = false :=
      Bool.eq_false_iff.mpr fun h => hany (List.any_eq_true.mpr ⟨m, hm, h⟩)
    split
    case isTrue hunknown =>
      obtain ⟨m, hm, hunknown⟩ := List.any_eq_true.mp hunknown
      exact .unknown hnone hm hunknown
    case isFalse hunknown =>
      have hnone' (m : TypeId) (hm : m ∈ g.children id) : (g.shape m).isUnknown = false :=
        Bool.eq_false_iff.mpr fun h => hunknown (List.any_eq_true.mpr ⟨m, hm, h⟩)
      obtain ⟨ink, ink', hsaid, hused⟩ := writes_memberTexts (s := s) (g := g) (g.children id)
      exact .members (fun m hm => ⟨hnone m hm, hnone' m hm⟩) hsaid hused

/-! ### Visiting types -/

/-- Types are visited, one after the other. What is met for the first time is marked; its parts are
visited, and if it is a union or intersection, it has its turn then. -/
inductive Visits (s : Settings) :
    TypeGraph → List TypeId → List TypeId → TypeGraph → List TypeId → Prop
  | done (g : TypeGraph) (seen : List TypeId) : Visits s g seen [] g seen
  | seen {g g' : TypeGraph} {seen seen' ids : List TypeId} {id : TypeId} (hid : id ∈ seen)
      (hrest : Visits s g seen ids g' seen') : Visits s g seen (id :: ids) g' seen'
  | set {g g₁ g₂ g' : TypeGraph} {seen seen₁ seen' ids : List TypeId} {id : TypeId}
      (hid : id ∉ seen) (hset : (g.shape id).isSet = true)
      (hmembers : Visits s g (id :: seen) (g.children id) g₁ seen₁) (hturn : Turns s g₁ id g₂)
      (hrest : Visits s g₂ seen₁ ids g' seen') : Visits s g seen (id :: ids) g' seen'
  | other {g g₁ g' : TypeGraph} {seen seen₁ seen' ids : List TypeId} {id : TypeId} (hid : id ∉ seen)
      (hset : (g.shape id).isSet = false)
      (hparts : Visits s g (id :: seen) (g.shape id).parts g₁ seen₁)
      (hrest : Visits s g₁ seen₁ ids g' seen') : Visits s g seen (id :: ids) g' seen'

/-- The types when a walk has left some of them. -/
def simplifiedUpTo (s : Settings) (g : TypeGraph) (log : List (Walk.Step Unit)) : TypeGraph :=
  g.simplifyAll s ((Walk.exits log).reverse.filter fun id => (g.shape id).isSet)

lemma simplifiedUpTo_enter (log : List (Walk.Step Unit)) :
    g.simplifiedUpTo s (.enter () id :: log) = g.simplifiedUpTo s log := rfl

/-- When the walk leaves a union or intersection, that is its turn. -/
lemma simplifiedUpTo_leave (log : List (Walk.Step Unit)) :
    g.simplifiedUpTo s (.leave id :: log) =
      if (g.shape id).isSet then (simplifyAt s (g.simplifiedUpTo s log) id).1
      else g.simplifiedUpTo s log := by
  rw [simplifiedUpTo, Walk.exits_leave, List.reverse_cons, List.filter_append, simplifyAll_append]
  cases hset : (g.shape id).isSet with
  | true =>
      rw [show [id].filter (fun id => (g.shape id).isSet) = [id] by simp [hset]]
      rfl
  | false =>
      rw [show [id].filter (fun id => (g.shape id).isSet) = [] by simp [hset]]
      rfl

/-- Steps at other types do not touch a type. -/
lemma node_simplifyAll_of_not_mem {ids : List TypeId} (h : x ∉ ids) :
    (g.simplifyAll s ids).node x = g.node x := by
  induction ids generalizing g with
  | nil => rfl
  | cons id ids ih =>
      have hne : x ≠ id := fun heq => h (heq ▸ List.mem_cons_self)
      have hrest : x ∉ ids := fun hmem => h (List.mem_cons_of_mem _ hmem)
      refine (ih (g := (simplifyAt s g id).1) hrest).trans ?_
      rw [simplifyAt_eq_setShape, node_setShape_of_ne hne]

/-- A type that the walk has not entered is as it was at first. -/
lemma node_simplifiedUpTo {log : List (Walk.Step Unit)} (hlog : Walk.exits log ⊆ Walk.entries log)
    (hid : id ∉ Walk.entries log) : (g.simplifiedUpTo s log).node id = g.node id := by
  refine node_simplifyAll_of_not_mem fun hmem => hid (hlog ?_)
  exact List.mem_reverse.mp (List.mem_filter.mp hmem).1

/-- **Where a walk over the types as they were goes, types are visited**: the walk never looks at
what it has changed, as it leaves a type after it has looked at it. -/
lemma visits_of_goes {log out : List (Walk.Step Unit)} {es : List (Unit × TypeId)}
    (h : Walk.Goes (Declare.partEdges g) log es out) (hlog : Walk.exits log ⊆ Walk.entries log) :
    Visits s (g.simplifiedUpTo s log) (Walk.entries log) (es.map Prod.snd)
      (g.simplifiedUpTo s out) (Walk.entries out) := by
  induction h with
  | done log => exact .done _ _
  | seen hid _ ih => exact .seen hid (ih hlog)
  | @fresh log mid out label id es hid hinside _ ihinside ihrest =>
      have hshape : (g.simplifiedUpTo s log).shape id = g.shape id :=
        congrArg TypeNode.shape (node_simplifiedUpTo hlog hid)
      have hinto : Walk.exits (.enter label id :: log) ⊆ Walk.entries (.enter label id :: log) :=
        List.Subset.trans hlog (List.subset_cons_self _ _)
      have hmid := hinside.exits_subset hinto
      have hvisits := ihinside hinto
      rw [simplifiedUpTo_enter, Declare.partEdges, List.map_map] at hvisits
      have hparts : ((g.shape id).parts.map (Prod.snd ∘ fun c => ((), c)))
          = ((g.simplifiedUpTo s log).shape id).parts := by
        rw [hshape]
        exact List.map_id _
      rw [hparts] at hvisits
      have hrest := ihrest (List.cons_subset.mpr ⟨hmid.2 (by simp), hmid.1⟩)
      rw [simplifiedUpTo_leave] at hrest
      cases hset : (g.shape id).isSet with
      | true =>
          rw [if_pos hset] at hrest
          rw [Shape.parts_eq_children (hshape ▸ hset)] at hvisits
          exact .set hid (hshape ▸ hset) hvisits (turns_simplifyAt s _ id) hrest
      | false =>
          rw [if_neg (by simp [hset])] at hrest
          exact .other hid (hshape ▸ hset) hvisits hrest

/-- **Simplification comes to an end**: visiting the root comes to what simplification gives. -/
lemma visits_simplify (s : Settings) (g : TypeGraph) (root : TypeId) :
    ∃ seen, Visits s g [] [root] (g.simplify s root) seen := by
  have hgoes := Walk.goes_record (Declare.partEdges_eq_nil (g := g)) ((), root)
  have hvisits := visits_of_goes (s := s) hgoes (List.nil_subset _)
  have hend : g.simplifiedUpTo s (Walk.record (Declare.partEdges g) g.size ((), root)).reverse
      = g.simplify s root := by
    rw [simplify_eq_simplifyAll, simplifiedUpTo, Walk.exits, List.filterMap_reverse,
      List.reverse_reverse]
    rfl
  rw [hend] at hvisits
  exact ⟨_, hvisits⟩

/-! ### What simplification changes -/

/-- Some member of a set stays. -/
lemma kept_ne_nil {members : List TypeId} {texts : List String × List String}
    (hlen : texts.2.length = members.length) (hne : members ≠ []) : g.kept members texts ≠ [] := by
  have hfirsts (entries : List (TypeId × String)) (h : entries ≠ []) : firsts [] entries ≠ [] := by
    obtain ⟨m, rest, rfl⟩ := List.exists_cons_of_ne_nil h
    simp [firsts]
  have hentries : members.zip texts.2 ≠ [] := by
    rw [← List.length_pos_iff, List.length_zip, hlen, Nat.min_self]
    exact List.length_pos_iff.mpr hne
  rw [kept]
  split
  case isTrue h =>
    refine hfirsts _ fun hnil => ?_
    simp [hnil] at h
  case isFalse => exact hfirsts _ hentries

/-- What becomes of a union or intersection in its turn: a type that nothing describes, or the same
with some of its members, in order, and not without any if there were some. -/
lemma simplified_cases (s : Settings) (g : TypeGraph) (id : TypeId) :
    (g.simplified s id).isTop = true ∨ ∃ members, members.Sublist (g.children id) ∧
      (g.children id ≠ [] → members ≠ []) ∧
      g.simplified s id = (g.shape id).withMembers members := by
  rw [simplified]
  split
  · exact .inl rfl
  · split
    · exact .inl rfl
    · have hlen := length_memberTexts (s := s) (g := g) (g.children id) {}
      exact .inr ⟨_, kept_sublist _ _ hlen, kept_ne_nil hlen, rfl⟩

/-- **Simplification only shrinks unions and intersections.** Visiting the root comes to an end,
also where types contain themselves. There are as many types as before; names, comments and keys
stay, and so does every other type. A union or intersection becomes a type that nothing describes,
or it is one of the same kind whose members are some of those it had, in the same order, and at
least one if it had any. -/
theorem simplify_only_shrinks (s : Settings) (g : TypeGraph) (root : TypeId) :
    (∃ seen, Visits s g [] [root] (g.simplify s root) seen) ∧
    (g.simplify s root).size = g.size ∧
    ∀ id,
      ((g.simplify s root).node id).name = (g.node id).name ∧
      ((g.simplify s root).node id).comment = (g.node id).comment ∧
      ((g.simplify s root).node id).key = (g.node id).key ∧
      ((g.shape id).isSet = false → (g.simplify s root).node id = g.node id) ∧
      ((g.shape id).isSet = true → ((g.simplify s root).shape id).isTop = true ∨
        ∃ members, members.Sublist (g.children id) ∧ (g.children id ≠ [] → members ≠ []) ∧
          (g.simplify s root).shape id = (g.shape id).withMembers members) := by
  have hnarrows := narrows_simplify s g root
  have hall := allSets_sets g root
  refine ⟨visits_simplify s g root, hnarrows.size_eq, fun id => ?_⟩
  refine ⟨by rw [hnarrows.node id], by rw [hnarrows.node id], by rw [hnarrows.node id],
    fun hset => ?_, fun hset => ?_⟩
  · have hid : id ∉ g.sets root := fun hmem => by simp [hall.isSet id hmem] at hset
    rw [simplify_eq_simplifyAll]
    exact node_simplifyAll_of_not_mem hid
  · rw [simplify_eq_simplifyAll]
    by_cases hid : id ∈ g.sets root
    · obtain ⟨before, after, hsets⟩ := List.append_of_mem hid
      rw [hsets] at hall ⊢
      obtain ⟨-, -, hshape, hshape', -⟩ := hall.turn s
      rw [hshape', ← hshape, children, ← hshape]
      exact simplified_cases s (g.simplifyAll s before) id
    · refine .inr ⟨g.children id, List.Sublist.refl _, fun h => h, ?_⟩
      rw [shape, node_simplifyAll_of_not_mem hid, children, Shape.withMembers_children, shape]

/-- A list of itself that may also be a text, given in two ways, and a text with a name. -/
def nestGraph : TypeGraph :=
  ⟨#[{ shape := .union [1, 2, 3, 2], comment := some "Nested." }, { shape := .array 0 },
    { shape := .string }, { shape := .string, name := some "Word" }]⟩

/-- The union contains itself and has a member twice; it keeps three members and its comment. -/
theorem simplify_only_shrinks_nest :
    (nestGraph.shape 0).isSet = true ∧ (nestGraph.shape 1).isSet = false ∧
    (∃ seen, Visits {} nestGraph [] [0] (nestGraph.simplify {} 0) seen) ∧
    (nestGraph.simplify {} 0).children 0 = [1, 2, 3] ∧
    ((nestGraph.simplify {} 0).node 0).comment = some "Nested." ∧
    (nestGraph.simplify {} 0).node 1 = nestGraph.node 1 := by
  have hshrinks := simplify_only_shrinks {} nestGraph 0
  have hchildren : (nestGraph.simplify {} 0).children 0 = [1, 2, 3] := by decide +kernel
  exact ⟨rfl, rfl, hshrinks.1, hchildren, (hshrinks.2.2 0).2.1, (hshrinks.2.2 1).2.2.2.1 rfl⟩

end SchemaDecl.TypeGraph
