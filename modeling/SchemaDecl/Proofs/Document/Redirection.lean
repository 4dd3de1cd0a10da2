/-
References that are resolved, and those that are not.

The search for references goes from slot to slot. Below a reference that leads nowhere it does not
go on, so that what such a reference holds is left as it is, resolvable references included.

* `Document.Stays`, `Document.Resolves`: a local reference that stays in place, and one that leads
  to a node.
* `Document.Open`: the nodes that can be reached without passing a reference that stays.
* `Document.mem_searched_iff`: the search goes to exactly these.
* `Document.ofJson_redirects_open`: **every slot of such a node is redirected, and no slot of
  another.**
* `Document.nestedReference_stays`: a reference that leads to a node and is left in place.
-/
import SchemaDecl.Proofs.Document.Distinct

namespace SchemaDecl

namespace Document

variable {d : Document} {root id x c target : NodeId}

/-- The node is a local reference that leads nowhere. -/
def Stays (d : Document) (root c : NodeId) : Prop :=
  (d.localPointer? c).isSome = true ∧ ∀ target, d.follow root c ≠ .target target

/-- The node is a local reference that leads to a node. -/
def Resolves (d : Document) (root c : NodeId) : Prop :=
  (d.localPointer? c).isSome = true ∧ ∃ target, d.follow root c = .target target

/-! ### Chains of references -/

lemma localPointer?_of_followFrom {fuel : Nat} {hops : List NodeId}
    (h : d.followFrom root fuel hops id = .target target) : d.localPointer? target = none := by
  induction fuel generalizing hops id with
  | zero => cases h
  | succ fuel ih =>
      rw [followFrom] at h
      split at h
      case h_1 hnone =>
        obtain rfl : id = target := ChainEnd.target.inj h
        exact hnone
      case h_2 pointer hpointer =>
        split at h
        · cases h
        · split at h
          · cases h
          · exact ih h

/-- A chain ends at a node that is no reference. -/
lemma localPointer?_of_follow (h : d.follow root id = .target target) :
    d.localPointer? target = none := localPointer?_of_followFrom h

lemma follow_of_localPointer?_eq_none (h : d.localPointer? id = none) :
    d.follow root id = .target id := by
  rw [follow, followFrom, h]

lemma stays_of_follow (h : ∀ target, d.follow root id ≠ .target target) : d.Stays root id := by
  refine ⟨Option.isSome_iff_ne_none.mpr fun hnone => ?_, h⟩
  exact h id (follow_of_localPointer?_eq_none hnone)

/-- Where a slot is redirected to, there is no reference that could be resolved. -/
lemma not_resolves_redirect (d : Document) (root c : NodeId) :
    ¬ d.Resolves root (d.redirect root c) := by
  rintro ⟨hsome, target, htarget⟩
  rw [redirect] at hsome htarget
  cases hfollow : d.follow root c with
  | target found =>
      rw [hfollow] at hsome
      rw [localPointer?_of_follow hfollow] at hsome
      cases hsome
  | circular pointer =>
      rw [hfollow] at htarget
      cases hfollow.symm.trans htarget
  | dangling =>
      rw [hfollow] at htarget
      cases hfollow.symm.trans htarget

/-- Below a slot the search goes on at the redirected node, unless that is a reference that
stays. -/
lemma mem_searchBelow_iff :
    x ∈ d.searchBelow root c ↔ x = d.redirect root c ∧ ¬ d.Stays root x := by
  rw [searchBelow, redirect]
  cases hfollow : d.follow root c with
  | target found =>
      have hends : ¬ d.Stays root found := by
        rintro ⟨hsome, -⟩
        rw [localPointer?_of_follow hfollow] at hsome
        cases hsome
      refine ⟨fun hx => ?_, fun hx => List.mem_singleton.mpr hx.1⟩
      obtain rfl := List.mem_singleton.mp hx
      exact ⟨rfl, hends⟩
  | circular pointer =>
      refine ⟨fun hx => absurd hx List.not_mem_nil, ?_⟩
      rintro ⟨rfl, hgoes⟩
      exact absurd (stays_of_follow (by rw [hfollow]; exact fun _ => ChainEnd.noConfusion)) hgoes
  | dangling =>
      refine ⟨fun hx => absurd hx List.not_mem_nil, ?_⟩
      rintro ⟨rfl, hgoes⟩
      exact absurd (stays_of_follow (by rw [hfollow]; exact fun _ => ChainEnd.noConfusion)) hgoes

/-! ### The search -/

lemma node_foldl_setNode (g : NodeId → NodeId) (ids : List NodeId) (e : Document)
    (hsize : e.size = d.size) :
    (ids.foldl (fun e id => e.setNode id ((d.node id).map g)) e).node x
      = if x ∈ ids then (d.node x).map g else e.node x := by
  induction ids generalizing e with
  | nil => rfl
  | cons id ids ih =>
      rw [List.foldl_cons, ih _ (size_setNode.trans hsize)]
      by_cases hmem : x ∈ ids
      · rw [if_pos hmem, if_pos (List.mem_cons_of_mem _ hmem)]
      · rw [if_neg hmem]
        by_cases hx : x = id
        · subst hx
          rw [if_pos List.mem_cons_self]
          by_cases hlt : x < e.size
          · exact node_setNode_self hlt
          · -- A number without a node stands for a leaf, before and after.
            have hge := Nat.not_lt.mp hlt
            rw [node_of_size_le (size_setNode.symm ▸ hge), node_of_size_le (hsize ▸ hge)]
            rfl
        · rw [node_setNode_of_ne hx, if_neg (by simp [hx, hmem])]

/-- A node that is searched has all its slots redirected, and any other node is left as it is. -/
lemma node_resolveReferences (d : Document) (root x : NodeId) :
    (d.resolveReferences root).node x
      = if x ∈ d.searched root then (d.node x).map (d.redirect root) else d.node x :=
  node_foldl_setNode _ _ d rfl

/-- Without references there is nothing to resolve. -/
lemma node_resolveReferences_of_plain (h : ∀ i, d.localPointer? i = none) :
    (d.resolveReferences root).node x = d.node x := by
  have hself (c : NodeId) : d.redirect root c = c := by
    rw [redirect, follow_of_localPointer?_eq_none (h c)]
  rw [node_resolveReferences]
  split
  · exact (Node.map_congr fun c _ => hself c).trans (Node.map_id _)
  · rfl

lemma size_resolveReferences : (d.resolveReferences root).size = d.size := by
  refine List.foldlRecOn (motive := fun e : Document => e.size = d.size) (d.searched root) _ rfl
    fun e he id _ => ?_
  rw [size_setNode, he]

lemma link_resolveReferences : (d.resolveReferences root).link x = d.link x := by
  refine List.foldlRecOn (motive := fun e : Document => e.link x = d.link x) (d.searched root) _ rfl
    fun e he id _ => ?_
  rw [link_setNode, he]

/-- A node holds another one. -/
def Holds (d : Document) (x c : NodeId) : Prop := c ∈ (d.node x).children

/-- The nodes that can be reached from the root, when references have been resolved, without passing
a reference that stays. -/
inductive Open (d : Document) (root : NodeId) : NodeId → Prop
  | start : Open d root root
  | down {x c : NodeId} (hx : Open d root x) (hc : (d.resolveReferences root).Holds x c)
      (hgoes : ¬ d.Stays root c) : Open d root c

/-- **The search goes to exactly the open nodes.** -/
lemma mem_searched_iff : x ∈ d.searched root ↔ d.Open root x := by
  have hedge {a b : NodeId} : Walk.Edge
      (fun id => ((d.node id).children.flatMap (d.searchBelow root)).reverse.map ((), ·)) a b ↔
      ∃ c, d.Holds a c ∧ b = d.redirect root c ∧ ¬ d.Stays root b := by
    simp [Walk.Edge, Holds, mem_searchBelow_iff]
  have hsearched {a : NodeId} : a ∈ d.searched root ↔ Walk.Reaches _ root a := Walk.mem_entered_iff
    (fun id hid => by simp [node_of_size_le hid, Node.children]) _ a
  -- The slots of a node that is searched hold what their redirected nodes are.
  have hholds {a b : NodeId} (ha : a ∈ d.searched root) : (d.resolveReferences root).Holds a b ↔
      ∃ c, d.Holds a c ∧ d.redirect root c = b := by
    rw [Holds, node_resolveReferences, if_pos ha, Node.children_map, List.mem_map]
    rfl
  constructor
  · intro hx
    induction hsearched.mp hx with
    | refl => exact .start
    | tail hab hbc ih =>
        have hb := hsearched.mpr hab
        obtain ⟨c, hc, rfl, hgoes⟩ := hedge.mp hbc
        exact .down (ih hb) ((hholds hb).mpr ⟨c, hc, rfl⟩) hgoes
  · intro hx
    induction hx with
    | start => exact hsearched.mpr .refl
    | down hx hc hgoes ih =>
        obtain ⟨slot, hslot, rfl⟩ := (hholds ih).mp hc
        exact hsearched.mpr ((hsearched.mp ih).tail (hedge.mpr ⟨slot, hslot, rfl, hgoes⟩))

/-- What can be reached is open, or is found below a reference that stays. -/
lemma open_or_below (h : Relation.ReflTransGen (d.resolveReferences root).Holds root x) :
    d.Open root x ∨ ∃ r, d.Stays root r ∧
      Relation.ReflTransGen (d.resolveReferences root).Holds root r ∧
      Relation.ReflTransGen (d.resolveReferences root).Holds r x := by
  induction h with
  | refl => exact .inl .start
  | @tail b c hab hbc ih =>
      rcases ih with hopen | ⟨r, hstays, hr, hbelow⟩
      · by_cases hstays : d.Stays root c
        · exact .inr ⟨c, hstays, hab.tail hbc, .refl⟩
        · exact .inl (.down hopen hbc hstays)
      · exact .inr ⟨r, hstays, hr, hbelow.tail hbc⟩

/-- **Every slot of an open node is redirected, and no slot of another.** In the document of a
value, a node that can be reached without passing a reference that stays holds in each slot the end
of the chain that began there, and so no reference that leads to a node. Any other node is as it was
put in; if it can be reached from the root, then below a reference that stays. -/
theorem ofJson_redirects_open (value : Json) (x : NodeId) :
    ((inserted value).2.Open (ofJson value).1 x →
      (ofJson value).2.node x
        = ((inserted value).2.node x).map ((inserted value).2.redirect (ofJson value).1) ∧
      ∀ c, (ofJson value).2.Holds x c → ¬ (inserted value).2.Resolves (ofJson value).1 c) ∧
    (¬ (inserted value).2.Open (ofJson value).1 x →
      (ofJson value).2.node x = (inserted value).2.node x ∧
      (Relation.ReflTransGen (ofJson value).2.Holds (ofJson value).1 x →
        ∃ r, (inserted value).2.Stays (ofJson value).1 r ∧
          Relation.ReflTransGen (ofJson value).2.Holds (ofJson value).1 r ∧
          Relation.ReflTransGen (ofJson value).2.Holds r x)) := by
  have hdocument : (ofJson value).2 = (inserted value).2.resolveReferences (ofJson value).1 := rfl
  rw [hdocument]
  generalize (inserted value).2 = d
  generalize (ofJson value).1 = root
  rw [← mem_searched_iff, node_resolveReferences]
  refine ⟨fun hx => ?_, fun hx => ?_⟩
  · rw [if_pos hx]
    refine ⟨rfl, fun c hc => ?_⟩
    rw [Holds, node_resolveReferences, if_pos hx, Node.children_map, List.mem_map] at hc
    obtain ⟨slot, -, rfl⟩ := hc
    exact not_resolves_redirect d root slot
  · rw [if_neg hx]
    refine ⟨rfl, fun hreach => ?_⟩
    exact (open_or_below hreach).resolve_left fun hopen => hx (mem_searched_iff.mpr hopen)

/-- A reference that leads nowhere, with a reference inside that leads to a number. -/
def nestedReference : Json :=
  .object [("a", .object [("$ref", .string "#/nope"), ("b", .object [("$ref", .string "#/c")])]),
    ("c", .int 1)]

/-- The inner reference is left in place. -/
theorem nestedReference_stays :
    ∃ x c, Relation.ReflTransGen (ofJson nestedReference).2.Holds (ofJson nestedReference).1 x ∧
      (ofJson nestedReference).2.Holds x c ∧
      (inserted nestedReference).2.Resolves (ofJson nestedReference).1 c := by
  have hfollow : (inserted nestedReference).2.follow (ofJson nestedReference).1 2 = .target 4 := by
    decide +kernel
  have hroot : (ofJson nestedReference).2.Holds (ofJson nestedReference).1 3 := by
    unfold Holds
    decide +kernel
  have hslot : (ofJson nestedReference).2.Holds 3 2 := by
    unfold Holds
    decide +kernel
  exact ⟨3, 2, .single hroot, hslot, by decide +kernel, 4, hfollow⟩

end Document

end SchemaDecl
