/-
Chains of references.

A local reference leads to the node that its pointer leads to, in the document as it was before
anything is redirected. If that is a reference too, the chain goes on. It ends at a node that is
none, it breaks at a pointer that leads nowhere, or it closes on itself.

* `Document.Hops`: one link of a chain.
* `Document.EndsAt`, `Document.Breaks`, `Document.Closes`: what becomes of a chain.
* `Document.Following`: following a chain with the nodes met so far, for as long as it takes.
* `Document.following_iff`: **a chain can always be followed, and `follow` says what becomes of
  it.**
* `Document.follow_ne_target_iff`: there is no end just if the chain breaks or closes.
* `Document.resolveReferences_redirects`: **resolving references changes slots that hold one, to the
  end of its chain, and nothing else.**
-/
import SchemaDecl.Proofs.Document.Reading
import SchemaDecl.Proofs.Document.Redirection

namespace SchemaDecl

/-- The nodes differ at most in what their slots hold: leaves are equal, lists have the same length,
and objects have the same keys in the same order. -/
inductive Node.SameOutline : Node → Node → Prop
  | leaf (value : Json.Scalar) : SameOutline (.leaf value) (.leaf value)
  | array {items items' : List NodeId} (h : items'.length = items.length) :
      SameOutline (.array items) (.array items')
  | object {members members' : Keyed NodeId} (h : members'.map Prod.fst = members.map Prod.fst) :
      SameOutline (.object members) (.object members')

lemma Node.sameOutline_map (n : Node) (g : NodeId → NodeId) : n.SameOutline (n.map g) := by
  cases n with
  | leaf value => exact .leaf value
  | array items => exact .array (List.length_map g)
  | object members => exact .object (by simp)

lemma Node.SameOutline.refl (n : Node) : n.SameOutline n := by
  cases n with
  | leaf value => exact .leaf value
  | array items => exact .array rfl
  | object members => exact .object rfl

namespace Document

open Relation

variable {d : Document} {root id x y c t : NodeId} {hops : List NodeId} {r r' : ChainEnd}

/-! ### Chains -/

/-- The node is a local reference, and its pointer leads to the other node. -/
def Hops (d : Document) (root a b : NodeId) : Prop :=
  ∃ pointer, d.localPointer? a = some pointer ∧ d.resolve? root pointer = some b

/-- The chain from the node comes to a node that is no local reference. -/
def EndsAt (d : Document) (root c t : NodeId) : Prop :=
  ReflTransGen (d.Hops root) c t ∧ d.localPointer? t = none

/-- The chain from the node comes to a pointer that leads nowhere. -/
def Breaks (d : Document) (root c : NodeId) : Prop :=
  ∃ x pointer, ReflTransGen (d.Hops root) c x ∧ d.localPointer? x = some pointer ∧
    d.resolve? root pointer = none

/-- The chain from the node comes to a node from which it leads back there. -/
def Closes (d : Document) (root c : NodeId) : Prop :=
  ∃ x, ReflTransGen (d.Hops root) c x ∧ TransGen (d.Hops root) x x

lemma Hops.unique (h : d.Hops root c x) (h' : d.Hops root c y) : x = y := by
  obtain ⟨pointer, hpointer, hx⟩ := h
  obtain ⟨pointer', hpointer', hy⟩ := h'
  obtain rfl := Option.some.inj (hpointer.symm.trans hpointer')
  exact Option.some.inj (hx.symm.trans hy)

lemma EndsAt.not_hops (h : d.EndsAt root c t) : ¬ d.Hops root t x := by
  rintro ⟨pointer, hpointer, -⟩
  cases h.2.symm.trans hpointer

/-- Whatever a chain with an end comes to has the same end before it. -/
lemma EndsAt.of_reaches (h : d.EndsAt root c t) (hx : ReflTransGen (d.Hops root) c x) :
    d.EndsAt root x t := by
  induction hx with
  | refl => exact h
  | tail _ hstep ih =>
      rcases ReflTransGen.cases_head ih.1 with rfl | ⟨z, hz, hrest⟩
      · exact absurd hstep ih.not_hops
      · obtain rfl := hz.unique hstep
        exact ⟨hrest, ih.2⟩

lemma EndsAt.unique (h : d.EndsAt root c x) (h' : d.EndsAt root c y) : x = y := by
  rcases ReflTransGen.cases_head (h.of_reaches h'.1).1 with rfl | ⟨z, hz, -⟩
  · rfl
  · exact absurd hz h'.not_hops

lemma EndsAt.not_breaks (h : d.EndsAt root c t) : ¬ d.Breaks root c := by
  rintro ⟨x, pointer, hx, hpointer, hnone⟩
  have hend := h.of_reaches hx
  rcases ReflTransGen.cases_head hend.1 with rfl | ⟨z, ⟨pointer', hpointer', hz⟩, -⟩
  · cases hend.2.symm.trans hpointer
  · obtain rfl := Option.some.inj (hpointer.symm.trans hpointer')
    cases hnone.symm.trans hz

lemma EndsAt.not_closes (h : d.EndsAt root c t) : ¬ d.Closes root c := by
  rintro ⟨x, hx, hloop⟩
  have hend := h.of_reaches hx
  clear hx
  obtain ⟨hchain, hlast⟩ := hend
  -- The circle is followed along the chain to its end, from where nothing leads on.
  induction hchain using ReflTransGen.head_induction_on with
  | refl =>
      obtain ⟨z, hz, -⟩ := TransGen.head'_iff.mp hloop
      exact EndsAt.not_hops ⟨.refl, hlast⟩ hz
  | head hstep _ ih =>
      obtain ⟨z, hz, hback⟩ := TransGen.head'_iff.mp hloop
      obtain rfl := hz.unique hstep
      exact ih (TransGen.tail' hback hstep)

/-! ### Following a chain -/

/-- Following a chain from a node, after the nodes of `hops`, ends as given. There is no limit to
how long it takes. -/
inductive Following (d : Document) (root : NodeId) : List NodeId → NodeId → ChainEnd → Prop
  | arrive {hops : List NodeId} {id : NodeId} (hend : d.localPointer? id = none) :
      Following d root hops id (.target id)
  | close {hops : List NodeId} {id : NodeId} {pointer : String}
      (hpointer : d.localPointer? id = some pointer) (hmet : id ∈ hops) :
      Following d root hops id (.circular pointer)
  | fall {hops : List NodeId} {id : NodeId} {pointer : String}
      (hpointer : d.localPointer? id = some pointer) (hnew : id ∉ hops)
      (hnone : d.resolve? root pointer = none) : Following d root hops id .dangling
  | hop {hops : List NodeId} {id next : NodeId} {pointer : String} {r : ChainEnd}
      (hpointer : d.localPointer? id = some pointer) (hnew : id ∉ hops)
      (hnext : d.resolve? root pointer = some next)
      (hrest : Following d root (id :: hops) next r) : Following d root hops id r

lemma Following.unique (h : d.Following root hops id r) (h' : d.Following root hops id r') :
    r = r' := by
  induction h with
  | arrive hend =>
      cases h' with
      | arrive => rfl
      | _ hpointer => cases hend.symm.trans hpointer
  | close hpointer hmet =>
      cases h' with
      | arrive hend => cases hend.symm.trans hpointer
      | close hpointer' _ => rw [Option.some.inj (hpointer.symm.trans hpointer')]
      | fall _ hnew _ => exact absurd hmet hnew
      | hop _ hnew _ _ => exact absurd hmet hnew
  | fall hpointer hnew hnone =>
      cases h' with
      | arrive hend => cases hend.symm.trans hpointer
      | close _ hmet => exact absurd hmet hnew
      | fall => rfl
      | hop hpointer' _ hnext _ =>
          obtain rfl := Option.some.inj (hpointer.symm.trans hpointer')
          cases hnone.symm.trans hnext
  | hop hpointer hnew hnext _ ih =>
      cases h' with
      | arrive hend => cases hend.symm.trans hpointer
      | close _ hmet => exact absurd hmet hnew
      | fall hpointer' _ hnone =>
          obtain rfl := Option.some.inj (hpointer.symm.trans hpointer')
          cases hnone.symm.trans hnext
      | hop hpointer' _ hnext' hrest' =>
          obtain rfl := Option.some.inj (hpointer.symm.trans hpointer')
          obtain rfl := Option.some.inj (hnext.symm.trans hnext')
          exact ih hrest'

lemma lt_size_of_localPointer? {pointer : String} (h : d.localPointer? id = some pointer) :
    id < d.size := by
  obtain ⟨htext, -⟩ := Option.filter_eq_some_iff.mp h
  obtain ⟨c, hget⟩ := exists_get?_of_string? htext
  exact lt_size_of_mem_children (mem_children_of_get? hget)

/-- The nodes met so far are all different, so that the fuel lasts as long as there are nodes not
met. -/
lemma following_followFrom (fuel : Nat) (hnodup : hops.Nodup) (hlt : ∀ x ∈ hops, x < d.size)
    (hfuel : d.size < fuel + hops.length) :
    d.Following root hops id (d.followFrom root fuel hops id) := by
  induction fuel generalizing hops id with
  | zero =>
      have := length_le_size hnodup hlt
      omega
  | succ fuel ih =>
      rw [followFrom]
      split
      case h_1 hend => exact .arrive hend
      case h_2 pointer hpointer =>
        split
        case isTrue hmet => exact .close hpointer (List.contains_iff_mem.mp hmet)
        case isFalse hnew =>
          have hnot : id ∉ hops := fun hmem => hnew (List.contains_iff_mem.mpr hmem)
          split
          case h_1 hnone => exact .fall hpointer hnot hnone
          case h_2 next hnext =>
            refine .hop hpointer hnot hnext (ih (List.nodup_cons.mpr ⟨hnot, hnodup⟩) ?_ ?_)
            · exact List.forall_mem_cons.mpr ⟨lt_size_of_localPointer? hpointer, hlt⟩
            · rw [List.length_cons]
              omega

/-- **A chain can always be followed**, in one way, and `follow` says what becomes of it. -/
lemma following_iff : d.Following root [] id r ↔ r = d.follow root id := by
  have hfollow : d.Following root [] id (d.follow root id) :=
    following_followFrom (d.size + 2) List.nodup_nil (by simp) (by simp)
  exact ⟨fun h => h.unique hfollow, fun h => h ▸ hfollow⟩

/-- What becomes of a chain. All nodes met so far lead to the one that is looked at. -/
lemma Following.outcome (h : d.Following root hops id r)
    (hback : ∀ x ∈ hops, TransGen (d.Hops root) x id) :
    (∃ t, r = .target t ∧ d.EndsAt root id t) ∨
      ((∀ t, r ≠ .target t) ∧ (d.Breaks root id ∨ d.Closes root id)) := by
  induction h with
  | @arrive hops id hend => exact .inl ⟨id, rfl, .refl, hend⟩
  | @close hops id pointer _ hmet =>
      exact .inr ⟨fun _ => ChainEnd.noConfusion, .inr ⟨id, .refl, hback id hmet⟩⟩
  | @fall hops id pointer hpointer _ hnone =>
      exact .inr ⟨fun _ => ChainEnd.noConfusion, .inl ⟨id, pointer, .refl, hpointer, hnone⟩⟩
  | @hop hops id next pointer r hpointer _ hnext _ ih =>
      have hstep : d.Hops root id next := ⟨pointer, hpointer, hnext⟩
      have hback' : ∀ x ∈ id :: hops, TransGen (d.Hops root) x next :=
        List.forall_mem_cons.mpr ⟨.single hstep, fun x hx => (hback x hx).tail hstep⟩
      rcases ih hback' with ⟨t, rfl, hend⟩ | ⟨hr, ⟨x, p, hx, hp⟩ | ⟨x, hx, hloop⟩⟩
      · exact .inl ⟨t, rfl, .head hstep hend.1, hend.2⟩
      · exact .inr ⟨hr, .inl ⟨x, p, .head hstep hx, hp⟩⟩
      · exact .inr ⟨hr, .inr ⟨x, .head hstep hx, hloop⟩⟩

lemma follow_outcome (d : Document) (root id : NodeId) :
    (∃ t, d.follow root id = .target t ∧ d.EndsAt root id t) ∨
      ((∀ t, d.follow root id ≠ .target t) ∧ (d.Breaks root id ∨ d.Closes root id)) :=
  (following_iff.mpr rfl).outcome (by simp)

lemma follow_eq_target_iff : d.follow root id = .target t ↔ d.EndsAt root id t := by
  rcases follow_outcome d root id with ⟨t', ht', hend⟩ | ⟨hnone, hfails⟩
  · rw [ht', ChainEnd.target.injEq]
    exact ⟨fun h => h ▸ hend, fun h => hend.unique h⟩
  · exact iff_of_false (hnone t) fun h => hfails.elim h.not_breaks h.not_closes

/-- **There is no end just if the chain breaks or closes.** -/
lemma follow_ne_target_iff :
    (∀ t, d.follow root id ≠ .target t) ↔ d.Breaks root id ∨ d.Closes root id := by
  rcases follow_outcome d root id with ⟨t, ht, hend⟩ | ⟨hnone, hfails⟩
  · exact iff_of_false (fun hne => hne t ht) fun h => h.elim hend.not_breaks hend.not_closes
  · exact iff_of_true hnone hfails

/-! ### Slots -/

/-- A slot that is redirected holds a local reference, and then it holds the end of its chain. -/
lemma endsAt_redirect (h : d.redirect root c ≠ c) :
    (d.localPointer? c).isSome = true ∧ d.EndsAt root c (d.redirect root c) := by
  rw [redirect] at h ⊢
  cases hfollow : d.follow root c with
  | target t =>
      rw [hfollow] at h
      refine ⟨Option.isSome_iff_ne_none.mpr fun hnone => h ?_, follow_eq_target_iff.mp hfollow⟩
      rw [follow_of_localPointer?_eq_none hnone] at hfollow
      exact (ChainEnd.target.inj hfollow).symm
  | _ =>
      rw [hfollow] at h
      exact absurd rfl h

/-- What a slot holds after references have been resolved. -/
lemma slot_resolveReferences {i : Nat} {c' : NodeId} (hc : (d.node x).children[i]? = some c)
    (hc' : ((d.resolveReferences root).node x).children[i]? = some c') :
    c' = c ∨ c' = d.redirect root c := by
  rw [node_resolveReferences] at hc'
  split at hc'
  · rw [Node.children_map, List.getElem?_map, hc, Option.map_some] at hc'
    exact .inr (Option.some.inj hc').symm
  · exact .inl (Option.some.inj (hc.symm.trans hc')).symm

/-- What is open holds the ends of its chains. -/
lemma slot_of_endsAt {i : Nat} (hopen : d.Open root x) (hc : (d.node x).children[i]? = some c)
    (hend : d.EndsAt root c t) : ((d.resolveReferences root).node x).children[i]? = some t := by
  have hredirect : d.redirect root c = t := by
    rw [redirect, follow_eq_target_iff.mpr hend]
  rw [node_resolveReferences, if_pos (mem_searched_iff.mpr hopen), Node.children_map,
    List.getElem?_map, hc, Option.map_some, hredirect]

/-- **Resolving references redirects slots and does nothing else.** There are as many nodes as
before, with the same outlines. A slot that changes held an object whose `$ref` is a text with a
number sign in front, and then it holds the one node that its chain ends at, in the document as it
was. Where the search goes, every slot whose chain has an end comes to hold it. Following a chain
always comes to a close; there is no end just if the chain breaks or closes on itself. -/
theorem resolveReferences_redirects (d : Document) (root : NodeId) :
    (d.resolveReferences root).size = d.size ∧
    (∀ x, (d.node x).SameOutline ((d.resolveReferences root).node x)) ∧
    (∀ x (i : Nat) c c', (d.node x).children[i]? = some c →
      ((d.resolveReferences root).node x).children[i]? = some c' → c' ≠ c →
      (∃ text, d.string? c "$ref" = some text ∧ text.toList.head? = some '#') ∧
      d.EndsAt root c c' ∧ ∀ t, d.EndsAt root c t → t = c') ∧
    (∀ x, d.Open root x → ∀ (i : Nat) c t, (d.node x).children[i]? = some c → d.EndsAt root c t →
      ((d.resolveReferences root).node x).children[i]? = some t) ∧
    (∀ c, (∀ t, d.follow root c ≠ .target t) ↔ d.Breaks root c ∨ d.Closes root c) ∧
    ∀ c r, d.Following root [] c r ↔ r = d.follow root c := by
  refine ⟨size_resolveReferences, fun x => ?_, fun x i c c' hc hc' hne => ?_,
    fun x hopen i c t hc hend => slot_of_endsAt hopen hc hend, fun c => follow_ne_target_iff,
    fun c r => following_iff⟩
  · rw [node_resolveReferences]
    split
    · exact Node.sameOutline_map _ _
    · exact .refl _
  · obtain rfl := (slot_resolveReferences hc hc').resolve_left hne
    obtain ⟨hpointer, hend⟩ := endsAt_redirect hne
    obtain ⟨text, htext⟩ := Option.isSome_iff_exists.mp hpointer
    obtain ⟨htext, hsign⟩ := Option.filter_eq_some_iff.mp htext
    exact ⟨⟨text, htext, by simpa using hsign⟩, hend, fun t ht => ht.unique hend⟩

/-- A reference to a reference to a number, and a reference to itself. -/
def chainedReferences : Json :=
  .object [("a", .object [("$ref", .string "#/b")]), ("b", .object [("$ref", .string "#/c")]),
    ("c", .int 1), ("again", .object [("$ref", .string "#/again")])]

/-- The first slot comes to hold the number, and the last chain has no end. -/
theorem resolveReferences_redirects_chained :
    ((inserted chainedReferences).2.node 7).children[0]? = some 1 ∧
    ((ofJson chainedReferences).2.node 7).children[0]? = some 4 ∧
    (inserted chainedReferences).2.EndsAt 7 1 4 ∧
    ((inserted chainedReferences).2.Breaks 7 6 ∨ (inserted chainedReferences).2.Closes 7 6) := by
  have hbefore : ((inserted chainedReferences).2.node 7).children[0]? = some 1 := by decide +kernel
  have hafter : ((ofJson chainedReferences).2.node 7).children[0]? = some 4 := by decide +kernel
  have hcircular : (inserted chainedReferences).2.follow 7 6 = .circular "#/again" := by
    decide +kernel
  have hdocument : (ofJson chainedReferences).2
      = (inserted chainedReferences).2.resolveReferences 7 := rfl
  obtain ⟨-, -, hslots, -, hfails, -⟩ :=
    resolveReferences_redirects (inserted chainedReferences).2 7
  refine ⟨hbefore, hafter, (hslots 7 0 1 4 hbefore (hdocument ▸ hafter) (by decide)).2.1,
    (hfails 6).mp fun t => ?_⟩
  rw [hcircular]
  exact ChainEnd.noConfusion

end Document

end SchemaDecl
