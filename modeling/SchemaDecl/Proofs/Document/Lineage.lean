/-
Links and roots.

A walk from the root links every container to the one that reached it first. However nodes hold one
another in circles, the links do not run in a circle: they lead from each container that the walk
reached back to the root.

* `Document.link_linkFrom`: what a walk links.
* `Document.Rooted`: the chain of parents ends at the root.
* `Document.Rooted.rootOf_eq`: the climb finds that end.
* `Document.Lineal`: the containers inside rooted nodes are rooted.
* `Document.lineal_linkFrom`: such is a document that a walk from the root has linked.
-/
import SchemaDecl.Proofs.Document.Redirection
import SchemaDecl.Proofs.Document.Reading
import SchemaDecl.Proofs.Walk.Embedding

namespace SchemaDecl.Document

variable {d d' : Document} {i c x p root : NodeId} {l : Link} {links : List (Link × NodeId)}

/-! ### What is linked -/

lemma size_linkIfFree : (d.linkIfFree c l).size = d.size := by
  rw [linkIfFree]
  split
  · rfl
  · exact Array.size_modify

lemma link_linkIfFree_of_ne (h : x ≠ c) : (d.linkIfFree c l).link x = d.link x := by
  rw [linkIfFree]
  split
  · rfl
  · rw [link, Array.getElem?_modify, if_neg (Ne.symm h), link]

lemma link_linkIfFree_self (hlt : c < d.size) (hfree : d.isLinked c = false) :
    (d.linkIfFree c l).link c = l := by
  rw [linkIfFree, hfree, if_neg Bool.false_ne_true, link, Array.getElem?_modify, if_pos rfl]
  rw [size] at hlt
  simp [hlt]

/-- The document with some nodes linked, unless they are. -/
def linkAll (d : Document) (links : List (Link × NodeId)) : Document :=
  links.foldl (fun d new => d.linkIfFree new.2 new.1) d

lemma node_linkAll : (d.linkAll links).node x = d.node x :=
  List.foldlRecOn (motive := fun d' : Document => d'.node x = d.node x) links _ rfl
    fun _ ih _ _ => node_linkIfFree.trans ih

lemma size_linkAll : (d.linkAll links).size = d.size :=
  List.foldlRecOn (motive := fun d' : Document => d'.size = d.size) links _ rfl
    fun _ ih _ _ => size_linkIfFree.trans ih

lemma link_linkAll_of_not_mem (hx : x ∉ links.map Prod.snd) :
    (d.linkAll links).link x = d.link x := by
  refine List.foldlRecOn (motive := fun d' : Document => d'.link x = d.link x) links _ rfl
    fun _ ih new hnew => ?_
  have hne : x ≠ new.2 := by
    rintro rfl
    exact hx (List.mem_map_of_mem hnew)
  rw [link_linkIfFree_of_ne hne, ih]

lemma link_linkAll_of_mem (hnodup : (links.map Prod.snd).Nodup) (hmem : (l, x) ∈ links)
    (hlt : x < d.size) (hfree : d.isLinked x = false) : (d.linkAll links).link x = l := by
  induction links generalizing d with
  | nil => cases hmem
  | cons new links ih =>
      rw [List.map_cons, List.nodup_cons] at hnodup
      rw [linkAll, List.foldl_cons, ← linkAll]
      rcases List.mem_cons.mp hmem with rfl | hmem
      · rw [link_linkAll_of_not_mem hnodup.1, link_linkIfFree_self hlt hfree]
      · have hne : x ≠ new.2 := fun heq => hnodup.1 (heq ▸ List.mem_map_of_mem hmem)
        refine ih hnodup.2 hmem (by rwa [size_linkIfFree]) ?_
        rwa [isLinked, link_linkIfFree_of_ne hne]

/-! ### The links that a walk makes -/

lemma openChildren_of_size_le (h : d.size ≤ x) : d.openChildren x = [] := by
  rw [openChildren, node_of_size_le h]
  rfl

lemma mem_openChildren {new : Link × NodeId} (h : new ∈ d.openChildren i) :
    new.1 = .under i ∧ new.2 ∈ (d.node i).children ∧ d.isOpen new.2 = true := by
  obtain ⟨c, hc, rfl⟩ := List.mem_map.mp h
  obtain ⟨hc, hopen⟩ := List.mem_filter.mp hc
  exact ⟨rfl, hc, hopen⟩

lemma nodup_newLinks : ((d.newLinks root l).map Prod.snd).Nodup := by
  rw [newLinks]
  split
  · exact Walk.nodup_entered (fun _ => openChildren_of_size_le) _
  · exact List.nodup_nil

/-- A node is linked as the walk says, or under one that is linked in the walk. -/
lemma eq_or_mem_openChildren {new : Link × NodeId} (h : new ∈ d.newLinks root l) :
    new = (l, root) ∨ ∃ p ∈ (d.newLinks root l).map Prod.snd, new ∈ d.openChildren p := by
  rw [newLinks] at h ⊢
  split at h
  case isFalse => cases h
  case isTrue hopen =>
    rw [if_pos hopen]
    exact Walk.eq_start_or_exists_mem_next (fun _ => openChildren_of_size_le) h

lemma isOpen_of_mem_newLinks {new : Link × NodeId} (h : new ∈ d.newLinks root l) :
    d.isOpen new.2 = true := by
  rcases eq_or_mem_openChildren h with rfl | ⟨p, -, hp⟩
  · rw [newLinks] at h
    split at h
    · assumption
    · cases h
  · exact (mem_openChildren hp).2.2

lemma lt_of_mem_newLinks {new : Link × NodeId} (h : new ∈ d.newLinks root l) : new.2 < d.size := by
  by_contra hlt
  have hopen := isOpen_of_mem_newLinks h
  rw [isOpen, node_of_size_le (Nat.le_of_not_lt hlt)] at hopen
  cases hopen

/-- **A walk links what it reaches.** -/
lemma link_linkFrom {l' : Link} (h : (l', x) ∈ d.newLinks root l) :
    (d.linkFrom root l).link x = l' := by
  have hopen := isOpen_of_mem_newLinks h
  rw [isOpen, Bool.and_eq_true, Bool.not_eq_true'] at hopen
  exact link_linkAll_of_mem nodup_newLinks h (lt_of_mem_newLinks h) hopen.2

lemma size_linkFrom : (d.linkFrom root l).size = d.size := size_linkAll

lemma link_linkFrom_of_not_mem (h : x ∉ (d.newLinks root l).map Prod.snd) :
    (d.linkFrom root l).link x = d.link x :=
  link_linkAll_of_not_mem h

/-! ### Chains of parents -/

lemma link_of_parent? (h : d.parent? i = some c) : d.link i = .under c := by
  rw [parent?] at h
  split at h
  case h_1 p hlink => rw [hlink, Option.some.inj h]
  case h_2 => cases h

lemma climb_lt (h : d.Closed) (hi : i < d.size) (fuel : Nat) (seen : List NodeId) :
    d.climb fuel seen i < d.size := by
  induction fuel generalizing seen i with
  | zero => exact hi
  | succ fuel ih =>
      rw [climb]
      split
      case h_1 => exact hi
      case h_2 p hparent =>
        split
        · exact hi
        · exact ih (h.lt_of_link (link_of_parent? hparent)) _

lemma rootOf_lt (h : d.Closed) (hi : i < d.size) : d.rootOf i < d.size := climb_lt h hi _ _

/-- The chain of parents of a node ends at the root, which has no parent. -/
inductive Rooted (d : Document) (root : NodeId) : NodeId → Prop
  | start (hroot : d.parent? root = none) : Rooted d root root
  | under {x p : NodeId} (hx : d.parent? x = some p) (hp : Rooted d root p) : Rooted d root x

namespace Rooted

/-- A rooted node is not above itself. -/
lemma not_above (h : d.Rooted root x) :
    ¬ Relation.TransGen (fun a b => d.parent? a = some b) x x := by
  induction h with
  | start hroot =>
      intro hcycle
      obtain ⟨p, hp, -⟩ := Relation.TransGen.head'_iff.mp hcycle
      rw [hroot] at hp
      cases hp
  | under hx _ ih =>
      intro hcycle
      obtain ⟨q, hq, hrest⟩ := Relation.TransGen.head'_iff.mp hcycle
      obtain rfl := Option.some.inj (hx.symm.trans hq)
      exact ih (Relation.TransGen.tail' hrest hx)

lemma lt_size (h : d.Rooted root x) (hroot : root < d.size) : x < d.size := by
  cases h with
  | start => exact hroot
  | under hx _ =>
      by_contra hlt
      rw [parent?, link_of_size_le (Nat.le_of_not_lt hlt)] at hx
      cases hx

/-- The climb from a rooted node that has been below it so far. -/
lemma climb_eq (h : d.Rooted root x) (hroot : root < d.size) (fuel : Nat)
    {seen : List NodeId} (hnodup : seen.Nodup) (hlt : ∀ y ∈ seen, y < d.size)
    (hbelow : ∀ y ∈ seen, Relation.TransGen (fun a b => d.parent? a = some b) y x)
    (hfuel : d.size < fuel + seen.length) : d.climb fuel seen x = root := by
  induction h generalizing fuel seen with
  | start hstart =>
      cases fuel with
      | zero => rfl
      | succ fuel => rw [climb, hstart]
  | @under x p hparent hp ih =>
      have hnew : x ∉ seen := fun hmem => (under hparent hp).not_above (hbelow x hmem)
      have hnodup' : (x :: seen).Nodup := List.nodup_cons.mpr ⟨hnew, hnodup⟩
      have hlt' : ∀ y ∈ x :: seen, y < d.size :=
        List.forall_mem_cons.mpr ⟨(under hparent hp).lt_size hroot, hlt⟩
      cases fuel with
      | zero =>
          have := length_le_size hnodup hlt
          omega
      | succ fuel =>
          rw [climb, hparent]
          dsimp only
          rw [if_neg fun hmem => hnew (List.contains_iff_mem.mp hmem)]
          refine ih fuel hnodup' hlt' ?_ (by rw [List.length_cons]; omega)
          exact List.forall_mem_cons.mpr ⟨.single hparent, fun y hy => (hbelow y hy).tail hparent⟩

/-- **The climb from a rooted node ends at the root.** -/
theorem rootOf_eq (h : d.Rooted root x) (hroot : root < d.size) : d.rootOf x = root :=
  h.climb_eq hroot _ List.nodup_nil (by simp) (by simp) (by simp)

/-- Parents that stay, stay above. -/
lemma mono (h : d.Rooted root x) (hroot : root < d.size)
    (hparent : ∀ y < d.size, d'.parent? y = d.parent? y) : d'.Rooted root x := by
  induction h with
  | start hnone => exact .start ((hparent root hroot).trans hnone)
  | @under x p hx hp ih => exact .under ((hparent x ((under hx hp).lt_size hroot)).trans hx) ih

end Rooted

/-- A node that is a container is rooted. -/
def Hangs (d : Document) (root c : NodeId) : Prop :=
  (d.node c).isContainer = true → d.Rooted root c

/-- The document is closed, the root has no parent, and the containers that rooted nodes hold are
rooted. -/
structure Lineal (d : Document) (root : NodeId) : Prop where
  closed : d.Closed
  lt_size : root < d.size
  start : d.Rooted root root
  child : ∀ x, d.Rooted root x → ∀ c ∈ (d.node x).children, d.Hangs root c

lemma isContainer_of_mem_children (h : c ∈ (d.node x).children) :
    (d.node x).isContainer = true := by
  cases hnode : d.node x with
  | leaf value => simp [hnode, Node.children] at h
  | _ => rfl

/-- So are the containers further inside. -/
lemma Lineal.hangs_of_holds (h : d.Lineal root) (hx : d.Rooted root x)
    (hc : Relation.TransGen d.Holds x c) : c < d.size ∧ d.Hangs root c := by
  induction hc with
  | single hc => exact ⟨h.closed.child_lt hc, h.child x hx _ hc⟩
  | tail _ hc ih =>
      exact ⟨h.closed.child_lt hc, h.child _ (ih.2 (isContainer_of_mem_children hc)) _ hc⟩

/-! ### Links of a walk -/

section Walk

variable (hd : d.Closed) (hroot : root < d.size) (hfree : ∀ i, d.link i = .free)

/-- What a walk from the root links is rooted. -/
lemma rooted_of_mem_newLinks {new : Link × NodeId} (h : new ∈ d.newLinks root .root) :
    (d.linkFrom root .root).Rooted root new.2 := by
  have hgrown (news : List (Link × NodeId)) (hsub : news ⊆ d.newLinks root .root)
      (hnews : Walk.Grown d.openChildren (.root, root) news) :
      ∀ new ∈ news, (d.linkFrom root .root).Rooted root new.2 := by
    -- each node is linked under one that was linked before it
    induction news with
    | nil => simp
    | cons new news ih =>
        obtain ⟨hfrom, hrest⟩ := hnews
        obtain ⟨hnew, hsub⟩ := List.cons_subset.mp hsub
        have hrooted := ih hsub hrest
        refine List.forall_mem_cons.mpr ⟨?_, hrooted⟩
        obtain ⟨link, x⟩ := new
        have hlink := link_linkFrom hnew
        rcases hfrom with heq | ⟨p, hp, hedge⟩
        · obtain ⟨rfl, rfl⟩ := Prod.mk.inj heq
          exact .start (by rw [parent?, hlink])
        · obtain ⟨above, habove, rfl⟩ := List.mem_map.mp hp
          obtain ⟨rfl, -, -⟩ : link = .under above.2 ∧ _ := mem_openChildren hedge
          exact .under (by rw [parent?, hlink]) (hrooted above habove)
  refine hgrown _ (fun new => List.mem_reverse.mp) ?_ new (List.mem_reverse.mpr h)
  rw [newLinks] at h ⊢
  split at h
  case isTrue hopen =>
    rw [if_pos hopen]
    exact Walk.grown_entered (fun _ => openChildren_of_size_le) _
  case isFalse => cases h

section Free

include hfree

/-- **A walk links the containers that can be reached.** -/
lemma mem_newLinks_iff : x ∈ (d.newLinks root l).map Prod.snd ↔
    (d.node x).isContainer = true ∧ Relation.ReflTransGen d.Holds root x := by
  have hopen (c : NodeId) : d.isOpen c = (d.node c).isContainer := by
    rw [isOpen, isLinked, hfree, bne_self_eq_false, Bool.not_false, Bool.and_true]
  rw [newLinks, hopen]
  split
  case isFalse hroot =>
    refine iff_of_false (by simp) ?_
    rintro ⟨hx, hreaches⟩
    refine hroot ?_
    rcases Relation.ReflTransGen.cases_head hreaches with rfl | ⟨c, hc, -⟩
    · exact hx
    · exact isContainer_of_mem_children hc
  case isTrue hroot =>
    rw [Walk.mem_entered_iff (fun _ => openChildren_of_size_le)]
    constructor
    · intro hreaches
      induction hreaches with
      | refl => exact ⟨hroot, .refl⟩
      | tail _ hab ih =>
          obtain ⟨label, hmem⟩ := hab
          obtain ⟨-, hchild, hc⟩ := mem_openChildren hmem
          exact ⟨(hopen _).symm.trans hc, ih.2.tail hchild⟩
    · rintro ⟨hx, hreaches⟩
      induction hreaches with
      | refl => exact .refl
      | @tail a b _ hab ih =>
          refine (ih (isContainer_of_mem_children hab)).tail ⟨.under a, ?_⟩
          exact List.mem_map_of_mem (List.mem_filter.mpr ⟨hab, (hopen b).trans hx⟩)

end Free

end Walk

end SchemaDecl.Document
