/-
Links and roots of twins.

* `Twin.linkFrom`: documents whose containers are linked are twins, if they were before.
* `Twin.rootOf_eq`: chains of parents end alike on both sides.
* `Secluded.rootOf_ne`: and they do not end at the map of definitions.
-/
import SchemaDecl.Proofs.Document.Lineage
import SchemaDecl.Proofs.Spare.Reference

namespace SchemaDecl.Document

variable {d e d' e' : Document} {k : String} {m extra i c x root : NodeId} {f : NodeId → NodeId}
  {l : Link} {links : List (Link × NodeId)}

/-! ### The map of definitions -/

/-- If a container is linked under the map of definitions, then the map has been reached from the
node that holds it, which nothing holds. -/
lemma Secluded.linked_linkFrom (h : d.Secluded k m) (hm : root ≠ m) (hfree : ∀ i, d.link i = .free)
    (hi : (d.linkFrom root .root).link i = .under m) :
    ∃ p, (d.linkFrom root .root).link m = .under p ∧ (d.linkFrom root .root).parent? p = none := by
  -- what is linked under a node is linked in the walk, and so is the node
  have hunder {c p : NodeId} (hc : (d.linkFrom root .root).link c = .under p) :
      p ∈ (d.newLinks root .root).map Prod.snd ∧ c ∈ (d.node p).children := by
    by_cases hmem : c ∈ (d.newLinks root .root).map Prod.snd
    · obtain ⟨⟨l, c⟩, hnew, rfl⟩ := List.mem_map.mp hmem
      rw [link_linkFrom hnew] at hc
      subst hc
      rcases eq_or_mem_openChildren hnew with heq | ⟨q, hq, hedge⟩
      · cases heq
      · obtain ⟨hp, hchild, -⟩ := mem_openChildren hedge
        obtain rfl := Link.under.inj hp
        exact ⟨hq, hchild⟩
    · rw [link_linkFrom_of_not_mem hmem, hfree] at hc
      cases hc
  obtain ⟨⟨l, x⟩, hnew, rfl⟩ := List.mem_map.mp (hunder hi).1
  rcases eq_or_mem_openChildren hnew with heq | ⟨p, hp, hedge⟩
  · exact absurd (Prod.mk.inj heq).2.symm hm
  · obtain ⟨rfl, hchild, -⟩ : l = .under p ∧ _ := mem_openChildren hedge
    refine ⟨p, link_linkFrom hnew, ?_⟩
    cases hlink : (d.linkFrom root .root).link p with
    | under q => exact absurd hchild ((h.fits q).unheld p (hunder hlink).2)
    | _ => rw [parent?, hlink]

namespace Secluded

variable (h : d.Secluded k m)
include h

/-- A chain that has not been at the map does not end there: from the map it goes on to a node
without a parent. -/
lemma climb_ne (fuel : Nat) {seen : List NodeId} (hnodup : seen.Nodup)
    (hlt : ∀ x ∈ seen, x < d.size)
    (hi : i < d.size) (hseen : m ∉ seen) (hm : i = m → ∃ c, d.link c = .under m)
    (hfuel : d.size < fuel + seen.length) : d.climb fuel seen i ≠ m := by
  induction fuel generalizing seen i with
  | zero =>
      have := length_le_size hnodup hlt
      omega
  | succ fuel ih =>
      rw [climb]
      by_cases heq : i = m
      · obtain ⟨c, hc⟩ := hm heq
        obtain ⟨p, hp, hnone⟩ := h.linked c hc
        have hparent : d.parent? i = some p := by rw [heq, parent?, hp]
        have hpm : p ≠ m := by
          rintro rfl
          rw [parent?, hp] at hnone
          cases hnone
        have hcontains : seen.contains i = false := by
          rw [heq, ← Bool.not_eq_true, List.contains_iff_mem]
          exact hseen
        rw [hparent]
        dsimp only
        rw [hcontains, if_neg Bool.false_ne_true]
        cases fuel with
        | zero => exact hpm
        | succ fuel =>
            rw [climb, hnone]
            exact hpm
      · split
        case h_1 => exact heq
        case h_2 p hparent =>
          have hlink := link_of_parent? hparent
          split
          case isTrue => exact heq
          case isFalse hnew =>
            have hnot : i ∉ seen := fun hmem => hnew (List.contains_iff_mem.mpr hmem)
            refine ih (List.nodup_cons.mpr ⟨hnot, hnodup⟩) (by simpa using ⟨hi, hlt⟩)
              (h.closed.lt_of_link hlink) ?_ (fun hpm => ⟨i, hpm ▸ hlink⟩)
              (by rw [List.length_cons]; omega)
            exact fun hmem => (List.mem_cons.mp hmem).elim (Ne.symm heq) hseen

/-- **Chains of parents do not end at the map of definitions.** -/
theorem rootOf_ne (hi : i < d.size) (hm : i ≠ m) : d.rootOf i ≠ m :=
  h.climb_ne (d.size + 2) List.nodup_nil (by simp) hi (by simp) (fun heq => absurd heq hm) (by simp)

end Secluded

/-! ### Twins with links -/

namespace Twin

/-- Other links of the same nodes. -/
lemma relink (h : Twin k m extra f d e) (hsize : d'.size = d.size)
    (hnode : ∀ x, d'.node x = d.node x)
    (hsize' : e'.size = e.size) (hnode' : ∀ x, e'.node x = e.node x) (hclosed : d'.Closed)
    (hclosed' : e'.Closed) (hlink : ∀ i < d.size, e'.link (f i) = (d'.link i).map f)
    (hlinked : ∀ i, d'.link i = .under m → ∃ p, d'.link m = .under p ∧ d'.parent? p = none) :
    Twin k m extra f d' e' where
  left := {
    closed := hclosed
    isObject := (Secluded.isObject_eq_of_node (hnode m)).trans h.left.isObject
    fits x := by
      rw [hnode]
      refine (h.left.fits x).mono (Nat.le_of_eq hsize.symm)
        (fun c _ => Secluded.isObject_eq_of_node (hnode c)) fun c _ hmem => ?_
      rwa [hnode] at hmem
    linked := hlinked }
  right := hclosed'
  lt i hi := by
    rw [hsize']
    exact h.lt i (hsize ▸ hi)
  inj := by
    rw [hsize]
    exact h.inj
  node_eq i hi hm := by
    rw [hsize] at hi
    rw [hnode', hnode, h.node_eq i hi hm]
  map_eq := by
    rw [hnode, hnode']
    exact h.map_eq
  link_eq i hi := hlink i (hsize ▸ hi)
  extra_apart := by
    rw [hsize]
    exact h.extra_apart
  idle x hx := by
    rw [hsize] at hx ⊢
    rw [hnode']
    exact h.idle x hx

variable (h : Twin k m extra f d e)
include h

lemma isOpen_eq (hi : i < d.size) : e.isOpen (f i) = d.isOpen i := by
  have hcontainer : (e.node (f i)).isContainer = (d.node i).isContainer := by
    by_cases hm : i = m
    · subst hm
      obtain ⟨entries, hd, -, he⟩ := h.map_eq
      rw [hd, he]
      rfl
    · rw [h.node_eq i hi hm]
      cases d.node i <;> rfl
  rw [isOpen, isOpen, hcontainer, h.isLinked_eq hi]

lemma embeds_openChildren : Walk.Embeds d.openChildren e.openChildren (· < d.size) f (Link.map f)
    (spareIn f d.size) where
  inj := h.inj
  keeps _ hi := spareIn_image hi
  next_eq i hi := by
    have hold : ((((d.node i).children.map f).filter e.isOpen).map (Link.under (f i), ·))
        = (d.openChildren i).map fun e => (e.1.map f, f e.2) := by
      rw [openChildren, List.filter_map, List.map_map, List.map_map]
      refine congrArg₂ List.map rfl (List.filter_congr fun c hc => ?_)
      exact h.isOpen_eq (h.child_lt hc)
    have hkept : Walk.keptEdges (spareIn f d.size)
        ((d.openChildren i).map fun e => (e.1.map f, f e.2))
        = (d.openChildren i).map fun e => (e.1.map f, f e.2) :=
      keptEdges_map fun entry hentry => h.child_lt (mem_openChildren hentry).2.1
    rcases h.children_eq hi with hchildren | hchildren
    · rw [openChildren, hchildren, hold, hkept]
    · have hextra : Walk.keptEdges (spareIn f d.size)
          (([extra].filter e.isOpen).map (Link.under (f i), ·)) = [] := by
        refine keptEdges_eq_nil fun entry hentry => ?_
        obtain ⟨c, hc, rfl⟩ := List.mem_map.mp hentry
        obtain rfl := List.mem_singleton.mp (List.mem_filter.mp hc).1
        exact h.extra_apart
      rw [openChildren, hchildren, List.filter_append, List.map_append, Walk.keptEdges_append, hold,
        hkept, hextra, List.append_nil]
  dom_next i hi entry hentry := h.child_lt (mem_openChildren hentry).2.1
  spare_next x hx entry hentry := spareIn_eq_true_iff.mpr
    ((h.idle x (spareIn_eq_true_iff.mp hx)).apart _ (mem_openChildren hentry).2.1)

/-- The same links are made on both sides, the spare nodes left out. -/
lemma newLinks_eq (hroot : root < d.size) :
    Walk.keptEdges (spareIn f d.size) (e.newLinks (f root) .root)
      = (d.newLinks root .root).map fun new => (new.1.map f, f new.2) := by
  rw [newLinks, newLinks, h.isOpen_eq hroot]
  split
  · exact h.embeds_openChildren.entered (fun _ => openChildren_of_size_le)
      (fun _ => openChildren_of_size_le) (.root, root) hroot
  · rfl

/-- **Documents whose containers are linked are twins**, if they were before. -/
theorem linkFrom (hroot : root < d.size) (hm : root ≠ m) (hfree : ∀ i, d.link i = .free) :
    Twin k m extra f (d.linkFrom root .root) (e.linkFrom (f root) .root) := by
  refine h.relink size_linkAll (fun _ => node_linkAll) size_linkAll (fun _ => node_linkAll)
    (keeps_linkFrom h.left.closed (by simp)).closed (keeps_linkFrom h.right (by simp)).closed
    (fun i hi => ?_)
    fun i hi => h.left.linked_linkFrom hm hfree hi
  have hlinks := h.newLinks_eq hroot
  by_cases hmem : i ∈ (d.newLinks root .root).map Prod.snd
  · obtain ⟨⟨l, i⟩, hnew, rfl⟩ := List.mem_map.mp hmem
    have himage : (l.map f, f i) ∈ Walk.keptEdges (spareIn f d.size)
        (e.newLinks (f root) .root) := by
      rw [hlinks]
      exact List.mem_map_of_mem hnew
    rw [link_linkFrom hnew, link_linkFrom (List.mem_filter.mp himage).1]
  · have hmem' : f i ∉ (e.newLinks (f root) .root).map Prod.snd := by
      intro hnew'
      obtain ⟨new', hnew', heq⟩ := List.mem_map.mp hnew'
      have hkept : new' ∈ Walk.keptEdges (spareIn f d.size) (e.newLinks (f root) .root) :=
        List.mem_filter.mpr ⟨hnew', by simp [heq, spareIn_image hi]⟩
      rw [hlinks] at hkept
      obtain ⟨new, hnew, rfl⟩ := List.mem_map.mp hkept
      obtain rfl := h.inj new.2 (lt_of_mem_newLinks hnew) i hi heq
      exact hmem (List.mem_map_of_mem hnew)
    rw [link_linkFrom_of_not_mem hmem, link_linkFrom_of_not_mem hmem', h.link_eq i hi]


/-- Chains of parents on both sides; the fuel is enough. -/
lemma climb_eq (fuel fuel' : Nat) {seen : List NodeId} (hnodup : seen.Nodup)
    (hlt : ∀ x ∈ seen, x < d.size) (hi : i < d.size) (hfuel : d.size < fuel + seen.length)
    (hfuel' : e.size < fuel' + seen.length) :
    e.climb fuel' (seen.map f) (f i) = f (d.climb fuel seen i) := by
  induction fuel generalizing fuel' seen i with
  | zero =>
      have := length_le_size hnodup hlt
      omega
  | succ fuel ih =>
      cases fuel' with
      | zero =>
          have := h.outline.length_le_size_right hlt hnodup
          omega
      | succ fuel' =>
          rw [climb, climb, h.parent?_eq hi]
          cases hparent : d.parent? i with
          | none => rfl
          | some p =>
              rw [Option.map_some]
              dsimp only
              rw [h.outline.contains_map hlt hi]
              split
              case isTrue => rfl
              case isFalse hseen =>
                have hnot : i ∉ seen := fun hmem => hseen (List.contains_iff_mem.mpr hmem)
                exact ih fuel' (List.nodup_cons.mpr ⟨hnot, hnodup⟩) (by simpa using ⟨hi, hlt⟩)
                  (h.left.closed.lt_of_link (link_of_parent? hparent))
                  (by rw [List.length_cons]; omega)
                  (by rw [List.length_cons]; omega)

/-- **Chains of parents end alike on both sides.** -/
theorem rootOf_eq (hi : i < d.size) : e.rootOf (f i) = f (d.rootOf i) :=
  h.climb_eq (d.size + 2) (e.size + 2) List.nodup_nil (by simp) hi (by simp) (by simp)

end Twin

end SchemaDecl.Document
