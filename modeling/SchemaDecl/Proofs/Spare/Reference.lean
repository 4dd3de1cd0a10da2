/-
References of twins.

Every pointer leads below a definition that is not the spare one, and never to the map of
definitions itself. So references are resolved alike on both sides, and the map stays where it is.

* `Twin.follow_eq`, `Twin.redirect_eq`: chains of references on both sides.
* `Twin.resolveReferences`: documents whose references are resolved are twins.
-/
import SchemaDecl.Proofs.Spare.Origin
import SchemaDecl.Proofs.Spare.Position

namespace SchemaDecl

/-- The end of a chain with its node changed. -/
def ChainEnd.map (f : NodeId → NodeId) : ChainEnd → ChainEnd
  | .target id => .target (f id)
  | .circular pointer => .circular pointer
  | .dangling => .dangling

namespace Document

variable {d e : Document} {k key : String} {m extra i c x root : NodeId} {f : NodeId → NodeId}

lemma mem_children_of_step? {token : List Char} (h : d.step? i token = some c) :
    c ∈ (d.node i).children := by
  rw [step?] at h
  cases hnode : d.node i with
  | object members =>
      rw [hnode] at h
      exact List.mem_map_of_mem (Keyed.mem_of_get? h)
  | array items =>
      rw [hnode] at h
      obtain ⟨index, -, hitem⟩ := Option.bind_eq_some_iff.mp h
      exact List.mem_of_getElem? hitem
  | leaf value => simp [hnode] at h

lemma step?_of_get? {token : List Char} (h : d.get? i (String.ofList token) = some c) :
    d.step? i token = some c := by
  obtain ⟨members, hnode⟩ := exists_members_of_isObject (isObject_of_get? h)
  rw [step?, hnode]
  rwa [get?_of_node hnode] at h

namespace Twin

section References

variable (h : Twin k m extra f d e) (o : Origin k m f d e root) (hroot : root < d.size)

include h

lemma localPointer?_spare (hx : Apart f d.size x) : e.localPointer? x = none := by
  rw [localPointer?, string?, scalar?, h.get?_spare hx (by decide)]
  rfl

lemma step?_eq (hi : i < d.size) (hm : i ≠ m) (token : List Char) :
    e.step? (f i) token = (d.step? i token).map f := by
  rw [step?, step?, h.node_eq i hi hm]
  cases d.node i with
  | object members => exact Keyed.get?_map f members _
  | array items =>
      rw [Node.map]
      cases Pointer.index? token with
      | none => rfl
      | some index => exact List.getElem?_map
  | leaf value => rfl

include o

lemma localPointer?_eq (hi : i < d.size) : e.localPointer? (f i) = d.localPointer? i := by
  by_cases hm : i = m
  · rw [hm, o.map_pointer]
  · rw [localPointer?, localPointer?, h.string?_eq hi hm]

/-- Below a definition all steps are the same, and they stay below the map. -/
lemma descend?_eq (hi : i < m) (steps : List (List Char)) :
    e.descend? (f i) steps = (d.descend? i steps).map f ∧
      ∀ t, d.descend? i steps = some t → t < m := by
  induction steps generalizing i with
  | nil =>
      refine ⟨rfl, fun t ht => ?_⟩
      obtain rfl := Option.some.inj ht
      exact hi
  | cons token steps ih =>
      have hlt := Nat.lt_trans hi h.map_lt
      rw [descend?, descend?, h.step?_eq hlt (Nat.ne_of_lt hi)]
      cases hstep : d.step? i token with
      | none => exact ⟨rfl, fun t ht => nomatch ht⟩
      | some c =>
          exact ih (Nat.lt_trans (o.parts i c (mem_children_of_step? hstep)) hi)

include hroot

/-- A pointer of a reference leads to the same place on both sides, and never to the map. -/
lemma resolve?_eq {pointer : String} (hc : d.localPointer? c = some pointer) :
    e.resolve? (f root) pointer = (d.resolve? root pointer).map f ∧
      ∀ t, d.resolve? root pointer = some t → t < m := by
  obtain ⟨name, rest, hsteps, hname⟩ := o.points c pointer hc
  obtain ⟨a, ha⟩ := Option.isSome_iff_exists.mp hname
  have hdefs := o.definitions
  have hm : root ≠ m := Nat.ne_of_gt (o.parts root m (mem_children_of_get? hdefs))
  have hk : String.ofList name ≠ k := by
    rintro rfl
    obtain ⟨entries, hd, hnone, -⟩ := h.map_eq
    rw [get?_of_node hd, hnone] at ha
    cases ha
  have hdefs' : e.get? (f root) (String.ofList "$defs".toList) = some (f m) := by
    rw [String.ofList_toList, h.get?_eq hroot (.inl hm), hdefs]
    rfl
  have ha' : e.get? (f m) (String.ofList name) = some (f a) := by
    rw [h.get?_eq h.map_lt (.inr hk), ha]
    rfl
  rw [← String.ofList_toList (s := "$defs")] at hdefs
  rw [resolve?, resolve?, hsteps, Option.bind_some, Option.bind_some, descend?, descend?,
    step?_of_get? hdefs, step?_of_get? hdefs', Option.bind_some, Option.bind_some,
    descend?, descend?,
    step?_of_get? ha, step?_of_get? ha', Option.bind_some, Option.bind_some]
  exact h.descend?_eq o (o.parts m a (mem_children_of_get? ha)) rest

/-- Chains of references on both sides; the fuel is enough. -/
lemma followFrom_eq (fuel fuel' : Nat) {hops : List NodeId} (hnodup : hops.Nodup)
    (hlt : ∀ x ∈ hops, x < d.size) (hi : i < d.size) (hfuel : d.size < fuel + hops.length)
    (hfuel' : e.size < fuel' + hops.length) :
    e.followFrom (f root) fuel' (hops.map f) (f i) = (d.followFrom root fuel hops i).map f := by
  induction fuel generalizing fuel' hops i with
  | zero =>
      have := length_le_size hnodup hlt
      omega
  | succ fuel ih =>
      cases fuel' with
      | zero =>
          have := h.outline.length_le_size_right hlt hnodup
          omega
      | succ fuel' =>
          rw [followFrom, followFrom, h.localPointer?_eq o hi]
          cases hpointer : d.localPointer? i with
          | none => rfl
          | some pointer =>
              dsimp only
              rw [h.outline.contains_map hlt hi, (h.resolve?_eq o hroot hpointer).1]
              by_cases hseen : hops.contains i = true
              · rw [if_pos hseen, if_pos hseen]
                rfl
              · rw [if_neg hseen, if_neg hseen]
                cases hnext : d.resolve? root pointer with
                | none => rfl
                | some next =>
                    have hnot : i ∉ hops := fun hmem => hseen (List.contains_iff_mem.mpr hmem)
                    have hlt' := Nat.lt_trans
                        ((h.resolve?_eq o hroot hpointer).2 next hnext) h.map_lt
                    have hnodup' : (i :: hops).Nodup := List.nodup_cons.mpr ⟨hnot, hnodup⟩
                    exact ih fuel' hnodup' (by simpa using ⟨hi, hlt⟩) hlt'
                      (by rw [List.length_cons]; omega) (by rw [List.length_cons]; omega)

lemma follow_eq (hi : i < d.size) : e.follow (f root) (f i) = (d.follow root i).map f :=
  h.followFrom_eq o hroot (d.size + 2) (e.size + 2) List.nodup_nil (by simp) hi (by simp) (by simp)

/-- A chain of references ends where it begins, or below the map. -/
lemma eq_or_lt_of_followFrom {fuel : Nat} {hops : List NodeId} {t : NodeId}
    (ht : d.followFrom root fuel hops i = .target t) : t = i ∨ t < m := by
  induction fuel generalizing hops i with
  | zero => cases ht
  | succ fuel ih =>
      rw [followFrom] at ht
      cases hpointer : d.localPointer? i with
      | none =>
          rw [hpointer] at ht
          exact .inl (ChainEnd.target.inj ht).symm
      | some pointer =>
          rw [hpointer] at ht
          dsimp only at ht
          split at ht
          case isTrue => cases ht
          case isFalse =>
            cases hnext : d.resolve? root pointer with
            | none =>
                rw [hnext] at ht
                cases ht
            | some next =>
                rw [hnext] at ht
                have hlt := (h.resolve?_eq o hroot hpointer).2 next hnext
                exact .inr ((ih ht).elim (fun heq => heq ▸ hlt) id)

lemma redirect_eq (hi : i < d.size) : e.redirect (f root) (f i) = f (d.redirect root i) := by
  rw [redirect, redirect, h.follow_eq o hroot hi]
  cases d.follow root i <;> rfl

lemma redirect_eq_or_lt : d.redirect root i = i ∨ d.redirect root i < m := by
  rw [redirect]
  cases hfollow : d.follow root i with
  | target t => exact h.eq_or_lt_of_followFrom o hroot hfollow
  | _ => exact .inl rfl

lemma searchBelow_eq (hi : i < d.size) :
    e.searchBelow (f root) (f i) = (d.searchBelow root i).map f := by
  rw [searchBelow, searchBelow, h.follow_eq o hroot hi]
  cases d.follow root i <;> rfl

omit o hroot in
lemma redirect_spare (hx : Apart f d.size x) : e.redirect root x = x := by
  rw [redirect, follow_of_localPointer?_eq_none (h.localPointer?_spare hx)]

/-! ### Resolving references -/

omit o hroot in
/-- What a node and its image hold, the spare definition apart. -/
lemma children_eq (hi : i < d.size) : (e.node (f i)).children = (d.node i).children.map f ∨
    (e.node (f i)).children = (d.node i).children.map f ++ [extra] := by
  by_cases hm : i = m
  · subst hm
    obtain ⟨entries, hd, -, he⟩ := h.map_eq
    refine .inr ?_
    rw [hd, he]
    simp [Node.children]
  · rw [h.node_eq i hi hm, Node.children_map]
    exact .inl rfl

/-- The search for references takes the same course on both sides. -/
lemma embeds_search : Walk.Embeds
    (fun i => ((d.node i).children.flatMap (d.searchBelow root)).reverse.map ((), ·))
    (fun x => ((e.node x).children.flatMap (e.searchBelow (f root))).reverse.map ((), ·))
    (· < d.size) f id (spareIn f d.size) where
  inj := h.inj
  keeps _ hi := spareIn_image hi
  next_eq i hi := by
    have hbelow {c : NodeId} (hc : c < d.size) (t : NodeId) (ht : t ∈ d.searchBelow root c) :
        t < d.size := by
      rw [(mem_searchBelow_iff.mp ht).1]
      exact redirect_lt h.left.closed hroot hc
    have hold : (((d.node i).children.map f).flatMap (e.searchBelow (f root)))
        = ((d.node i).children.flatMap (d.searchBelow root)).map f := by
      rw [List.flatMap_map, List.map_flatMap]
      exact List.flatMap_congr fun c hc => h.searchBelow_eq o hroot (h.child_lt hc)
    have hkept : Walk.keptEdges (spareIn f d.size)
        ((((d.node i).children.flatMap (d.searchBelow root)).map f).reverse.map ((), ·))
        = (((d.node i).children.flatMap (d.searchBelow root)).reverse.map ((), ·)).map
            fun e => (e.1, f e.2) := by
      rw [← List.map_reverse, List.map_map]
      have hswap : ((fun x : NodeId => ((), x)) ∘ f)
          = (fun e : Unit × NodeId => (e.1, f e.2)) ∘ ((), ·) := rfl
      rw [hswap, ← List.map_map]
      refine keptEdges_map (g := id) fun entry hentry => ?_
      obtain ⟨t, ht, rfl⟩ := List.mem_map.mp hentry
      obtain ⟨c, hc, ht⟩ := List.mem_flatMap.mp (List.mem_reverse.mp ht)
      exact hbelow (h.child_lt hc) t ht
    have hextra : Walk.keptEdges (spareIn f d.size)
        ((e.searchBelow (f root) extra).reverse.map ((), ·)) = [] := by
      refine keptEdges_eq_nil fun entry hentry => ?_
      obtain ⟨t, ht, rfl⟩ := List.mem_map.mp hentry
      rw [(mem_searchBelow_iff.mp (List.mem_reverse.mp ht)).1, h.redirect_spare h.extra_apart]
      exact h.extra_apart
    rcases h.children_eq hi with hchildren | hchildren
    · rw [hchildren, hold]
      exact hkept
    · rw [hchildren, List.flatMap_append, hold, List.flatMap_singleton, List.reverse_append,
        List.map_append, Walk.keptEdges_append, hextra, List.nil_append]
      exact hkept
  dom_next i hi entry hentry := by
    obtain ⟨t, ht, rfl⟩ := List.mem_map.mp hentry
    obtain ⟨c, hc, ht⟩ := List.mem_flatMap.mp (List.mem_reverse.mp ht)
    rw [(mem_searchBelow_iff.mp ht).1]
    exact redirect_lt h.left.closed hroot (h.child_lt hc)
  spare_next x hx entry hentry := by
    obtain ⟨t, ht, rfl⟩ := List.mem_map.mp hentry
    obtain ⟨c, hc, ht⟩ := List.mem_flatMap.mp (List.mem_reverse.mp ht)
    have hc' := (h.idle x (spareIn_eq_true_iff.mp hx)).apart c hc
    rw [(mem_searchBelow_iff.mp ht).1, h.redirect_spare hc']
    exact spareIn_eq_true_iff.mpr hc'

lemma mem_searched_iff (hi : i < d.size) : f i ∈ e.searched (f root) ↔ i ∈ d.searched root := by
  have hnil (d : Document) (root x : NodeId) (hx : d.size ≤ x) :
      ((d.node x).children.flatMap (d.searchBelow root)).reverse.map
      (((), ·) : NodeId → Unit × NodeId)
        = [] := by
    rw [node_of_size_le hx]
    rfl
  have hentered := (h.embeds_search o hroot).entered (hnil d root) (hnil e (f root))
    ((), root) hroot
  have hids : (e.searched (f root)).filter (fun x => !spareIn f d.size x)
      = (d.searched root).map f := by
    rw [searched, searched, List.filter_map, List.map_map]
    have hmap := congrArg (List.map Prod.snd) hentered
    rw [List.map_map] at hmap
    exact hmap
  have hmem : f i ∈ e.searched (f root) ↔ f i ∈ (d.searched root).map f := by
    rw [← hids, List.mem_filter]
    simp [spareIn_image hi]
  rw [hmem, List.mem_map]
  refine ⟨fun ⟨a, ha, heq⟩ => ?_, fun hi => ⟨i, hi, rfl⟩⟩
  obtain ⟨entry, hentry, rfl⟩ := List.mem_map.mp ha
  have hlt : entry.2 < d.size := by
    rcases Walk.eq_start_or_mem_next hentry with rfl | ⟨p, hp⟩
    · exact hroot
    · by_cases hlt : p < d.size
      · exact (h.embeds_search o hroot).dom_next p hlt entry hp
      · rw [hnil d root p (Nat.le_of_not_lt hlt)] at hp
        cases hp
  exact h.inj _ hlt i hi heq ▸ ha

end References

section Resolved

variable (h : Twin k m extra f d e) (o : Origin k m f d e root) (hroot : root < d.size)
include h o hroot

/-- How the slots of a node are redirected: each stays or is set to a node below the map. -/
lemma exists_slots (i : NodeId) : ∃ r, (d.resolveReferences root).node i = (d.node i).map r ∧
    ∀ c, r c = c ∨ r c < m := by
  rw [node_resolveReferences]
  split
  · exact ⟨_, rfl, fun c => h.redirect_eq_or_lt o hroot⟩
  · exact ⟨id, (Node.map_id _).symm, fun _ => .inl rfl⟩

/-- The slots of a node and of its image are redirected alike. -/
lemma exists_slots_both (hi : i < d.size) :
    ∃ r r', (d.resolveReferences root).node i = (d.node i).map r ∧
    (e.resolveReferences (f root)).node (f i) = (e.node (f i)).map r' ∧
    (∀ c < d.size, r' (f c) = f (r c)) ∧ ∀ x, Apart f d.size x → r' x = x := by
  have hmem := h.mem_searched_iff o hroot hi
  rw [node_resolveReferences, node_resolveReferences]
  by_cases hi' : i ∈ d.searched root
  · rw [if_pos hi', if_pos (hmem.mpr hi')]
    exact ⟨_, _, rfl, rfl, fun c hc => h.redirect_eq o hroot hc, fun x hx => h.redirect_spare hx⟩
  · rw [if_neg hi', if_neg (mt hmem.mp hi')]
    exact ⟨id, id, (Node.map_id _).symm, (Node.map_id _).symm, fun _ _ => rfl, fun _ _ => rfl⟩

lemma secluded_resolveReferences : (d.resolveReferences root).Secluded k m := by
  have heq {r : NodeId → NodeId} (hr : ∀ c, r c = c ∨ r c < m) {c : NodeId} (hc : r c = m) :
      c = m :=
    (hr c).elim (fun hself => hself.symm.trans hc) fun hlt => absurd (hc ▸ hlt) (Nat.lt_irrefl _)
  have hclosed := (keeps_resolveReferences h.left.closed hroot).closed
  -- what holds the map held it before
  have hheld {x : NodeId} (hx : m ∈ ((d.resolveReferences root).node x).children) :
      m ∈ (d.node x).children := by
    obtain ⟨r, hnode, hr⟩ := h.exists_slots o hroot x
    rw [hnode, Node.children_map] at hx
    obtain ⟨c, hc, hcm⟩ := List.mem_map.mp hx
    exact heq hr hcm ▸ hc
  refine ⟨hclosed, ?_, fun i => ?_, fun i hi => ?_⟩
  · obtain ⟨entries, hd, -⟩ := h.map_eq
    obtain ⟨r, hnode, -⟩ := h.exists_slots o hroot m
    rw [hd] at hnode
    rw [isObject, members?, hnode]
    rfl
  · obtain ⟨r, hnode, hr⟩ := h.exists_slots o hroot i
    refine ⟨fun c hc => hclosed.child_lt hc, fun c hc hmem => ?_,
      fun members heqnode entry hentry hm => ?_,
      fun items heqnode hmem => ?_, fun members heqnode entry hentry hk => ?_⟩
    · rw [hnode, Node.children_map] at hc
      obtain ⟨a, ha, rfl⟩ := List.mem_map.mp hc
      rcases hr a with hself | hlt
      · rw [hself] at hmem
        exact (h.left.fits i).unheld a ha (hheld hmem)
      · exact Nat.lt_asymm hlt (o.parts _ m (hheld hmem))
    all_goals rw [hnode] at heqnode
    all_goals cases hold : d.node i <;> rw [hold] at heqnode <;> cases heqnode
    · obtain ⟨entry', hentry', rfl⟩ := List.mem_map.mp hentry
      exact (h.left.fits i).aside _ hold entry' hentry' (heq hr hm)
    · obtain ⟨a, ha, ham⟩ := List.mem_map.mp hmem
      exact (h.left.fits i).unlisted _ hold (heq hr ham ▸ ha)
    · obtain ⟨entry', hentry', rfl⟩ := List.mem_map.mp hentry
      have hkey : entry'.1 = k := hk
      exact absurd (hkey ▸ List.mem_map_of_mem hentry') (o.absent i _ hold)
  · rw [link_resolveReferences] at hi
    exact h.left.linked_of_link_eq (fun _ _ => link_resolveReferences) ⟨i, hi⟩

/-- **Documents whose references are resolved are twins**, if they were before. -/
theorem resolveReferences :
    Twin k m extra f (d.resolveReferences root) (e.resolveReferences (f root)) := by
  refine ⟨h.secluded_resolveReferences o hroot,
    (keeps_resolveReferences h.right (h.lt root hroot)).closed, ?_, ?_, fun i hi hm => ?_, ?_,
    fun i hi => ?_, ?_, fun x hx => ?_⟩
  · rw [size_resolveReferences, size_resolveReferences]
    exact h.lt
  · rw [size_resolveReferences]
    exact h.inj
  · rw [size_resolveReferences] at hi
    obtain ⟨r, r', hd, he, hboth, -⟩ := h.exists_slots_both o hroot hi
    rw [hd, he, h.node_eq i hi hm, Node.map_map, Node.map_map]
    exact Node.map_congr fun c hc => hboth c (h.child_lt hc)
  · obtain ⟨r, r', hd, he, hboth, hspare⟩ := h.exists_slots_both o hroot h.map_lt
    obtain ⟨entries, hdm, hk, hem⟩ := h.map_eq
    refine ⟨entries.map fun e => (e.1, r e.2), by rw [hd, hdm]; rfl, ?_, ?_⟩
    · rw [Keyed.get?_map, hk]
      rfl
    · rw [he, hem, Node.map, List.map_append, List.map_map, List.map_map, List.map_singleton,
        hspare extra h.extra_apart]
      refine congrArg (fun l => Node.object (l ++ [(k, extra)]))
        (List.map_congr_left fun entry hentry => ?_)
      exact congrArg (Prod.mk entry.1) (hboth entry.2 (h.entry_lt hdm entry hentry))
  · rw [size_resolveReferences] at hi
    rw [link_resolveReferences, link_resolveReferences]
    exact h.link_eq i hi
  · rw [size_resolveReferences]
    exact h.extra_apart
  · rw [size_resolveReferences] at hx ⊢
    have hnode : (e.resolveReferences (f root)).node x = e.node x := by
      rw [node_resolveReferences]
      split
      · exact (Node.map_congr fun c hc => h.redirect_spare ((h.idle x hx).apart c hc)).trans
          (Node.map_id _)
      · rfl
    rw [hnode]
    exact h.idle x hx

end Resolved

end Twin

end Document

end SchemaDecl
