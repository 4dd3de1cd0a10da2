/-
Lowering twins.

The map of definitions is never lowered itself, so that the spare definition is not met: all other
nodes are of the same categories as their images, called alike, and made of the same parts.

* `Document.Twin.copyWithout`: copies of a schema and of its image make twins again.
* `twinView`: twins as related documents, and `lowers_twinView`: they are lowered alike.
* `TypeGraph.ofDocument_eq_of_twin`: twins have the same types.
-/
import SchemaDecl.Proofs.Spare.Definitions
import SchemaDecl.Proofs.Spare.Step
import SchemaDecl.Proofs.Types.Accord

namespace SchemaDecl

open Document Definitions

/-- What was echoed is echoed when the documents have grown. -/
lemma Definitions.Echoes.later {k : String} {f f' : NodeId → NodeId} {d e d' e' : Document}
    {l l' : List (String × NodeId)} (h : Echoes k f d e l l') (hlater : Later f d e f' d' e')
    (hgrows : d.Extends d') : Echoes k f' d' e' l l' where
  besides_eq := by
    rw [h.besides_eq]
    refine List.map_congr_left fun a ha => ?_
    rw [hlater.agree a.2 (h.lt a (List.mem_filter.mp ha).1)]
  lt a ha := Nat.lt_of_lt_of_le (h.lt a ha) hlater.size_le
  lt' a ha := Nat.lt_of_lt_of_le (h.lt' a ha) hlater.size_le'
  inert a ha hk := by rw [hgrows.isObject_eq (h.lt a ha), h.inert a ha hk]
  inert' a ha hk i hi hobject := by
    by_cases hold : i < d.size
    · rw [hlater.agree i hold]
      exact h.inert' a ha hk i hold (by rwa [← hgrows.isObject_eq hold])
    · have hfresh := hlater.fresh i hi (Nat.le_of_not_lt hold)
      exact Nat.ne_of_lt (Nat.lt_of_lt_of_le (h.lt' a ha) hfresh)

namespace Document

variable {d e : Document} {k : String} {m extra i : NodeId} {f : NodeId → NodeId}

/-! ### Copies -/

lemma Fits.filter {members : Keyed NodeId} (h : d.Fits k m (.object members))
    (p : String × NodeId → Bool) : d.Fits k m (.object (members.filter p)) := by
  have hsub {c : NodeId} (hc : c ∈ (Node.object (members.filter p)).children) :
      c ∈ (Node.object members).children := by
    obtain ⟨entry, hentry, rfl⟩ := List.mem_map.mp hc
    exact List.mem_map_of_mem (List.mem_filter.mp hentry).1
  refine ⟨fun c hc => h.lt c (hsub hc), fun c hc => h.unheld c (hsub hc), ?_,
    (fun _ heq => by cases heq), ?_⟩
  · rintro _ ⟨⟩ entry hentry
    exact h.aside members rfl entry (List.mem_filter.mp hentry).1
  · rintro _ ⟨⟩ entry hentry
    exact h.fresh members rfl entry (List.mem_filter.mp hentry).1

namespace Twin

variable (h : Twin k m extra f d e) (hi : i < d.size) (hm : i ≠ m)
include h hi hm

lemma copyWithout (hobject : d.isObject i = true) (keys : List String) :
    Later f d e (Function.update f d.size e.size) (d.copyWithout i keys).2
        (e.copyWithout (f i) keys).2 ∧
      Twin k m extra (Function.update f d.size e.size) (d.copyWithout i keys).2
        (e.copyWithout (f i) keys).2 := by
  obtain ⟨members, hnode⟩ := exists_members_of_isObject hobject
  have hright : e.copyWithout (f i) keys = e.alloc
      ((Node.object (members.filter fun e => !keys.contains e.1)).map f)
      ((d.copiedLink i).map f) := by
    rw [Document.copyWithout, h.node_eq i hi hm, hnode, h.copiedLink_eq hi, Node.map, Node.map]
    dsimp only
    rw [List.filter_map]
    rfl
  have hleft : d.copyWithout i keys
      = d.alloc (.object (members.filter fun e => !keys.contains e.1)) (d.copiedLink i) := by
    rw [Document.copyWithout, hnode]
  have hfits := h.left.fits i
  rw [hnode] at hfits
  have hlink : d.copiedLink i = .under m → ∃ j, d.link j = .under m := by
    intro heq
    rw [copiedLink] at heq
    split at heq
    case h_1 p hp => exact ⟨i, hp.trans heq⟩
    case h_2 => cases heq
  rw [hleft, hright]
  exact h.alloc (hfits.filter fun e => !keys.contains e.1)
    (fun p hp => h.left.closed.lt_of_copiedLink hp) hlink

/-- A node that is no object does not hold the map, so that it says the same as its image. -/
lemma toJson_eq_of_not_isObject (hobject : d.isObject i = false) : e.toJson (f i) = d.toJson i := by
  refine h.toJson_eq ⟨hi, hm, fun hmem => ?_⟩
  cases hnode : d.node i with
  | object members => simp [isObject, members?_of_node hnode] at hobject
  | array items => exact (h.left.fits i).unlisted items hnode (by rwa [hnode] at hmem)
  | leaf value => simp [hnode, Node.children] at hmem

end Twin

end Document

/-! ### Types of twins -/

/-- Twins as related documents. The map of definitions is not met. -/
def twinView (k : String) (m extra : NodeId) : View (NodeId → NodeId) where
  image f := f
  Met _ i := i ≠ m
  Relates f d e := Twin k m extra f d e
  Named f d e defs defs' := Echoes k f d e defs.entries defs'.entries

section Lowering

variable {k : String} {m extra root : NodeId} {f : NodeId → NodeId} {d e : Document} {s : Settings}

/-- Definitions that cannot be reached are not asked for, so that the spare one is not met. -/
lemma Document.Twin.reads (h : Twin k m extra f d e) (hs : s.unreachableDefinitions = false) :
    Reads s f (· ≠ m) d e where
  toOutline := h.outline
  tells _ hi hm := h.tells hi hm
  empty_eq i hi hm := by
    rw [h.members?_eq hi hm, Option.map_map]
    congr 1
    funext members
    exact List.isEmpty_map
  least_eq i hi hm := by rw [Lower.tupleBound?, Lower.tupleBound?, h.bound?_eq hi hm]
  most_eq i hi hm := by rw [Lower.tupleBound?, Lower.tupleBound?, h.bound?_eq hi hm]
  membersAt_eq i hi hm key hkey := by
    rw [fieldKeys, hs] at hkey
    exact h.membersAt_eq hi hm (by rintro rfl; revert hkey; decide)
  toJson_eq _ hi hm hobject := h.toJson_eq_of_not_isObject hi hm hobject
  rootOf_eq _ hi _ := h.rootOf_eq hi
  met_rootOf _ hi hm := h.left.rootOf_ne hi hm
  met_listAt _ _ _ _ hc := (h.left.loose_of_mem_listAt hc).ne
  met_membersAt _ _ _ _ _ hentry := (h.left.loose_of_mem_membersAt hentry).ne
  met_get? _ _ key hkey _ hc _ :=
    (h.left.loose_of_get? (by rintro rfl; revert hkey; decide) hc).ne

lemma lowers_twinView (hs : s.unreachableDefinitions = false) : (twinView k m extra).Lowers s where
  reads h := h.reads hs
  copyWithout {f d e i} h hi hm hobject keys _ := by
    obtain ⟨hlater, htwin⟩ := h.copyWithout hi hm hobject keys
    exact ⟨Function.update f d.size e.size, ⟨hlater, fun _ _ => .rfl, htwin⟩,
      Function.update_self .., Nat.ne_of_gt h.map_lt⟩
  setType {f d e i} h hi hm _ name := by
    have hset : Advances k m extra f d e (d.setValue i "type" (.string name))
        (e.setValue (f i) "type" (.string name)) := h.setScalar hi hm (.string name)
    obtain ⟨f', hlater, htwin⟩ := hset
    exact ⟨f', hlater, fun _ _ => .rfl, htwin⟩
  eraseDefault h hi hm _ := h.erase hi hm
  named_collect h hr hm := h.echoes_collect hr hm
  keyOf?_eq h hechoes hi hobject := hechoes.keyOf?_eq h.inj hi hobject
  named_later hechoes hadvances hgrows := hechoes.later hadvances.later hgrows

/-- **Twins have the same types.** -/
theorem TypeGraph.ofDocument_eq_of_twin (hs : s.unreachableDefinitions = false)
    (h : Twin k m extra f d e) (hroot : root < d.size) (hm : root ≠ m) :
    TypeGraph.ofDocument s e (f root) = TypeGraph.ofDocument s d root :=
  (lowers_twinView hs).ofDocument_eq h hroot hm

end Lowering

end SchemaDecl
