/-
Single changes of twins.

A change of a node goes with the same change of its image, and changes among the spare nodes go with
none.

* `Document.Advances`: two documents are twins again after both have changed.
* `Twin.alloc`, `Twin.changeMembers`: the same change on both sides; the changes that are made of
  these follow (`Twin.setList`, `Twin.setScalar`, `Twin.rename`).
* `Twin.alloc_spare`, `Twin.changeMembers_spare`: a change of the twin alone.
-/
import SchemaDecl.Proofs.Spare.Twin

namespace SchemaDecl.Document

variable {d e d' e' : Document} {k key : String} {m extra i c x : NodeId} {n : Node} {l : Link}
  {f f' : NodeId → NodeId}

/-! ### The map of definitions stays secluded -/

/-- An entry may be put into an object. -/
structure Admits (d : Document) (k : String) (m : NodeId) (entry : String × NodeId) : Prop
    extends Loose d m entry.2 where
  fresh : entry.1 = k → d.isObject entry.2 = false

namespace Secluded

lemma isObject_eq_of_node (h : d'.node i = d.node i) : d'.isObject i = d.isObject i := by
  rw [Document.isObject, Document.isObject, members?, members?, h]

/-- The parent of the map has none itself. -/
lemma linked_of_link_eq (h : d.Secluded k m) (hlink : ∀ x < d.size, d'.link x = d.link x)
    (hm : ∃ i, d.link i = .under m) : ∃ p, d'.link m = .under p ∧ d'.parent? p = none := by
  obtain ⟨i, hi⟩ := hm
  obtain ⟨p, hp, hnone⟩ := h.linked i hi
  have hlt : p < d.size := h.closed.lt_of_link hp
  refine ⟨p, (hlink m h.lt).trans hp, ?_⟩
  rw [parent?, hlink p hlt, ← parent?, hnone]

lemma alloc (h : d.Secluded k m) (hn : d.Fits k m n) (hl : ∀ p, l = .under p → p < d.size)
    (hm : l = .under m → ∃ i, d.link i = .under m) : (d.alloc n l).2.Secluded k m := by
  have hnode {x : NodeId} (hx : x < d.size) : (d.alloc n l).2.node x = d.node x := by
    rw [node_alloc, if_neg (Nat.ne_of_lt hx)]
  have hmono {n' : Node} (hn' : d.Fits k m n') : (d.alloc n l).2.Fits k m n' := by
    refine hn'.mono (by rw [size_alloc]; exact Nat.le_succ _)
      (fun x hx => isObject_eq_of_node (hnode hx)) fun x hx hmem => ?_
    rwa [hnode (hn'.lt x hx)] at hmem
  refine ⟨(keeps_alloc h.closed ⟨fun x hx => Nat.lt_succ_of_lt (hn.lt x hx),
    fun p hp => Nat.lt_succ_of_lt (hl p hp)⟩).closed, ?_, fun x => ?_, fun x hx => ?_⟩
  · rw [isObject_eq_of_node (hnode h.lt), h.isObject]
  · rw [node_alloc]
    split
    · exact hmono hn
    · exact hmono (h.fits x)
  · refine h.linked_of_link_eq (fun y hy => by rw [link_alloc, if_neg (Nat.ne_of_lt hy)]) ?_
    rw [link_alloc] at hx
    split at hx
    · exact hm hx
    · exact ⟨x, hx⟩

lemma changeMembers (h : d.Secluded k m) {g : Keyed NodeId → Keyed NodeId}
    (hnew : ∀ members, d.node i = .object members → ∀ entry ∈ g members,
      entry ∈ members ∨ d.Admits k m entry) : (d.changeMembers i g).Secluded k m := by
  cases hobject : d.isObject i with
  | false =>
      rw [changeMembers_of_not_isObject hobject]
      exact h
  | true =>
      obtain ⟨members, hnode⟩ := exists_members_of_isObject hobject
      have hself := node_changeMembers hnode g
      have hisObject (x : NodeId) : (d.changeMembers i g).isObject x = d.isObject x := by
        by_cases hx : x = i
        · rw [hx, hobject, Document.isObject, members?_of_node hself]
          rfl
        · exact isObject_eq_of_node (node_changeMembers_of_ne hx)
      -- the map is nowhere put in
      have hheld {x : NodeId} (hmem : m ∈ ((d.changeMembers i g).node x).children) :
          m ∈ (d.node x).children := by
        by_cases hx : x = i
        · rw [hx, hself] at hmem
          rw [hx, hnode]
          obtain ⟨entry, hentry, rfl⟩ := List.mem_map.mp hmem
          rcases hnew members hnode entry hentry with hold | hadmits
          · exact List.mem_map_of_mem hold
          · exact absurd rfl hadmits.ne
        · rwa [node_changeMembers_of_ne hx] at hmem
      have hold := h.fits i
      rw [hnode] at hold
      have hfits : d.Fits k m (.object (g members)) := by
        refine ⟨fun c hc => ?_, fun c hc => ?_, ?_, (fun _ heq => by cases heq), ?_⟩
        · obtain ⟨entry, hentry, rfl⟩ := List.mem_map.mp hc
          exact (hnew members hnode entry hentry).elim
            (fun hmem => hold.lt _ (List.mem_map_of_mem hmem)) fun hadmits => hadmits.lt
        · obtain ⟨entry, hentry, rfl⟩ := List.mem_map.mp hc
          exact (hnew members hnode entry hentry).elim
            (fun hmem => hold.unheld _ (List.mem_map_of_mem hmem)) fun hadmits => hadmits.unheld
        · rintro _ ⟨⟩ entry hentry heq
          exact (hnew members hnode entry hentry).elim
            (fun hmem => hold.aside members rfl entry hmem heq) fun hadmits => absurd heq hadmits.ne
        · rintro _ ⟨⟩ entry hentry heq
          exact (hnew members hnode entry hentry).elim
            (fun hmem => hold.fresh members rfl entry hmem heq) fun hadmits => hadmits.fresh heq
      have hmono {n : Node} (hn : d.Fits k m n) : (d.changeMembers i g).Fits k m n :=
        hn.mono (Nat.le_of_eq size_changeMembers.symm) (fun x _ => hisObject x)
          fun _ _ hmem => hheld hmem
      refine ⟨?_, by rw [hisObject, h.isObject], fun x => ?_, fun x hx => ?_⟩
      · rw [Document.changeMembers, hnode]
        exact (keeps_setNode h.closed hfits.lt).closed
      · by_cases hx : x = i
        · rw [hx, hself]
          exact hmono hfits
        · rw [node_changeMembers_of_ne hx]
          exact hmono (h.fits x)
      · rw [link_changeMembers] at hx
        exact h.linked_of_link_eq (fun _ _ => link_changeMembers) ⟨x, hx⟩

end Secluded

/-! ### The same change on both sides -/

/-- The documents are twins again after a change, in which all numbers have kept their images. -/
def Advances (k : String) (m extra : NodeId) (f : NodeId → NodeId) (d e d' e' : Document) : Prop :=
  ∃ f', Later f d e f' d' e' ∧ Twin k m extra f' d' e'

/-- One change after another. -/
lemma Advances.trans {d'' e'' : Document} (h : Advances k m extra f d e d' e')
    (h' : ∀ f', Later f d e f' d' e' → Twin k m extra f' d' e' →
      Advances k m extra f' d' e' d'' e'') : Advances k m extra f d e d'' e'' := by
  obtain ⟨f', hlater, htwin⟩ := h
  obtain ⟨f'', hlater', htwin'⟩ := h' f' hlater htwin
  exact ⟨f'', hlater.trans hlater', htwin'⟩

section Update

variable {size size' : Nat}

lemma apart_update_iff : Apart (Function.update f size size') (size + 1) x ↔
    Apart f size x ∧ x ≠ size' := by
  constructor
  · refine fun hx => ⟨fun i hi heq => hx i (Nat.lt_succ_of_lt hi) ?_, fun heq => ?_⟩
    · rw [Function.update_of_ne (Nat.ne_of_lt hi), heq]
    · exact hx size (Nat.lt_succ_self _) (by rw [Function.update_self, heq])
  · rintro ⟨hx, hne⟩ i hi heq
    rcases Nat.lt_succ_iff_lt_or_eq.mp hi with hold | rfl
    · rw [Function.update_of_ne (Nat.ne_of_lt hold)] at heq
      exact hx i hold heq
    · rw [Function.update_self] at heq
      exact hne heq.symm

lemma link_map_update (hl : ∀ p, l = .under p → p < size) :
    l.map (Function.update f size size') = l.map f := by
  cases l with
  | under p => rw [Link.map, Link.map, Function.update_of_ne (Nat.ne_of_lt (hl p rfl))]
  | _ => rfl

end Update

namespace Twin

/-- A change that leaves the sizes as they are. -/
lemma advances (h : Twin k m extra f d' e') (hsize : d'.size = d.size) (hsize' : e'.size = e.size) :
    Advances k m extra f d e d' e' :=
  ⟨f, .of_size_eq hsize hsize', h⟩

lemma refl_advances (h : Twin k m extra f d e) : Advances k m extra f d e d e :=
  h.advances rfl rfl

variable (h : Twin k m extra f d e)
include h

lemma extra_lt : extra < e.size := by
  obtain ⟨entries, -, -, he⟩ := h.map_eq
  have hmem : extra ∈ (e.node (f m)).children := by simp [he, Node.children]
  exact h.right.child_lt hmem

lemma entry_lt {members : Keyed NodeId} (hnode : d.node i = .object members) :
    ∀ entry ∈ members, entry.2 < d.size :=
  h.left.closed.entry_lt hnode

/-- A new node and its image. -/
lemma alloc (hn : d.Fits k m n) (hl : ∀ p, l = .under p → p < d.size)
    (hlm : l = .under m → ∃ i, d.link i = .under m) :
    Later f d e (Function.update f d.size e.size) (d.alloc n l).2
        (e.alloc (n.map f) (l.map f)).2 ∧
      Twin k m extra (Function.update f d.size e.size) (d.alloc n l).2
        (e.alloc (n.map f) (l.map f)).2 := by
  have hagree {i : NodeId} (hi : i < d.size) : Function.update f d.size e.size i = f i :=
    Function.update_of_ne (Nat.ne_of_lt hi) _ _
  have hnode {i : NodeId} (hi : i < d.size) : (d.alloc n l).2.node i = d.node i := by
    rw [node_alloc, if_neg (Nat.ne_of_lt hi)]
  have hnode' {i : NodeId} (hi : i < d.size) :
      (e.alloc (n.map f) (l.map f)).2.node (f i) = e.node (f i) := by
    rw [node_alloc, if_neg (Nat.ne_of_lt (h.lt i hi))]
  have hlater : Later f d e (Function.update f d.size e.size) (d.alloc n l).2
      (e.alloc (n.map f) (l.map f)).2 := later_alloc
  refine ⟨hlater, h.left.alloc hn hl hlm, ?_, fun i hi => ?_, fun i hi j hj heq => ?_,
    fun i hi hm => ?_, ?_, fun i hi => ?_, hlater.apart h.extra_apart h.extra_lt, fun x hx => ?_⟩
  · refine (keeps_alloc h.right ⟨fun c hc => ?_, fun p hp => ?_⟩).closed
    · rw [Node.children_map] at hc
      obtain ⟨c', hc', rfl⟩ := List.mem_map.mp hc
      exact Nat.lt_succ_of_lt (h.lt c' (hn.lt c' hc'))
    · cases l with
      | under p' =>
          obtain rfl : f p' = p := Link.under.inj hp
          exact Nat.lt_succ_of_lt (h.lt p' (hl p' rfl))
      | _ => cases hp
  · rw [size_alloc] at hi ⊢
    exact update_lt h.lt hi
  · rw [size_alloc] at hi hj
    exact update_inj h.lt h.inj hi hj heq
  · rw [size_alloc] at hi
    rcases Nat.lt_succ_iff_lt_or_eq.mp hi with hlt | rfl
    · rw [hagree hlt, hnode hlt, hnode' hlt, h.node_eq i hlt hm,
        map_update fun c hc => h.child_lt hc]
    · rw [Function.update_self, node_alloc, if_pos rfl, node_alloc, if_pos rfl, map_update hn.lt]
  · obtain ⟨entries, hd, hk, he⟩ := h.map_eq
    refine ⟨entries, by rw [hnode h.map_lt, hd], hk, ?_⟩
    rw [hagree h.map_lt, hnode' h.map_lt, he, map_entries_update (h.entry_lt hd)]
  · rw [size_alloc] at hi
    rcases Nat.lt_succ_iff_lt_or_eq.mp hi with hlt | rfl
    · rw [hagree hlt, link_alloc, if_neg (Nat.ne_of_lt (h.lt i hlt)), link_alloc,
        if_neg (Nat.ne_of_lt hlt), h.link_eq i hlt,
        link_map_update fun p hp => h.left.closed.lt_of_link hp]
    · rw [Function.update_self, link_alloc, if_pos rfl, link_alloc, if_pos rfl, link_map_update hl]
  · have hx' := hx
    rw [size_alloc, apart_update_iff] at hx'
    rw [node_alloc, if_neg hx'.2]
    have hidle := h.idle x hx'.1
    exact ⟨fun c hc => hlater.apart (hidle.apart c hc) (h.right.child_lt hc), hidle.bare⟩

/-- A change of the members of an object and of its image. -/
lemma changeMembers (hi : i < d.size) (hm : i ≠ m) {g g' : Keyed NodeId → Keyed NodeId}
    (hg : ∀ members, g' (members.map fun e => (e.1, f e.2)) = (g members).map fun e => (e.1, f e.2))
    (hnew : ∀ members, d.node i = .object members → ∀ entry ∈ g members,
      entry ∈ members ∨ d.Admits k m entry) :
    Twin k m extra f (d.changeMembers i g) (e.changeMembers (f i) g') := by
  cases hobject : d.isObject i with
  | false =>
      rw [changeMembers_of_not_isObject hobject,
        changeMembers_of_not_isObject ((h.isObject_eq hi).trans hobject)]
      exact h
  | true =>
      obtain ⟨members, hnode⟩ := exists_members_of_isObject hobject
      have hnode' : e.node (f i) = .object (members.map fun e => (e.1, f e.2)) := by
        rw [h.node_eq i hi hm, hnode]
        rfl
      have hne {j : NodeId} (hj : j < d.size) (hji : j ≠ i) : f j ≠ f i :=
        fun heq => hji (h.inj j hj i hi heq)
      have hleft := h.left.changeMembers hnew
      have hsize : (d.changeMembers i g).size = d.size := size_changeMembers
      have hsize' : (e.changeMembers (f i) g').size = e.size := size_changeMembers
      refine ⟨hleft, ?_, fun j hj => ?_, ?_, fun j hj hjm => ?_, ?_, fun j hj => ?_, ?_,
        fun x hx => ?_⟩
      · have hset : e.changeMembers (f i) g'
            = e.setNode (f i) (.object ((g members).map fun e => (e.1, f e.2))) := by
          rw [Document.changeMembers, hnode', ← hg]
        rw [hset]
        refine (keeps_setNode h.right fun c hc => ?_).closed
        obtain ⟨entry', hentry', rfl⟩ := List.mem_map.mp hc
        obtain ⟨entry, hentry, rfl⟩ := List.mem_map.mp hentry'
        rcases hnew members hnode entry hentry with hold | hadmits
        · exact h.lt _ (h.entry_lt hnode entry hold)
        · exact h.lt _ hadmits.lt
      · rw [hsize']
        rw [hsize] at hj
        exact h.lt j hj
      · rw [hsize]
        exact h.inj
      · rw [hsize] at hj
        by_cases hji : j = i
        · rw [hji, node_changeMembers hnode, node_changeMembers hnode', hg]
          rfl
        · rw [node_changeMembers_of_ne hji, node_changeMembers_of_ne (hne hj hji)]
          exact h.node_eq j hj hjm
      · obtain ⟨entries, hd, hk, he⟩ := h.map_eq
        refine ⟨entries, ?_, hk, ?_⟩
        · rw [node_changeMembers_of_ne (Ne.symm hm), hd]
        · rw [node_changeMembers_of_ne (hne h.map_lt (Ne.symm hm)), he]
      · rw [hsize] at hj
        rw [link_changeMembers, link_changeMembers]
        exact h.link_eq j hj
      · rw [hsize]
        exact h.extra_apart
      · rw [hsize] at hx ⊢
        rw [node_changeMembers_of_ne (Ne.symm (hx i hi))]
        exact h.idle x hx

section Schema

variable (hi : i < d.size) (hm : i ≠ m)
include hi hm

lemma set (hadmits : d.Admits k m (key, c)) :
    Twin k m extra f (d.set i key c) (e.set (f i) key (f c)) := by
  refine h.changeMembers hi hm (fun members => (Keyed.map_insert f members key c).symm)
    fun members _ entry hentry => ?_
  rcases Keyed.mem_or_eq_of_mem_insert members hentry with hold | rfl
  · exact .inl hold
  · exact .inr hadmits

lemma erase : Twin k m extra f (d.erase i key) (e.erase (f i) key) :=
  h.changeMembers hi hm (fun members => (Keyed.map_erase f members key).symm)
    fun _ _ _ hentry => .inl (Keyed.mem_erase hentry)

lemma rename {target : String} (hkey : key ≠ "$defs")
    (hfresh : target = k → ∀ c, d.get? i key = some c → d.isObject c = false) :
    Twin k m extra f (d.rename i key target) (e.rename (f i) key target) := by
  have hcan : e.canRename (f i) key target = d.canRename i key target := by
    rw [canRename, canRename, h.has_eq hi hm, h.has_eq hi hm]
  rw [Document.rename, Document.rename, hcan]
  split
  case isTrue =>
    refine h.changeMembers hi hm (fun members => (Keyed.map_rename f members key target).symm)
      fun members hnode entry hentry => ?_
    refine (Keyed.mem_or_get?_of_mem_rename members hentry).imp_right fun hfound => ?_
    have hget : d.get? i key = some entry.2 := by rw [get?_of_node hnode, hfound.2]
    exact ⟨h.left.loose_of_get? hkey hget, fun heq => hfresh (hfound.1 ▸ heq) _ hget⟩
  case isFalse => exact h

lemma setList {items : List NodeId} (hitems : ∀ c ∈ items, d.Loose m c) :
    Advances k m extra f d e (d.setList i key items) (e.setList (f i) key (items.map f)) := by
  have hfits : d.Fits k m (.array items) := by
    refine ⟨fun c hc => (hitems c hc).lt, fun c hc => (hitems c hc).unheld,
      (fun _ heq => by cases heq), ?_, fun _ heq => by cases heq⟩
    rintro _ ⟨⟩ hmem
    exact (hitems m hmem).ne rfl
  obtain ⟨hlater, htwin⟩ := h.alloc (l := .under i) hfits (fun p hp => Link.under.inj hp ▸ hi)
    fun heq => absurd (Link.under.inj heq) hm
  have hadmits : (d.alloc (.array items) (.under i)).2.Admits k m (key, d.size) := by
    refine ⟨⟨lt_size_alloc, fun heq => Nat.ne_of_gt h.map_lt heq, ?_⟩, fun _ => ?_⟩
    · rw [node_alloc_self]
      exact fun hmem => (hitems m hmem).ne rfl
    · rw [isObject, members?, node_alloc_self]
      rfl
  have hset := htwin.set (Nat.lt_of_lt_of_le hi hlater.size_le) hm hadmits
  rw [hlater.agree i hi, Function.update_self] at hset
  obtain ⟨f', hlater', htwin'⟩ := hset.advances (e := (e.alloc _ _).2) size_changeMembers
    size_changeMembers
  exact ⟨f', hlater.trans hlater', htwin'⟩

lemma setScalar (value : Json.Scalar) :
    Advances k m extra f d e (d.setValue i key (.scalar value))
      (e.setValue (f i) key (.scalar value)) := by
  have hfits : d.Fits k m (.leaf value) :=
    ⟨(fun _ hc => by cases hc), (fun _ hc => by cases hc), (fun _ heq => by cases heq),
      (fun _ heq => by cases heq), fun _ heq => by cases heq⟩
  obtain ⟨hlater, htwin⟩ := h.alloc (l := .under i) hfits (fun p hp => Link.under.inj hp ▸ hi)
    fun heq => absurd (Link.under.inj heq) hm
  have hadmits : (d.alloc (.leaf value) (.under i)).2.Admits k m (key, d.size) := by
    refine ⟨⟨lt_size_alloc, fun heq => Nat.ne_of_gt h.map_lt heq, ?_⟩, fun _ => ?_⟩
    · rw [node_alloc_self]
      exact fun hmem => by cases hmem
    · rw [isObject, members?, node_alloc_self]
      rfl
  have hset := htwin.set (Nat.lt_of_lt_of_le hi hlater.size_le) hm hadmits
  rw [hlater.agree i hi, Function.update_self] at hset
  obtain ⟨f', hlater', htwin'⟩ := hset.advances (e := (e.alloc _ _).2) size_changeMembers
    size_changeMembers
  rw [setScalar_eq, setScalar_eq]
  exact ⟨f', hlater.trans hlater', htwin'⟩

end Schema

/-! ### A change among the spare nodes -/

/-- The twin has changed at spare nodes only. -/
lemma right_only (hclosed : e'.Closed) (hsize : e.size ≤ e'.size)
    (hnode : ∀ i < d.size, e'.node (f i) = e.node (f i))
    (hlink : ∀ i < d.size, e'.link (f i) = e.link (f i))
    (hidle : ∀ x, Apart f d.size x → Idle f d.size (e'.node x)) : Twin k m extra f d e' where
  left := h.left
  right := hclosed
  lt i hi := Nat.lt_of_lt_of_le (h.lt i hi) hsize
  inj := h.inj
  node_eq i hi hm := (hnode i hi).trans (h.node_eq i hi hm)
  map_eq := by
    obtain ⟨entries, hd, hk, he⟩ := h.map_eq
    exact ⟨entries, hd, hk, (hnode m h.map_lt).trans he⟩
  link_eq i hi := (hlink i hi).trans (h.link_eq i hi)
  extra_apart := h.extra_apart
  idle := hidle

lemma apart_size : Apart f d.size e.size := fun i hi heq => Nat.ne_of_lt (h.lt i hi) heq

lemma alloc_spare (hn : Idle f d.size n) (hlt : ∀ c ∈ n.children, c < e.size)
    (hl : ∀ p, l = .under p → p < e.size) : Twin k m extra f d (e.alloc n l).2 := by
  refine h.right_only (keeps_alloc h.right ⟨fun c hc => Nat.lt_succ_of_lt (hlt c hc),
    fun p hp => Nat.lt_succ_of_lt (hl p hp)⟩).closed (Nat.le_of_lt lt_size_alloc) (fun i hi => ?_)
    (fun i hi => ?_) fun x hx => ?_
  · rw [node_alloc, if_neg (Nat.ne_of_lt (h.lt i hi))]
  · rw [link_alloc, if_neg (Nat.ne_of_lt (h.lt i hi))]
  · rw [node_alloc]
    split
    · exact hn
    · exact h.idle x hx

section Spare

variable (hx : Apart f d.size x)
include hx

lemma changeMembers_spare {g : Keyed NodeId → Keyed NodeId}
    (hnew : ∀ members, e.node x = .object members → ∀ entry ∈ g members,
      entry ∈ members ∨ entry.2 < e.size ∧ Apart f d.size entry.2 ∧ entry.1 ∉ referringKeys) :
    Twin k m extra f d (e.changeMembers x g) := by
  cases hobject : e.isObject x with
  | false =>
      rw [changeMembers_of_not_isObject hobject]
      exact h
  | true =>
      obtain ⟨members, hnode⟩ := exists_members_of_isObject hobject
      have hold := h.idle x hx
      rw [hnode] at hold
      refine h.right_only ?_ (Nat.le_of_eq size_changeMembers.symm)
        (fun i hi => node_changeMembers_of_ne (hx i hi)) (fun _ _ => link_changeMembers)
        fun y hy => ?_
      · rw [Document.changeMembers, hnode]
        refine (keeps_setNode h.right fun c hc => ?_).closed
        obtain ⟨entry, hentry, rfl⟩ := List.mem_map.mp hc
        rcases hnew members hnode entry hentry with hmem | hadd
        · have hchild : entry.2 ∈ (e.node x).children := by
            rw [hnode]
            exact List.mem_map_of_mem hmem
          exact h.right.child_lt hchild
        · exact hadd.1
      · by_cases hyx : y = x
        · rw [hyx, node_changeMembers hnode]
          refine ⟨fun c hc => ?_, ?_⟩
          · obtain ⟨entry, hentry, rfl⟩ := List.mem_map.mp hc
            exact (hnew members hnode entry hentry).elim
              (fun hmem => hold.apart _ (List.mem_map_of_mem hmem)) fun hadd => hadd.2.1
          · rintro _ ⟨⟩ entry hentry
            exact (hnew members hnode entry hentry).elim (hold.bare members rfl entry)
              fun hadd => hadd.2.2
        · rw [node_changeMembers_of_ne hyx]
          exact h.idle y hy

lemma set_spare (hkey : key ∉ referringKeys) (hc : Apart f d.size c) (hlt : c < e.size) :
    Twin k m extra f d (e.set x key c) :=
  h.changeMembers_spare hx fun members _ entry hentry =>
    (Keyed.mem_or_eq_of_mem_insert members hentry).imp_right fun heq => by
      subst heq
      exact ⟨hlt, hc, hkey⟩

lemma erase_spare : Twin k m extra f d (e.erase x key) :=
  h.changeMembers_spare hx fun _ _ _ hentry => .inl (Keyed.mem_erase hentry)

lemma apart_of_get? (hc : e.get? x key = some c) : Apart f d.size c :=
  (h.idle x hx).apart c (mem_children_of_get? hc)

lemma rename_spare {target : String} (htarget : target ∉ referringKeys) :
    Twin k m extra f d (e.rename x key target) := by
  rw [Document.rename]
  split
  case isTrue =>
    refine h.changeMembers_spare hx fun members hnode entry hentry => ?_
    refine (Keyed.mem_or_get?_of_mem_rename members hentry).imp_right fun hfound => ?_
    have hget : e.get? x key = some entry.2 := by rw [get?_of_node hnode, hfound.2]
    exact ⟨h.right.get?_lt hget, h.apart_of_get? hx hget, hfound.1 ▸ htarget⟩
  case isFalse => exact h

lemma get?_spare (hkey : key ∈ referringKeys) : e.get? x key = none := by
  cases hget : e.get? x key with
  | none => rfl
  | some c =>
      cases hobject : e.isObject x with
      | true =>
          obtain ⟨members, hnode⟩ := exists_members_of_isObject hobject
          rw [get?_of_node hnode] at hget
          exact absurd hkey ((h.idle x hx).bare members hnode _ (Keyed.mem_of_get? hget))
      | false =>
          rw [get?] at hget
          rw [isObject, Option.isSome_eq_false_iff, Option.isNone_iff_eq_none] at hobject
          rw [hobject] at hget
          cases hget

lemma setList_spare (hlt : x < e.size) (hkey : key ∉ referringKeys) {items : List NodeId}
    (hitems : ∀ c ∈ items, c < e.size ∧ Apart f d.size c) :
    Twin k m extra f d (e.setList x key items) := by
  have hidle : Idle f d.size (.array items) :=
    ⟨fun c hc => (hitems c hc).2, fun _ heq => by cases heq⟩
  exact (h.alloc_spare hidle (fun c hc => (hitems c hc).1)
    fun p hp => Link.under.inj hp ▸ hlt).set_spare
    hx hkey h.apart_size lt_size_alloc

lemma setScalar_spare (hlt : x < e.size) (hkey : key ∉ referringKeys) (value : Json.Scalar) :
    Twin k m extra f d (e.setValue x key (.scalar value)) := by
  have hidle : Idle f d.size (.leaf value) := ⟨(fun _ hc => by cases hc), fun _ heq => by cases heq⟩
  rw [setScalar_eq]
  exact (h.alloc_spare hidle (fun _ hc => by cases hc) fun p hp =>
    Link.under.inj hp ▸ hlt).set_spare
    hx hkey h.apart_size lt_size_alloc

end Spare

end Twin

end SchemaDecl.Document
