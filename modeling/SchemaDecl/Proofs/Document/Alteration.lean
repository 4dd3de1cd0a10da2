/-
Steps that alter a document.

Bringing schemas to normal form goes from schema to schema. Each step changes one object, under a
few keys, and adds nodes; everything else stays.

* `Document.Alters`: objects are changed under some keys only, and nothing else is.
* `Document.AltersAt`: only one object is changed.
* `Document.alters_foldl`, `Document.exists_step`: many steps, and one among them.
* `Document.altersAt_normalizeSpelling`, `Document.altersAt_normalizeContents`,
  `Document.alters_normalize`: the steps to the normal form, and all of them.
* `Document.Turn`, `Document.exists_turn`: the one step at a schema, between those at others.
-/
import SchemaDecl.Proofs.Document.Growth

namespace SchemaDecl.Document

variable {d d' d'' : Document} {id c x : NodeId} {key : String} {keys : List String}

/-- No key of the node stands twice. -/
def DistinctAt (d : Document) (id : NodeId) : Prop := Keyed.Distinct ((d.members? id).getD [])

instance (d : Document) (id : NodeId) : Decidable (d.DistinctAt id) :=
  inferInstanceAs (Decidable (List.Nodup _))

/-- Objects are changed under some keys, and nodes are added. -/
structure Alters (d d' : Document) (keys : List String) : Prop where
  size_le : d.size ≤ d'.size
  isObject_eq : ∀ x < d.size, d'.isObject x = d.isObject x
  plain : ∀ x < d.size, d.isObject x = false → d'.node x = d.node x
  get?_eq : ∀ x < d.size, ∀ key ∉ keys, d'.get? x key = d.get? x key
  distinct : ∀ x < d.size, d.DistinctAt x → d'.DistinctAt x

/-- One object is changed under some keys, and nodes are added. -/
structure AltersAt (d d' : Document) (id : NodeId) (keys : List String) : Prop
    extends Alters d d' keys where
  node_eq : ∀ x < d.size, x ≠ id → d'.node x = d.node x

/-! ### One step after another -/

/-- Nodes are added. -/
lemma alters_of_node_eq (hsize : d.size ≤ d'.size) (h : ∀ x < d.size, d'.node x = d.node x) :
    d.Alters d' keys where
  size_le := hsize
  isObject_eq x hx := by rw [isObject, isObject, members?, members?, h x hx]
  plain x hx _ := h x hx
  get?_eq x hx key _ := by rw [get?, get?, members?, members?, h x hx]
  distinct x hx hd := by
    rw [DistinctAt, members?, h x hx]
    exact hd

lemma altersAt_of_node_eq (hsize : d.size ≤ d'.size) (h : ∀ x < d.size, d'.node x = d.node x) :
    d.AltersAt d' id keys := ⟨alters_of_node_eq hsize h, fun x hx _ => h x hx⟩

lemma Extends.alters (h : d.Extends d') : d.Alters d' [] :=
  alters_of_node_eq h.size_le fun _ hx => h.node_eq hx

lemma Alters.trans (h : d.Alters d' keys) (h' : d'.Alters d'' keys) : d.Alters d'' keys where
  size_le := Nat.le_trans h.size_le h'.size_le
  isObject_eq x hx := by
    rw [h'.isObject_eq x (Nat.lt_of_lt_of_le hx h.size_le), h.isObject_eq x hx]
  plain x hx hp := by
    have hx' := Nat.lt_of_lt_of_le hx h.size_le
    rw [h'.plain x hx' (by rw [h.isObject_eq x hx, hp]), h.plain x hx hp]
  get?_eq x hx key hkey := by
    rw [h'.get?_eq x (Nat.lt_of_lt_of_le hx h.size_le) key hkey, h.get?_eq x hx key hkey]
  distinct x hx hd := h'.distinct x (Nat.lt_of_lt_of_le hx h.size_le) (h.distinct x hx hd)

lemma Alters.mono {keys' : List String} (h : d.Alters d' keys) (hkeys : keys ⊆ keys') :
    d.Alters d' keys' :=
  ⟨h.size_le, h.isObject_eq, h.plain,
    fun x hx key hkey => h.get?_eq x hx key fun hmem => hkey (hkeys hmem), h.distinct⟩

namespace AltersAt

lemma refl (d : Document) (id : NodeId) (keys : List String) : d.AltersAt d id keys :=
  altersAt_of_node_eq (Nat.le_refl _) fun _ _ => rfl

lemma trans (h : d.AltersAt d' id keys) (h' : d'.AltersAt d'' id keys) :
    d.AltersAt d'' id keys where
  toAlters := h.toAlters.trans h'.toAlters
  node_eq x hx hne := by
    rw [h'.node_eq x (Nat.lt_of_lt_of_le hx h.size_le) hne, h.node_eq x hx hne]

lemma mono {keys' : List String} (h : d.AltersAt d' id keys) (hkeys : keys ⊆ keys') :
    d.AltersAt d' id keys' := ⟨h.toAlters.mono hkeys, h.node_eq⟩

end AltersAt

/-- Steps at nodes alter those nodes at most. -/
lemma alters_foldl {f : Document → NodeId → Document}
    (hf : ∀ (d : Document) (a : NodeId), d.AltersAt (f d a) a keys) (d : Document)
    (ids : List NodeId) :
    d.Alters (ids.foldl f d) keys ∧
      ∀ x < d.size, x ∉ ids → (ids.foldl f d).node x = d.node x := by
  induction ids generalizing d with
  | nil => exact ⟨alters_of_node_eq (Nat.le_refl _) fun _ _ => rfl, fun _ _ _ => rfl⟩
  | cons a ids ih =>
      have hstep := hf d a
      obtain ⟨halters, hnode⟩ := ih (f d a)
      refine ⟨hstep.toAlters.trans halters, fun x hx hmem => ?_⟩
      rw [List.mem_cons, not_or] at hmem
      exact (hnode x (Nat.lt_of_lt_of_le hx hstep.size_le) hmem.2).trans (hstep.node_eq x hx hmem.1)

/-- Steps at different nodes, one after the other: the step at one of them finds the node as it was
at the start, and what it makes of the node lasts. -/
lemma exists_step {f : Document → NodeId → Document}
    (hf : ∀ (d : Document) (a : NodeId), d.AltersAt (f d a) a keys)
    (hkeeps : ∀ (d : Document) (a : NodeId), d.Closed → a < d.size → d.Keeps (f d a))
    (hd : d.Closed) {ids : List NodeId} (hnodup : ids.Nodup) (hlt : ∀ a ∈ ids, a < d.size)
    (hid : id ∈ ids) :
    ∃ d₂, d.Alters d₂ keys ∧ d₂.Closed ∧ d₂.node id = d.node id ∧
      (f d₂ id).Alters (ids.foldl f d) keys ∧ (f d₂ id).Closed ∧
      (ids.foldl f d).node id = (f d₂ id).node id := by
  obtain ⟨before, after, rfl⟩ := List.append_of_mem hid
  obtain ⟨-, hnodup, hapart⟩ := List.nodup_append'.mp hnodup
  obtain ⟨halters, hnode⟩ := alters_foldl hf d before
  have hd₂ : d.Keeps (before.foldl f d) := keeps_foldl hd fun x hx d' hd' =>
    hkeeps d' x hd'.closed (Nat.lt_of_lt_of_le (hlt x (List.mem_append_left _ hx)) hd'.size_le)
  have hlt₂ := Nat.lt_of_lt_of_le (hlt id hid) hd₂.size_le
  have hstep := hkeeps _ id hd₂.closed hlt₂
  obtain ⟨halters', hnode'⟩ := alters_foldl hf (f (before.foldl f d) id) after
  rw [List.foldl_append, List.foldl_cons]
  exact ⟨before.foldl f d, halters, hd₂.closed,
    hnode id (hlt id hid) fun hmem => hapart hmem List.mem_cons_self, halters', hstep.closed,
    hnode' id (Nat.lt_of_lt_of_le hlt₂ hstep.size_le) (List.nodup_cons.mp hnodup).1⟩

/-! ### What is read -/

namespace Alters

variable (h : d.Alters d' keys)
include h

lemma leaf?_eq (hx : x < d.size) : d'.leaf? x = d.leaf? x := by
  by_cases hobject : d.isObject x = true
  · have hobject' : d'.isObject x = true := by rw [h.isObject_eq x hx, hobject]
    obtain ⟨members, hnode⟩ := exists_members_of_isObject hobject
    obtain ⟨members', hnode'⟩ := exists_members_of_isObject hobject'
    rw [leaf?, leaf?, hnode, hnode']
  · rw [leaf?, leaf?, h.plain x hx (by simpa using hobject)]

lemma items?_eq (hx : x < d.size) : d'.items? x = d.items? x := by
  by_cases hobject : d.isObject x = true
  · obtain ⟨members, hnode⟩ := exists_members_of_isObject hobject
    obtain ⟨members', hnode'⟩ := exists_members_of_isObject ((h.isObject_eq x hx).trans hobject)
    rw [items?, items?, hnode, hnode']
  · rw [items?, items?, h.plain x hx (by simpa using hobject)]

variable (hd : d.Closed) {y : NodeId} (hget : d'.get? y key = d.get? x key)
include hd hget

/-- What is under a key reads the same, if it is the same node. -/
lemma scalar?_eq : d'.scalar? y key = d.scalar? x key := by
  rw [scalar?, scalar?, hget]
  cases hget' : d.get? x key with
  | none => rfl
  | some c => exact h.leaf?_eq (hd.get?_lt hget')

lemma string?_eq : d'.string? y key = d.string? x key := by
  rw [string?, string?, h.scalar?_eq hd hget]

lemma bound?_eq : d'.bound? y key = d.bound? x key := by
  rw [bound?, bound?, double?, double?, h.scalar?_eq hd hget]

lemma listAt_eq : d'.listAt y key = d.listAt x key := by
  rw [listAt, listAt, hget]
  cases hget' : d.get? x key with
  | none => rfl
  | some list => rw [Option.bind_some, Option.bind_some, h.items?_eq (hd.get?_lt hget')]

end Alters

/-! ### Changes of one object -/

lemma node_setNode_self {n : Node} (h : id < d.size) : (d.setNode id n).node id = n := by
  rw [node, setNode, Array.getElem?_modify, if_pos rfl, Array.getElem?_eq_getElem h,
    Option.map_some]

lemma node_setNode_of_ne {n : Node} (h : x ≠ id) : (d.setNode id n).node x = d.node x := by
  rw [node, setNode, Array.getElem?_modify, if_neg (Ne.symm h), node]

lemma size_setNode {n : Node} : (d.setNode id n).size = d.size := Array.size_modify

lemma members?_of_node {members : Keyed NodeId} (h : d.node id = .object members) :
    d.members? id = some members := by
  rw [members?, h]

lemma get?_of_node {members : Keyed NodeId} (h : d.node id = .object members) :
    d.get? id key = Keyed.get? members key := by
  rw [get?, members?_of_node h]
  rfl

lemma node_changeMembers {members : Keyed NodeId} (h : d.node id = .object members)
    (f : Keyed NodeId → Keyed NodeId) : (d.changeMembers id f).node id = .object (f members) := by
  have hlt : id < d.size := lt_size_of_isObject (by rw [isObject, members?_of_node h]; rfl)
  rw [changeMembers, h]
  exact node_setNode_self hlt

lemma altersAt_changeMembers {f : Keyed NodeId → Keyed NodeId}
    (hget : ∀ members, ∀ key ∉ keys, Keyed.get? (f members) key = Keyed.get? members key)
    (hdistinct : ∀ members, d.node id = .object members → members.Distinct → (f members).Distinct) :
    d.AltersAt (d.changeMembers id f) id keys := by
  cases hnode : d.node id with
  | object members =>
      have hnode' := node_changeMembers hnode f
      have hne {x : NodeId} (hx : x ≠ id) : (d.changeMembers id f).node x = d.node x := by
        rw [changeMembers, hnode]
        exact node_setNode_of_ne hx
      have hsize : (d.changeMembers id f).size = d.size := by
        rw [changeMembers, hnode]
        exact size_setNode
      refine ⟨⟨Nat.le_of_eq hsize.symm, fun x _ => ?_, fun x _ hp => ?_, fun x _ key hkey => ?_,
        fun x _ hd => ?_⟩, fun x _ => hne⟩ <;> by_cases hx : x = id
      · rw [hx, isObject, isObject, members?_of_node hnode, members?_of_node hnode']
        rfl
      · rw [isObject, isObject, members?, members?, hne hx]
      · rw [hx, isObject, members?_of_node hnode] at hp
        cases hp
      · exact hne hx
      · rw [hx, get?_of_node hnode, get?_of_node hnode', hget members key hkey]
      · rw [get?, get?, members?, members?, hne hx]
      · subst hx
        rw [DistinctAt, members?_of_node hnode] at hd
        rw [DistinctAt, members?_of_node hnode']
        exact hdistinct members hnode hd
      · rw [DistinctAt, members?, hne hx]
        exact hd
  | leaf value =>
      rw [changeMembers, hnode]
      exact .refl d id keys
  | array items =>
      rw [changeMembers, hnode]
      exact .refl d id keys

lemma altersAt_set (d : Document) (id : NodeId) (key : String) (c : NodeId) :
    d.AltersAt (d.set id key c) id [key] :=
  altersAt_changeMembers (fun _ _ hkey => Keyed.get?_insert_of_ne (by simpa using hkey))
    fun _ _ hd => hd.insert

lemma altersAt_erase (d : Document) (id : NodeId) (key : String) :
    d.AltersAt (d.erase id key) id [key] :=
  altersAt_changeMembers (fun _ _ hkey => Keyed.get?_erase_of_ne (by simpa using hkey))
    fun _ _ hd => hd.erase

lemma altersAt_rename (d : Document) (id : NodeId) (source target : String) :
    d.AltersAt (d.rename id source target) id [source, target] := by
  rw [rename]
  split
  case isTrue hcan =>
    refine altersAt_changeMembers (fun _ key hkey => ?_) fun members hnode hd => hd.rename ?_
    · simp only [List.mem_cons, List.not_mem_nil, or_false, not_or] at hkey
      exact Keyed.get?_rename_of_ne hkey.1 hkey.2
    · rw [canRename, Bool.and_eq_true, has, has, get?_of_node hnode, get?_of_node hnode] at hcan
      simpa using hcan.2
  case isFalse => exact .refl d id _

lemma node_alloc_self {n : Node} {l : Link} : (d.alloc n l).2.node d.size = n := by
  simp [node, alloc, size]

lemma altersAt_alloc {n : Node} {l : Link} : d.AltersAt (d.alloc n l).2 id keys := by
  refine altersAt_of_node_eq (Nat.le_of_lt lt_size_alloc) fun x hx => ?_
  rw [node, alloc, Array.getElem?_push_lt hx, node, Array.getElem?_eq_getElem hx]

lemma node_linkIfFree {l : Link} : (d.linkIfFree c l).node x = d.node x := by
  rw [linkIfFree]
  split
  · rfl
  · rw [node, node, Array.getElem?_modify]
    by_cases hx : c = x
    · rw [if_pos hx]
      cases d.slots[x]? <;> rfl
    · rw [if_neg hx]

lemma altersAt_linkIfFree {l : Link} : d.AltersAt (d.linkIfFree c l) id keys := by
  refine altersAt_of_node_eq ?_ fun _ _ => node_linkIfFree
  rw [linkIfFree]
  split
  · exact Nat.le_refl _
  · exact Nat.le_of_eq Array.size_modify.symm

lemma altersAt_setList (d : Document) (id : NodeId) (key : String) (items : List NodeId) :
    d.AltersAt (d.setList id key items) id [key] :=
  altersAt_alloc.trans (altersAt_set _ id key _)

lemma altersAt_setValue (d : Document) (id : NodeId) (key : String) (value : Json.Scalar) :
    d.AltersAt (d.setValue id key (.scalar value)) id [key] := by
  rw [setValue, insert]
  exact (altersAt_alloc.trans altersAt_linkIfFree).trans (altersAt_set _ id key _)

/-! ### Nodes and links after a change -/

section Changes

variable {n : Node} {l : Link}

lemma size_alloc : (d.alloc n l).2.size = d.size + 1 := Array.size_push _

lemma node_alloc (d : Document) (n : Node) (l : Link) (x : NodeId) :
    (d.alloc n l).2.node x = if x = d.size then n else d.node x := by
  rw [node, alloc, Array.getElem?_push, ← size]
  by_cases h : x = d.size
  · rw [if_pos h, if_pos h]
  · rw [if_neg h, if_neg h, node]

lemma link_alloc (d : Document) (n : Node) (l : Link) (x : NodeId) :
    (d.alloc n l).2.link x = if x = d.size then l else d.link x := by
  rw [link, alloc, Array.getElem?_push, ← size]
  by_cases h : x = d.size
  · rw [if_pos h, if_pos h]
  · rw [if_neg h, if_neg h, link]

lemma link_of_size_le (h : d.size ≤ x) : d.link x = .free := by
  rw [link, Array.getElem?_eq_none h]

lemma link_setNode : (d.setNode id n).link x = d.link x := by
  rw [link, setNode, Array.getElem?_modify, link]
  by_cases h : id = x
  · rw [if_pos h]
    cases d.slots[x]? <;> rfl
  · rw [if_neg h]

lemma link_changeMembers {g : Keyed NodeId → Keyed NodeId} :
    (d.changeMembers id g).link x = d.link x := by
  rw [changeMembers]
  split
  · exact link_setNode
  · rfl

lemma size_changeMembers {g : Keyed NodeId → Keyed NodeId} :
    (d.changeMembers id g).size = d.size := by
  rw [changeMembers]
  split
  · exact size_setNode
  · rfl

lemma node_changeMembers_of_ne {g : Keyed NodeId → Keyed NodeId} (hx : x ≠ id) :
    (d.changeMembers id g).node x = d.node x := by
  rw [changeMembers]
  split
  · exact node_setNode_of_ne hx
  · rfl

lemma changeMembers_of_not_isObject {g : Keyed NodeId → Keyed NodeId} (h : d.isObject id = false) :
    d.changeMembers id g = d := by
  rw [changeMembers]
  split
  case h_1 members hnode =>
    rw [isObject, members?_of_node hnode] at h
    cases h
  case h_2 => rfl

lemma Closed.lt_of_link {p : NodeId} (h : d.Closed) (hp : d.link id = .under p) : p < d.size := by
  have hcopied : d.copiedLink id = .under p := by rw [copiedLink, hp]
  exact h.lt_of_copiedLink hcopied

/-- A new node may be linked when it is added. -/
lemma linkIfFree_alloc (d : Document) (n : Node) (l : Link) :
    (d.alloc n).2.linkIfFree d.size l = (d.alloc n l).2 := by
  have hfree : (d.alloc n).2.isLinked d.size = false := by
    rw [isLinked, link_alloc, if_pos rfl]
    rfl
  rw [linkIfFree, hfree, if_neg Bool.false_ne_true]
  refine congrArg Document.mk (Array.ext_getElem? fun x => ?_)
  rw [Array.getElem?_modify]
  change (if d.size = x then ((d.slots.push ⟨n, .free⟩)[x]?).map _ else
    (d.slots.push ⟨n, .free⟩)[x]?)
    = (d.slots.push ⟨n, l⟩)[x]?
  rw [Array.getElem?_push, Array.getElem?_push, ← size]
  by_cases hx : x = d.size
  · rw [if_pos hx.symm, if_pos hx, if_pos hx, Option.map_some]
  · rw [if_neg (Ne.symm hx), if_neg hx, if_neg hx]

lemma setScalar_eq (d : Document) (id : NodeId) (key : String) (value : Json.Scalar) :
    d.setValue id key (.scalar value)
      = (d.alloc (.leaf value) (.under id)).2.set id key d.size := by
  rw [← linkIfFree_alloc]
  rfl

end Changes

/-! ### Steps to the normal form -/

/-- The keys under which the spelling of a schema changes. -/
def spellingKeys : List String := ["id", "$id", "definitions", "$defs", "extends"]

/-- The keys under which the contents of a schema change, bounds apart. -/
def contentsKeys : List String := ["const", "enum", "description", "$id", "additionalProperties"]

/-- The keys under which the bounds of an array schema change. -/
def boundKeys : List String := ["minItems", "maxItems", "items", "additionalItems"]

lemma altersAt_canonicalKeywords (d : Document) (id : NodeId) :
    d.AltersAt (d.canonicalKeywords id) id ["id", "$id", "definitions", "$defs"] := by
  have hdefs (d : Document) : d.AltersAt (d.rename id "definitions" "$defs") id
      ["id", "$id", "definitions", "$defs"] := (altersAt_rename d id _ _).mono (by simp)
  rw [canonicalKeywords]
  split
  · exact ((altersAt_rename d id _ _).mono (by simp)).trans (hdefs _)
  · exact hdefs d

lemma altersAt_wrapExtends (d : Document) (id : NodeId) :
    d.AltersAt (d.wrapExtends id) id ["extends"] := by
  rw [wrapExtends]
  split
  · exact .refl d id _
  · split
    · exact altersAt_erase d id _
    · exact .refl d id _
    · exact altersAt_setList d id _ _

/-- Spelling of one schema. -/
lemma altersAt_normalizeSpelling (d : Document) (id : NodeId) :
    d.AltersAt (d.normalizeSpelling id) id spellingKeys :=
  ((altersAt_canonicalKeywords d id).mono (by simp [spellingKeys])).trans
    ((altersAt_wrapExtends _ id).mono (by simp [spellingKeys]))

lemma altersAt_constToEnum (d : Document) (id : NodeId) :
    d.AltersAt (d.constToEnum id) id ["const", "enum"] := by
  rw [constToEnum]
  split
  · exact .refl d id _
  · split
    · exact .refl d id _
    · exact ((altersAt_erase d id _).mono (by simp)).trans
        ((altersAt_setList _ id _ _).mono (by simp))

lemma altersAt_escapeDescription (d : Document) (id : NodeId) :
    d.AltersAt (d.escapeDescription id) id ["description"] := by
  rw [escapeDescription]
  split
  · exact .refl d id _
  · dsimp only
    split
    · exact .refl d id _
    · exact altersAt_setValue d id _ _

lemma altersAt_defaultRootId (d : Document) (id : NodeId) (name : Option String) :
    d.AltersAt (d.defaultRootId id name) id ["$id"] := by
  cases name with
  | none => exact .refl d id _
  | some name =>
      rw [defaultRootId]
      split
      · exact .refl d id _
      · exact altersAt_setValue d id _ _

lemma altersAt_defaultAdditionalProperties (s : Settings) (d : Document) (id : NodeId) :
    d.AltersAt (defaultAdditionalProperties s d id) id ["additionalProperties"] := by
  rw [defaultAdditionalProperties]
  split
  · exact altersAt_setValue d id _ _
  · exact .refl d id _

/-- What is said about the identifier and about further properties, when the values and the
description have been looked at. -/
lemma altersAt_describe_escaped (s : Settings) (root : NodeId) (name : Option String) (d : Document)
    (id : NodeId) :
    ((d.constToEnum id).escapeDescription id).AltersAt (describe s root name d id) id
      ["$id", "additionalProperties"] := by
  have hmore (d : Document) : d.AltersAt (defaultAdditionalProperties s d id) id
      ["$id", "additionalProperties"] :=
    (altersAt_defaultAdditionalProperties s d id).mono (by simp)
  rw [describe]
  split
  · exact ((altersAt_defaultRootId _ id name).mono (by simp)).trans (hmore _)
  · exact hmore _

lemma altersAt_describe (s : Settings) (root : NodeId) (name : Option String) (d : Document)
    (id : NodeId) : d.AltersAt (describe s root name d id) id contentsKeys :=
  (((altersAt_constToEnum d id).mono (by simp [contentsKeys])).trans
    ((altersAt_escapeDescription _ id).mono (by simp [contentsKeys]))).trans
      ((altersAt_describe_escaped s root name d id).mono (by simp [contentsKeys]))

lemma altersAt_expandItems (d : Document) (id : NodeId) (least : Nat) (most : Option Nat) :
    d.AltersAt (d.expandItems id least most) id ["items", "additionalItems"] := by
  have hlist (d : Document) (items : List NodeId) :
      d.AltersAt (d.setList id "items" items) id ["items", "additionalItems"] :=
    (altersAt_setList d id _ _).mono (by simp)
  rw [expandItems]
  split
  · exact .refl d id _
  · split
    · split
      · dsimp only
        split
        · exact (hlist d _).trans ((altersAt_set _ id _ _).mono (by simp))
        · exact hlist d _
      · exact .refl d id _
    · split
      · split
        · exact hlist d _
        · exact .refl d id _
      · exact .refl d id _
    · exact .refl d id _

lemma altersAt_boundArrays (s : Settings) (d : Document) (id : NodeId) :
    d.AltersAt (boundArrays s d id) id boundKeys := by
  have herase (d : Document) {key : String} (hkey : key ∈ boundKeys) :
      d.AltersAt (d.erase id key) id boundKeys :=
    (altersAt_erase d id key).mono (by simpa using hkey)
  rw [boundArrays]
  split
  · exact .refl d id _
  · split
    · exact (herase d (by simp [boundKeys])).trans (herase _ (by simp [boundKeys]))
    · dsimp only
      have hleast : d.AltersAt
          (if d.has id "minItems" then d else d.setValue id "minItems" (.int 0)) id boundKeys := by
        split
        · exact .refl d id _
        · exact (altersAt_setValue d id _ _).mono (by simp [boundKeys])
      generalize (if d.has id "minItems" then d else d.setValue id "minItems" (.int 0)) = d₁
        at hleast ⊢
      generalize (d₁.bound? id "minItems").getD 0 = least
      generalize (d₁.bound? id "maxItems").filter (keepsMaximum s least) = most
      have hmost : d.AltersAt (if (d₁.bound? id "maxItems").isSome && most.isNone
          then d₁.erase id "maxItems" else d₁) id boundKeys := by
        split
        · exact hleast.trans (herase d₁ (by simp [boundKeys]))
        · exact hleast
      split
      · exact hmost
      · exact hmost.trans ((altersAt_expandItems _ id least most).mono (by simp [boundKeys]))

/-- Contents of one schema. -/
lemma altersAt_normalizeContents (s : Settings) (root : NodeId) (name : Option String)
    (d : Document) (id : NodeId) :
    d.AltersAt (normalizeContents s root name d id) id (contentsKeys ++ boundKeys) := by
  rw [normalizeContents_eq]
  exact ((altersAt_describe s root name d id).mono (List.subset_append_left _ _)).trans
    ((altersAt_boundArrays s _ id).mono (List.subset_append_right _ _))

/-- All steps that concern spelling. -/
lemma alters_respelled (d : Document) (root : NodeId) :
    d.Alters (d.respelled root) spellingKeys := (alters_foldl altersAt_normalizeSpelling d _).1

/-- All steps that concern contents. -/
lemma alters_contents (s : Settings) (d : Document) (root : NodeId) (name : Option String) :
    (d.respelled root).Alters (d.normalize s root name) (contentsKeys ++ boundKeys) :=
  (alters_foldl (altersAt_normalizeContents s root name) (d.respelled root) _).1

/-- All steps to the normal form. -/
lemma alters_normalize (s : Settings) (d : Document) (root : NodeId) (name : Option String) :
    d.Alters (d.normalize s root name) (spellingKeys ++ (contentsKeys ++ boundKeys)) :=
  ((alters_respelled d root).mono (List.subset_append_left _ _)).trans
    ((alters_contents s d root name).mono (List.subset_append_right _ _))

/-! ### The turn of one schema -/

variable {root : NodeId}

lemma isObject_of_mem_schemaIds (h : id ∈ d.schemaIds root) : d.isObject root = true := by
  rw [schemaIds, schemas] at h
  split at h
  · assumption
  · cases h

lemma schemaEdges_of_size_le {x : NodeId} (hx : d.size ≤ x) : d.schemaEdges x = [] := by
  have hnode : d.node x = .leaf .null := by
    rw [node, Array.getElem?_eq_none hx]
  simp [schemaEdges, positions, get?, members?, hnode]

lemma nodup_schemaIds (d : Document) (root : NodeId) : (d.schemaIds root).Nodup := by
  rw [schemaIds, schemas]
  split
  · exact Walk.nodup_entered (fun _ => schemaEdges_of_size_le) _
  · exact List.nodup_nil

/-- It is the turn of a schema in `d₂`. The steps before its turn and after it leave the schema as
it is. -/
structure Turn (s : Settings) (d : Document) (root : NodeId) (name : Option String) (id : NodeId)
    (d₂ : Document) : Prop where
  before : (d.respelled root).Alters d₂ (contentsKeys ++ boundKeys)
  closed : d₂.Closed
  node_eq : d₂.node id = (d.respelled root).node id
  after : (normalizeContents s root name d₂ id).Alters (d.normalize s root name)
    (contentsKeys ++ boundKeys)
  closed_step : (normalizeContents s root name d₂ id).Closed
  node_eq_after : (d.normalize s root name).node id = (normalizeContents s root name d₂ id).node id

namespace Turn

variable {s : Settings} {name : Option String} {d₂ : Document} (h : Turn s d root name id d₂)
include h

lemma get?_eq (key : String) : d₂.get? id key = (d.respelled root).get? id key := by
  rw [get?, get?, members?, members?, h.node_eq]

lemma get?_eq_after (key : String) :
    (d.normalize s root name).get? id key = (normalizeContents s root name d₂ id).get? id key := by
  rw [get?, get?, members?, members?, h.node_eq_after]

/-- All steps before the turn. -/
lemma start : d.Alters d₂ (spellingKeys ++ (contentsKeys ++ boundKeys)) :=
  ((alters_respelled d root).mono (List.subset_append_left _ _)).trans
    (h.before.mono (List.subset_append_right _ _))

/-- Up to its turn, a schema is changed in its spelling only. -/
lemma get?_eq_start (hlt : id < d.size) {key : String} (hkey : key ∉ spellingKeys) :
    d₂.get? id key = d.get? id key :=
  (h.get?_eq key).trans ((alters_respelled d root).get?_eq id hlt key hkey)

end Turn

/-- **Every schema has its turn**, once. -/
lemma exists_turn (s : Settings) (name : Option String) (hd : d.Closed)
    (hid : id ∈ (d.respelled root).schemaIds root) : ∃ d₂, Turn s d root name id d₂ := by
  obtain ⟨d₂, hbefore, hclosed, hnode, hafter, hclosed', hnode'⟩ :=
    exists_step (altersAt_normalizeContents s root name)
      (fun _ _ hd hlt => keeps_normalizeContents hd hlt s root name)
      (keeps_respelled hd root).closed (nodup_schemaIds _ root)
      (fun _ => lt_size_of_mem_schemaIds) hid
  rw [← normalize_eq] at hafter hnode'
  exact ⟨d₂, hbefore, hclosed, hnode, hafter, hclosed', hnode'⟩

/-- A schema that is not found when keywords have been spelled anew has no turn. -/
lemma node_normalize_of_not_mem (s : Settings) (name : Option String)
    (hlt : id < (d.respelled root).size) (hid : id ∉ (d.respelled root).schemaIds root) :
    (d.normalize s root name).node id = (d.respelled root).node id :=
  (alters_foldl (altersAt_normalizeContents s root name) (d.respelled root) _).2 id hlt hid

end SchemaDecl.Document
