/-
Closed documents.

The numbers that a document holds are numbers of its nodes. This is so for every document that comes
from a value, and reading, linking and bringing schemas to normal form keep it so.

* `Document.Closed`: nodes hold and name nodes of the document only.
* `Document.Keeps`: a step leaves a document closed, with all its numbers.
* `Document.keeps_insert`, `Document.closed_ofJson`, `Document.keeps_linkFrom`,
  `Document.keeps_normalize`: the steps that come before lowering.
-/
import SchemaDecl.Document.Lineage
import SchemaDecl.Document.Normal
import SchemaDecl.Document.Reference
import SchemaDecl.Proofs.Keyed
import SchemaDecl.Proofs.Walk

namespace SchemaDecl

namespace Node

variable {n : Node} {f g : NodeId → NodeId}

lemma children_map (n : Node) (g : NodeId → NodeId) : (n.map g).children = n.children.map g := by
  cases n with
  | leaf value => rfl
  | array items => rfl
  | object members => simp [map, children]

lemma map_congr (h : ∀ c ∈ n.children, f c = g c) : n.map f = n.map g := by
  cases n with
  | leaf value => rfl
  | array items => exact congrArg Node.array (List.map_congr_left h)
  | object members =>
      refine congrArg Node.object (List.map_congr_left fun e he => ?_)
      rw [h e.2 (List.mem_map_of_mem he)]

lemma map_map (n : Node) (f g : NodeId → NodeId) : (n.map f).map g = n.map (g ∘ f) := by
  cases n <;> simp [Node.map]

lemma map_id (n : Node) : n.map id = n := by
  cases n <;> simp [Node.map]

end Node

/-- A slot holds and names only nodes below a number. -/
structure Slot.Within (slot : Slot) (n : Nat) : Prop where
  children : ∀ c ∈ slot.node.children, c < n
  parent : ∀ p, slot.link = .under p → p < n

lemma Slot.Within.mono {slot : Slot} {n m : Nat} (h : slot.Within n) (hnm : n ≤ m) :
    slot.Within m where
  children c hc := Nat.lt_of_lt_of_le (h.children c hc) hnm
  parent p hp := Nat.lt_of_lt_of_le (h.parent p hp) hnm

instance (slot : Slot) (n : Nat) : Decidable (slot.Within n) :=
  decidable_of_iff ((∀ c ∈ slot.node.children, c < n) ∧ (match slot.link with
    | .under p => decide (p < n)
    | _ => true) = true) <| by
  constructor
  · rintro ⟨hchildren, hlink⟩
    exact ⟨hchildren, fun p hp => by simpa [hp] using hlink⟩
  · rintro ⟨hchildren, hparent⟩
    refine ⟨hchildren, ?_⟩
    cases hlink : slot.link with
    | under p => exact decide_eq_true (hparent p hlink)
    | _ => rfl

namespace Document

variable {d d' d'' : Document} {id c : NodeId} {key : String}

/-- The nodes of a document hold and name only nodes of the document. -/
def Closed (d : Document) : Prop := ∀ slot ∈ d.slots, slot.Within d.size

instance (d : Document) : Decidable d.Closed :=
  decidable_of_iff (∀ slot ∈ d.slots.toList, slot.Within d.size) (by simp [Closed])

/-! ### What nodes hold -/

lemma mem_children_of_get? (h : d.get? id key = some c) : c ∈ (d.node id).children := by
  rw [get?, members?] at h
  cases hnode : d.node id with
  | object members =>
      simp only [hnode] at h
      exact List.mem_map.mpr ⟨(key, c), Keyed.mem_of_get? h, rfl⟩
  | _ => simp [hnode] at h

lemma exists_get?_of_mem_listAt (h : c ∈ d.listAt id key) :
    ∃ list, d.get? id key = some list ∧ c ∈ (d.node list).children := by
  rw [listAt] at h
  cases hget : d.get? id key with
  | none => simp [hget] at h
  | some list =>
      refine ⟨list, rfl, ?_⟩
      rw [hget, Option.bind_some, items?] at h
      cases hnode : d.node list with
      | array items => simpa [hnode, Node.children] using h
      | _ => simp [hnode] at h

lemma scalar?_of_get? (h : d.get? id key = some c) : d.scalar? id key = d.leaf? c := by
  rw [scalar?, h]
  rfl

lemma exists_get?_of_string? {text : String} (h : d.string? id key = some text) :
    ∃ c, d.get? id key = some c := by
  obtain ⟨value, hvalue, -⟩ := Option.bind_eq_some_iff.mp h
  obtain ⟨c, hget, -⟩ := Option.bind_eq_some_iff.mp hvalue
  exact ⟨c, hget⟩

lemma exists_get?_of_mem_membersAt {e : String × NodeId} (h : e ∈ d.membersAt id key) :
    ∃ map, d.get? id key = some map ∧ e.2 ∈ (d.node map).children := by
  rw [membersAt] at h
  cases hget : d.get? id key with
  | none => simp [hget] at h
  | some map =>
      refine ⟨map, rfl, ?_⟩
      rw [hget, Option.bind_some, members?] at h
      cases hnode : d.node map with
      | object members =>
          rw [hnode] at h
          exact List.mem_map_of_mem h
      | _ => simp [hnode] at h

lemma exists_members_of_isObject (h : d.isObject id = true) :
    ∃ members, d.node id = .object members := by
  rw [isObject, members?] at h
  cases hnode : d.node id with
  | object members => exact ⟨members, rfl⟩
  | _ => simp [hnode] at h

namespace Closed

lemma within (h : d.Closed) {slot : Slot} (hslot : d.slots[id]? = some slot) : slot.Within d.size :=
  h slot (Array.mem_of_getElem? hslot)

lemma child_lt (h : d.Closed) (hc : c ∈ (d.node id).children) : c < d.size := by
  rw [node] at hc
  cases hslot : d.slots[id]? with
  | none => simp [hslot, Node.children] at hc
  | some slot =>
      rw [hslot] at hc
      exact (h.within hslot).children c hc

lemma get?_lt (h : d.Closed) (hc : d.get? id key = some c) : c < d.size :=
  h.child_lt (mem_children_of_get? hc)

end Closed

/-- A copy is named by the same parent. -/
lemma Closed.lt_of_copiedLink (h : d.Closed) {p : NodeId} (hp : d.copiedLink id = .under p) :
    p < d.size := by
  rw [copiedLink, link] at hp
  cases hslot : d.slots[id]? with
  | none => simp [hslot] at hp
  | some slot =>
      cases hlink : slot.link with
      | under q =>
          simp only [hslot, hlink, Link.under.injEq] at hp
          exact hp ▸ (h.within hslot).parent q hlink
      | _ => simp [hslot, hlink] at hp

/-! ### Single steps -/

/-- The document `d'` is closed and has all the numbers of `d`. -/
structure Keeps (d d' : Document) : Prop where
  closed : d'.Closed
  size_le : d.size ≤ d'.size

lemma Closed.keeps (h : d.Closed) : d.Keeps d := ⟨h, Nat.le_refl _⟩

lemma Keeps.trans (h : d.Keeps d') (h' : d'.Keeps d'') : d.Keeps d'' :=
  ⟨h'.closed, Nat.le_trans h.size_le h'.size_le⟩

lemma node_of_size_le (h : d.size ≤ id) : d.node id = .leaf .null := by
  rw [node, Array.getElem?_eq_none h]

lemma lt_size_of_isObject (h : d.isObject id = true) : id < d.size := by
  by_contra hsize
  rw [isObject, members?, node_of_size_le (Nat.le_of_not_lt hsize)] at h
  cases h

lemma lt_size_of_isContainer (h : (d.node id).isContainer = true) : id < d.size := by
  by_contra hsize
  rw [node_of_size_le (Nat.le_of_not_lt hsize)] at h
  cases h

lemma lt_size_of_mem_children (h : c ∈ (d.node id).children) : id < d.size := by
  by_contra hsize
  rw [node_of_size_le (Nat.le_of_not_lt hsize)] at h
  cases h

lemma lt_size_alloc {n : Node} {l : Link} : (d.alloc n l).1 < (d.alloc n l).2.size :=
  Nat.lt_of_lt_of_eq (Nat.lt_succ_self _) (Array.size_push _).symm

section Steps

variable (h : d.Closed)
include h

lemma keeps_alloc {n : Node} {l : Link} (hslot : Slot.Within ⟨n, l⟩ (d.size + 1)) :
    d.Keeps (d.alloc n l).2 := by
  have hsize : (d.alloc n l).2.size = d.size + 1 := Array.size_push _
  refine ⟨fun slot hmem => ?_, by omega⟩
  rw [hsize]
  rcases Array.mem_push.mp hmem with hmem | rfl
  · exact (h slot hmem).mono (Nat.le_succ _)
  · exact hslot

/-- Slots may be changed to ones that hold and name nodes of the document. -/
lemma keeps_modify {f : Slot → Slot} (hf : ∀ slot, slot.Within d.size → (f slot).Within d.size) :
    d.Keeps ⟨d.slots.modify id f⟩ := by
  have hsize : (⟨d.slots.modify id f⟩ : Document).size = d.size := Array.size_modify
  refine ⟨fun slot hmem => ?_, by omega⟩
  rw [hsize]
  obtain ⟨i, hi⟩ := Array.getElem?_of_mem hmem
  rw [Array.getElem?_modify] at hi
  split at hi
  · obtain ⟨slot', hslot', rfl⟩ := Option.map_eq_some_iff.mp hi
    exact hf slot' (h.within hslot')
  · exact h.within hi

lemma keeps_setNode {n : Node} (hn : ∀ c ∈ n.children, c < d.size) : d.Keeps (d.setNode id n) :=
  keeps_modify h fun _ hslot => ⟨hn, hslot.parent⟩

lemma keeps_linkIfFree (id : NodeId) {l : Link} (hl : ∀ p, l = .under p → p < d.size) :
    d.Keeps (d.linkIfFree id l) := by
  rw [linkIfFree]
  split
  · exact h.keeps
  · exact keeps_modify h fun _ hslot => ⟨hslot.children, hl⟩

lemma keeps_changeMembers {f : Keyed NodeId → Keyed NodeId}
    (hf : ∀ members, ∀ e ∈ f members, (∃ e' ∈ members, e'.2 = e.2) ∨ e.2 < d.size) :
    d.Keeps (d.changeMembers id f) := by
  rw [changeMembers]
  split
  case h_1 members hnode =>
    refine keeps_setNode h fun c hc => ?_
    obtain ⟨e, he, rfl⟩ := List.mem_map.mp hc
    rcases hf members e he with ⟨e', he', heq⟩ | hlt
    · have hmem : e'.2 ∈ (d.node id).children := by
        rw [hnode]
        exact List.mem_map_of_mem he'
      exact heq ▸ h.child_lt hmem
    · exact hlt
  case h_2 => exact h.keeps

lemma keeps_set (id : NodeId) (key : String) (hc : c < d.size) : d.Keeps (d.set id key c) :=
  keeps_changeMembers h fun _ e he => (Keyed.mem_insert he).imp (fun he => ⟨e, he, rfl⟩)
    fun heq : e.2 = c => by rw [heq]; exact hc

lemma keeps_erase (id : NodeId) (key : String) : d.Keeps (d.erase id key) :=
  keeps_changeMembers h fun _ e he => Or.inl ⟨e, Keyed.mem_erase he, rfl⟩

lemma keeps_rename (id : NodeId) (source target : String) :
    d.Keeps (d.rename id source target) := by
  rw [rename]
  split
  · exact keeps_changeMembers h fun _ _ he => Or.inl (Keyed.mem_rename he)
  · exact h.keeps

lemma keeps_setList (hid : id < d.size) (key : String) {items : List NodeId}
    (hitems : ∀ c ∈ items, c < d.size) :
    d.Keeps (d.setList id key items) := by
  have halloc : d.Keeps (d.alloc (.array items) (.under id)).2 := by
    refine keeps_alloc h ⟨fun c hc => Nat.lt_succ_of_lt (hitems c hc), fun p hp => ?_⟩
    exact Link.under.inj hp ▸ Nat.lt_succ_of_lt hid
  exact halloc.trans (keeps_set halloc.closed id key lt_size_alloc)

end Steps

/-! ### Values -/

mutual

/-- The nodes of a value hold one another, parts before wholes. -/
lemma keeps_insert : (value : Json) → {d : Document} → d.Closed →
    d.Keeps (d.insert value).2 ∧ (d.insert value).1 < (d.insert value).2.size
  | .scalar value, d, h => by
      rw [insert]
      exact ⟨keeps_alloc h ⟨by simp [Node.children], by simp⟩, lt_size_alloc⟩
  | .array items, d, h => by
      obtain ⟨hkeeps, hids⟩ := keeps_insertItems items h
      rw [insert]
      refine ⟨hkeeps.trans (keeps_alloc hkeeps.closed ⟨?_, by simp⟩), lt_size_alloc⟩
      exact fun c hc => Nat.lt_succ_of_lt (hids c hc)
  | .object members, d, h => by
      obtain ⟨hkeeps, hentries⟩ := keeps_insertMembers members h
      rw [insert]
      refine ⟨hkeeps.trans (keeps_alloc hkeeps.closed ⟨fun c hc => ?_, by simp⟩), lt_size_alloc⟩
      obtain ⟨e, he, rfl⟩ := List.mem_map.mp hc
      exact Nat.lt_succ_of_lt (hentries e he)

lemma keeps_insertItems : (items : List Json) → {d : Document} → d.Closed →
    d.Keeps (d.insertItems items).2 ∧
      ∀ c ∈ (d.insertItems items).1, c < (d.insertItems items).2.size
  | [], d, h => by
      rw [insertItems]
      exact ⟨h.keeps, by simp⟩
  | item :: rest, d, h => by
      obtain ⟨hkeeps, hid⟩ := keeps_insert item h
      obtain ⟨hkeeps', hids⟩ := keeps_insertItems rest hkeeps.closed
      rw [insertItems]
      exact ⟨hkeeps.trans hkeeps',
        List.forall_mem_cons.mpr ⟨Nat.lt_of_lt_of_le hid hkeeps'.size_le, hids⟩⟩

lemma keeps_insertMembers : (members : List (String × Json)) → {d : Document} → d.Closed →
    d.Keeps (d.insertMembers members).2 ∧
      ∀ e ∈ (d.insertMembers members).1, e.2 < (d.insertMembers members).2.size
  | [], d, h => by
      rw [insertMembers]
      exact ⟨h.keeps, by simp⟩
  | (key, value) :: rest, d, h => by
      obtain ⟨hkeeps, hid⟩ := keeps_insert value h
      obtain ⟨hkeeps', hids⟩ := keeps_insertMembers rest hkeeps.closed
      rw [insertMembers]
      exact ⟨hkeeps.trans hkeeps',
        List.forall_mem_cons.mpr ⟨Nat.lt_of_lt_of_le hid hkeeps'.size_le, hids⟩⟩

end

lemma keeps_setValue (h : d.Closed) (hid : id < d.size) (value : Json) :
    d.Keeps (d.setValue id key value) := by
  obtain ⟨hinsert, hchild⟩ := keeps_insert value h
  have hlink := keeps_linkIfFree hinsert.closed (d.insert value).1 (l := .under id)
    fun p hp => Link.under.inj hp ▸ Nat.lt_of_lt_of_le hid hinsert.size_le
  exact (hinsert.trans hlink).trans (keeps_set hlink.closed id key
    (Nat.lt_of_lt_of_le hchild hlink.size_le))

/-! ### References and links -/

lemma descend?_lt (h : d.Closed) (hid : id < d.size) {steps : List (List Char)}
    (hc : d.descend? id steps = some c) : c < d.size := by
  induction steps generalizing id with
  | nil => exact Option.some.inj hc ▸ hid
  | cons token rest ih =>
      obtain ⟨child, hstep, hrest⟩ := Option.bind_eq_some_iff.mp hc
      refine ih (h.child_lt (?_ : child ∈ (d.node id).children)) hrest
      rw [step?] at hstep
      cases hnode : d.node id with
      | leaf value => simp [hnode] at hstep
      | array items =>
          rw [hnode] at hstep
          obtain ⟨i, -, hi⟩ := Option.bind_eq_some_iff.mp hstep
          exact List.mem_of_getElem? hi
      | object members =>
          rw [hnode] at hstep
          exact List.mem_map_of_mem (Keyed.mem_of_get? hstep)

/-- A slot is redirected to a node of the document. -/
lemma redirect_lt (h : d.Closed) {root : NodeId} (hroot : root < d.size) (hid : id < d.size) :
    d.redirect root id < d.size := by
  have hfollow (fuel : Nat) (hops : List NodeId) {x target : NodeId} (hx : x < d.size)
      (htarget : d.followFrom root fuel hops x = .target target) : target < d.size := by
    induction fuel generalizing hops x with
    | zero => cases htarget
    | succ fuel ih =>
        rw [followFrom] at htarget
        split at htarget
        · exact ChainEnd.target.inj htarget ▸ hx
        · split at htarget
          · cases htarget
          · split at htarget
            · cases htarget
            case h_2 next hnext =>
              obtain ⟨steps, -, hsteps⟩ := Option.bind_eq_some_iff.mp hnext
              exact ih _ (descend?_lt h hroot hsteps) htarget
  rw [redirect]
  split
  case h_1 target htarget => exact hfollow _ _ hid htarget
  case h_2 => exact hid

/-- What every step of a fold keeps, the fold keeps. -/
lemma keeps_foldl {α : Type} {f : Document → α → Document} {l : List α} (h : d.Closed)
    (hf : ∀ a ∈ l, ∀ d', d.Keeps d' → d'.Keeps (f d' a)) : d.Keeps (l.foldl f d) := by
  have hfold (l : List α) (hf : ∀ a ∈ l, ∀ d', d.Keeps d' → d'.Keeps (f d' a)) {d' : Document}
      (hd' : d.Keeps d') : d.Keeps (l.foldl f d') := by
    induction l generalizing d' with
    | nil => exact hd'
    | cons a l ih =>
        obtain ⟨ha, hl⟩ := List.forall_mem_cons.mp hf
        exact ih hl (hd'.trans (ha d' hd'))
  exact hfold l hf h.keeps

lemma keeps_resolveReferences (h : d.Closed) {root : NodeId} (hroot : root < d.size) :
    d.Keeps (d.resolveReferences root) := by
  refine keeps_foldl h fun id _ d' hd' => keeps_setNode hd'.closed fun c hc => ?_
  have hmap : ∃ x ∈ (d.node id).children, d.redirect root x = c := by
    cases hnode : d.node id with
    | leaf value => simp [hnode, Node.map, Node.children] at hc
    | array items => simpa [hnode, Node.map, Node.children] using hc
    | object members =>
        rw [hnode] at hc
        obtain ⟨e, he, rfl⟩ := List.mem_map.mp hc
        obtain ⟨e', he', rfl⟩ := List.mem_map.mp he
        exact ⟨e'.2, List.mem_map_of_mem he', rfl⟩
  obtain ⟨x, hx, rfl⟩ := hmap
  exact Nat.lt_of_lt_of_le (redirect_lt h hroot (h.child_lt hx)) hd'.size_le

/-- The document of a value is closed. -/
theorem closed_ofJson (value : Json) :
    (ofJson value).2.Closed ∧ (ofJson value).1 < (ofJson value).2.size := by
  have hempty : Closed {} := fun slot hslot => by simp at hslot
  have hinserted := keeps_insert value hempty
  rw [ofJson, inserted]
  generalize insert {} value = rooted at hinserted ⊢
  obtain ⟨hinsert, hroot⟩ := hinserted
  have hresolve := keeps_resolveReferences hinsert.closed hroot
  exact ⟨hresolve.closed, Nat.lt_of_lt_of_le hroot hresolve.size_le⟩

lemma keeps_linkFrom (h : d.Closed) {l : Link} (hl : ∀ p, l = .under p → p < d.size) :
    d.Keeps (d.linkFrom id l) := by
  refine keeps_foldl h fun new hnew d' hd' => keeps_linkIfFree hd'.closed _ fun p hp => ?_
  refine Nat.lt_of_lt_of_le ?_ hd'.size_le
  rw [newLinks] at hnew
  split at hnew
  · rcases Walk.eq_start_or_mem_next hnew with rfl | ⟨x, hx⟩
    · exact hl p hp
    · obtain ⟨c, hc, rfl⟩ := List.mem_map.mp hx
      exact Link.under.inj hp ▸ lt_size_of_mem_children (List.mem_filter.mp hc).1
  · cases hnew

/-! ### The normal form -/

/-- A step at a node after others. -/
lemma Keeps.andThen (hd : d.Keeps d') (hid : id < d.size)
    (hf : d'.Closed → id < d'.size → d'.Keeps d'') : d.Keeps d'' :=
  hd.trans (hf hd.closed (Nat.lt_of_lt_of_le hid hd.size_le))

lemma keeps_canonicalKeywords (h : d.Closed) (id : NodeId) : d.Keeps (d.canonicalKeywords id) := by
  rw [canonicalKeywords]
  split
  · have hrename := keeps_rename h id "id" "$id"
    exact hrename.trans (keeps_rename hrename.closed id _ _)
  · exact keeps_rename h id _ _

/-- The steps at a schema before the bounds of arrays are looked at. -/
def describe (s : Settings) (root : NodeId) (name : Option String) (d : Document) (id : NodeId) :
    Document :=
  let d := (d.constToEnum id).escapeDescription id
  let d := if id == root then d.defaultRootId id name else d
  defaultAdditionalProperties s d id

lemma normalizeContents_eq (s : Settings) (root : NodeId) (name : Option String) (d : Document)
    (id : NodeId) :
    normalizeContents s root name d id = boundArrays s (describe s root name d id) id := rfl

section Normal

variable (h : d.Closed) (hid : id < d.size)
include h hid

lemma keeps_wrapExtends : d.Keeps (d.wrapExtends id) := by
  rw [wrapExtends]
  split
  · exact h.keeps
  case h_2 extended hget =>
    split
    · exact keeps_erase h id _
    · exact h.keeps
    · exact keeps_setList h hid _ (List.forall_mem_singleton.mpr (h.get?_lt hget))

lemma keeps_constToEnum : d.Keeps (d.constToEnum id) := by
  rw [constToEnum]
  split
  · exact h.keeps
  · split
    · exact h.keeps
    case h_2 value hget =>
      have herase := keeps_erase h id "const"
      exact herase.andThen hid fun h' hid' => keeps_setList h' hid' _
        (List.forall_mem_singleton.mpr (Nat.lt_of_lt_of_le (h.get?_lt hget) herase.size_le))

lemma keeps_escapeDescription : d.Keeps (d.escapeDescription id) := by
  rw [escapeDescription]
  split
  · exact h.keeps
  · dsimp only
    split
    · exact h.keeps
    · exact keeps_setValue h hid _

lemma keeps_defaultRootId (name : Option String) : d.Keeps (d.defaultRootId id name) := by
  cases name with
  | none => exact h.keeps
  | some name =>
      rw [defaultRootId]
      split
      · exact h.keeps
      · exact keeps_setValue h hid _

lemma keeps_defaultAdditionalProperties (s : Settings) :
    d.Keeps (defaultAdditionalProperties s d id) := by
  rw [defaultAdditionalProperties]
  split
  · exact keeps_setValue h hid _
  · exact h.keeps

lemma keeps_expandItems (least : Nat) (most : Option Nat) :
    d.Keeps (d.expandItems id least most) := by
  rw [expandItems]
  split
  · exact h.keeps
  case h_2 items hget =>
    have hitems := h.get?_lt hget
    split
    · split
      · have hlist : d.Keeps
            (d.setList id "items" (List.replicate (max (most.getD 0) least) items)) :=
          keeps_setList h hid _ fun c hc => List.eq_of_mem_replicate hc ▸ hitems
        dsimp only
        split
        · exact hlist.trans (keeps_set hlist.closed _ _ (Nat.lt_of_lt_of_le hitems hlist.size_le))
        · exact hlist
      · exact h.keeps
    case h_2 list hnode =>
      split
      · split
        · refine keeps_setList h hid _ fun c hc => h.child_lt (?_ : c ∈ (d.node items).children)
          rw [hnode]
          exact List.mem_of_mem_take hc
        · exact h.keeps
      · exact h.keeps
    · exact h.keeps

lemma keeps_boundArrays (s : Settings) : d.Keeps (boundArrays s d id) := by
  rw [boundArrays]
  split
  · exact h.keeps
  · split
    · have hleast := keeps_erase h id "minItems"
      exact hleast.trans (keeps_erase hleast.closed id _)
    · dsimp only
      have hleast :
          d.Keeps (if d.has id "minItems" then d else d.setValue id "minItems" (.int 0)) := by
        split
        · exact h.keeps
        · exact keeps_setValue h hid _
      set d₁ := if d.has id "minItems" then d else d.setValue id "minItems" (.int 0)
      generalize (d₁.bound? id "minItems").getD 0 = least
      generalize (d₁.bound? id "maxItems").filter (keepsMaximum s least) = most
      have hmost : d.Keeps
          (if (d₁.bound? id "maxItems").isSome && most.isNone then d₁.erase id "maxItems"
          else d₁) := by
        split
        · exact hleast.trans (keeps_erase hleast.closed id _)
        · exact hleast
      split
      · exact hmost
      · exact hmost.andThen hid fun h hid => keeps_expandItems h hid _ _

lemma keeps_normalizeSpelling : d.Keeps (d.normalizeSpelling id) :=
  (keeps_canonicalKeywords h id).andThen hid keeps_wrapExtends

lemma keeps_describe (s : Settings) (root : NodeId) (name : Option String) :
    d.Keeps (describe s root name d id) := by
  rw [describe]
  have hspelled := (keeps_constToEnum h hid).andThen hid keeps_escapeDescription
  have hroot : d.Keeps (if id == root then
      ((d.constToEnum id).escapeDescription id).defaultRootId id name
      else (d.constToEnum id).escapeDescription id) := by
    split
    · exact hspelled.andThen hid fun h hid => keeps_defaultRootId h hid name
    · exact hspelled
  exact hroot.andThen hid fun h hid => keeps_defaultAdditionalProperties h hid s

lemma keeps_normalizeContents (s : Settings) (root : NodeId) (name : Option String) :
    d.Keeps (normalizeContents s root name d id) := by
  rw [normalizeContents_eq]
  exact (keeps_describe h hid s root name).andThen hid fun h hid => keeps_boundArrays h hid s

end Normal

/-- Schemas are objects. -/
lemma isObject_schema {root : NodeId} (h : id ∈ d.schemaIds root) : d.isObject id = true := by
  obtain ⟨e, he, rfl⟩ := List.mem_map.mp h
  rw [schemas] at he
  split at he
  case isTrue hroot =>
    rcases Walk.eq_start_or_mem_next he with rfl | ⟨x, hx⟩
    · exact hroot
    · exact (List.mem_filter.mp hx).2
  case isFalse => cases he

/-- Schemas are nodes of the document. -/
lemma lt_size_of_mem_schemaIds {root : NodeId} (h : id ∈ d.schemaIds root) : id < d.size :=
  lt_size_of_isObject (isObject_schema h)

/-- The document when keywords have been spelled anew. -/
def respelled (d : Document) (root : NodeId) : Document :=
  (d.schemaIds root).foldl normalizeSpelling d

lemma normalize_eq (s : Settings) (d : Document) (root : NodeId) (name : Option String) :
    d.normalize s root name =
      ((d.respelled root).schemaIds root).foldl (normalizeContents s root name)
        (d.respelled root) :=
  rfl

lemma keeps_respelled (h : d.Closed) (root : NodeId) : d.Keeps (d.respelled root) :=
  keeps_foldl h fun _ hid _ hd' => keeps_normalizeSpelling hd'.closed
    (Nat.lt_of_lt_of_le (lt_size_of_mem_schemaIds hid) hd'.size_le)

/-- Bringing schemas to normal form leaves a closed document closed. -/
theorem keeps_normalize (h : d.Closed) (s : Settings) (root : NodeId) (name : Option String) :
    d.Keeps (d.normalize s root name) := by
  have hspelling := keeps_respelled h root
  rw [normalize_eq]
  refine hspelling.trans (keeps_foldl hspelling.closed fun id hid d' hd' => ?_)
  exact keeps_normalizeContents hd'.closed
    (Nat.lt_of_lt_of_le (lt_size_of_mem_schemaIds hid) hd'.size_le) s root name

end Document

end SchemaDecl
