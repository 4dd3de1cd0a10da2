/-
Two documents that differ in the bounds of arrays.

One document has the nodes of the other under other numbers, and its array schemas are without
bounds. All other members correspond.

* `Document.Joins`: what it takes for a node and its image to stand in the two documents.
* `Document.Unsized`: the two documents. Nodes and their images are alike (`Unsized.outline`,
  `Unsized.tells`).
* `Document.Marked`: the schemas with the mark are the array schemas.
* `Unsized.alloc`, `Unsized.changeMembers`: the same change on both sides; the changes that are made
  of these follow (`Unsized.set`, `Unsized.erase`, `Unsized.rename`).
* `Unsized.right_of_node`: a change of bounds on one side.
-/
import SchemaDecl.Proofs.Unbounded.Site

namespace SchemaDecl.Document

variable {d e d' e' : Document} {ρ ρ' : NodeId → Role} {f f' : NodeId → NodeId} {role : Role}
  {i c : NodeId} {key : String} {n n' : Node} {l l' : Link} {site : Site}

/-! ### Nodes and their images -/

/-- The node `n` may stand in the document in a role, with the image `n'`. -/
structure Joins (ρ : NodeId → Role) (f : NodeId → NodeId) (d : Document) (role : Role)
    (n n' : Node) : Prop where
  lt : ∀ c ∈ n.children, c < d.size
  placed : ∃ site sized, role = Site.role sized site n
  items : ∀ l, n = .array l → ∀ c ∈ l, d.Suits ρ role.site.items c
  members : ∀ entries, n = .object entries → ∀ entry ∈ entries,
    d.Suits ρ (role.site.members entry.1) entry.2
  node_eq : (∀ entries, n ≠ .object entries) → n' = n.map f
  members_eq : ∀ entries, n = .object entries → ∃ entries', n' = .object entries' ∧
    entries'.filter (fun e => role.keeps e.1) = entries.map fun e => (e.1, f e.2)
  filled : role = .schema true → ∃ entries, n = .object entries ∧
    (Keyed.has entries "type" = true ∨ Keyed.has entries "items" = true)

/-- The document `d` is `e` with its nodes renumbered by `f` and without the bounds of array
schemas. -/
structure Unsized (ρ : NodeId → Role) (f : NodeId → NodeId) (d e : Document) : Prop where
  left : d.Closed
  right : e.Closed
  lt : ∀ i < d.size, f i < e.size
  inj : ∀ i < d.size, ∀ j < d.size, f i = f j → i = j
  joins : ∀ i < d.size, Joins ρ f d (ρ i) (d.node i) (e.node (f i))

/-- A leaf may stand at any place. -/
lemma joins_leaf (site : Site) (value : Json.Scalar) :
    Joins ρ f d (site.role false (.leaf value)) (.leaf value) (.leaf value) where
  lt _ hc := by cases hc
  placed := ⟨site, false, rfl⟩
  items _ hl := by cases hl
  members _ hl := by cases hl
  node_eq _ := rfl
  members_eq _ hl := by cases hl
  filled hl := by cases site <;> cases hl

/-- A list may stand at a place if its items may stand at that of items there. -/
lemma joins_array (site : Site) {ids : List NodeId}
    (h : ∀ c ∈ ids, c < d.size ∧ d.Suits ρ site.items c) :
    Joins ρ f d (site.role false (.array ids)) (.array ids) (.array (ids.map f)) where
  lt c hc := (h c hc).1
  placed := ⟨site, false, rfl⟩
  items l hl c hc := by
    obtain rfl := Node.array.inj hl
    rw [Site.items_role]
    exact (h c hc).2
  members _ hl := by cases hl
  node_eq _ := rfl
  members_eq _ hl := by cases hl
  filled hl := by cases site <;> cases hl

/-- The schemas with the mark are the array schemas. -/
def Marked (ρ : NodeId → Role) (d : Document) : Prop :=
  ∀ i < d.size, ∀ sized, ρ i = .schema sized → d.describesArrays i = sized

/-- Nodes that are of the same kind as before play the same roles. -/
structure Recast (ρ : NodeId → Role) (d : Document) (ρ' : NodeId → Role) (d' : Document) :
    Prop where
  size_le : d.size ≤ d'.size
  agree : ∀ i < d.size, ρ' i = ρ i
  role_eq : ∀ i < d.size, ∀ site sized,
    Site.role sized site (d'.node i) = Site.role sized site (d.node i)

namespace Recast

variable {ρ'' : NodeId → Role} {d'' : Document}

lemma of_node_eq (hsize : d.size ≤ d'.size) (hagree : ∀ i < d.size, ρ' i = ρ i)
    (hnode : ∀ i < d.size, d'.node i = d.node i) : Recast ρ d ρ' d' :=
  ⟨hsize, hagree, fun i hi site sized => by rw [hnode i hi]⟩

lemma refl (ρ : NodeId → Role) (d : Document) : Recast ρ d ρ d :=
  .of_node_eq (Nat.le_refl _) (fun _ _ => rfl) fun _ _ => rfl

lemma trans (h : Recast ρ d ρ' d') (h' : Recast ρ' d' ρ'' d'') : Recast ρ d ρ'' d'' where
  size_le := Nat.le_trans h.size_le h'.size_le
  agree i hi := (h'.agree i (Nat.lt_of_lt_of_le hi h.size_le)).trans (h.agree i hi)
  role_eq i hi site sized :=
    (h'.role_eq i (Nat.lt_of_lt_of_le hi h.size_le) site sized).trans (h.role_eq i hi site sized)

lemma suits (h : Recast ρ d ρ' d') (hc : c < d.size) (hsuits : d.Suits ρ site c) :
    d'.Suits ρ' site c := by
  obtain ⟨sized, hrole⟩ := hsuits
  exact ⟨sized, by rw [h.agree c hc, hrole, h.role_eq c hc]⟩

lemma joins (h : Recast ρ d ρ' d') (hf : ∀ i < d.size, f' i = f i) (hn : Joins ρ f d role n n') :
    Joins ρ' f' d' role n n' where
  lt c hc := Nat.lt_of_lt_of_le (hn.lt c hc) h.size_le
  placed := hn.placed
  items l hl c hc := h.suits (hn.lt c (by rw [hl]; exact hc)) (hn.items l hl c hc)
  members entries hentries entry hentry :=
    h.suits (hn.lt entry.2 (by rw [hentries]; exact List.mem_map_of_mem hentry))
      (hn.members entries hentries entry hentry)
  node_eq hkind := (hn.node_eq hkind).trans
    (Node.map_congr fun c hc => (hf c (hn.lt c hc)).symm)
  members_eq entries hentries := by
    obtain ⟨entries', hn', heq⟩ := hn.members_eq entries hentries
    refine ⟨entries', hn', heq.trans (List.map_congr_left fun entry hentry => ?_)⟩
    rw [hf entry.2 (hn.lt entry.2 (by rw [hentries]; exact List.mem_map_of_mem hentry))]
  filled := hn.filled

lemma changeMembers (ρ : NodeId → Role) (hobject : d.isObject i = true)
    (g : Keyed NodeId → Keyed NodeId) : Recast ρ d ρ (d.changeMembers i g) := by
  obtain ⟨entries, hnode⟩ := exists_members_of_isObject hobject
  refine ⟨Nat.le_of_eq size_changeMembers.symm, fun _ _ => rfl, fun x hx site sized => ?_⟩
  by_cases hxi : x = i
  · rw [hxi, node_changeMembers hnode g, hnode]
    cases site <;> rfl
  · rw [node_changeMembers_of_ne hxi]

end Recast

namespace Unsized

variable (h : Unsized ρ f d e)
include h

/-! ### What is read off a node -/

lemma sorted : d.Sorted ρ where
  placed i hi := (h.joins i hi).placed
  items i hi := (h.joins i hi).items
  members i hi := (h.joins i hi).members

/-- A node and its image are objects, or the same but for numbers. -/
lemma node_cases (hi : i < d.size) :
    (∃ entries entries', d.node i = .object entries ∧ e.node (f i) = .object entries') ∨
      e.node (f i) = (d.node i).map f := by
  cases hnode : d.node i with
  | object entries =>
      obtain ⟨entries', hnode', -⟩ := (h.joins i hi).members_eq entries hnode
      exact .inl ⟨entries, entries', rfl, hnode'⟩
  | _ => exact .inr (hnode ▸ (h.joins i hi).node_eq (by simp [hnode]))

lemma outline : Outline f d e where
  left := h.left
  lt := h.lt
  inj := h.inj
  isObject_eq i hi := by
    rw [isObject, isObject, members?, members?]
    rcases h.node_cases hi with ⟨_, _, hnode, hnode'⟩ | heq
    · rw [hnode, hnode']
      rfl
    · rw [heq]
      cases d.node i <;> rfl
  items?_eq i hi := by
    rw [items?, items?]
    rcases h.node_cases hi with ⟨_, _, hnode, hnode'⟩ | heq
    · rw [hnode, hnode']
      rfl
    · rw [heq]
      cases d.node i <;> rfl
  leaf?_eq i hi := by
    rw [leaf?, leaf?]
    rcases h.node_cases hi with ⟨_, _, hnode, hnode'⟩ | heq
    · rw [hnode, hnode']
    · rw [heq]
      cases d.node i <;> rfl

lemma isContainer_eq (hi : i < d.size) :
    (e.node (f i)).isContainer = (d.node i).isContainer := by
  rcases h.node_cases hi with ⟨_, _, hnode, hnode'⟩ | heq
  · rw [hnode, hnode']
    rfl
  · rw [heq]
    cases d.node i <;> rfl

/-- All members on the side without bounds count. -/
lemma keeps_of_mem {entries : Keyed NodeId} {entry : String × NodeId} (hi : i < d.size)
    (hnode : d.node i = .object entries) (hentry : entry ∈ entries) :
    (ρ i).keeps entry.1 = true := by
  obtain ⟨entries', -, heq⟩ := (h.joins i hi).members_eq entries hnode
  have himage : (entry.1, f entry.2) ∈ entries'.filter fun e => (ρ i).keeps e.1 := by
    rw [heq]
    exact List.mem_map_of_mem hentry
  exact (List.mem_filter.mp himage).2

/-- The members that count. -/
lemma exists_members (hi : i < d.size) (hobject : d.isObject i = true) :
    ∃ entries entries', d.node i = .object entries ∧ e.node (f i) = .object entries' ∧
      entries'.filter (fun e => (ρ i).keeps e.1) = entries.map fun e => (e.1, f e.2) := by
  obtain ⟨entries, hnode⟩ := exists_members_of_isObject hobject
  obtain ⟨entries', hnode', heq⟩ := (h.joins i hi).members_eq entries hnode
  exact ⟨entries, entries', hnode, hnode', heq⟩

/-- A node without bounds and its image are the same. -/
lemma node_eq (hi : i < d.size) (hrole : ρ i ≠ .schema true) : e.node (f i) = (d.node i).map f := by
  cases hnode : d.node i with
  | object entries =>
      obtain ⟨entries', hnode', heq⟩ := (h.joins i hi).members_eq entries hnode
      rw [List.filter_eq_self.mpr fun entry _ => Role.keeps_of_ne hrole entry.1] at heq
      rw [hnode', heq, Node.map]
  | _ => rw [(h.joins i hi).node_eq (by simp [hnode]), hnode]

lemma get?_eq (hi : i < d.size) (hkey : (ρ i).keeps key = true) :
    e.get? (f i) key = (d.get? i key).map f := by
  cases hobject : d.isObject i with
  | false =>
      have hnone {d : Document} {i : NodeId} (h : d.isObject i = false) : d.get? i key = none := by
        by_contra hsome
        obtain ⟨c, hc⟩ := Option.ne_none_iff_exists'.mp hsome
        rw [isObject_of_get? hc] at h
        cases h
      rw [hnone hobject, hnone ((h.outline.isObject_eq i hi).trans hobject)]
      rfl
  | true =>
      obtain ⟨entries, entries', hnode, hnode', heq⟩ := h.exists_members hi hobject
      rw [get?_of_node hnode, get?_of_node hnode', ← Keyed.get?_map, ← heq,
        Keyed.get?_filter fun _ => hkey]

lemma tells (hi : i < d.size) : Tells f d e i :=
  fun _ hkey => h.get?_eq hi (Role.keeps_of_not_mem hkey)

/-- The bounds of an array schema are not among its members. -/
lemma has_size_eq_false (hi : i < d.size) (hrole : ρ i = .schema true) (hkey : key ∈ sizeKeys) :
    d.has i key = false := by
  cases hobject : d.isObject i with
  | false =>
      by_contra hhas
      obtain ⟨c, hc⟩ := Option.isSome_iff_exists.mp (Bool.eq_true_of_not_eq_false hhas)
      rw [isObject_of_get? hc] at hobject
      cases hobject
  | true =>
      obtain ⟨entries, hnode⟩ := exists_members_of_isObject hobject
      have hnone : Keyed.get? entries key = none := by
        rw [Keyed.get?_eq_none_iff]
        intro hmem
        obtain ⟨entry, hentry, rfl⟩ := List.mem_map.mp hmem
        have hkeeps := h.keeps_of_mem hi hnode hentry
        rw [hrole, Role.not_keeps_of_mem hkey] at hkeeps
        cases hkeeps
      rw [has, get?_of_node hnode, hnone]
      rfl

/-! ### The same change on both sides -/

/-- A new node and its image. -/
lemma alloc (hn : Joins ρ f d role n n') (hn' : ∀ c ∈ n'.children, c < e.size)
    (hl : ∀ p, l = .under p → p < d.size) (hl' : ∀ p, l' = .under p → p < e.size) :
    Unsized (Function.update ρ d.size role) (Function.update f d.size e.size) (d.alloc n l).2
      (e.alloc n' l').2 := by
  have hrecast : Recast ρ d (Function.update ρ d.size role) (d.alloc n l).2 := by
    refine .of_node_eq (by rw [size_alloc]; exact Nat.le_succ _)
      (fun i hi => Function.update_of_ne (Nat.ne_of_lt hi) _ _) fun i hi => ?_
    rw [node_alloc, if_neg (Nat.ne_of_lt hi)]
  have hagree : ∀ i < d.size, Function.update f d.size e.size i = f i :=
    fun i hi => Function.update_of_ne (Nat.ne_of_lt hi) _ _
  refine ⟨(keeps_alloc h.left ⟨fun c hc => Nat.lt_succ_of_lt (hn.lt c hc),
      fun p hp => Nat.lt_succ_of_lt (hl p hp)⟩).closed,
    (keeps_alloc h.right ⟨fun c hc => Nat.lt_succ_of_lt (hn' c hc),
      fun p hp => Nat.lt_succ_of_lt (hl' p hp)⟩).closed, fun i hi => ?_, fun i hi j hj heq => ?_,
    fun i hi => ?_⟩
  · rw [size_alloc] at hi ⊢
    exact update_lt h.lt hi
  · rw [size_alloc] at hi hj
    exact update_inj h.lt h.inj hi hj heq
  · rw [size_alloc] at hi
    rcases Nat.lt_succ_iff_lt_or_eq.mp hi with hold | rfl
    · rw [Function.update_of_ne (Nat.ne_of_lt hold), hagree i hold, node_alloc, node_alloc,
        if_neg (Nat.ne_of_lt hold), if_neg (Nat.ne_of_lt (h.lt i hold))]
      exact hrecast.joins hagree (h.joins i hold)
    · rw [Function.update_self, Function.update_self, node_alloc_self, node_alloc_self]
      exact hrecast.joins hagree hn

/-- Other members of an object and of its image. -/
lemma changeMembers {g g' : Keyed NodeId → Keyed NodeId} {entries entries' : Keyed NodeId}
    (hi : i < d.size) (hnode : d.node i = .object entries)
    (hnode' : e.node (f i) = .object entries')
    (hn : Joins ρ f d (ρ i) (.object (g entries)) (.object (g' entries')))
    (hlt' : ∀ entry ∈ g' entries', entry.2 < e.size) :
    Unsized ρ f (d.changeMembers i g) (e.changeMembers (f i) g') := by
  have hobject : d.isObject i = true := by rw [isObject, members?_of_node hnode]; rfl
  have hrecast := Recast.changeMembers ρ hobject g
  refine ⟨?_, ?_, fun x hx => ?_, fun x hx y hy => ?_, fun x hx => ?_⟩
  · rw [Document.changeMembers, hnode]
    exact (keeps_setNode h.left hn.lt).closed
  · rw [Document.changeMembers, hnode']
    refine (keeps_setNode h.right fun c hc => ?_).closed
    obtain ⟨entry, hentry, rfl⟩ := List.mem_map.mp hc
    exact hlt' entry hentry
  · rw [size_changeMembers] at hx ⊢
    exact h.lt x hx
  · rw [size_changeMembers] at hx hy
    exact h.inj x hx y hy
  · rw [size_changeMembers] at hx
    by_cases hxi : x = i
    · subst hxi
      rw [node_changeMembers hnode g, node_changeMembers hnode' g']
      exact hrecast.joins (fun _ _ => rfl) hn
    · rw [node_changeMembers_of_ne hxi,
        node_changeMembers_of_ne fun heq => hxi (h.inj x hx i hi heq)]
      exact hrecast.joins (fun _ _ => rfl) (h.joins x hx)

section Object

variable (hi : i < d.size)
include hi

/-- Entries that may take the place of those of an object. -/
lemma joins_object {entries' : Keyed NodeId} {g : Keyed NodeId → Keyed NodeId}
    {entries : Keyed NodeId} (hnode : d.node i = .object entries)
    (hnew : ∀ entry ∈ g entries, entry ∈ entries ∨
      entry.2 < d.size ∧ d.Suits ρ ((ρ i).site.members entry.1) entry.2)
    (heq : entries'.filter (fun e => (ρ i).keeps e.1) = (g entries).map fun e => (e.1, f e.2))
    (hfilled : ∀ key ∈ ["type", "items"], Keyed.has entries key = true →
      Keyed.has (g entries) key = true) :
    Joins ρ f d (ρ i) (.object (g entries)) (.object entries') where
  lt c hc := by
    obtain ⟨entry, hentry, rfl⟩ := List.mem_map.mp hc
    exact (hnew entry hentry).elim (h.left.entry_lt hnode entry) And.left
  placed := by
    obtain ⟨site, sized, hrole⟩ := (h.joins i hi).placed
    refine ⟨site, sized, hrole.trans ?_⟩
    rw [hnode]
    cases site <;> rfl
  items _ hl := by cases hl
  members _ hentries entry hentry := by
    obtain rfl := Node.object.inj hentries
    exact (hnew entry hentry).elim ((h.joins i hi).members entries hnode entry) And.right
  node_eq hkind := absurd rfl (hkind _)
  members_eq _ hentries := by
    obtain rfl := Node.object.inj hentries
    exact ⟨entries', rfl, heq⟩
  filled hrole := by
    obtain ⟨entries₀, hnode₀, hhas⟩ := (h.joins i hi).filled hrole
    obtain rfl := Node.object.inj (hnode.symm.trans hnode₀)
    exact ⟨g entries, rfl, hhas.imp (hfilled "type" (by decide)) (hfilled "items" (by decide))⟩

variable (hobject : d.isObject i = true)
include hobject

/-- A member is set on both sides. -/
lemma set (hkey : (ρ i).keeps key = true) (hc : c < d.size)
    (hsuits : d.Suits ρ ((ρ i).site.members key) c) :
    Unsized ρ f (d.set i key c) (e.set (f i) key (f c)) := by
  obtain ⟨entries, entries', hnode, hnode', heq⟩ := h.exists_members hi hobject
  refine h.changeMembers hi hnode hnode'
    (h.joins_object hi (g := (Keyed.insert · key c)) hnode (fun entry hentry => ?_) ?_
      fun k _ hk => ?_) fun entry hentry => ?_
  · rcases Keyed.mem_or_eq_of_mem_insert _ hentry with hold | rfl
    · exact .inl hold
    · exact .inr ⟨hc, hsuits⟩
  · rw [Keyed.filter_insert_of_pos hkey, heq, Keyed.map_insert]
  · by_cases hkk : k = key
    · rw [hkk, Keyed.has, Keyed.get?_insert_self]
      rfl
    · rwa [Keyed.has, Keyed.get?_insert_of_ne hkk]
  · rcases Keyed.mem_or_eq_of_mem_insert _ hentry with hold | rfl
    · exact h.right.entry_lt hnode' entry hold
    · exact h.lt c hc

/-- A member is taken out on both sides. -/
lemma erase (hkey : (ρ i).keeps key = true) (hkeys : key ∉ ["type", "items"]) :
    Unsized ρ f (d.erase i key) (e.erase (f i) key) := by
  obtain ⟨entries, entries', hnode, hnode', heq⟩ := h.exists_members hi hobject
  refine h.changeMembers hi hnode hnode'
    (h.joins_object hi (g := (Keyed.erase · key)) hnode
      (fun entry hentry => .inl (Keyed.mem_erase hentry)) ?_ fun k hk hhas => ?_)
    fun entry hentry => h.right.entry_lt hnode' entry (Keyed.mem_erase hentry)
  · rw [Keyed.filter_erase_of_pos hkey, heq, Keyed.map_erase]
  · rwa [Keyed.has, Keyed.get?_erase_of_ne (by rintro rfl; exact hkeys hk)]

/-- A member is put under another key on both sides, where it is taken alike. -/
lemma rename {source target : String} (hsource : (ρ i).keeps source = true)
    (htarget : (ρ i).keeps target = true) (hkeys : source ∉ ["type", "items"])
    (hsuits : ∀ c, d.get? i source = some c → d.Suits ρ ((ρ i).site.members target) c) :
    Unsized ρ f (d.rename i source target) (e.rename (f i) source target) := by
  have hcan : e.canRename (f i) source target = d.canRename i source target := by
    rw [canRename, canRename, has, has, has, has, h.get?_eq hi hsource, h.get?_eq hi htarget,
      Option.isSome_map, Option.isSome_map]
  rw [Document.rename, Document.rename, hcan]
  split
  case isFalse => exact h
  case isTrue hcan =>
    obtain ⟨entries, entries', hnode, hnode', heq⟩ := h.exists_members hi hobject
    refine h.changeMembers hi hnode hnode'
      (h.joins_object hi (g := (Keyed.rename · source target)) hnode
        (fun entry hentry => ?_) ?_ fun k hk hhas => ?_) fun entry hentry => ?_
    · rcases Keyed.mem_or_get?_of_mem_rename _ hentry with hold | ⟨hkey, hget⟩
      · exact .inl hold
      · have hget' : d.get? i source = some entry.2 := by rw [get?_of_node hnode, hget]
        exact .inr ⟨h.left.get?_lt hget', hkey ▸ hsuits entry.2 hget'⟩
    · rw [Keyed.filter_rename hsource htarget, heq, Keyed.map_rename]
    · by_cases hkt : k = target
      · -- nothing was under the target
        rw [canRename, Bool.and_eq_true, Bool.not_eq_true', has, has, get?_of_node hnode,
          get?_of_node hnode] at hcan
        rw [hkt, Keyed.has, hcan.2] at hhas
        cases hhas
      · rwa [Keyed.has, Keyed.get?_rename_of_ne (by rintro rfl; exact hkeys hk) hkt]
    · obtain ⟨entry', hentry', heq⟩ := Keyed.mem_rename hentry
      exact heq ▸ h.right.entry_lt hnode' entry' hentry'

end Object

/-! ### Changes on one side -/

/-- The document with bounds alone has changed, and not but in bounds. -/
lemma right_of_node (hright : e'.Closed) (hsize : e.size ≤ e'.size)
    (hnode : ∀ i < d.size, e'.node (f i) = e.node (f i) ∨ ∃ entries entries',
      e.node (f i) = .object entries ∧ e'.node (f i) = .object entries' ∧
        entries'.filter (fun e => (ρ i).keeps e.1) = entries.filter fun e => (ρ i).keeps e.1) :
    Unsized ρ f d e' where
  left := h.left
  right := hright
  lt i hi := Nat.lt_of_lt_of_le (h.lt i hi) hsize
  inj := h.inj
  joins i hi := by
    rcases hnode i hi with hsame | ⟨entries, entries', hold, hnew, hfilter⟩
    · rw [hsame]
      exact h.joins i hi
    · refine { h.joins i hi with
        node_eq := fun hkind => ?_
        members_eq := fun members hmembers => ?_ }
      · obtain ⟨members, hmembers⟩ := exists_members_of_isObject
          (((h.outline.isObject_eq i hi).symm.trans (by rw [isObject, members?_of_node hold])).trans
            Option.isSome_some)
        exact absurd hmembers (hkind members)
      · obtain ⟨entries₀, hold₀, heq⟩ := (h.joins i hi).members_eq members hmembers
        obtain rfl := Node.object.inj (hold.symm.trans hold₀)
        exact ⟨entries', hnew, hfilter.trans heq⟩

/-- Documents with the same nodes. -/
lemma congr (hsize : d'.size = d.size) (hnode : ∀ i, d'.node i = d.node i) (hleft : d'.Closed)
    (hsize' : e'.size = e.size) (hnode' : ∀ i, e'.node i = e.node i) (hright : e'.Closed) :
    Unsized ρ f d' e' where
  left := hleft
  right := hright
  lt i hi := hsize' ▸ h.lt i (hsize ▸ hi)
  inj i hi j hj := h.inj i (hsize ▸ hi) j (hsize ▸ hj)
  joins i hi := by
    rw [hnode, hnode']
    exact (Recast.of_node_eq (Nat.le_of_eq hsize.symm) (fun _ _ => rfl) fun i _ => hnode i).joins
      (fun _ _ => rfl) (h.joins i (hsize ▸ hi))

/-- The document without bounds beside itself. -/
lemma same : Unsized ρ id d d where
  left := h.left
  right := h.left
  lt _ hi := hi
  inj _ _ _ _ heq := heq
  joins i hi := by
    refine { h.joins i hi with
      node_eq := fun _ => (Node.map_id _).symm, members_eq := fun entries hentries => ?_ }
    have hself : (entries.map fun e => (e.1, id e.2)) = entries := List.map_id _
    refine ⟨entries, hentries, ?_⟩
    rw [hself]
    exact List.filter_eq_self.mpr fun entry hentry => h.keeps_of_mem hi hentries hentry

end Unsized

end SchemaDecl.Document
