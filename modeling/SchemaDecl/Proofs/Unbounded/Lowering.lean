/-
Lowering documents that differ in the bounds of arrays.

When the images of array schemas have no bounds that count, lowering looks at the same things on
both sides. It meets values and schemas only, and does not go into lists and maps of schemas as
such.

* `Document.Abreast.reads`: what lowering looks at is the same on both sides.
* `Document.Abreast.copyWithout`: copies of a schema and of its image.
* `unsizedView`: such documents as related ones, and `lowers_unsizedView`: they are lowered alike.
* `TypeGraph.ofDocument_eq_of_abreast`: they have the same types.
-/
import Mathlib.Data.List.Find
import SchemaDecl.Proofs.Document.Definitions
import SchemaDecl.Proofs.Types.Accord
import SchemaDecl.Proofs.Unbounded.Normal

namespace SchemaDecl

open Document Definitions

namespace Document

variable {s : Settings} {d e : Document} {ρ : NodeId → Role} {f : NodeId → NodeId}
  {root i c : NodeId} {key : String}

/-! ### What lowering meets -/

namespace Sorted

variable (h : d.Sorted ρ)
include h

/-- What a value, a schema, or a list or map of schemas holds other than as its members is met. -/
lemma isMet_of_child {m : NodeId} (hm : ∀ sized, ρ m ≠ .schema sized)
    (hc : c ∈ (d.node m).children) : (ρ c).isMet = true := by
  cases hrole : ρ m with
  | value =>
      rw [h.eq_value_of_child hrole hc]
      rfl
  | schema sized => exact absurd hrole (hm sized)
  | list => exact (h.suits_of_child (by rw [hrole]; rfl) hc).isMet
  | named => exact (h.suits_of_child (by rw [hrole]; rfl) hc).isMet

lemma isMet_of_mem_listAt (hc : c ∈ d.listAt i key) : (ρ c).isMet = true := by
  rw [listAt] at hc
  cases hget : d.get? i key with
  | none =>
      rw [hget] at hc
      cases hc
  | some m =>
      rw [hget, Option.bind_some] at hc
      have hchild := mem_children_of_mem_items hc
      refine h.isMet_of_child (fun sized hrole => ?_) hchild
      -- a schema is an object, and has no items
      have hobject := h.isObject_of_schema (lt_size_of_mem_children hchild) hrole
      obtain ⟨entries, hnode⟩ := exists_members_of_isObject hobject
      rw [items?, hnode] at hc
      cases hc

variable (hmet : (ρ i).isMet = true)
include hmet

/-- A member of a schema is taken as its key says, and a member of a value as a value. -/
lemma suits_or_eq_value (hc : d.get? i key = some c) :
    d.Suits ρ (Site.under key) c ∨ ρ c = .value := by
  have hsuits := h.suits_get? hc
  cases hrole : ρ i with
  | value =>
      rw [hrole] at hsuits
      exact .inr hsuits.eq_value
  | schema sized =>
      rw [hrole] at hsuits
      exact .inl hsuits
  | list => simp [hrole, Role.isMet] at hmet
  | named => simp [hrole, Role.isMet] at hmet

lemma isMet_of_mem_membersAt (hkey : Site.under key = .named) {entry : String × NodeId}
    (hentry : entry ∈ d.membersAt i key) : (ρ entry.2).isMet = true := by
  rw [membersAt] at hentry
  cases hget : d.get? i key with
  | none =>
      rw [hget] at hentry
      cases hentry
  | some m =>
      rw [hget, Option.bind_some] at hentry
      have hchild : entry.2 ∈ (d.node m).children := by
        rw [members?] at hentry
        cases hnode : d.node m with
        | object entries =>
            rw [hnode] at hentry
            exact List.mem_map_of_mem hentry
        | _ => rw [hnode] at hentry; cases hentry
      refine h.isMet_of_child (fun sized hrole => ?_) hchild
      rcases h.suits_or_eq_value hmet hget with hsuits | hvalue
      · rw [hkey] at hsuits
        exact hsuits.ne_schema sized hrole
      · rw [hvalue] at hrole
        cases hrole

lemma isMet_of_get? (hkey : Site.under key = .schema ∨ Site.under key = .oneOrMany)
    (hc : d.get? i key = some c) (hobject : d.isObject c = true) : (ρ c).isMet = true := by
  rcases h.suits_or_eq_value hmet hc with ⟨sized, hrole⟩ | hvalue
  · obtain ⟨entries, hnode⟩ := exists_members_of_isObject hobject
    rw [hrole, hnode]
    rcases hkey with hkey | hkey <;> rw [hkey] <;> rfl
  · rw [hvalue]
    rfl

end Sorted

/-! ### What lowering looks at -/

namespace Boundless

lemma tupleBound?_minItems (h : d.Boundless i) :
    (Lower.tupleBound? d i "minItems").getD 0 = 0 := by
  have hzero := h.least
  rw [leastItems] at hzero
  rw [Lower.tupleBound?]
  cases hmin : d.bound? i "minItems" with
  | none => rfl
  | some n =>
      rw [hmin, Option.getD_some] at hzero
      rw [hzero]
      rfl

lemma tupleBound?_maxItems (h : d.Boundless i) : Lower.tupleBound? d i "maxItems" = none := by
  rw [Lower.tupleBound?, h.most]
  rfl

end Boundless

namespace Unsized

variable (h : Unsized ρ f d e)
include h

/-- Array schemas are not empty, with bounds or without. -/
lemma empty_eq (hi : i < d.size) :
    (e.members? (f i)).map List.isEmpty = (d.members? i).map List.isEmpty := by
  cases hobject : d.isObject i with
  | false =>
      have hobject' := (h.outline.isObject_eq i hi).trans hobject
      rw [isObject, Option.isSome_eq_false_iff, Option.isNone_iff_eq_none] at hobject hobject'
      rw [hobject, hobject']
  | true =>
      obtain ⟨entries, entries', hnode, hnode', heq⟩ := h.exists_members hi hobject
      rw [members?_of_node hnode, members?_of_node hnode', Option.map_some, Option.map_some]
      refine congrArg some ?_
      by_cases hrole : ρ i = .schema true
      · have hfull : entries ≠ [] := by
          obtain ⟨entries₀, hnode₀, hhas⟩ := (h.joins i hi).filled hrole
          obtain rfl := Node.object.inj (hnode.symm.trans hnode₀)
          rintro rfl
          rcases hhas with hhas | hhas <;> cases hhas
        have hfull' : entries' ≠ [] := by
          rintro rfl
          exact hfull (List.map_eq_nil_iff.mp heq.symm)
        rw [List.isEmpty_eq_false_iff.mpr hfull, List.isEmpty_eq_false_iff.mpr hfull']
      · rw [List.filter_eq_self.mpr fun entry _ => Role.keeps_of_ne hrole entry.1] at heq
        rw [heq, List.isEmpty_map]

lemma bound?_eq (hi : i < d.size) (hkey : (ρ i).keeps key = true) :
    e.bound? (f i) key = d.bound? i key := by
  rw [bound?, bound?, h.double?_eq hi hkey]

/-- Bounds count alike if the images of array schemas have none. -/
lemma tupleBound?_eq (hcalm : Calm ρ f d e) (hi : i < d.size) :
    (Lower.tupleBound? e (f i) "minItems").getD 0 = (Lower.tupleBound? d i "minItems").getD 0 ∧
      Lower.tupleBound? e (f i) "maxItems" = Lower.tupleBound? d i "maxItems" := by
  by_cases hrole : ρ i = .schema true
  · have hleft : d.Boundless i :=
      .of_not_has fun key hkey => h.has_size_eq_false hi hrole hkey
    have hright := hcalm i hi hrole
    rw [hleft.tupleBound?_minItems, hleft.tupleBound?_maxItems, hright.tupleBound?_minItems,
      hright.tupleBound?_maxItems]
    exact ⟨rfl, rfl⟩
  · rw [Lower.tupleBound?, Lower.tupleBound?, Lower.tupleBound?, Lower.tupleBound?,
      h.bound?_eq hi (Role.keeps_of_ne hrole _), h.bound?_eq hi (Role.keeps_of_ne hrole _)]
    exact ⟨rfl, rfl⟩

/-- Values are the same on both sides. -/
lemma toJson_eq (hi : i < d.size) (hrole : ρ i = .value) : e.toJson (f i) = d.toJson i :=
  h.outline.toJson_eq (P := fun i => i < d.size ∧ ρ i = .value) (fun _ hP => hP.1)
    (fun _ hP => h.node_eq hP.1 (by rw [hP.2]; simp))
    (fun _ hP _ hc => ⟨h.left.child_lt hc, h.sorted.eq_value_of_child hP.2 hc⟩) ⟨hi, hrole⟩

end Unsized

/-- The entries that become fields are schemas under names of their own. -/
lemma under_fieldKeys (hkey : key ∈ fieldKeys s) : Site.under key = .named ∧ key ∉ sizeKeys := by
  have hall : ∀ key ∈ ["properties", "patternProperties", "$defs"],
      Site.under key = .named ∧ key ∉ sizeKeys := by decide
  refine hall key ?_
  rw [fieldKeys] at hkey
  split at hkey
  · exact hkey
  · exact List.mem_of_mem_take (i := 2) hkey

/-- **What lowering looks at is the same on both sides.** -/
lemma Abreast.reads (h : Abreast ρ f d e) (hcalm : Calm ρ f d e) (s : Settings) :
    Reads s f (fun i => (ρ i).isMet = true) d e where
  toOutline := h.outline
  tells _ hi _ := h.tells hi
  empty_eq _ hi _ := h.empty_eq hi
  least_eq _ hi _ := (h.tupleBound?_eq hcalm hi).1
  most_eq _ hi _ := (h.tupleBound?_eq hcalm hi).2
  membersAt_eq _ hi hmet key hkey := by
    obtain ⟨hnamed, hsize⟩ := under_fieldKeys hkey
    exact h.membersAt_eq hi hmet hnamed hsize
  toJson_eq i hi hmet hobject := by
    refine h.toJson_eq hi ?_
    cases hrole : ρ i with
    | value => rfl
    | schema sized =>
        rw [h.sorted.isObject_of_schema hi hrole] at hobject
        cases hobject
    | list => simp [hrole, Role.isMet] at hmet
    | named => simp [hrole, Role.isMet] at hmet
  rootOf_eq _ hi _ := (h.exists_rootOf hi).2
  met_rootOf _ hi _ := (h.exists_rootOf hi).1
  met_listAt _ _ _ _ hc := h.sorted.isMet_of_mem_listAt hc
  met_membersAt _ hmet _ hkey _ hentry :=
    h.sorted.isMet_of_mem_membersAt hmet (under_fieldKeys hkey).1 hentry
  met_get? _ hmet key hkey _ hc hobject := by
    have hsites : ∀ key ∈ ["items", "additionalItems", "additionalProperties"],
        Site.under key = .schema ∨ Site.under key = .oneOrMany := by decide
    exact h.sorted.isMet_of_get? hmet (hsites key hkey) hc hobject

/-! ### Copies -/

/-- A copy has the parent of what is copied. -/
lemma parent?_copy {n : Node} : (d.alloc n (d.copiedLink i)).2.parent? d.size = d.parent? i := by
  rw [parent?, parent?, link_alloc, if_pos rfl, copiedLink]
  cases d.link i <;> rfl

/-- A copy of a node that is not its own root has the same root. -/
lemma Rooted.copy {n : Node} {r : NodeId} (h : d.Rooted r i) (hr : r < d.size) (hne : i ≠ r) :
    (d.alloc n (d.copiedLink i)).2.Rooted r d.size := by
  cases h with
  | start => exact absurd rfl hne
  | under hp hrooted =>
      refine .under (parent?_copy.trans hp) (hrooted.mono hr fun y hy => ?_)
      rw [parent?, parent?, link_alloc, if_neg (Nat.ne_of_lt hy)]

namespace Abreast

variable (h : Abreast ρ f d e) (hi : i < d.size)
include h hi

/-- Copies of a node and of its image have roots that are a node and its image. -/
lemma exists_root_copy {n n' : Node} :
    ∃ r < (d.alloc n (d.copiedLink i)).2.size,
      (Function.update ρ d.size (ρ i) r).isMet = true ∧
      (d.alloc n (d.copiedLink i)).2.Rooted r d.size ∧
      (e.alloc n' (e.copiedLink (f i))).2.Rooted (Function.update f d.size e.size r) e.size := by
  obtain ⟨r, hr, hrmet, hrooted, hrooted'⟩ := h.roots i hi
  by_cases hir : i = r
  · subst hir
    refine ⟨d.size, lt_size_alloc, by rwa [Function.update_self],
      .start (parent?_copy.trans hrooted.parent?_root), ?_⟩
    rw [Function.update_self]
    exact .start (parent?_copy.trans hrooted'.parent?_root)
  · refine ⟨r, Nat.lt_trans hr lt_size_alloc, ?_, hrooted.copy hr hir, ?_⟩
    · rwa [Function.update_of_ne (Nat.ne_of_lt hr)]
    · rw [Function.update_of_ne (Nat.ne_of_lt hr)]
      exact hrooted'.copy (h.lt r hr) fun heq => hir (h.inj i hi r hr heq)

variable (hobject : d.isObject i = true) {keys : List String} (hkeys : keys ⊆ identityKeys)
include hobject hkeys

/-- **Copies of a schema and of its image**, without some of the keys that name and describe it. -/
lemma copyWithout : Later f d e (Function.update f d.size e.size) (d.copyWithout i keys).2
      (e.copyWithout (f i) keys).2 ∧
    Abreast (Function.update ρ d.size (ρ i)) (Function.update f d.size e.size)
      (d.copyWithout i keys).2 (e.copyWithout (f i) keys).2 := by
  obtain ⟨entries, entries', hnode, hnode', heq⟩ := h.exists_members hi hobject
  have hkept {key : String} (hkey : key ∉ identityKeys) : (!keys.contains key) = true := by
    rw [Bool.not_eq_true', ← Bool.not_eq_true, List.contains_iff_mem]
    exact fun hmem => hkey (hkeys hmem)
  have hjoins : Joins ρ f d (ρ i) (.object (entries.filter fun e => !keys.contains e.1))
      (.object (entries'.filter fun e => !keys.contains e.1)) := by
    refine h.joins_object hi (g := fun l => l.filter fun e => !keys.contains e.1) hnode
      (fun entry hentry => .inl (List.mem_filter.mp hentry).1) ?_ fun key hkey hhas => ?_
    · rw [List.filter_comm, heq, List.filter_map]
      rfl
    · have hnot : key ∉ identityKeys :=
        (by decide : ∀ key ∈ ["type", "items"], key ∉ identityKeys) key hkey
      rwa [Keyed.has, Keyed.get?_filter fun _ => hkept hnot]
  have hlater : Later f d e (Function.update f d.size e.size)
      (d.alloc (.object (entries.filter fun e => !keys.contains e.1)) (d.copiedLink i)).2
      (e.alloc (.object (entries'.filter fun e => !keys.contains e.1)) (e.copiedLink (f i))).2 :=
    later_alloc
  rw [Document.copyWithout, Document.copyWithout, hnode, hnode']
  refine ⟨hlater, h.of_unsized (h.alloc hjoins (fun c hc => ?_)
      (fun p hp => h.left.lt_of_copiedLink hp) fun p hp => h.right.lt_of_copiedLink hp) hlater
    (fun j hj => Function.update_of_ne (Nat.ne_of_lt hj) _ _) (fun j hj => ?_) (fun j hj => ?_)
    fun j hj hle => ?_⟩
  · obtain ⟨entry, hentry, rfl⟩ := List.mem_map.mp hc
    exact h.right.entry_lt hnode' entry (List.mem_filter.mp hentry).1
  · rw [link_alloc, if_neg (Nat.ne_of_lt hj)]
  · rw [link_alloc, if_neg (Nat.ne_of_lt hj)]
  · obtain rfl : j = d.size := Nat.le_antisymm (Nat.lt_succ_iff.mp (hj.trans_eq size_alloc)) hle
    rw [Function.update_self]
    exact h.exists_root_copy hi

/-- A copy has the bounds of what is copied. -/
lemma calm_copyWithout (hcalm : Calm ρ f d e) :
    Calm (Function.update ρ d.size (ρ i)) (Function.update f d.size e.size)
      (d.copyWithout i keys).2 (e.copyWithout (f i) keys).2 := by
  obtain ⟨entries', hnode'⟩ := exists_members_of_isObject
    ((h.outline.isObject_eq i hi).trans hobject)
  have halters : e.Alters (e.copyWithout (f i) keys).2 [] := by
    rw [Document.copyWithout]
    exact (altersAt_alloc : e.AltersAt _ (f i) []).toAlters
  intro j hj hrole
  rw [Document.copyWithout, size_alloc] at hj
  rcases Nat.lt_succ_iff_lt_or_eq.mp hj with hold | rfl
  · rw [Function.update_of_ne (Nat.ne_of_lt hold)] at hrole ⊢
    exact (hcalm j hold hrole).of_alters h.right halters fun key _ =>
      halters.get?_eq (f j) (h.lt j hold) key (by simp)
  · rw [Function.update_self] at hrole ⊢
    have hbound := hcalm i hi hrole
    have hget (key : String) (hkey : key ∈ sizeKeys) :
        (e.copyWithout (f i) keys).2.get? e.size key = e.get? (f i) key := by
      have hcopy : (e.copyWithout (f i) keys).2.node e.size
          = .object (entries'.filter fun e => !keys.contains e.1) := by
        rw [Document.copyWithout, hnode']
        exact node_alloc_self
      rw [get?_of_node hcopy, get?_of_node hnode', Keyed.get?_filter fun _ => ?_]
      rw [Bool.not_eq_true', ← Bool.not_eq_true, List.contains_iff_mem]
      exact fun hmem => (by decide : ∀ key ∈ sizeKeys, key ∉ identityKeys) key hkey (hkeys hmem)
    refine ⟨?_, (halters.bound?_eq h.right (hget _ (by decide))).trans hbound.most⟩
    rw [leastItems, halters.bound?_eq h.right (hget _ (by decide)), ← leastItems]
    exact hbound.least

end Abreast

end Document

/-! ### Types -/

/-- Documents that differ in bounds as related documents. Lists and maps of schemas are not met. -/
def unsizedView : View ((NodeId → Role) × (NodeId → NodeId)) where
  image v := v.2
  Met v i := (v.1 i).isMet = true
  Relates v d e := Abreast v.1 v.2 d e ∧ Calm v.1 v.2 d e
  Named v d _ defs defs' := defs'.entries = defs.entries.map (fun e => (e.1, v.2 e.2)) ∧
    ∀ entry ∈ defs.entries, entry.2 < d.size

/-- Definitions are found under the same names. -/
lemma Definitions.keyOf?_eq_of_map {defs defs' : Definitions} {f : NodeId → NodeId} {size i : Nat}
    (heq : defs'.entries = defs.entries.map fun e => (e.1, f e.2))
    (hlt : ∀ entry ∈ defs.entries, entry.2 < size)
    (hinj : ∀ i < size, ∀ j < size, f i = f j → i = j) (hi : i < size) :
    defs'.keyOf? (f i) = defs.keyOf? i := by
  rw [keyOf?_eq_find?, keyOf?_eq_find?, heq, List.find?_map, Option.map_map]
  refine congrArg (Option.map _) (List.find?_congr fun a ha => ?_)
  rw [Bool.eq_iff_iff, Function.comp, beq_iff_eq, beq_iff_eq]
  exact ⟨hinj a.2 (hlt a ha) i hi, fun heq => congrArg f heq⟩

lemma lowers_unsizedView (s : Settings) : unsizedView.Lowers s where
  reads h := h.1.reads h.2 s
  copyWithout {v d e i} h hi hmet hobject keys hkeys := by
    obtain ⟨hlater, habreast⟩ := h.1.copyWithout hi hobject hkeys
    refine ⟨(Function.update v.1 d.size (v.1 i), Function.update v.2 d.size e.size),
      ⟨hlater, fun j hj => ?_, habreast, h.1.calm_copyWithout hi hobject hkeys h.2⟩,
      Function.update_self .., ?_⟩
    · exact iff_of_eq (congrArg (fun role : Role => role.isMet = true)
        (Function.update_of_ne (Nat.ne_of_lt hj) _ _))
    · exact (congrArg Role.isMet (Function.update_self ..)).trans hmet
  setType {v d e i} h hi _ hobject name := by
    obtain ⟨ρ', f', hfollows⟩ := h.1.setScalar hi hobject (.string name)
      (by decide : "type" ∉ sizeKeys)
    refine ⟨(ρ', f'), hfollows.later, fun j hj => ?_, hfollows.abreast,
      hfollows.calm h.2 h.1.lt h.1.right
        (altersAt_setValue e (v.2 i) "type" (.string name)).toAlters (by decide)⟩
    exact iff_of_eq (congrArg (fun role : Role => role.isMet = true) (hfollows.agree j hj))
  eraseDefault {v d e i} h hi _ hobject := by
    have hfollows := h.1.follows_changeMembers (h.1.toUnsized.erase hi hobject
      (Role.keeps_of_not_mem (by decide : "default" ∉ sizeKeys)) (by decide))
    exact ⟨hfollows.abreast, hfollows.calm h.2 h.1.lt h.1.right
      (altersAt_erase e (v.2 i) "default").toAlters (by decide)⟩
  named_collect {v d e r} h hr hmet :=
    ⟨h.1.collect_eq hr hmet, fun entry hentry =>
      (plain_of_mem_collect (.refl h.1.left) hentry).1⟩
  keyOf?_eq h hnamed hi _ := keyOf?_eq_of_map hnamed.1 hnamed.2 h.1.inj hi
  named_later {v d e v₁ d₁ e₁ defs defs'} hnamed hadvances _ := by
    refine ⟨hnamed.1.trans (List.map_congr_left fun entry hentry => ?_),
      fun entry hentry => Nat.lt_of_lt_of_le (hnamed.2 entry hentry) hadvances.later.size_le⟩
    exact congrArg (Prod.mk entry.1) (hadvances.later.agree entry.2 (hnamed.2 entry hentry)).symm

/-- **Documents that differ in bounds which do not count have the same types.** -/
theorem TypeGraph.ofDocument_eq_of_abreast {ρ : NodeId → Role} {f : NodeId → NodeId}
    {d e : Document} {root : NodeId} (h : Abreast ρ f d e) (hcalm : Calm ρ f d e)
    (hroot : root < d.size) (hmet : (ρ root).isMet = true) (s : Settings) :
    TypeGraph.ofDocument s e (f root) = TypeGraph.ofDocument s d root :=
  (lowers_unsizedView s).ofDocument_eq (v := (ρ, f)) ⟨h, hcalm⟩ hroot hmet

end SchemaDecl
