/-
Ways through a document.

Schemas are found at positions inside schemas, and among the values that a schema lists. Bringing
schemas to normal form moves some of them, and leaves some out; it puts none where it could not be
found before.

* `Document.Position`, `Document.position_iff`: the positions inside a schema, keyword by keyword.
* `Document.held`, `Document.edge_iff`: what is held under a keyword.
* `Document.Thins`: every way through a document is one through another.
* `Document.AltersAt.thins`: a step at one schema opens no new ways.
* `Document.thins_respelled`, `Document.thins_normalize`: neither do all steps to the normal form.
* `Document.Leads`, `Document.stands_or_listed`: what ways lead to.
-/
import SchemaDecl.Proofs.Document.Bounds
import SchemaDecl.Proofs.Document.Distinct

namespace SchemaDecl.Document

variable {s : Settings} {d d' d'' : Document} {id root x c m : NodeId} {key : String}
  {keys : List String}

lemma isObject_of_get? (h : d.get? id key = some c) : d.isObject id = true := by
  obtain ⟨members, hmembers, -⟩ := Option.bind_eq_some_iff.mp h
  rw [isObject, hmembers]
  rfl

/-! ### Objects stay objects -/

@[simp] lemma isObject_changeMembers (f : Keyed NodeId → Keyed NodeId) :
    (d.changeMembers id f).isObject x = d.isObject x := by
  rw [changeMembers]
  split
  case h_1 members hnode =>
    by_cases hx : x = id
    · have hlt : id < d.size := lt_size_of_isObject (by rw [isObject, members?_of_node hnode]; rfl)
      rw [hx, isObject, isObject, members?_of_node (node_setNode_self hlt), members?_of_node hnode]
      rfl
    · rw [isObject, isObject, members?, members?, node_setNode_of_ne hx]
  case h_2 => rfl

@[simp] lemma isObject_set : (d.set id key c).isObject x = d.isObject x := isObject_changeMembers _

@[simp] lemma isObject_erase : (d.erase id key).isObject x = d.isObject x :=
  isObject_changeMembers _

@[simp] lemma isObject_rename {source target : String} :
    (d.rename id source target).isObject x = d.isObject x := by
  rw [rename]
  split
  · exact isObject_changeMembers _
  · rfl

/-- A node that is added is an object only if it is added as one. -/
lemma isObject_alloc {n : Node} {l : Link} (h : ∀ members, n ≠ .object members) :
    (d.alloc n l).2.isObject x = d.isObject x := by
  have halters : d.AltersAt (d.alloc n l).2 x [] := altersAt_alloc
  have hsize : (d.alloc n l).2.size = d.size + 1 := Array.size_push _
  rcases Nat.lt_trichotomy x d.size with hx | rfl | hx
  · exact halters.isObject_eq x hx
  · rw [isObject, isObject, members?, members?, node_alloc_self, node_of_size_le (Nat.le_refl _)]
    cases n with
    | object members => exact absurd rfl (h members)
    | _ => rfl
  · rw [isObject, isObject, members?, members?, node_of_size_le (Nat.le_of_lt hx),
      node_of_size_le (by omega)]

@[simp] lemma isObject_linkIfFree {l : Link} :
    (d.linkIfFree c l).isObject x = d.isObject x := by
  rw [isObject, isObject, members?, members?, node_linkIfFree]

@[simp] lemma isObject_setList (items : List NodeId) :
    (d.setList id key items).isObject x = d.isObject x := by
  rw [setList]
  exact isObject_set.trans (isObject_alloc (by simp))

@[simp] lemma isObject_setScalar (value : Json.Scalar) :
    (d.setValue id key (.scalar value)).isObject x = d.isObject x := by
  rw [setValue, insert]
  exact (isObject_set.trans isObject_linkIfFree).trans (isObject_alloc (by simp))

/-! ### What is held under a keyword -/

/-- The nodes at the positions under a keyword whose member is `m`. -/
def held (d : Document) (key : String) (m : NodeId) : List NodeId :=
  if ["anyOf", "allOf", "oneOf"].contains key then (d.items? m).getD []
  else if ["properties", "patternProperties", "dependencies", "definitions", "$defs"].contains key
  then (d.node m).children
  else if ["additionalProperties", "additionalItems", "not"].contains key then [m]
  else if ["items", "extends"].contains key then
    if d.isArray m then (d.items? m).getD [] else [m]
  else if knownKeywords.contains key then []
  else (d.node m).children

lemma exists_mem_indexed : (∃ label, (label, c) ∈ d.indexed m) ↔ c ∈ (d.items? m).getD [] := by
  constructor
  · rintro ⟨label, h⟩
    obtain ⟨e, he, heq⟩ := List.mem_map.mp h
    rw [← (Prod.mk.inj heq).2]
    exact (List.mem_zipIdx' he).2 ▸ List.getElem_mem _
  · intro h
    obtain ⟨i, hi, rfl⟩ := List.mem_iff_getElem.mp h
    exact ⟨some (toString i), List.mem_map.mpr
      ⟨(((d.items? m).getD [])[i], i),
        List.mk_mem_zipIdx_iff_getElem?.mpr (List.getElem?_eq_getElem hi), rfl⟩⟩

lemma exists_mem_named : (∃ label, (label, c) ∈ d.named m) ↔ c ∈ (d.node m).children := by
  rw [named]
  cases hnode : d.node m with
  | object members => simp [Node.children]
  | array items =>
      rw [exists_mem_indexed, items?, hnode]
      rfl
  | leaf value =>
      rw [exists_mem_indexed, items?, hnode]
      rfl

lemma exists_mem_oneOrMany : (∃ label, (label, c) ∈ d.oneOrMany m) ↔
    c ∈ if d.isArray m then (d.items? m).getD [] else [m] := by
  rw [oneOrMany]
  split
  · exact exists_mem_indexed
  · simp

/-- A member under a key that stands once is found under it. -/
lemma get?_of_mem (h : d.DistinctAt id) {members : Keyed NodeId}
    (hnode : d.node id = .object members) {e : String × NodeId} (he : e ∈ members) :
    d.get? id e.1 = some e.2 := by
  rw [DistinctAt, members?_of_node hnode] at h
  rw [get?_of_node hnode]
  exact Keyed.Distinct.get?_of_mem h he

/-- A node is at a position of a schema under one of some keywords. -/
lemma exists_mem_under {f : NodeId → List (Option String × NodeId)} :
    (∃ label, (label, c) ∈ keys.flatMap fun key => ((d.get? x key).map f).getD []) ↔
      ∃ key ∈ keys, ∃ m, d.get? x key = some m ∧ ∃ label, (label, c) ∈ f m := by
  constructor
  · rintro ⟨label, hmem⟩
    obtain ⟨key, hkey, hmem⟩ := List.mem_flatMap.mp hmem
    cases hget : d.get? x key with
    | none => simp [hget] at hmem
    | some m => exact ⟨key, hkey, m, hget, label, by simpa [hget] using hmem⟩
  · rintro ⟨key, hkey, m, hget, label, hmem⟩
    exact ⟨label, List.mem_flatMap.mpr ⟨key, hkey, by simpa [hget] using hmem⟩⟩

lemma node_of_members? {members : Keyed NodeId} (h : d.members? id = some members) :
    d.node id = .object members := by
  rw [members?] at h
  cases hnode : d.node id with
  | object members' => simpa [hnode] using h
  | _ => simp [hnode] at h

/-- The node `c` stands at a schema position of the object `x`. -/
inductive Position (d : Document) (x c : NodeId) : Prop
  | listed {key : String} {list : NodeId}
      (hkey : key ∈ ["anyOf", "allOf", "oneOf", "items", "extends"])
      (hget : d.get? x key = some list) (hc : c ∈ (d.items? list).getD [])
  | named {key : String} {map : NodeId}
      (hkey : key ∈ ["properties", "patternProperties", "dependencies", "definitions", "$defs"])
      (hget : d.get? x key = some map) (hc : c ∈ (d.node map).children)
  | single {key : String} (hkey : key ∈ ["additionalProperties", "additionalItems", "not"])
      (hget : d.get? x key = some c)
  | alone {key : String} (hkey : key ∈ ["items", "extends"]) (hget : d.get? x key = some c)
      (hlist : d.isArray c = false)
  | unknown {members : Keyed NodeId} {key : String} {map : NodeId}
      (hmembers : d.members? x = some members) (hmap : (key, map) ∈ members)
      (hkey : key ∉ knownKeywords) (hc : c ∈ (d.node map).children)

/-- Only objects have positions. -/
lemma Position.isObject (h : d.Position x c) : d.isObject x = true := by
  cases h with
  | listed _ hget _ => exact isObject_of_get? hget
  | named _ hget _ => exact isObject_of_get? hget
  | single _ hget => exact isObject_of_get? hget
  | alone _ hget _ => exact isObject_of_get? hget
  | unknown hmembers _ _ _ => rw [Document.isObject, hmembers, Option.isSome_some]

lemma exists_mem_unknown :
    (∃ label, (label, c) ∈ ((d.members? x).getD []).flatMap fun e =>
      if knownKeywords.contains e.1 then [] else d.named e.2) ↔
      ∃ members key map, d.members? x = some members ∧ (key, map) ∈ members ∧
        key ∉ knownKeywords ∧ c ∈ (d.node map).children := by
  constructor
  · rintro ⟨label, hmem⟩
    obtain ⟨e, he, hmem⟩ := List.mem_flatMap.mp hmem
    split at hmem
    case isTrue => cases hmem
    case isFalse hknown =>
      cases hmembers : d.members? x with
      | none => simp [hmembers] at he
      | some members =>
          rw [hmembers] at he
          exact ⟨members, e.1, e.2, rfl, he, fun h => hknown (List.contains_iff_mem.mpr h),
            exists_mem_named.mp ⟨label, hmem⟩⟩
  · rintro ⟨members, key, map, hmembers, hmap, hkey, hc⟩
    obtain ⟨label, hlabel⟩ := exists_mem_named.mpr hc
    refine ⟨label, List.mem_flatMap.mpr ⟨(key, map), by rwa [hmembers], ?_⟩⟩
    rwa [if_neg fun h => hkey (List.contains_iff_mem.mp h)]

/-- **The positions that a tour goes along** are the schema positions. -/
lemma position_iff : d.Position x c ↔ ∃ label, (label, c) ∈ d.positions x := by
  have hself (p : NodeId) : (∃ label, (label, c) ∈ [((none : Option String), p)]) ↔ c = p := by simp
  simp only [positions, List.mem_append, exists_or, exists_mem_under, exists_mem_indexed,
    exists_mem_named, exists_mem_oneOrMany, exists_mem_unknown, hself]
  constructor
  · intro h
    cases h with
    | @listed key list hkey hget hc =>
        have hsplit : key ∈ ["anyOf", "allOf", "oneOf"] ∨ key ∈ ["items", "extends"] := by
          simpa [or_assoc] using hkey
        rcases hsplit with hkey | hkey
        · exact .inl (.inl (.inl (.inl (.inl ⟨key, hkey, list, hget, hc⟩))))
        · have harray : d.isArray list = true := by
            rw [isArray]
            cases hitems : d.items? list <;> simp [hitems] at hc ⊢
          exact .inl (.inl (.inr ⟨key, hkey, list, hget, by rwa [if_pos harray]⟩))
    | @named key map hkey hget hc =>
        have hsplit : key ∈ ["properties", "patternProperties"] ∨
            key ∈ ["dependencies", "definitions", "$defs"] := by
          simpa [or_assoc] using hkey
        rcases hsplit with hkey | hkey
        · exact .inl (.inl (.inl (.inl (.inr ⟨key, hkey, map, hget, hc⟩))))
        · exact .inl (.inr ⟨key, hkey, map, hget, hc⟩)
    | @single key hkey hget => exact .inl (.inl (.inl (.inr ⟨key, hkey, c, hget, rfl⟩)))
    | @alone key hkey hget hlist =>
        exact .inl (.inl (.inr ⟨key, hkey, c, hget, by simp [hlist]⟩))
    | @unknown members key map hmembers hmap hkey hc =>
        exact .inr ⟨members, key, map, hmembers, hmap, hkey, hc⟩
  · have hwider {keys keys' : List String} (h : keys ⊆ keys') {key : String} (hkey : key ∈ keys) :
        key ∈ keys' := h hkey
    rintro (((((⟨key, hkey, list, hget, hc⟩ | ⟨key, hkey, map, hget, hc⟩) |
      ⟨key, hkey, m, hget, rfl⟩) | ⟨key, hkey, m, hget, hc⟩) | ⟨key, hkey, map, hget, hc⟩) |
      ⟨members, key, map, hmembers, hmap, hkey, hc⟩)
    · exact .listed (hwider (by decide) hkey) hget hc
    · exact .named (hwider (by decide) hkey) hget hc
    · exact .single hkey hget
    · split at hc
      case isTrue => exact .listed (hwider (by decide) hkey) hget hc
      case isFalse hlist =>
        obtain rfl := List.mem_singleton.mp hc
        exact .alone hkey hget (by simpa using hlist)
    · exact .named (hwider (by decide) hkey) hget hc
    · exact .unknown hmembers hmap hkey hc

lemma edge_schemaEdges_iff :
    Walk.Edge d.schemaEdges x c ↔ d.isObject c = true ∧ d.Position x c := by
  rw [position_iff]
  constructor
  · rintro ⟨label, hmem⟩
    obtain ⟨hmem, hobject⟩ := List.mem_filter.mp hmem
    exact ⟨hobject, label, hmem⟩
  · rintro ⟨hobject, label, hmem⟩
    exact ⟨label, List.mem_filter.mpr ⟨hmem, hobject⟩⟩

lemma mem_children_of_mem_items (h : c ∈ (d.items? x).getD []) : c ∈ (d.node x).children := by
  rw [items?] at h
  cases hnode : d.node x with
  | array items =>
      rw [hnode] at h
      exact h
  | _ => simp [hnode] at h

/-- What stands at a position is a member, under another key than `$defs`, or held by a member. -/
lemma mem_positions (h : ∃ label, (label, c) ∈ d.positions x) :
    (∃ key, key ≠ "$defs" ∧ d.get? x key = some c) ∨
      ∃ p ∈ (d.node x).children, c ∈ (d.node p).children := by
  cases position_iff.mpr h with
  | listed _ hget hc => exact .inr ⟨_, mem_children_of_get? hget, mem_children_of_mem_items hc⟩
  | named _ hget hc => exact .inr ⟨_, mem_children_of_get? hget, hc⟩
  | @single key hkey hget => exact .inl ⟨key, by rintro rfl; simp at hkey, hget⟩
  | @alone key hkey hget _ => exact .inl ⟨key, by rintro rfl; simp at hkey, hget⟩
  | @unknown members key map hmembers hmap _ hc =>
      refine .inr ⟨map, ?_, hc⟩
      rw [node_of_members? hmembers]
      exact List.mem_map_of_mem hmap

/-- What stands at a position is a node of the document. -/
lemma Closed.positions_lt (hd : d.Closed) {entry : Option String × NodeId}
    (he : entry ∈ d.positions x) : entry.2 < d.size := by
  rcases mem_positions ⟨entry.1, he⟩ with ⟨key, -, hget⟩ | ⟨p, -, hc⟩
  · exact hd.get?_lt hget
  · exact hd.child_lt hc

/-- An unknown keyword holds schemas under names of its own. -/
lemma held_of_unknown (h : knownKeywords.contains key = false) :
    d.held key m = (d.node m).children := by
  have hother (group : List String) (hgroup : group ⊆ knownKeywords) :
      group.contains key = false := by
    rw [← Bool.not_eq_true, List.contains_iff_mem] at h ⊢
    exact fun hmem => h (hgroup hmem)
  simp only [held, h, hother ["anyOf", "allOf", "oneOf"] (by decide),
    hother ["properties", "patternProperties", "dependencies", "definitions", "$defs"] (by decide),
    hother ["additionalProperties", "additionalItems", "not"] (by decide),
    hother ["items", "extends"] (by decide), Bool.false_eq_true, if_false]

/-- What stands at a position is held under a keyword. -/
lemma Position.exists_held (h : d.Position x c) :
    ∃ key m, (key, m) ∈ (d.members? x).getD [] ∧ c ∈ d.held key m := by
  have hmem {key : String} {m : NodeId} (hget : d.get? x key = some m) :
      (key, m) ∈ (d.members? x).getD [] := by
    rw [get?] at hget
    obtain ⟨members, hmembers, hget⟩ := Option.bind_eq_some_iff.mp hget
    rw [hmembers]
    exact Keyed.mem_of_get? hget
  cases h with
  | @listed key list hkey hget hc =>
      have harray : d.isArray list = true := by
        rw [isArray]
        cases hitems : d.items? list <;> simp [hitems] at hc ⊢
      have hheld : ∀ key ∈ ["anyOf", "allOf", "oneOf", "items", "extends"],
          d.held key list = (d.items? list).getD [] := by simp [held, harray]
      exact ⟨key, list, hmem hget, hheld key hkey ▸ hc⟩
  | @named key map hkey hget hc =>
      have hheld : ∀ key ∈
          ["properties", "patternProperties", "dependencies", "definitions", "$defs"],
          d.held key map = (d.node map).children := by simp [held]
      exact ⟨key, map, hmem hget, hheld key hkey ▸ hc⟩
  | @single key hkey hget =>
      have hheld : ∀ key ∈ ["additionalProperties", "additionalItems", "not"],
          d.held key c = [c] := by simp [held]
      exact ⟨key, c, hmem hget, hheld key hkey ▸ List.mem_singleton_self c⟩
  | @alone key hkey hget hlist =>
      have hheld : ∀ key ∈ ["items", "extends"], d.held key c = [c] := by simp [held, hlist]
      exact ⟨key, c, hmem hget, hheld key hkey ▸ List.mem_singleton_self c⟩
  | @unknown members key map hmembers hmap hkey hc =>
      have hknown : knownKeywords.contains key = false := by simpa using hkey
      exact ⟨key, map, by rwa [hmembers], held_of_unknown hknown ▸ hc⟩

/-- **The positions inside a schema**, keyword by keyword. -/
lemma edge_iff (h : d.DistinctAt x) : Walk.Edge d.schemaEdges x c ↔
    d.isObject c = true ∧ ∃ key m, d.get? x key = some m ∧ c ∈ d.held key m := by
  rw [edge_schemaEdges_iff]
  refine and_congr_right fun _ => ⟨fun hposition => ?_, ?_⟩
  · obtain ⟨key, m, hmem, hc⟩ := hposition.exists_held
    obtain ⟨members, hnode⟩ := exists_members_of_isObject hposition.isObject
    rw [members?_of_node hnode] at hmem
    exact ⟨key, m, get?_of_mem h hnode hmem, hc⟩
  · rintro ⟨key, m, hget, hmem⟩
    rw [held] at hmem
    simp only [List.contains_iff_mem] at hmem
    split_ifs at hmem with hlisted hnamed hsingle heither harray hknown
    · exact .listed (List.mem_append_left ["items", "extends"] hlisted) hget hmem
    · exact .named hnamed hget hmem
    · exact .single hsingle (List.mem_singleton.mp hmem ▸ hget)
    · exact .listed (List.mem_append_right ["anyOf", "allOf", "oneOf"] heither) hget hmem
    · obtain rfl := List.mem_singleton.mp hmem
      exact .alone heither hget (by simpa using harray)
    · cases hmem
    · obtain ⟨members, hmembers, hmember⟩ := Option.bind_eq_some_iff.mp hget
      exact .unknown hmembers (Keyed.mem_of_get? hmember) hknown hmem

/-- Under a keyword whose member is a list there are items of the list, or there is the list. -/
lemma mem_of_mem_held_list {items : List NodeId} (h : d.node m = .array items)
    (hc : c ∈ d.held key m) : c ∈ items ∨ c = m := by
  have hitems : d.items? m = some items := by rw [items?, h]
  rw [held, hitems, h] at hc
  split_ifs at hc
  all_goals first | exact .inl hc | exact .inr (List.mem_singleton.mp hc) | cases hc

/-- Under a keyword whose member is a leaf there is nothing but the leaf. -/
lemma eq_of_mem_held_leaf {value : Json.Scalar} (h : d.node m = .leaf value)
    (hc : c ∈ d.held key m) : c = m := by
  have hitems : d.items? m = none := by rw [items?, h]
  rw [held, hitems, h] at hc
  split_ifs at hc
  all_goals first | exact List.mem_singleton.mp hc | cases hc

/-! ### Ways -/

/-- The schemas of a document are what positions lead to from the root. -/
lemma mem_schemaIds_iff :
    id ∈ d.schemaIds root ↔ d.isObject root = true ∧ Walk.Reaches d.schemaEdges root id := by
  rw [schemaIds, schemas]
  split
  case isTrue hroot =>
    rw [Walk.mem_entered_iff (fun _ => schemaEdges_of_size_le)]
    exact ⟨fun h => ⟨hroot, h⟩, And.right⟩
  case isFalse hroot => simp [hroot]

/-- The values that a schema allows: those that it lists, or else its constant. -/
def values (d : Document) (id : NodeId) : List NodeId :=
  if d.has id "enum" then d.listAt id "enum" else (d.get? id "const").toList

lemma Alters.values_eq (h : d.Alters d' keys) (hd : d.Closed) {y : NodeId}
    (hget : ∀ key ∈ ["enum", "const"], d'.get? y key = d.get? x key) :
    d'.values y = d.values x := by
  have henum := hget "enum" (by simp)
  rw [values, values, has, has, h.listAt_eq hd henum, henum, hget "const" (by simp)]

/-- Every way through `d'` is one through `d`: no position inside a schema and no value that is an
object is new. -/
structure Thins (d d' : Document) : Prop extends Keeps d d' where
  distinct : d'.Distinct
  isObject_eq : ∀ x, d'.isObject x = d.isObject x
  edge : ∀ {x c}, Walk.Edge d'.schemaEdges x c → Walk.Edge d.schemaEdges x c
  value : ∀ {x c}, c ∈ d'.values x → d.isObject c = true → c ∈ d.values x

namespace Thins

lemma refl (hd : d.Closed) (hdistinct : d.Distinct) : d.Thins d :=
  ⟨hd.keeps, hdistinct, fun _ => rfl, id, fun h _ => h⟩

lemma trans (h : d.Thins d') (h' : d'.Thins d'') : d.Thins d'' where
  toKeeps := h.toKeeps.trans h'.toKeeps
  distinct := h'.distinct
  isObject_eq x := (h'.isObject_eq x).trans (h.isObject_eq x)
  edge he := h.edge (h'.edge he)
  value hc hobject := h.value (h'.value hc ((h.isObject_eq _).trans hobject)) hobject

/-- A step at a node after others. -/
lemma andThen (h : d.Thins d') (hid : id < d.size)
    (hf : d'.Closed → d'.Distinct → id < d'.size → d'.Thins d'') : d.Thins d'' :=
  h.trans (hf h.closed h.distinct (Nat.lt_of_lt_of_le hid h.size_le))

/-- What can be reached in `d'` can be reached in `d`. -/
lemma reaches (h : d.Thins d') (hc : Walk.Reaches d'.schemaEdges x c) :
    Walk.Reaches d.schemaEdges x c := Relation.ReflTransGen.mono (fun _ _ he => h.edge he) _ _ hc

/-- The schemas of `d'` are schemas of `d`. -/
lemma mem_schemaIds (h : d.Thins d') (hid : id ∈ d'.schemaIds root) : id ∈ d.schemaIds root := by
  rw [mem_schemaIds_iff] at hid ⊢
  exact ⟨(h.isObject_eq root).symm.trans hid.1, h.reaches hid.2⟩

end Thins

/-! ### One step -/

section Step

variable (h : d.AltersAt d' id keys) (hdistinct : d.Distinct)
include h hdistinct

/-- Where a step leaves no object that the schema did not hold, the objects that a node holds after
the step are among those that it held before. -/
lemma AltersAt.mem_children (hchild : ∀ key ∈ keys, ∀ m, d'.get? id key = some m →
      d.isObject m = true → m ∈ (d.node id).children)
    (hx : x < d.size) (hc : c ∈ (d'.node x).children) (hobject : d.isObject c = true) :
    c ∈ (d.node x).children := by
  by_cases hid : x = id
  · subst hid
    cases hx' : d.isObject x with
    | false => rwa [h.plain x hx hx'] at hc
    | true =>
        obtain ⟨members, hnode⟩ :=
          exists_members_of_isObject ((h.isObject_eq x hx).trans hx')
        rw [hnode] at hc
        obtain ⟨e, he, rfl⟩ := List.mem_map.mp hc
        have hget := get?_of_mem (h.distinct x hx (hdistinct x)) hnode he
        by_cases hkey : e.1 ∈ keys
        · exact hchild e.1 hkey e.2 hget hobject
        · exact mem_children_of_get? ((h.get?_eq x hx e.1 hkey).symm.trans hget)
  · rwa [h.node_eq x hx hid] at hc

/-- So are the objects at positions under a keyword. -/
lemma AltersAt.mem_held (hchild : ∀ key ∈ keys, ∀ m, d'.get? id key = some m →
      d.isObject m = true → m ∈ (d.node id).children)
    (hm : m < d.size) (hc : c ∈ d'.held key m) (hobject : d.isObject c = true) :
    c ∈ d.held key m := by
  have hchildren (hc : c ∈ (d'.node m).children) : c ∈ (d.node m).children :=
    h.mem_children hdistinct hchild hm hc hobject
  rw [held, isArray, h.items?_eq hm] at hc
  rw [held, isArray]
  split_ifs at hc ⊢ <;> first | exact hc | exact hchildren hc

/-- **A step opens no new ways** if the members that it sets at its schema are not new as objects,
and lead where the schema led before. -/
lemma AltersAt.thins (hd : d.Closed) (hid : id < d.size) (hkeeps : d.Keeps d')
    (hobject : ∀ x, d'.isObject x = d.isObject x)
    (hchild : ∀ key ∈ keys, ∀ m, d'.get? id key = some m →
      d.isObject m = true → m ∈ (d.node id).children)
    (hheld : ∀ key ∈ keys, ∀ m, d'.get? id key = some m → ∀ c ∈ d'.held key m,
      d.isObject c = true → Walk.Edge d.schemaEdges id c)
    (hvalue : "enum" ∈ keys ∨ "const" ∈ keys →
      ∀ c ∈ d'.values id, d.isObject c = true → c ∈ d.values id) : d.Thins d' := by
  have hdistinct' : d'.Distinct := fun x => by
    cases hx : d.isObject x with
    | false => exact distinctAt_of_not_isObject ((hobject x).trans hx)
    | true => exact h.distinct x (lt_size_of_isObject hx) (hdistinct x)
  -- A member that the step did not set is where it was.
  have hget (x : NodeId) (key : String) (hx : x < d.size) (hstep : ¬ (x = id ∧ key ∈ keys)) :
      d'.get? x key = d.get? x key := by
    by_cases hid : x = id
    · exact h.get?_eq x hx key fun hkey => hstep ⟨hid, hkey⟩
    · rw [get?, get?, members?, members?, h.node_eq x hx hid]
  refine ⟨hkeeps, hdistinct', hobject, fun {x c} he => ?_, fun {x c} hc hobject' => ?_⟩
  · obtain ⟨hc, key, m, hm, hmem⟩ := (edge_iff (hdistinct' x)).mp he
    rw [hobject] at hc
    have hx := lt_size_of_isObject ((hobject x).symm.trans (isObject_of_get? hm))
    by_cases hstep : x = id ∧ key ∈ keys
    · obtain ⟨rfl, hkey⟩ := hstep
      exact hheld key hkey m hm c hmem hc
    · rw [hget x key hx hstep] at hm
      exact (edge_iff (hdistinct x)).mpr
        ⟨hc, key, m, hm, h.mem_held hdistinct hchild (hd.get?_lt hm) hmem hc⟩
  · by_cases hstep : x = id ∧ ("enum" ∈ keys ∨ "const" ∈ keys)
    · obtain ⟨rfl, hkeys⟩ := hstep
      exact hvalue hkeys c hc hobject'
    · by_cases hx : x < d.size
      · have hkept (key : String) (hkey : key ∈ ["enum", "const"]) :
            d'.get? x key = d.get? x key := by
          refine hget x key hx fun hmem => hstep ⟨hmem.1, ?_⟩
          simp only [List.mem_cons, List.not_mem_nil, or_false] at hkey
          rcases hkey with rfl | rfl
          · exact .inl hmem.2
          · exact .inr hmem.2
        rwa [h.values_eq hd hkept] at hc
      · have hnone (key : String) : d'.get? x key = none := by
          refine Option.eq_none_iff_forall_ne_some.mpr fun m hget => hx ?_
          exact lt_size_of_isObject ((hobject x).symm.trans (isObject_of_get? hget))
        simp [values, has, hnone] at hc

end Step

section Steps

variable (hd : d.Closed) (hdistinct : d.Distinct) (hid : id < d.size)
include hd hdistinct hid

/-- A leaf leads nowhere. -/
lemma thins_setScalar (hkey : key ∉ ["enum", "const"]) (value : Json.Scalar) :
    d.Thins (d.setValue id key (.scalar value)) := by
  have hleaf {m : NodeId} (hget : (d.setValue id key (.scalar value)).get? id key = some m) :
      (d.setValue id key (.scalar value)).node m = .leaf value := by
    have hobject := isObject_of_get? hget
    rw [isObject_setScalar] at hobject
    have hscalar : (d.setValue id key (.scalar value)).scalar? id key = some value :=
      scalar?_setValue_self hobject
    rw [scalar?_of_get? hget, leaf?] at hscalar
    cases hnode : (d.setValue id key (.scalar value)).node m with
    | leaf v => simpa [hnode] using hscalar
    | _ => simp [hnode] at hscalar
  have hplain {m : NodeId} (hget : (d.setValue id key (.scalar value)).get? id key = some m) :
      d.isObject m = false := by
    rw [← isObject_setScalar value, isObject, members?, hleaf hget]
    rfl
  refine (altersAt_setValue d id key value).thins hdistinct hd hid (keeps_setValue hd hid _)
    (fun _ => isObject_setScalar value) ?_ ?_ fun hkeys => absurd hkeys ?_
  · simp only [List.mem_singleton, forall_eq]
    exact fun m hget hobject => absurd hobject (by simp [hplain hget])
  · simp only [List.mem_singleton, forall_eq]
    intro m hget c hc hobject
    rw [eq_of_mem_held_leaf (hleaf hget) hc, hplain hget] at hobject
    cases hobject
  · simpa [eq_comm] using hkey

lemma thins_erase (hkey : key ∉ ["enum", "const"]) : d.Thins (d.erase id key) := by
  have hnone (m : NodeId) : (d.erase id key).get? id key ≠ some m := fun hget => by
    have hobject := isObject_of_get? hget
    rw [isObject_erase] at hobject
    rw [get?_erase_self hobject (hdistinct id)] at hget
    cases hget
  refine (altersAt_erase d id key).thins hdistinct hd hid (keeps_erase hd id key)
    (fun _ => isObject_erase) ?_ ?_ fun hkeys => absurd hkeys ?_
  · simp only [List.mem_singleton, forall_eq]
    exact fun m hget => absurd hget (hnone m)
  · simp only [List.mem_singleton, forall_eq]
    exact fun m hget => absurd hget (hnone m)
  · simpa [eq_comm] using hkey

/-- A list leads where its items do. -/
lemma thins_setList (hkey : key ∉ ["enum", "const"]) {items : List NodeId}
    (hlt : ∀ c ∈ items, c < d.size)
    (hitems : ∀ c ∈ items, d.isObject c = true → Walk.Edge d.schemaEdges id c) :
    d.Thins (d.setList id key items) := by
  have hlist {m : NodeId} (hget : (d.setList id key items).get? id key = some m) :
      (d.setList id key items).node m = .array items := by
    have hobject := isObject_of_get? hget
    rw [isObject_setList] at hobject
    obtain ⟨hself, hnode⟩ := get?_setList_self hobject key items
    rw [hself, Option.some_inj] at hget
    exact hget ▸ hnode
  have hplain {m : NodeId} (hget : (d.setList id key items).get? id key = some m) :
      d.isObject m = false := by
    rw [← isObject_setList items, isObject, members?, hlist hget]
    rfl
  refine (altersAt_setList d id key items).thins hdistinct hd hid (keeps_setList hd hid key hlt)
    (fun _ => isObject_setList items) ?_ ?_ fun hkeys => absurd hkeys ?_
  · simp only [List.mem_singleton, forall_eq]
    exact fun m hget hobject => absurd hobject (by simp [hplain hget])
  · simp only [List.mem_singleton, forall_eq]
    intro m hget c hc hobject
    rcases mem_of_mem_held_list (hlist hget) hc with hc | rfl
    · exact hitems c hc hobject
    · rw [hplain hget] at hobject
      cases hobject
  · simpa [eq_comm] using hkey

/-- A keyword of another name leads where the keyword led. -/
lemma thins_rename {source target : String} (hne : source ≠ target)
    (hheld : ∀ m, d.held target m = d.held source m)
    (hkeys : ∀ key ∈ [source, target], key ∉ ["enum", "const"]) :
    d.Thins (d.rename id source target) := by
  by_cases hcan : d.canRename id source target
  · have htarget : d.get? id target = none := by
      rw [canRename, Bool.and_eq_true] at hcan
      simpa [has] using hcan.2
    have hget (hobject : d.isObject id = true) :
        (d.rename id source target).get? id target = d.get? id source ∧
          (d.rename id source target).get? id source = none := by
      obtain ⟨members, hnode⟩ := exists_members_of_isObject hobject
      have hmembers := hdistinct id
      rw [DistinctAt, members?_of_node hnode] at hmembers
      rw [get?_of_node hnode] at htarget
      rw [rename, if_pos hcan, get?_of_node (node_changeMembers hnode _),
        get?_of_node (node_changeMembers hnode _), get?_of_node hnode]
      exact Keyed.Distinct.get?_rename hmembers hne htarget
    -- The only member that is set is the one that had the other name.
    have hmoved {key : String} (hkey : key ∈ [source, target]) {m : NodeId}
        (hm : (d.rename id source target).get? id key = some m) :
        key = target ∧ d.get? id source = some m := by
      have hobject := isObject_of_get? hm
      rw [isObject_rename] at hobject
      obtain ⟨htarget, hsource⟩ := hget hobject
      simp only [List.mem_cons, List.not_mem_nil, or_false] at hkey
      rcases hkey with rfl | rfl
      · rw [hsource] at hm
        cases hm
      · exact ⟨rfl, htarget ▸ hm⟩
    have halters := altersAt_rename d id source target
    have hchild : ∀ key ∈ [source, target], ∀ m, (d.rename id source target).get? id key = some m →
        d.isObject m = true → m ∈ (d.node id).children :=
      fun key hkey m hm _ => mem_children_of_get? (hmoved hkey hm).2
    refine halters.thins hdistinct hd hid (keeps_rename hd id source target)
      (fun _ => isObject_rename) hchild (fun key hkey m hm c hc hobject => ?_) fun hnever => ?_
    · obtain ⟨rfl, hm'⟩ := hmoved hkey hm
      have hmem := halters.mem_held hdistinct hchild (hd.get?_lt hm') hc hobject
      exact (edge_iff (hdistinct id)).mpr ⟨hobject, source, m, hm', hheld m ▸ hmem⟩
    · rcases hnever with hnever | hnever <;> exact absurd (hkeys _ hnever) (by simp)
  · rw [rename, if_neg hcan]
    exact .refl hd hdistinct

/-! ### Steps to the normal form -/

lemma thins_canonicalKeywords : d.Thins (d.canonicalKeywords id) := by
  have hdefs {d : Document} (hd : d.Closed) (hdistinct : d.Distinct) (hid : id < d.size) :
      d.Thins (d.rename id "definitions" "$defs") :=
    thins_rename hd hdistinct hid (by simp) (fun m => by simp [held]) (by simp)
  rw [canonicalKeywords]
  split
  · refine (thins_rename hd hdistinct hid (by simp) (fun m => ?_) (by simp)).andThen hid hdefs
    simp [held, knownKeywords]
  · exact hdefs hd hdistinct hid

lemma thins_wrapExtends : d.Thins (d.wrapExtends id) := by
  rw [wrapExtends]
  split
  · exact .refl hd hdistinct
  case h_2 extended hget =>
    split
    · exact thins_erase hd hdistinct hid (by simp)
    · exact .refl hd hdistinct
    case h_3 hitems =>
      refine thins_setList hd hdistinct hid (by simp)
        (List.forall_mem_singleton.mpr (hd.get?_lt hget))
        (List.forall_mem_singleton.mpr fun hobject => ?_)
      refine (edge_iff (hdistinct id)).mpr ⟨hobject, "extends", extended, hget, ?_⟩
      simp [held, isArray, hitems]

lemma thins_normalizeSpelling : d.Thins (d.normalizeSpelling id) :=
  (thins_canonicalKeywords hd hdistinct hid).andThen hid thins_wrapExtends

/-- A constant that becomes a listed value is a value as before. -/
lemma thins_constToEnum : d.Thins (d.constToEnum id) := by
  rw [constToEnum]
  split
  case isTrue => exact .refl hd hdistinct
  case isFalse henum =>
    split
    · exact .refl hd hdistinct
    case h_2 value hconst =>
      have hobject := isObject_of_get? hconst
      have herase := altersAt_erase d id "const"
      have hkeeps := keeps_erase hd id "const"
      have hsize := Nat.lt_of_lt_of_le hid hkeeps.size_le
      have hlist := altersAt_setList (d.erase id "const") id "enum" [value]
      obtain ⟨hget, hnode⟩ :=
        get?_setList_self (isObject_erase.trans hobject) "enum" [value] (d := d.erase id "const")
      have hgone : ((d.erase id "const").setList id "enum" [value]).get? id "const" = none := by
        rw [hlist.get?_eq id hsize "const" (by simp), get?_erase_self hobject (hdistinct id)]
      have hkeys {key : String} (hkey : key ∈ ["const", "enum"]) {m : NodeId}
          (hm : ((d.erase id "const").setList id "enum" [value]).get? id key = some m) :
          key = "enum" ∧ m = (d.erase id "const").size := by
        simp only [List.mem_cons, List.not_mem_nil, or_false] at hkey
        rcases hkey with rfl | rfl
        · rw [hgone] at hm
          cases hm
        · exact ⟨rfl, (Option.some.inj (hget.symm.trans hm)).symm⟩
      refine ((herase.mono (by simp)).trans (hlist.mono (by simp)) :
        d.AltersAt _ id ["const", "enum"]).thins hdistinct hd hid
        (hkeeps.andThen hid fun h hid => keeps_setList h hid _
          (List.forall_mem_singleton.mpr (Nat.lt_of_lt_of_le (hd.get?_lt hconst) hkeeps.size_le)))
        (fun x => (isObject_setList [value]).trans isObject_erase) ?_ ?_ fun _ c hc _ => ?_
      · intro key hkey m hm hobject
        obtain ⟨-, rfl⟩ := hkeys hkey hm
        rw [← isObject_erase, ← isObject_setList [value], isObject, members?, hnode] at hobject
        cases hobject
      · intro key hkey m hm c hc
        obtain ⟨rfl, -⟩ := hkeys hkey hm
        simp [held, knownKeywords] at hc
      · have hvalues : ((d.erase id "const").setList id "enum" [value]).values id = [value] := by
          simp [values, has, hget, listAt, items?, hnode]
        rw [hvalues] at hc
        rw [values, if_neg henum, hconst]
        exact hc

lemma thins_escapeDescription : d.Thins (d.escapeDescription id) := by
  rw [escapeDescription]
  split
  · exact .refl hd hdistinct
  · dsimp only
    split
    · exact .refl hd hdistinct
    · exact thins_setScalar hd hdistinct hid (by simp) _

lemma thins_defaultRootId (name : Option String) : d.Thins (d.defaultRootId id name) := by
  cases name with
  | none => exact .refl hd hdistinct
  | some name =>
      rw [defaultRootId]
      split
      · exact .refl hd hdistinct
      · exact thins_setScalar hd hdistinct hid (by simp) _

lemma thins_defaultAdditionalProperties (s : Settings) :
    d.Thins (defaultAdditionalProperties s d id) := by
  rw [defaultAdditionalProperties]
  split
  · exact thins_setScalar hd hdistinct hid (by simp) _
  · exact .refl hd hdistinct

/-- Positions that are written out, and what follows them, are those of the schema for all items. -/
lemma thins_positions {items : NodeId} (hget : d.get? id "items" = some items)
    (hobject : d.isObject items = true) (n : Nat) :
    d.Thins ((d.setList id "items" (List.replicate n items)).set id "additionalItems" items) := by
  have hedge : Walk.Edge d.schemaEdges id items := by
    obtain ⟨members, hnode⟩ := exists_members_of_isObject hobject
    refine (edge_iff (hdistinct id)).mpr ⟨hobject, "items", items, hget, ?_⟩
    simp [held, isArray, items?, hnode]
  have hself := isObject_of_get? hget
  have hlt := hd.get?_lt hget
  have hlist := altersAt_setList d id "items" (List.replicate n items)
  have hkeeps : d.Keeps (d.setList id "items" (List.replicate n items)) :=
    keeps_setList hd hid _ fun c hc => List.eq_of_mem_replicate hc ▸ hlt
  obtain ⟨hpositions, hnode⟩ := get?_setList_self hself "items" (List.replicate n items)
  have hsize := hkeeps.closed.get?_lt hpositions
  have hmore :=
    altersAt_set (d.setList id "items" (List.replicate n items)) id "additionalItems" items
  rw [← hmore.get?_eq id (Nat.lt_of_lt_of_le hid hlist.size_le) "items" (by simp)] at hpositions
  rw [← hmore.node_eq d.size hsize (Nat.ne_of_gt hid)] at hnode
  have hrest :
      ((d.setList id "items" (List.replicate n items)).set id "additionalItems" items).get? id
      "additionalItems" = some items := get?_set_self ((isObject_setList _).trans hself)
  have hplain : d.isObject d.size = false := by
    rw [isObject, members?, node_of_size_le (Nat.le_refl _)]
    rfl
  refine ((hlist.mono (by simp)).trans (hmore.mono (by simp)) :
    d.AltersAt _ id ["items", "additionalItems"]).thins hdistinct hd hid
    (hkeeps.trans (keeps_set hkeeps.closed _ _ (Nat.lt_of_lt_of_le hlt hkeeps.size_le)))
    (fun x => isObject_set.trans (isObject_setList _)) ?_ ?_ (by simp)
  all_goals
    simp only [List.mem_cons, List.not_mem_nil, or_false, forall_eq_or_imp, forall_eq, hpositions,
      hrest, Option.some_inj, forall_eq']
  · refine ⟨fun h => ?_, fun _ => mem_children_of_get? hget⟩
    rw [hplain] at h
    cases h
  · refine ⟨fun c hc hobject => ?_, fun c hc _ => ?_⟩
    · rcases mem_of_mem_held_list hnode hc with hc | rfl
      · exact List.eq_of_mem_replicate hc ▸ hedge
      · rw [hplain] at hobject
        cases hobject
    · obtain rfl : c = items := by simpa [held] using hc
      exact hedge

lemma thins_expandItems (least : Nat) (most : Option Nat) :
    d.Thins (d.expandItems id least most) := by
  rw [expandItems]
  split
  · exact .refl hd hdistinct
  case h_2 items hget =>
    split
    case h_1 members hnode =>
      have hobject : d.isObject items = true := by
        rw [isObject, members?_of_node hnode]
        rfl
      split
      · dsimp only
        split
        · exact thins_positions hd hdistinct hid hget hobject _
        · refine thins_setList hd hdistinct hid (by simp)
            (fun c hc => List.eq_of_mem_replicate hc ▸ hd.get?_lt hget) fun c hc hobject => ?_
          obtain rfl := List.eq_of_mem_replicate hc
          refine (edge_iff (hdistinct id)).mpr ⟨hobject, "items", c, hget, ?_⟩
          simp [held, isArray, items?, hnode]
      · exact .refl hd hdistinct
    case h_2 list hnode =>
      split
      · split
        · refine thins_setList hd hdistinct hid (by simp) (fun c hc => ?_) fun c hc hobject => ?_
          · refine hd.child_lt (?_ : c ∈ (d.node items).children)
            rw [hnode]
            exact List.mem_of_mem_take hc
          · refine (edge_iff (hdistinct id)).mpr ⟨hobject, "items", items, hget, ?_⟩
            simpa [held, isArray, items?, hnode] using List.mem_of_mem_take hc
        · exact .refl hd hdistinct
      · exact .refl hd hdistinct
    · exact .refl hd hdistinct

lemma thins_boundArrays (s : Settings) : d.Thins (boundArrays s d id) := by
  rw [boundArrays]
  split
  · exact .refl hd hdistinct
  · split
    · exact (thins_erase hd hdistinct hid (by simp)).andThen hid fun hd hdistinct hid =>
        thins_erase hd hdistinct hid (by simp)
    · dsimp only
      have hleast :
          d.Thins (if d.has id "minItems" then d else d.setValue id "minItems" (.int 0)) := by
        split
        · exact .refl hd hdistinct
        · exact thins_setScalar hd hdistinct hid (by simp) _
      generalize (if d.has id "minItems" then d else d.setValue id "minItems" (.int 0)) = d₁
        at hleast ⊢
      generalize (d₁.bound? id "minItems").getD 0 = least
      generalize (d₁.bound? id "maxItems").filter (keepsMaximum s least) = most
      have hmost : d.Thins (if (d₁.bound? id "maxItems").isSome && most.isNone
          then d₁.erase id "maxItems" else d₁) := by
        split
        · exact hleast.andThen hid fun hd hdistinct hid => thins_erase hd hdistinct hid (by simp)
        · exact hleast
      split
      · exact hmost
      · exact hmost.andThen hid fun hd hdistinct hid => thins_expandItems hd hdistinct hid _ _

lemma thins_normalizeContents (s : Settings) (root : NodeId) (name : Option String) :
    d.Thins (normalizeContents s root name d id) := by
  have hspelled :=
    (thins_constToEnum hd hdistinct hid).andThen hid thins_escapeDescription
  rw [normalizeContents]
  have hroot : d.Thins (if id == root then
      ((d.constToEnum id).escapeDescription id).defaultRootId id name
      else (d.constToEnum id).escapeDescription id) := by
    split
    · exact hspelled.andThen hid fun hd hdistinct hid => thins_defaultRootId hd hdistinct hid name
    · exact hspelled
  have hmore := hroot.andThen hid fun hd hdistinct hid =>
    thins_defaultAdditionalProperties hd hdistinct hid s
  exact hmore.andThen hid fun hd hdistinct hid => thins_boundArrays hd hdistinct hid s

end Steps

/-! ### All steps -/

section Normal

variable (hd : d.Closed) (hdistinct : d.Distinct)
include hd hdistinct

/-- Steps at nodes open no new ways if each of them opens none. -/
lemma thins_foldl {f : Document → NodeId → Document} {ids : List NodeId}
    (hids : ∀ id ∈ ids, id < d.size)
    (hf : ∀ {d : Document} {id : NodeId}, d.Closed → d.Distinct → id < d.size → d.Thins (f d id)) :
    d.Thins (ids.foldl f d) := by
  induction ids generalizing d with
  | nil => exact .refl hd hdistinct
  | cons a ids ih =>
      obtain ⟨ha, hids⟩ := List.forall_mem_cons.mp hids
      have hstep := hf hd hdistinct ha
      exact hstep.trans (ih hstep.closed hstep.distinct fun id hid =>
        Nat.lt_of_lt_of_le (hids id hid) hstep.size_le)

/-- Spelling keywords anew opens no new ways. -/
lemma thins_respelled (root : NodeId) : d.Thins (d.respelled root) :=
  thins_foldl hd hdistinct (fun _ => lt_size_of_mem_schemaIds) thins_normalizeSpelling

/-- **The normal form opens no new ways.** -/
lemma thins_normalize (s : Settings) (root : NodeId) (name : Option String) :
    (d.respelled root).Thins (d.normalize s root name) := by
  have hspelled := thins_respelled hd hdistinct root
  exact thins_foldl hspelled.closed hspelled.distinct (fun _ => lt_size_of_mem_schemaIds)
    fun hd hdistinct hid => thins_normalizeContents hd hdistinct hid s root name

end Normal

/-! ### Positions and values -/

/-- A schema leads to another one: it has it at a position inside, or lists it among its values. -/
def Leads (d : Document) (x c : NodeId) : Prop :=
  Walk.Edge d.schemaEdges x c ∨ c ∈ d.values x ∧ d.isObject c = true

lemma Thins.leads (h : d.Thins d') (hlead : d'.Leads x c) : d.Leads x c :=
  hlead.imp h.edge fun ⟨hvalue, hobject⟩ =>
    have hobject := (h.isObject_eq c).symm.trans hobject
    ⟨h.value hvalue hobject, hobject⟩

/-- What can be found from the root stands at a schema position, or is found from a value that a
schema at such a position lists. -/
lemma stands_or_listed (hroot : d.isObject root = true)
    (h : Relation.ReflTransGen d.Leads root c) :
    c ∈ d.schemaIds root ∨ ∃ x ∈ d.schemaIds root, ∃ v ∈ d.values x, d.isObject v = true ∧
      Relation.ReflTransGen d.Leads v c := by
  induction h with
  | refl => exact .inl (mem_schemaIds_iff.mpr ⟨hroot, .refl⟩)
  | @tail y c _ hlead ih =>
      rcases ih with hy | ⟨x, hx, v, hv, hobject, hway⟩
      · rcases hlead with hedge | ⟨hvalue, hobject⟩
        · exact .inl (mem_schemaIds_iff.mpr ⟨hroot, (mem_schemaIds_iff.mp hy).2.tail hedge⟩)
        · exact .inr ⟨y, hy, c, hvalue, hobject, .refl⟩
      · exact .inr ⟨x, hx, v, hv, hobject, hway.tail hlead⟩

end SchemaDecl.Document
