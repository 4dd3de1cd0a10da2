/-
Where schemas stand in a value, and values without the bounds of arrays.

The keywords on the way to a place tell how what stands there is taken. A document that comes from a
value has a role for each of its nodes accordingly, and nodes may be added and shared as long as
every node holds what one of its role may hold.

* `Site`: how what stands at a place is taken.
* `Json.unbounded`: a value without the bounds of its array schemas.
* `Role`: what a node is taken as.
* `Document.Sorted`: every node holds what a node of its role may hold.
* `Document.Sorted.isMet_position`: what stands at a position of a schema is no list or map of
  schemas.
* `Document.Sorted.reaches_of_role`: the nodes that are taken as schemas are found at positions.
-/
import SchemaDecl.Proofs.Document.Lineage
import SchemaDecl.Proofs.Document.Outline
import SchemaDecl.Proofs.Document.Value
import SchemaDecl.Proofs.Document.Ways

namespace SchemaDecl

open Document

/-! ### Places of a value -/

/-- How what stands at a place of a value is taken: as it is, as a schema, as a list of schemas, as
schemas that are listed or have names of their own, or as one schema or a list of them. -/
inductive Site where
  | value
  | schema
  | list
  | named
  | oneOrMany
deriving DecidableEq, Repr

namespace Site

/-- How the member of a schema under a key is taken. -/
def under (key : String) : Site :=
  if ["anyOf", "allOf", "oneOf"].contains key then .list
  else if ["properties", "patternProperties", "dependencies", "definitions", "$defs"].contains key
  then .named
  else if ["additionalProperties", "additionalItems", "not"].contains key then .schema
  else if ["items", "extends"].contains key then .oneOrMany
  else if knownKeywords.contains key then .value
  else .named

/-- How the items of a list at the place are taken. -/
def items : Site → Site
  | .list | .named | .oneOrMany => .schema
  | .value | .schema => .value

/-- How the members of an object at the place are taken. -/
def members : Site → String → Site
  | .schema, key | .oneOrMany, key => under key
  | .named, _ => .schema
  | .value, _ | .list, _ => .value

/-- An object at the place is a schema. -/
def isSchema : Site → Bool
  | .schema | .oneOrMany => true
  | _ => false

end Site

namespace Json

/-- The member `type` of an object is the name, or a list that contains it. -/
def namesType (members : Keyed Json) (name : String) : Bool :=
  match Keyed.get? members "type" with
  | some (.scalar value) => value.string? == some name
  | some (.array items) => items.any fun item => item.scalar?.bind Scalar.string? == some name
  | _ => false

/-- The members are those of an array schema. -/
def describesArrays (members : Keyed Json) : Bool :=
  namesType members "array" || Keyed.has members "items"

end Json

/-- The members are those of an array schema at the place. -/
def Site.isSized (site : Site) (members : Keyed Json) : Bool :=
  site.isSchema && Json.describesArrays members

namespace Json

mutual

/-- A value at a place without the bounds of its array schemas. -/
def unbounded (site : Site) : Json → Json
  | .scalar value => .scalar value
  | .array items => .array (unboundedItems site.items items)
  | .object members => .object ((unboundedMembers site.members members).filter
      fun entry => !(site.isSized members && sizeKeys.contains entry.1))

/-- The items of a list without the bounds of their array schemas. -/
def unboundedItems (site : Site) : List Json → List Json
  | [] => []
  | item :: rest => unbounded site item :: unboundedItems site rest

/-- The members of an object without the bounds of their array schemas. -/
def unboundedMembers (site : String → Site) : List (String × Json) → List (String × Json)
  | [] => []
  | (key, value) :: rest => (key, unbounded (site key) value) :: unboundedMembers site rest

end

end Json

/-! ### Roles of nodes -/

/-- What a node is taken as: a value, a schema, a list of schemas, or schemas under names. Schemas
with the mark are array schemas. -/
inductive Role where
  | value
  | schema (sized : Bool)
  | list
  | named
deriving DecidableEq, Repr

namespace Role

/-- The place at which things are taken so. -/
def site : Role → Site
  | .value => .value
  | .schema _ => .schema
  | .list => .list
  | .named => .named

/-- The node is a value or a schema. -/
def isMet : Role → Bool
  | .value | .schema _ => true
  | .list | .named => false

/-- The member under the key counts: it is no bound of an array schema. -/
def keeps (role : Role) (key : String) : Bool :=
  !(role == .schema true && sizeKeys.contains key)

lemma keeps_of_ne {role : Role} (h : role ≠ .schema true) (key : String) :
    role.keeps key = true := by
  rw [keeps, beq_false_of_ne h, Bool.false_and, Bool.not_false]

lemma keeps_of_not_mem {role : Role} {key : String} (h : key ∉ sizeKeys) :
    role.keeps key = true := by
  rw [keeps, Bool.not_eq_true', Bool.and_eq_false_iff]
  exact .inr (by simpa using h)

lemma not_keeps_of_mem {key : String} (h : key ∈ sizeKeys) :
    (Role.schema true).keeps key = false := by
  rw [keeps, beq_self_eq_true, Bool.true_and, List.contains_iff_mem.mpr h, Bool.not_true]

end Role

/-- What a node at the place is taken as. -/
def Site.role (sized : Bool) : Site → Node → Role
  | .schema, .object _ | .oneOrMany, .object _ => .schema sized
  | .named, .object _ => .named
  | .list, .array _ | .named, .array _ | .oneOrMany, .array _ => .list
  | _, _ => .value

/-- The node at the place of its role. -/
lemma Site.items_role (site : Site) (sized : Bool) (l : List NodeId) :
    (site.role sized (.array l)).site.items = site.items := by
  cases site <;> rfl

lemma Site.members_role (site : Site) (sized : Bool) (members : Keyed NodeId) :
    (site.role sized (.object members)).site.members = site.members := by
  cases site <;> rfl

lemma Site.keeps_role (site : Site) (members : Keyed Json) (entries : Keyed NodeId) (key : String) :
    (site.role (site.isSized members) (.object entries)).keeps key
      = !(site.isSized members && sizeKeys.contains key) := by
  rw [Site.isSized]
  cases Json.describesArrays members <;> cases site <;>
    simp [Site.role, Site.isSchema, Role.keeps]

/-- The nodes at the positions at a place where `m` stands. -/
def Site.held (site : Site) (d : Document) (m : NodeId) : List NodeId :=
  match site with
  | .value => []
  | .schema => [m]
  | .list => (d.items? m).getD []
  | .named => (d.node m).children
  | .oneOrMany => if d.isArray m then (d.items? m).getD [] else [m]

namespace Document

variable {d : Document} {ρ : NodeId → Role} {site : Site} {root x c m : NodeId} {key : String}

lemma held_eq : d.held key m = (Site.under key).held d m := by
  rw [held, Site.under]
  split_ifs <;> simp [Site.held, *]

/-- The role of a node is that of a node at the place. -/
def Suits (d : Document) (ρ : NodeId → Role) (site : Site) (c : NodeId) : Prop :=
  ∃ sized, ρ c = site.role sized (d.node c)

/-- Every node has a role at some place, and holds what a node of its role may hold. -/
structure Sorted (d : Document) (ρ : NodeId → Role) : Prop where
  placed : ∀ i < d.size, ∃ site, d.Suits ρ site i
  items : ∀ i < d.size, ∀ l, d.node i = .array l → ∀ c ∈ l, d.Suits ρ (ρ i).site.items c
  members : ∀ i < d.size, ∀ entries, d.node i = .object entries →
    ∀ entry ∈ entries, d.Suits ρ ((ρ i).site.members entry.1) entry.2

namespace Suits

lemma eq_value (h : d.Suits ρ .value c) : ρ c = .value := by
  obtain ⟨sized, hrole⟩ := h
  exact hrole

lemma isMet (h : d.Suits ρ .schema c) : (ρ c).isMet = true := by
  obtain ⟨sized, hrole⟩ := h
  rw [hrole]
  cases d.node c <;> rfl

/-- An object is no list of schemas, and an array no schema. -/
lemma isObject_of_schema {sized : Bool} (h : d.Suits ρ site c) (hc : ρ c = .schema sized) :
    d.isObject c = true := by
  obtain ⟨sized', hrole⟩ := h
  rw [hc] at hrole
  rw [isObject, members?]
  cases hnode : d.node c with
  | object members => rfl
  | _ => cases site <;> simp [hnode, Site.role] at hrole

/-- A schema at a place is at the position there. -/
lemma self_mem_held {sized : Bool} (h : d.Suits ρ site c) (hc : ρ c = .schema sized) :
    c ∈ site.held d c := by
  have hobject := h.isObject_of_schema hc
  obtain ⟨members, hnode⟩ := exists_members_of_isObject hobject
  obtain ⟨sized', hrole⟩ := h
  rw [hc, hnode] at hrole
  have harray : d.isArray c = false := by rw [isArray, items?, hnode]; rfl
  cases site <;> simp [Site.role, Site.held, harray] at hrole ⊢

/-- What a list or map of schemas holds is at the positions there. -/
lemma mem_held (h : d.Suits ρ site m) (hm : (ρ m).isMet = false) (hc : c ∈ (d.node m).children) :
    c ∈ site.held d m := by
  obtain ⟨sized, hrole⟩ := h
  rw [hrole] at hm
  cases hnode : d.node m with
  | leaf value => cases site <;> simp [hnode, Site.role, Role.isMet] at hm
  | array l =>
      have hitems : (d.items? m).getD [] = l := by rw [items?, hnode]; rfl
      have harray : d.isArray m = true := by rw [isArray, items?, hnode]; rfl
      rw [hnode] at hc
      cases site <;> simp [hnode, Site.role, Role.isMet] at hm <;>
        simpa [Site.held, hitems, harray, hnode, Node.children] using hc
  | object entries =>
      cases site <;> simp [hnode, Site.role, Role.isMet] at hm
      exact hc

end Suits

/-- What is at a position where `m` stands is `m` or held by it. -/
lemma eq_or_mem_of_mem_held (h : c ∈ site.held d m) : c = m ∨ c ∈ (d.node m).children := by
  cases site with
  | value => cases h
  | schema => exact .inl (List.mem_singleton.mp h)
  | list => exact .inr (mem_children_of_mem_items h)
  | named => exact .inr h
  | oneOrMany =>
      rw [Site.held] at h
      split at h
      · exact .inr (mem_children_of_mem_items h)
      · exact .inl (List.mem_singleton.mp h)

namespace Sorted

variable (h : d.Sorted ρ)
include h

lemma suits_get? (hc : d.get? x key = some c) : d.Suits ρ ((ρ x).site.members key) c := by
  have hobject := isObject_of_get? hc
  obtain ⟨entries, hnode⟩ := exists_members_of_isObject hobject
  rw [get?_of_node hnode] at hc
  exact h.members x (lt_size_of_isObject hobject) entries hnode _ (Keyed.mem_of_get? hc)

/-- Values hold values. -/
lemma eq_value_of_child (hx : ρ x = .value) (hc : c ∈ (d.node x).children) : ρ c = .value := by
  have hlt := lt_size_of_mem_children hc
  cases hnode : d.node x with
  | leaf value => simp [hnode, Node.children] at hc
  | array l =>
      rw [hnode] at hc
      have hsuits := h.items x hlt l hnode c hc
      rw [hx] at hsuits
      exact hsuits.eq_value
  | object entries =>
      rw [hnode] at hc
      obtain ⟨entry, hentry, rfl⟩ := List.mem_map.mp hc
      have hsuits := h.members x hlt entries hnode entry hentry
      rw [hx] at hsuits
      exact hsuits.eq_value

/-- A list of schemas holds schemas, and so does a map. -/
lemma suits_of_child (hx : (ρ x).isMet = false) (hc : c ∈ (d.node x).children) :
    d.Suits ρ .schema c := by
  have hlt := lt_size_of_mem_children hc
  obtain ⟨site, sized, hrole⟩ := h.placed x hlt
  cases hnode : d.node x with
  | leaf value => simp [hnode, Node.children] at hc
  | array l =>
      rw [hnode] at hc hrole
      have hsuits := h.items x hlt l hnode c hc
      have hsite : site.items = .schema := by
        rw [hrole] at hx
        cases site <;> simp [Site.role, Role.isMet, Site.items] at hx ⊢
      rwa [hrole, Site.items_role, hsite] at hsuits
  | object entries =>
      rw [hnode] at hc hrole
      obtain ⟨entry, hentry, rfl⟩ := List.mem_map.mp hc
      have hsuits := h.members x hlt entries hnode entry hentry
      have hsite : site.members entry.1 = .schema := by
        rw [hrole] at hx
        cases site <;> simp [Site.role, Role.isMet, Site.members] at hx ⊢
      rwa [hrole, Site.members_role, hsite] at hsuits

/-- **What stands at a position at a place is a schema there.** -/
lemma suits_held (hm : d.Suits ρ site m) (hc : c ∈ site.held d m) : d.Suits ρ .schema c := by
  have hmet : site = .list ∨ site = .named ∨ site = .oneOrMany ∧ d.isArray m = true →
      c ∈ (d.node m).children → (ρ m).isMet = false := by
    intro hsite hchild
    obtain ⟨sized, hrole⟩ := hm
    rw [hrole]
    cases hnode : d.node m with
    | leaf value => simp [hnode, Node.children] at hchild
    | array l => rcases hsite with rfl | rfl | ⟨rfl, -⟩ <;> rfl
    | object entries =>
        rcases hsite with rfl | rfl | ⟨-, harray⟩
        · simp [Site.held, items?, hnode] at hc
        · rfl
        · simp [isArray, items?, hnode] at harray
  cases site with
  | value => cases hc
  | schema => exact List.mem_singleton.mp hc ▸ hm
  | list =>
      have hchild := mem_children_of_mem_items hc
      exact h.suits_of_child (hmet (.inl rfl) hchild) hchild
  | named => exact h.suits_of_child (hmet (.inr (.inl rfl)) hc) hc
  | oneOrMany =>
      rw [Site.held] at hc
      split at hc
      case isTrue harray =>
        have hchild := mem_children_of_mem_items hc
        exact h.suits_of_child (hmet (.inr (.inr ⟨rfl, harray⟩)) hchild) hchild
      case isFalse harray =>
        obtain rfl := List.mem_singleton.mp hc
        obtain ⟨sized, hrole⟩ := hm
        refine ⟨sized, hrole.trans ?_⟩
        cases hnode : d.node c with
        | array l => simp [isArray, items?, hnode] at harray
        | _ => rfl

/-- **What stands at a position is met**, inside a schema and inside a value. -/
lemma isMet_position (hx : (ρ x).isMet = true) (hc : d.Position x c) : (ρ c).isMet = true := by
  obtain ⟨key, m, hmem, hheld⟩ := hc.exists_held
  obtain ⟨entries, hnode⟩ := exists_members_of_isObject hc.isObject
  rw [members?_of_node hnode] at hmem
  have hsuits := h.members x (lt_size_of_isObject hc.isObject) entries hnode _ hmem
  cases hrole : ρ x with
  | value =>
      rw [hrole] at hsuits
      have hm := hsuits.eq_value
      rcases eq_or_mem_of_mem_held (held_eq ▸ hheld) with rfl | hchild
      · rw [hm]
        rfl
      · rw [h.eq_value_of_child hm hchild]
        rfl
  | schema sized =>
      rw [hrole] at hsuits
      exact (h.suits_held hsuits (held_eq ▸ hheld)).isMet
  | list => simp [hrole, Role.isMet] at hx
  | named => simp [hrole, Role.isMet] at hx

/-- A node of a role other than a value is found at a position, or inside a member of a schema that
is. -/
lemma found (hdistinct : d.Distinct) (hroot : d.Suits ρ .schema root)
    (hx : Relation.ReflTransGen d.Holds root x) :
    (∀ sized, ρ x = .schema sized → Walk.Reaches d.schemaEdges root x) ∧
      ((ρ x).isMet = false → ∃ p key sized, Walk.Reaches d.schemaEdges root p ∧
        ρ p = .schema sized ∧ d.get? p key = some x) := by
  -- along the path from the root: a step into a schema goes along an edge, a step into a list or
  -- map of schemas remembers the schema that has it as a member
  induction hx with
  | refl =>
      refine ⟨fun _ _ => .refl, fun hmet => ?_⟩
      rw [hroot.isMet] at hmet
      cases hmet
  | @tail y c _ hc ih =>
      replace hc : c ∈ (d.node y).children := hc
      have hlt := lt_size_of_mem_children hc
      have hedge {p m : NodeId} {key : String} {sized : Bool} (hc : ρ c = .schema sized)
          (hsuits : d.Suits ρ .schema c) (hget : d.get? p key = some m)
          (hheld : c ∈ (Site.under key).held d m) : Walk.Edge d.schemaEdges p c :=
        (edge_iff (hdistinct p)).mpr ⟨hsuits.isObject_of_schema hc, key, m, hget, held_eq ▸ hheld⟩
      cases hrole : ρ y with
      | value => simp [h.eq_value_of_child hrole hc, Role.isMet]
      | schema sized =>
          have hobject : d.isObject y = true := by
            obtain ⟨site, hsuits⟩ := h.placed y hlt
            exact hsuits.isObject_of_schema hrole
          obtain ⟨entries, hnode⟩ := exists_members_of_isObject hobject
          rw [hnode] at hc
          obtain ⟨entry, hentry, rfl⟩ := List.mem_map.mp hc
          have hget := get?_of_mem (hdistinct y) hnode hentry
          have hsuits := h.suits_get? hget
          rw [hrole] at hsuits
          refine ⟨fun sized' hc => (ih.1 sized hrole).tail ?_,
            fun _ => ⟨y, entry.1, sized, ih.1 sized hrole, hrole, hget⟩⟩
          have hheld := hsuits.self_mem_held hc
          exact hedge hc (h.suits_held hsuits hheld) hget hheld
      | _ =>
          have hmet : (ρ y).isMet = false := by rw [hrole]; rfl
          obtain ⟨p, key, sized, hp, hpole, hget⟩ := ih.2 hmet
          have hsuits := h.suits_get? hget
          rw [hpole] at hsuits
          have hschema := h.suits_of_child hmet hc
          refine ⟨fun sized' hc' => hp.tail (hedge hc' hschema hget (hsuits.mem_held hmet hc)),
            fun hfalse => ?_⟩
          rw [hschema.isMet] at hfalse
          cases hfalse

/-- **The nodes that are taken as schemas are found at positions.** -/
theorem reaches_of_role {sized : Bool} (hdistinct : d.Distinct) (hroot : d.Suits ρ .schema root)
    (hx : Relation.ReflTransGen d.Holds root x) (hrole : ρ x = .schema sized) :
    Walk.Reaches d.schemaEdges root x :=
  (h.found hdistinct hroot hx).1 sized hrole

end Sorted

end Document

end SchemaDecl
