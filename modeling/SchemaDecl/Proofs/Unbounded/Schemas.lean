/-
The schemas of two documents that differ in the bounds of arrays.

* `Unsized.positions_eq`: the positions inside a schema and inside its image.
* `Unsized.schemas_eq`: the schemas of both documents, in order.
* `Unsized.collect_eq`: the definitions of both documents.
* `Unsized.violations_eq_nil`: without the bounds, no rule is violated that was not before.
-/
import SchemaDecl.Proofs.Document.Definitions
import SchemaDecl.Proofs.Document.Violations
import SchemaDecl.Proofs.Unbounded.Unsized
import SchemaDecl.Proofs.Walk.Embedding

namespace SchemaDecl

open Document

/-- Under a keyword that is not known, schemas may stand under names of their own. -/
lemma Site.under_of_unknown {key : String} (h : key ∉ knownKeywords) : Site.under key = .named := by
  have hother (group : List String) (hgroup : group ⊆ knownKeywords) :
      group.contains key = false := by
    rw [← Bool.not_eq_true, List.contains_iff_mem]
    exact fun hmem => h (hgroup hmem)
  have hknown : knownKeywords.contains key = false := by simpa using h
  simp only [Site.under, hknown, hother ["anyOf", "allOf", "oneOf"] (by decide),
    hother ["properties", "patternProperties", "dependencies", "definitions", "$defs"] (by decide),
    hother ["additionalProperties", "additionalItems", "not"] (by decide),
    hother ["items", "extends"] (by decide), Bool.false_eq_true, if_false]

namespace Document

variable {d e : Document} {ρ : NodeId → Role} {f : NodeId → NodeId} {root i c : NodeId}
  {key source : String}

/-- A map of schemas is no schema. -/
lemma Suits.ne_schema (h : d.Suits ρ .named c) (sized : Bool) : ρ c ≠ .schema sized := by
  obtain ⟨sized', hrole⟩ := h
  rw [hrole]
  cases d.node c <;> simp [Site.role]

/-- What gives nothing may be left out. -/
lemma flatMap_filter_of_nil {α β : Type} {l : List α} {p : α → Bool} {g : α → List β}
    (h : ∀ a ∈ l, p a = false → g a = []) : (l.filter p).flatMap g = l.flatMap g := by
  induction l with
  | nil => rfl
  | cons a l ih =>
      obtain ⟨ha, hl⟩ := List.forall_mem_cons.mp h
      cases hp : p a with
      | true => rw [List.filter_cons_of_pos hp, List.flatMap_cons, List.flatMap_cons, ih hl]
      | false =>
          rw [List.filter_cons_of_neg (by simp [hp]), ih hl, List.flatMap_cons, ha hp,
            List.nil_append]

namespace Unsized

variable (h : Unsized ρ f d e)
include h

/-! ### Positions -/

/-- What stands under names of its own has no bounds. -/
lemma ne_schema_of_named (hi : (ρ i).isMet = true) {entries : Keyed NodeId}
    (hnode : d.node i = .object entries) {entry : String × NodeId} (hentry : entry ∈ entries)
    (hkey : Site.under entry.1 = .named) : ρ entry.2 ≠ .schema true := by
  have hlt : i < d.size :=
    lt_size_of_mem_children (c := entry.2) (by rw [hnode]; exact List.mem_map_of_mem hentry)
  have hsuits := h.sorted.members i hlt entries hnode entry hentry
  cases hrole : ρ i with
  | value =>
      rw [hrole] at hsuits
      rw [hsuits.eq_value]
      simp
  | schema sized =>
      rw [hrole, Role.site, Site.members, hkey] at hsuits
      exact hsuits.ne_schema true
  | list => simp [hrole, Role.isMet] at hi
  | named => simp [hrole, Role.isMet] at hi

lemma ne_schema_of_get? (hi : (ρ i).isMet = true) (hget : d.get? i key = some c)
    (hkey : Site.under key = .named) : ρ c ≠ .schema true := by
  obtain ⟨entries, hnode⟩ := exists_members_of_isObject (isObject_of_get? hget)
  rw [get?_of_node hnode] at hget
  exact h.ne_schema_of_named hi hnode (Keyed.mem_of_get? hget) hkey

lemma named_eq (hi : i < d.size) (hrole : ρ i ≠ .schema true) :
    e.named (f i) = (d.named i).map fun e => (e.1, f e.2) := by
  have hindexed := h.outline.indexed_eq hi
  rw [named, named, h.node_eq hi hrole]
  cases d.node i with
  | object entries =>
      rw [Node.map]
      simp [List.map_map, Function.comp_def]
  | _ => exact hindexed

lemma oneOrMany_eq (hi : i < d.size) :
    e.oneOrMany (f i) = (d.oneOrMany i).map fun e => (e.1, f e.2) := by
  rw [oneOrMany, oneOrMany, h.outline.isArray_eq hi]
  split
  · exact h.outline.indexed_eq hi
  · rfl

/-- The positions under some keywords. -/
lemma under_eq (hi : i < d.size) (g g' : NodeId → List (Option String × NodeId))
    (keys : List String) (hkeys : ∀ key ∈ keys, key ∉ sizeKeys)
    (hg : ∀ key ∈ keys, ∀ c, d.get? i key = some c → g' (f c) = (g c).map fun e => (e.1, f e.2)) :
    (keys.flatMap fun key => ((e.get? (f i) key).map g').getD [])
      = (keys.flatMap fun key => ((d.get? i key).map g).getD []).map fun e => (e.1, f e.2) := by
  rw [List.map_flatMap]
  refine List.flatMap_congr fun key hkey => ?_
  rw [h.tells hi key (hkeys key hkey)]
  cases hc : d.get? i key with
  | none => rfl
  | some c => exact hg key hkey c hc

/-- The positions under keywords that are not known. Bounds are known keywords. -/
lemma unknown_eq (hi : i < d.size) (hmet : (ρ i).isMet = true) :
    (((e.members? (f i)).getD []).flatMap fun entry =>
        if knownKeywords.contains entry.1 then [] else e.named entry.2)
      = (((d.members? i).getD []).flatMap fun entry =>
        if knownKeywords.contains entry.1 then [] else d.named entry.2).map
          fun e => (e.1, f e.2) := by
  cases hobject : d.isObject i with
  | false =>
      have hnone {d : Document} {i : NodeId} (h : d.isObject i = false) : d.members? i = none := by
        rw [isObject] at h
        simpa using h
      rw [hnone hobject, hnone ((h.outline.isObject_eq i hi).trans hobject)]
      rfl
  | true =>
      obtain ⟨entries, entries', hnode, hnode', heq⟩ := h.exists_members hi hobject
      have hcount : (entries'.flatMap fun entry =>
          if knownKeywords.contains entry.1 then [] else e.named entry.2)
          = (entries'.filter fun entry => (ρ i).keeps entry.1).flatMap fun entry =>
            if knownKeywords.contains entry.1 then [] else e.named entry.2 := by
        refine (flatMap_filter_of_nil fun entry _ hnot => if_pos ?_).symm
        by_contra hknown
        refine absurd (Role.keeps_of_not_mem fun hmem => hknown ?_) (Bool.not_eq_true _ ▸ hnot)
        exact List.contains_iff_mem.mpr ((by decide : sizeKeys ⊆ knownKeywords) hmem)
      rw [members?_of_node hnode, members?_of_node hnode', Option.getD_some, Option.getD_some,
        hcount, heq, List.flatMap_map, List.map_flatMap]
      refine List.flatMap_congr fun entry hentry => ?_
      split
      case isTrue => rfl
      case isFalse hknown =>
        have hkey : entry.1 ∉ knownKeywords := fun hmem => hknown (List.contains_iff_mem.mpr hmem)
        exact h.named_eq (h.left.entry_lt hnode entry hentry)
          (h.ne_schema_of_named hmet hnode hentry (Site.under_of_unknown hkey))

/-- **The positions inside a schema and inside its image.** -/
lemma positions_eq (hi : i < d.size) (hmet : (ρ i).isMet = true) :
    e.positions (f i) = (d.positions i).map fun e => (e.1, f e.2) := by
  have hindexed (keys : List String) (hkeys : ∀ key ∈ keys, key ∉ sizeKeys) :=
    h.under_eq hi d.indexed e.indexed keys hkeys fun _ _ c hc =>
      h.outline.indexed_eq (h.left.get?_lt hc)
  have hnamed (keys : List String) (hkeys : ∀ key ∈ keys, key ∉ sizeKeys)
      (hsites : ∀ key ∈ keys, Site.under key = .named) :=
    h.under_eq hi d.named e.named keys hkeys fun key hkey c hc =>
      h.named_eq (h.left.get?_lt hc) (h.ne_schema_of_get? hmet hc (hsites key hkey))
  have hself (keys : List String) (hkeys : ∀ key ∈ keys, key ∉ sizeKeys) :=
    h.under_eq hi (fun c => [(none, c)]) (fun c => [(none, c)]) keys hkeys fun _ _ _ _ => rfl
  have hone (keys : List String) (hkeys : ∀ key ∈ keys, key ∉ sizeKeys) :=
    h.under_eq hi d.oneOrMany e.oneOrMany keys hkeys fun _ _ c hc =>
      h.oneOrMany_eq (h.left.get?_lt hc)
  rw [positions, positions]
  simp only [List.map_append]
  rw [hindexed ["anyOf", "allOf", "oneOf"] (by decide),
    hnamed ["properties", "patternProperties"] (by decide) (by decide),
    hself ["additionalProperties", "additionalItems", "not"] (by decide),
    hone ["items", "extends"] (by decide),
    hnamed ["dependencies", "definitions", "$defs"] (by decide) (by decide), h.unknown_eq hi hmet]

lemma schemaEdges_eq (hi : i < d.size) (hmet : (ρ i).isMet = true) :
    e.schemaEdges (f i) = (d.schemaEdges i).map fun e => (e.1, f e.2) := by
  rw [schemaEdges, schemaEdges, h.positions_eq hi hmet, List.filter_map]
  refine congrArg (List.map _) (List.filter_congr fun entry hentry => ?_)
  exact h.outline.isObject_eq entry.2 (h.left.positions_lt hentry)

/-! ### Schemas -/

lemma isMet_of_mem_schemaEdges (hmet : (ρ i).isMet = true) {entry : Option String × NodeId}
    (hentry : entry ∈ d.schemaEdges i) : (ρ entry.2).isMet = true :=
  h.sorted.isMet_position hmet (position_iff.mpr ⟨entry.1, (List.mem_filter.mp hentry).1⟩)

/-- **The schemas of both documents**, in order. -/
lemma schemas_eq (hroot : root < d.size) (hmet : (ρ root).isMet = true) :
    e.schemas (f root) = (d.schemas root).map fun e => (e.1, f e.2) := by
  have hkept (es : List (Option String × NodeId)) : Walk.keptEdges (fun _ => false) es = es :=
    List.filter_eq_self.mpr fun _ _ => rfl
  have hembeds : Walk.Embeds d.schemaEdges e.schemaEdges
      (fun i => i < d.size ∧ (ρ i).isMet = true) f id (fun _ => false) := {
    inj := fun a ha b hb => h.inj a ha.1 b hb.1
    keeps := fun _ _ => rfl
    next_eq := fun a ha => (hkept _).trans (h.schemaEdges_eq ha.1 ha.2)
    dom_next := fun a ha entry hentry =>
      ⟨h.left.positions_lt (List.mem_filter.mp hentry).1, h.isMet_of_mem_schemaEdges ha.2 hentry⟩
    spare_next := fun _ hfalse => by cases hfalse }
  rw [schemas, schemas, h.outline.isObject_eq root hroot]
  split
  · have hentered := hembeds.entered (fun _ => schemaEdges_of_size_le)
      (fun _ => schemaEdges_of_size_le) (none, root) ⟨hroot, hmet⟩
    rwa [hkept] at hentered
  · rfl

lemma schemaIds_eq (hroot : root < d.size) (hmet : (ρ root).isMet = true) :
    e.schemaIds (f root) = (d.schemaIds root).map f := by
  rw [schemaIds, schemaIds, h.schemas_eq hroot hmet, List.map_map, List.map_map]
  rfl

lemma isMet_of_mem_schemaIds (hmet : (ρ root).isMet = true) (hi : i ∈ d.schemaIds root) :
    (ρ i).isMet = true := by
  rw [mem_schemaIds_iff] at hi
  induction hi.2 with
  | refl => exact hmet
  | tail _ hedge ih =>
      obtain ⟨label, hedge⟩ := hedge
      exact h.isMet_of_mem_schemaEdges (ih ⟨hi.1, by assumption⟩) hedge

/-! ### Definitions -/

lemma membersAt_eq (hi : i < d.size) (hmet : (ρ i).isMet = true) (hkey : Site.under key = .named)
    (hsize : key ∉ sizeKeys) :
    e.membersAt (f i) key = (d.membersAt i key).map fun e => (e.1, f e.2) := by
  rw [membersAt, membersAt, h.tells hi key hsize]
  cases hc : d.get? i key with
  | none => rfl
  | some c =>
      have hnode := h.node_eq (h.left.get?_lt hc) (h.ne_schema_of_get? hmet hc hkey)
      rw [Option.map_some, Option.bind_some, Option.bind_some, members?, members?, hnode]
      cases d.node c <;> rfl

/-- **The definitions of both documents.** -/
lemma collect_eq (hroot : root < d.size) (hmet : (ρ root).isMet = true) :
    (Definitions.collect e (f root)).entries
      = (Definitions.collect d root).entries.map fun e => (e.1, f e.2) := by
  have hoffered : ((d.schemaIds root).map f).flatMap (Definitions.offered e)
      = ((d.schemaIds root).flatMap (Definitions.offered d)).map fun e => (e.1, f e.2) := by
    rw [List.flatMap_map, List.map_flatMap]
    refine List.flatMap_congr fun i hi => ?_
    have hlt := lt_size_of_mem_schemaIds hi
    have hmet := h.isMet_of_mem_schemaIds hmet hi
    rw [Definitions.offered, Definitions.offered, List.map_append,
      h.membersAt_eq hlt hmet (by decide) (by decide),
      h.membersAt_eq hlt hmet (by decide) (by decide)]
  rw [Definitions.collect, Definitions.collect, h.schemaIds_eq hroot hmet, hoffered]
  exact Definitions.entries_foldl_register _ rfl

/-! ### Rules -/

lemma double?_eq (hi : i < d.size) (hkey : (ρ i).keeps key = true) :
    e.double? (f i) key = d.double? i key := by
  rw [double?, double?, scalar?, scalar?, h.get?_eq hi hkey]
  cases hc : d.get? i key with
  | none => rfl
  | some c =>
      dsimp only [Option.map_some, Option.bind_some]
      exact congrArg (·.bind Json.Scalar.double?) (h.outline.leaf?_eq c (h.left.get?_lt hc))

lemma check_enumNamesLength (hi : i < d.size) :
    Rule.enumNamesLength.check e (f i) = Rule.enumNamesLength.check d i := by
  rw [Rule.check, Rule.check, h.tells hi "enum" (by decide), h.tells hi "tsEnumNames" (by decide)]
  cases hvalues : d.get? i "enum" with
  | none => rfl
  | some values =>
      cases hlabels : d.get? i "tsEnumNames" with
      | none => rfl
      | some labels =>
          dsimp only [Option.map_some]
          rw [h.outline.items?_eq _ (h.left.get?_lt hvalues),
            h.outline.items?_eq _ (h.left.get?_lt hlabels)]
          cases d.items? values <;> cases d.items? labels <;> simp

lemma check_enumNamesStrings (hi : i < d.size) :
    Rule.enumNamesStrings.check e (f i) = Rule.enumNamesStrings.check d i := by
  rw [Rule.check, Rule.check, h.tells hi "tsEnumNames" (by decide)]
  cases hlabels : d.get? i "tsEnumNames" with
  | none => rfl
  | some labels =>
      dsimp only [Option.map_some]
      rw [h.outline.items?_eq _ (h.left.get?_lt hlabels)]
      cases hl : d.items? labels with
      | none => rfl
      | some l =>
          have hall : ((l.map f).all fun label => (e.leafString? label).isSome)
              = l.all fun label => (d.leafString? label).isSome := by
            rw [List.all_map, Bool.eq_iff_iff, List.all_eq_true, List.all_eq_true]
            refine forall₂_congr fun c hc => ?_
            have hchild : c ∈ (d.node labels).children :=
              mem_children_of_mem_items (by rw [hl]; exact hc)
            rw [Function.comp_apply, h.outline.leafString?_eq (h.left.child_lt hchild)]
          exact congrArg Verdict.ofBool hall

/-- A rule that is not violated with bounds is not violated without. -/
lemma check_ne_violated_of_image (hi : i < d.size) {rule : Rule}
    (hrule : rule.check e (f i) ≠ .violated) : rule.check d i ≠ .violated := by
  have hdouble (key : String) (hkey : key ∈ sizeKeys) :
      d.double? i key = e.double? (f i) key ∨ d.double? i key = none := by
    by_cases hrole : ρ i = .schema true
    · right
      have hnone : d.get? i key = none := by
        simpa [has] using h.has_size_eq_false hi hrole hkey
      rw [double?, scalar?, hnone]
      rfl
    · exact .inl (h.double?_eq hi (Role.keeps_of_ne hrole key)).symm
  have hleast := hdouble "minItems" (by decide)
  have hmost := hdouble "maxItems" (by decide)
  cases rule with
  | enumNamesLength => rwa [h.check_enumNamesLength hi] at hrule
  | enumNamesStrings => rwa [h.check_enumNamesStrings hi] at hrule
  | maxItemsAtLeastMinItems =>
      rw [Rule.check] at hrule ⊢
      rcases hmost with hmost | hmost
      · rcases hleast with hleast | hleast
        · rwa [hmost, hleast]
        · rw [hleast]
          cases d.double? i "maxItems" <;> simp
      · simp [hmost]
  | maxItemsNonNegative =>
      rw [Rule.check, Rule.ofNumber] at hrule ⊢
      rcases hmost with hmost | hmost
      · rwa [hmost]
      · simp [hmost]
  | minItemsNonNegative =>
      rw [Rule.check, Rule.ofNumber] at hrule ⊢
      rcases hleast with hleast | hleast
      · rwa [hleast]
      · simp [hleast]
  | minItemsWithinLimit =>
      rw [Rule.check, Rule.ofNumber] at hrule ⊢
      rcases hleast with hleast | hleast
      · rwa [hleast]
      · simp [hleast]

/-- **Without the bounds, no rule is violated that was not before.** -/
lemma violations_eq_nil (hroot : root < d.size) (hmet : (ρ root).isMet = true)
    (hvalid : e.violations (f root) source = []) : d.violations root source = [] := by
  rw [violations, List.flatMap_eq_nil_iff]
  intro entry hentry
  have hid : entry.2 ∈ d.schemaIds root := List.mem_map_of_mem hentry
  have himage : f entry.2 ∈ e.schemaIds (f root) := by
    rw [h.schemaIds_eq hroot hmet]
    exact List.mem_map_of_mem hid
  rw [List.map_eq_nil_iff, violatedAt, List.filter_eq_nil_iff]
  intro rule _
  simpa using h.check_ne_violated_of_image (lt_size_of_mem_schemaIds hid)
    (check_ne_violated hvalid himage rule)

end Unsized

end Document

end SchemaDecl
