/-
The normal form, once and for all.

When every schema has had its turn, every schema that is found is in normal form, and was found at
the start. Steps at schemas in normal form change nothing, so that a second round changes nothing.

* `Document.Spelled`, `Document.Measured`, `Document.InForm`: the normal form of a schema.
* `Document.spelled_normalizeSpelling`, `Document.inForm_normalizeContents`: one turn brings a
  schema to normal form.
* `Document.normalizeSpelling_of_spelled`, `Document.normalizeContents_of_inForm`: a turn changes
  nothing about a schema in normal form.
* `Document.normalize_establishes`: **all schemas are in normal form.**
* `Document.normalize_normalize`: **a second round changes nothing.**
-/
import SchemaDecl.Proofs.Document.Form

namespace SchemaDecl.Document

variable {s : Settings} {d d' : Document} {id root x y c : NodeId} {name : Option String}
  {key : String} {keys : List String}

/-- The keywords of a schema have one spelling. -/
structure Spelled (d : Document) (id : NodeId) : Prop where
  identifier : (d.string? id "id").isSome = true → d.has id "$id" = true
  definitions : d.has id "definitions" = true → d.has id "$defs" = true
  extended : ∀ c, d.get? id "extends" = some c → ∃ first rest, d.node c = .array (first :: rest)

/-- An array schema has a least number of items. A schema for all items stands alone only if their
number is not bounded, and a greatest number is one that is kept, with no more positions than it
allows. -/
structure Measured (s : Settings) (d : Document) (id : NodeId) : Prop where
  least : d.has id "minItems" = true
  single : ∀ c, d.get? id "items" = some c → d.isObject c = true →
    d.bound? id "maxItems" = none ∧
    (d.bound? id "minItems" = none ∨ d.bound? id "minItems" = some 0)
  most : ∀ n, d.bound? id "maxItems" = some n → n ≤ tupleLimit ∧ (d.listAt id "items").length ≤ n
  kept : ∀ n, d.bound? id "maxItems" = some n → keepsMaximum s (d.leastItems id) n = true

/-- A schema in normal form. -/
structure InForm (s : Settings) (d : Document) (id : NodeId) : Prop extends Spelled d id where
  listed : d.has id "const" = true → d.has id "enum" = true
  description : ∀ text, d.string? id "description" = some text → Text.StaysOpen text.toList
  closed : d.describesObjects id = true → d.has id "patternProperties" = false →
    d.has id "additionalProperties" = true
  unmeasured : s.ignoreBounds = true → d.describesArrays id = true →
    d.has id "minItems" = false ∧ d.has id "maxItems" = false
  measured : s.ignoreBounds = false → d.describesArrays id = true → d.Measured s id

/-! ### Steps that leave a schema alone -/

section Transfer

variable (halters : d.Alters d' keys) (hd : d.Closed)
include halters hd

lemma Alters.hasType_eq (hget : d'.get? y "type" = d.get? x "type") (name : String) :
    d'.hasType y name = d.hasType x name := by
  have hstrings : d'.strings y "type" = d.strings x "type" := by
    rw [strings, strings, halters.listAt_eq hd hget]
    refine List.filterMap_congr fun item hitem => ?_
    rw [leafString?, leafString?, halters.leaf?_eq (hd.listAt_lt hitem)]
  rw [hasType, hasType, halters.string?_eq hd hget, hstrings]

lemma Alters.describesObjects_eq
    (hget : ∀ key ∈ ["type", "properties"], d'.get? id key = d.get? id key) :
    d'.describesObjects id = d.describesObjects id := by
  rw [describesObjects, describesObjects, has, has, hget "properties" (by simp),
    halters.hasType_eq hd (hget "type" (by simp))]

lemma Alters.describesArrays_eq (htype : d'.get? id "type" = d.get? id "type")
    (hitems : d'.has id "items" = d.has id "items") :
    d'.describesArrays id = d.describesArrays id := by
  rw [describesArrays, describesArrays, hitems, halters.hasType_eq hd htype]

variable (hget : ∀ key, d'.get? id key = d.get? id key)
include hget

omit hd halters in
lemma has_eq_of_get? (key : String) : d'.has id key = d.has id key := by
  rw [has, has, hget]

lemma Spelled.of_alters (h : d.Spelled id) : d'.Spelled id where
  identifier := by
    rw [halters.string?_eq hd (hget _), has_eq_of_get? hget]
    exact h.identifier
  definitions := by
    rw [has_eq_of_get? hget, has_eq_of_get? hget]
    exact h.definitions
  extended c hc := by
    rw [hget] at hc
    obtain ⟨first, rest, hnode⟩ := h.extended c hc
    refine ⟨first, rest, ?_⟩
    rw [halters.plain c (hd.get?_lt hc) (by rw [isObject, members?, hnode]; rfl), hnode]

lemma Measured.of_alters (h : d.Measured s id) : d'.Measured s id where
  least := by
    rw [has_eq_of_get? hget]
    exact h.least
  single c hc hobject := by
    rw [hget] at hc
    rw [halters.isObject_eq c (hd.get?_lt hc)] at hobject
    rw [halters.bound?_eq hd (hget _), halters.bound?_eq hd (hget _)]
    exact h.single c hc hobject
  most n hn := by
    rw [halters.bound?_eq hd (hget _)] at hn
    rw [halters.listAt_eq hd (hget _)]
    exact h.most n hn
  kept n hn := by
    rw [halters.bound?_eq hd (hget _)] at hn
    rw [halters.leastItems_eq hd (hget _)]
    exact h.kept n hn

/-- A schema stays in normal form when other schemas are changed. -/
lemma InForm.of_alters (h : d.InForm s id) : d'.InForm s id where
  toSpelled := h.toSpelled.of_alters halters hd hget
  listed := by
    rw [has_eq_of_get? hget, has_eq_of_get? hget]
    exact h.listed
  description := by
    rw [halters.string?_eq hd (hget _)]
    exact h.description
  closed := by
    rw [halters.describesObjects_eq hd fun key _ => hget key, has_eq_of_get? hget,
      has_eq_of_get? hget]
    exact h.closed
  unmeasured := by
    rw [halters.describesArrays_eq hd (hget _) (has_eq_of_get? hget _), has_eq_of_get? hget,
      has_eq_of_get? hget]
    exact h.unmeasured
  measured hs harrays := by
    rw [halters.describesArrays_eq hd (hget _) (has_eq_of_get? hget _)] at harrays
    exact (h.measured hs harrays).of_alters halters hd hget

end Transfer

/-! ### One turn -/

lemma has_of_isSome_string? (h : (d.string? id key).isSome = true) : d.has id key = true := by
  obtain ⟨text, htext⟩ := Option.isSome_iff_exists.mp h
  obtain ⟨c, hget⟩ := exists_get?_of_string? htext
  rw [has, hget, Option.isSome_some]

section Turns

variable (hd : d.Closed) (hobject : d.isObject id = true) (hdistinct : d.DistinctAt id)
include hobject hdistinct

/-- A renamed keyword is left only beside the new one. -/
lemma has_rename_of_has {source target : String} (hne : source ≠ target)
    (h : (d.rename id source target).has id source = true) :
    (d.rename id source target).has id target = true := by
  by_cases hcan : d.canRename id source target = true
  · obtain ⟨members, hnode⟩ := exists_members_of_isObject hobject
    have htarget : Keyed.get? members target = none := by
      rw [canRename, Bool.and_eq_true, has, has, get?_of_node hnode, get?_of_node hnode] at hcan
      simpa using hcan.2
    rw [DistinctAt, members?_of_node hnode] at hdistinct
    have hgone : Keyed.get? (Keyed.rename members source target) source = none :=
      (Keyed.Distinct.get?_rename hdistinct hne htarget).2
    rw [rename, if_pos hcan, has, get?_of_node (node_changeMembers hnode _), hgone] at h
    cases h
  · rw [rename, if_neg hcan] at h ⊢
    rw [canRename, h] at hcan
    simpa using hcan

include hd

lemma has_canonicalKeywords :
    (((d.canonicalKeywords id).string? id "id").isSome = true →
      (d.canonicalKeywords id).has id "$id" = true) ∧
    ((d.canonicalKeywords id).has id "definitions" = true →
      (d.canonicalKeywords id).has id "$defs" = true) := by
  have hlt := lt_size_of_isObject hobject
  -- The identifier comes first, and is left alone after that.
  have hfirst : ∃ d₁, d.canonicalKeywords id = d₁.rename id "definitions" "$defs" ∧ d₁.Closed ∧
      d.AltersAt d₁ id ["id", "$id"] ∧
      ((d₁.string? id "id").isSome = true → d₁.has id "$id" = true) := by
    rw [canonicalKeywords]
    split
    case isTrue =>
      exact ⟨_, rfl, (keeps_rename hd id _ _).closed, altersAt_rename d id _ _, fun h =>
        has_rename_of_has hobject hdistinct (by decide) (has_of_isSome_string? h)⟩
    case isFalse hnone => exact ⟨d, rfl, hd, .refl d id _, fun h => absurd h hnone⟩
  obtain ⟨d₁, hrun, hd₁, halters₁, hidentifier⟩ := hfirst
  have halters := altersAt_rename d₁ id "definitions" "$defs"
  have hget (key : String) (hkey : key ∉ ["definitions", "$defs"]) :=
    halters.get?_eq id (Nat.lt_of_lt_of_le hlt halters₁.size_le) key hkey
  rw [hrun]
  refine ⟨fun h => ?_, has_rename_of_has ((halters₁.isObject_eq id hlt).trans hobject)
    (halters₁.distinct id hlt hdistinct) (by decide)⟩
  rw [halters.string?_eq hd₁ (hget "id" (by simp))] at h
  rw [has, hget "$id" (by simp)]
  exact hidentifier h

omit hd in
lemma exists_first_wrapExtends (hc : (d.wrapExtends id).get? id "extends" = some c) :
    ∃ first rest, (d.wrapExtends id).node c = .array (first :: rest) := by
  rw [wrapExtends] at hc ⊢
  cases hget : d.get? id "extends" with
  | none =>
      rw [hget] at hc
      exact absurd (hget.symm.trans hc) (by simp)
  | some extended =>
      rw [hget] at hc
      dsimp only at hc ⊢
      cases hnode : d.node extended with
      | array items =>
          rw [items?, hnode] at hc ⊢
          cases items with
          | nil => exact absurd (hc.symm.trans (get?_erase_self hobject hdistinct)) (by simp)
          | cons first rest =>
              obtain rfl : extended = c := Option.some.inj (hget.symm.trans hc)
              exact ⟨first, rest, hnode⟩
      | leaf value =>
          rw [items?, hnode] at hc ⊢
          obtain ⟨hlist, hitems⟩ := get?_setList_self hobject "extends" [extended]
          obtain rfl : d.size = c := Option.some.inj (hlist.symm.trans hc)
          exact ⟨extended, [], hitems⟩
      | object members =>
          rw [items?, hnode] at hc ⊢
          obtain ⟨hlist, hitems⟩ := get?_setList_self hobject "extends" [extended]
          obtain rfl : d.size = c := Option.some.inj (hlist.symm.trans hc)
          exact ⟨extended, [], hitems⟩

/-- **One turn settles the spelling of a schema.** -/
lemma spelled_normalizeSpelling : (d.normalizeSpelling id).Spelled id := by
  have hlt := lt_size_of_isObject hobject
  have hd₁ := keeps_canonicalKeywords hd id
  have halters₁ := altersAt_canonicalKeywords d id
  have hlt₁ := Nat.lt_of_lt_of_le hlt hd₁.size_le
  have hobject₁ := (halters₁.isObject_eq id hlt).trans hobject
  have halters := altersAt_wrapExtends (d.canonicalKeywords id) id
  have hget (key : String) (hkey : key ∉ ["extends"]) := halters.get?_eq id hlt₁ key hkey
  obtain ⟨hidentifier, hdefinitions⟩ := has_canonicalKeywords hd hobject hdistinct
  refine ⟨?_, ?_, fun c hc =>
    exists_first_wrapExtends hobject₁ (halters₁.distinct id hlt hdistinct) hc⟩
  · rw [normalizeSpelling, halters.string?_eq hd₁.closed (hget "id" (by simp)), has,
      hget "$id" (by simp)]
    exact hidentifier
  · rw [normalizeSpelling, has, has, hget "definitions" (by simp), hget "$defs" (by simp)]
    exact hdefinitions

omit hd hdistinct in
lemma has_enum_constToEnum_of_const (h : (d.constToEnum id).has id "const" = true) :
    (d.constToEnum id).has id "enum" = true := by
  rw [has_enum_constToEnum hobject]
  rw [constToEnum] at h
  split at h
  case isTrue henum => rw [henum, Bool.true_or]
  case isFalse =>
    cases hconst : d.get? id "const" with
    | none =>
        rw [hconst] at h
        rw [h, Bool.or_true]
    | some value => simp [has, hconst]

omit hd hdistinct in
/-- The root gets an identifier if it is called something, and no identifier is lost. -/
lemma has_defaultRootId (name : Option String) :
    (d.defaultRootId id name).has id "$id" = (d.has id "$id" || name.any (!·.isEmpty)) := by
  cases name with
  | none => simp [defaultRootId]
  | some name =>
      rw [defaultRootId]
      split
      case isTrue hnamed =>
        rw [Bool.or_eq_true] at hnamed
        rcases hnamed with hempty | hhas
        · simp [hempty]
        · simp [hhas]
      case isFalse hnameless =>
        rw [Bool.or_eq_true, not_or] at hnameless
        have hhas : (d.setValue id "$id" (.string name)).has id "$id" = true :=
          has_setValue_self hobject
        simp [hhas, hnameless.1]

omit hd hdistinct in
lemma has_identifier_describe (s : Settings) (root : NodeId) (name : Option String) :
    (describe s root name d id).has id "$id"
      = (d.has id "$id" || (id == root && name.any (!·.isEmpty))) := by
  have hlt := lt_size_of_isObject hobject
  have halters₁ := altersAt_constToEnum d id
  have halters₂ := altersAt_escapeDescription (d.constToEnum id) id
  have hlt₁ := Nat.lt_of_lt_of_le hlt halters₁.size_le
  have hlt₂ := Nat.lt_of_lt_of_le hlt₁ halters₂.size_le
  have hstart : ((d.constToEnum id).escapeDescription id).has id "$id" = d.has id "$id" := by
    rw [has, halters₂.get?_eq id hlt₁ _ (by simp), halters₁.get?_eq id hlt _ (by simp), has]
  have hobject₂ : ((d.constToEnum id).escapeDescription id).isObject id = true := by
    rw [halters₂.isObject_eq id hlt₁, halters₁.isObject_eq id hlt, hobject]
  have hmore {d₃ : Document} (hlt₃ : id < d₃.size) :
      (defaultAdditionalProperties s d₃ id).has id "$id" = d₃.has id "$id" := by
    rw [has, (altersAt_defaultAdditionalProperties s d₃ id).get?_eq id hlt₃ _ (by simp), has]
  rw [describe, ← hstart]
  cases hroot : id == root with
  | false => simp [hmore hlt₂]
  | true =>
      have halters₃ := altersAt_defaultRootId ((d.constToEnum id).escapeDescription id) id name
      simp [hmore (Nat.lt_of_lt_of_le hlt₂ halters₃.size_le), has_defaultRootId hobject₂]

omit hd hdistinct in
/-- Object schemas say whether they accept further properties. -/
lemma has_defaultAdditionalProperties (s : Settings)
    (hobjects : (defaultAdditionalProperties s d id).describesObjects id = true)
    (hpatterns : (defaultAdditionalProperties s d id).has id "patternProperties" = false) :
    (defaultAdditionalProperties s d id).has id "additionalProperties" = true := by
  rw [defaultAdditionalProperties] at hobjects hpatterns ⊢
  split
  case isTrue => exact has_setValue_self hobject
  case isFalse hsaid =>
    rw [if_neg hsaid] at hobjects hpatterns
    simpa [hobjects, hpatterns] using hsaid

omit hd hobject hdistinct in
/-- Positions are left as they are, and then there are no bounds for a schema for all items; or they
are listed anew. -/
lemma expandItems_cases (d : Document) (id : NodeId) (least : Nat) (most : Option Nat) :
    (d.expandItems id least most = d ∧
      ∀ c, d.get? id "items" = some c → d.isObject c = true → most = none ∧ least = 0) ∨
    d.has id "items" = true ∧ ∃ l, d.expandItems id least most = d.setList id "items" l ∨
      ∃ c, d.expandItems id least most = (d.setList id "items" l).set id "additionalItems" c := by
  rw [expandItems]
  cases hget : d.get? id "items" with
  | none => exact .inl ⟨rfl, fun c hc => by cases hc⟩
  | some items =>
      have hhas : d.has id "items" = true := by rw [has, hget, Option.isSome_some]
      dsimp only
      cases hnode : d.node items with
      | leaf value =>
          refine .inl ⟨rfl, fun c hc hobject => ?_⟩
          obtain rfl := Option.some.inj hc
          rw [isObject, members?, hnode] at hobject
          cases hobject
      | object members =>
          dsimp only
          split
          · refine .inr ⟨hhas, List.replicate (max (most.getD 0) least) items, ?_⟩
            split
            · exact .inr ⟨items, rfl⟩
            · exact .inl rfl
          case isFalse hbounds => exact .inl ⟨rfl, fun _ _ _ => by simpa using hbounds⟩
      | array l =>
          have hlist (c : NodeId) (hc : some items = some c) (hobject : d.isObject c = true) :
              most = none ∧ least = 0 := by
            obtain rfl := Option.some.inj hc
            rw [isObject, members?, hnode] at hobject
            cases hobject
          dsimp only
          split
          · split
            · exact .inr ⟨hhas, _, .inl rfl⟩
            · exact .inl ⟨rfl, hlist⟩
          · exact .inl ⟨rfl, hlist⟩

omit hd hdistinct in
/-- Positions that are listed anew stand in a new list. -/
lemma get?_items_of_listed {l : List NodeId} (hrun : d' = d.setList id "items" l ∨
    ∃ c, d' = (d.setList id "items" l).set id "additionalItems" c) :
    d'.get? id "items" = some d.size ∧ d'.isObject d.size = false := by
  have hget := (get?_setList_self hobject "items" l).1
  have hfresh : d.isObject d.size = false := by
    rw [← Bool.not_eq_true]
    exact fun h => Nat.lt_irrefl _ (lt_size_of_isObject h)
  rcases hrun with rfl | ⟨c, rfl⟩
  · exact ⟨hget, by rw [isObject_setList, hfresh]⟩
  · refine ⟨?_, by rw [isObject_set, isObject_setList, hfresh]⟩
    rw [(altersAt_set _ id "additionalItems" c).get?_eq id (Nat.lt_of_lt_of_le
      (lt_size_of_isObject hobject) (altersAt_setList d id _ _).size_le) _ (by simp), hget]

omit hd hdistinct in
lemma has_items_expandItems (least : Nat) (most : Option Nat) :
    (d.expandItems id least most).has id "items" = d.has id "items" := by
  rcases expandItems_cases d id least most with ⟨hrun, -⟩ | ⟨hhas, l, hrun⟩
  · rw [hrun]
  · rw [has, (get?_items_of_listed hobject hrun).1, hhas, Option.isSome_some]

omit hd hdistinct in
/-- A schema for all items stands alone only if there are no bounds. -/
lemma unbounded_of_expandItems {least : Nat} {most : Option Nat}
    (hget : (d.expandItems id least most).get? id "items" = some c)
    (hsingle : (d.expandItems id least most).isObject c = true) : most = none ∧ least = 0 := by
  rcases expandItems_cases d id least most with ⟨hrun, hbounds⟩ | ⟨-, l, hrun⟩
  · rw [hrun] at hget hsingle
    exact hbounds c hget hsingle
  · obtain ⟨hget', hlist⟩ := get?_items_of_listed hobject hrun
    obtain rfl : d.size = c := Option.some.inj (hget'.symm.trans hget)
    rw [hlist] at hsingle
    cases hsingle

lemma has_items_boundArrays (s : Settings) (hlimit : d.leastItems id ≤ tupleLimit) :
    (boundArrays s d id).has id "items" = d.has id "items" := by
  have hlt := lt_size_of_isObject hobject
  cases harrays : d.describesArrays id with
  | false =>
      rw [boundArrays, harrays]
      rfl
  | true =>
      cases hs : s.ignoreBounds with
      | true =>
          have herase := altersAt_erase d id "minItems"
          have hrun : boundArrays s d id = (d.erase id "minItems").erase id "maxItems" := by
            rw [boundArrays, harrays, hs]
            rfl
          have hlt' := Nat.lt_of_lt_of_le hlt herase.size_le
          rw [hrun, has, (altersAt_erase _ id _).get?_eq id hlt' _ (by simp),
            herase.get?_eq id hlt _ (by simp), has]
      | false =>
          obtain ⟨d₂, hrun, halters, -⟩ :=
            exists_expandItems_eq hd hobject hdistinct harrays hs hlimit
          rw [hrun, has_items_expandItems ((halters.isObject_eq id hlt).trans hobject), has,
            halters.get?_eq id hlt _ (by simp), has]

omit hd in
/-- Bounds that are ignored are taken out. -/
lemma unmeasured_boundArrays (harrays : d.describesArrays id = true) (hs : s.ignoreBounds = true) :
    (boundArrays s d id).has id "minItems" = false ∧
      (boundArrays s d id).has id "maxItems" = false := by
  have hlt := lt_size_of_isObject hobject
  have herase := altersAt_erase d id "minItems"
  have hrun : boundArrays s d id = (d.erase id "minItems").erase id "maxItems" := by
    rw [boundArrays, harrays, hs]
    rfl
  rw [hrun]
  constructor
  · rw [has, (altersAt_erase _ id _).get?_eq id (Nat.lt_of_lt_of_le hlt herase.size_le) _ (by simp),
      get?_erase_self hobject hdistinct, Option.isSome_none]
  · rw [has, get?_erase_self (isObject_erase.trans hobject) (herase.distinct id hlt hdistinct),
      Option.isSome_none]

/-- **One turn measures an array schema**, if its bounds are in order. -/
lemma measured_boundArrays (harrays : d.describesArrays id = true) (hs : s.ignoreBounds = false)
    (hlimit : d.leastItems id ≤ tupleLimit)
    (hle : ∀ n, d.bound? id "maxItems" = some n → d.leastItems id ≤ n) :
    (boundArrays s d id).Measured s id := by
  have hlt := lt_size_of_isObject hobject
  obtain ⟨d₂, hrun, halters, hd₂, hleast, hmost, hhas⟩ :=
    exists_expandItems_eq hd hobject hdistinct harrays hs hlimit
  have hobject₂ := (halters.isObject_eq id hlt).trans hobject
  have hexpand := altersAt_expandItems d₂ id (d.leastItems id) (d.mostItems s id)
  have hget (key : String) (hkey : key ∉ ["items", "additionalItems"]) :=
    hexpand.get?_eq id (lt_size_of_isObject hobject₂) key hkey
  have hmost' := (hexpand.bound?_eq hd₂ (hget "maxItems" (by simp))).trans hmost
  have hleast' := (hexpand.leastItems_eq hd₂ (hget "minItems" (by simp))).trans hleast
  rw [hrun]
  refine ⟨?_, fun c hc hsingle => ?_, fun n hn => ?_, fun n hn => ?_⟩
  · rw [has, hget _ (by simp), ← has, hhas]
  · obtain ⟨hnone, hzero⟩ := unbounded_of_expandItems hobject₂ hc hsingle
    refine ⟨hmost'.trans hnone, ?_⟩
    have hzero' : ((d₂.expandItems id (d.leastItems id) (d.mostItems s id)).bound? id
        "minItems").getD 0 = 0 := hleast'.trans hzero
    cases hmin : (d₂.expandItems id (d.leastItems id) (d.mostItems s id)).bound? id "minItems" with
    | none => exact .inl rfl
    | some n =>
        rw [hmin] at hzero'
        exact .inr (congrArg some hzero')
  · have hkept := hmost'.symm.trans hn
    obtain ⟨hbound, -, hn'⟩ := mostItems_eq_some_iff.mp hkept
    refine ⟨hn', ?_⟩
    rw [hkept]
    exact (positions_expandItems hobject₂ (hle n hbound)).1
  · rw [hleast']
    exact (Option.filter_eq_some_iff.mp (hmost'.symm.trans hn)).2

omit hd hdistinct in
lemma exists_describe_eq (s : Settings) (root : NodeId) (name : Option String) :
    ∃ d₃, describe s root name d id = defaultAdditionalProperties s d₃ id ∧
      d₃.isObject id = true := by
  have hlt := lt_size_of_isObject hobject
  have hconst := altersAt_constToEnum d id
  have hescape := altersAt_escapeDescription (d.constToEnum id) id
  have hlt₁ := Nat.lt_of_lt_of_le hlt hconst.size_le
  have hobject₂ : ((d.constToEnum id).escapeDescription id).isObject id = true := by
    rw [hescape.isObject_eq id hlt₁, hconst.isObject_eq id hlt, hobject]
  rw [describe]
  split
  · exact ⟨_, rfl, ((altersAt_defaultRootId _ id name).isObject_eq id
      (Nat.lt_of_lt_of_le hlt₁ hescape.size_le)).trans hobject₂⟩
  · exact ⟨_, rfl, hobject₂⟩

omit hdistinct in
/-- The contents have no say in the spelling. -/
lemma Spelled.normalizeContents (h : d.Spelled id) (s : Settings) (root : NodeId)
    (name : Option String) : (normalizeContents s root name d id).Spelled id := by
  have hlt := lt_size_of_isObject hobject
  have halters := altersAt_normalizeContents s root name d id
  have hget (key : String) (hkey : key ∉ contentsKeys ++ boundKeys) :=
    halters.get?_eq id hlt key hkey
  have hkeeps := keeps_describe hd hlt s root name
  refine ⟨fun hidentifier => ?_, ?_, fun c hc => ?_⟩
  · rw [halters.string?_eq hd (hget "id" (by decide))] at hidentifier
    rw [normalizeContents_eq, has, (altersAt_boundArrays s _ id).get?_eq id
      (Nat.lt_of_lt_of_le hlt hkeeps.size_le) _ (by decide), ← has, has_identifier_describe hobject,
      h.identifier hidentifier, Bool.true_or]
  · rw [has, has, hget "definitions" (by decide), hget "$defs" (by decide)]
    exact h.definitions
  · rw [hget "extends" (by decide)] at hc
    obtain ⟨first, rest, hnode⟩ := h.extended c hc
    refine ⟨first, rest, ?_⟩
    rw [halters.plain c (hd.get?_lt hc) (by rw [isObject, members?, hnode]; rfl), hnode]

omit hdistinct in
lemma has_enum_normalizeContents_of_const
    (h : (normalizeContents s root name d id).has id "const" = true) :
    (normalizeContents s root name d id).has id "enum" = true := by
  have hlt := Nat.lt_of_lt_of_le (lt_size_of_isObject hobject) (altersAt_constToEnum d id).size_le
  have hescape := altersAt_escapeDescription (d.constToEnum id) id
  obtain ⟨-, hescaped⟩ := altersAt_contents_escaped hd hobject s root name
  have hsame (key : String) (hkey : key ∈ ["const", "enum"]) :
      (normalizeContents s root name d id).has id key = (d.constToEnum id).has id key := by
    rw [has, hescaped.get?_eq id (Nat.lt_of_lt_of_le hlt hescape.size_le) key
      (by revert key; decide), hescape.get?_eq id hlt key (by revert key; decide), has]
  rw [hsame _ (by simp)] at h ⊢
  exact has_enum_constToEnum_of_const hobject h

/-- **One turn brings a schema to normal form**, if it is spelled as it should be and its bounds are
in order. -/
lemma inForm_normalizeContents (hspelled : d.Spelled id) (hlimit : d.leastItems id ≤ tupleLimit)
    (hle : ∀ n, d.bound? id "maxItems" = some n → d.leastItems id ≤ n) (s : Settings)
    (root : NodeId) (name : Option String) : (normalizeContents s root name d id).InForm s id := by
  have hlt := lt_size_of_isObject hobject
  have halters₁ := altersAt_describe s root name d id
  have hd₁ := (keeps_describe hd hlt s root name).closed
  have hlt₁ := Nat.lt_of_lt_of_le hlt halters₁.size_le
  have hobject₁ := (halters₁.isObject_eq id hlt).trans hobject
  have hdistinct₁ := halters₁.distinct id hlt hdistinct
  have hleast := halters₁.leastItems_eq hd (halters₁.get?_eq id hlt "minItems" (by decide))
  have hmost := halters₁.bound?_eq hd (halters₁.get?_eq id hlt "maxItems" (by decide))
  -- Bounds are looked at last, and what is said about other things stays.
  have halters₂ := altersAt_boundArrays s (describe s root name d id) id
  have hget₂ (key : String) (hkey : key ∉ boundKeys) := halters₂.get?_eq id hlt₁ key hkey
  have harrays : (boundArrays s (describe s root name d id) id).describesArrays id
      = (describe s root name d id).describesArrays id :=
    halters₂.describesArrays_eq hd₁ (hget₂ "type" (by decide))
      (has_items_boundArrays hd₁ hobject₁ hdistinct₁ s (hleast ▸ hlimit))
  refine ⟨hspelled.normalizeContents hd hobject s root name,
    has_enum_normalizeContents_of_const hd hobject, fun text htext => ?_, ?_, fun hs h => ?_,
    fun hs h => ?_⟩
  · rw [string?_normalizeContents hd hobject] at htext
    obtain ⟨plain, -, rfl⟩ := Option.map_eq_some_iff.mp htext
    exact staysOpen_escapedText plain
  · rw [normalizeContents_eq, has, has, hget₂ "patternProperties" (by decide),
      hget₂ "additionalProperties" (by decide), ← has, ← has,
      halters₂.describesObjects_eq hd₁ fun key hkey => hget₂ key (by revert key; decide)]
    obtain ⟨d₃, hrun, hobject₃⟩ := exists_describe_eq hobject s root name
    rw [hrun]
    exact has_defaultAdditionalProperties hobject₃ s
  · rw [normalizeContents_eq] at h ⊢
    exact unmeasured_boundArrays hobject₁ hdistinct₁ (harrays.symm.trans h) hs
  · rw [normalizeContents_eq] at h ⊢
    refine measured_boundArrays hd₁ hobject₁ hdistinct₁ (harrays.symm.trans h) hs
      (hleast ▸ hlimit) fun n hn => ?_
    rw [hmost] at hn
    exact hleast ▸ hle n hn

end Turns

/-! ### A second turn -/

lemma setNode_self (d : Document) (id : NodeId) : d.setNode id (d.node id) = d := by
  have hslots : (d.slots.modify id fun slot => { slot with node := d.node id }) = d.slots := by
    refine Array.ext_getElem? fun i => ?_
    rw [Array.getElem?_modify]
    split
    case isTrue h =>
      subst h
      cases hslot : d.slots[id]? with
      | none => rfl
      | some slot => rw [Option.map_some, node, hslot]
    case isFalse => rfl
  rw [setNode, hslots]

/-- An object whose members stay the same is left as it is. -/
lemma changeMembers_eq_self {f : Keyed NodeId → Keyed NodeId}
    (h : ∀ members, d.node id = .object members → f members = members) :
    d.changeMembers id f = d := by
  rw [changeMembers]
  split
  case h_1 members hnode => rw [h members hnode, ← hnode, setNode_self]
  case h_2 => rfl

lemma erase_of_not_has (h : d.has id key = false) : d.erase id key = d := by
  refine changeMembers_eq_self fun members hnode => Keyed.erase_of_get?_eq_none ?_
  rw [has, get?_of_node hnode] at h
  simpa using h

lemma rename_of_has {source target : String} (h : d.has id source = true → d.has id target = true) :
    d.rename id source target = d := by
  have hcan : d.canRename id source target = false := by
    rw [canRename]
    cases hsource : d.has id source with
    | false => rfl
    | true => rw [h hsource]; rfl
  rw [rename, if_neg (by simp [hcan])]

/-- **A turn changes nothing about a schema that is spelled as it should be.** -/
lemma normalizeSpelling_of_spelled (h : d.Spelled id) : d.normalizeSpelling id = d := by
  have hkeywords : d.canonicalKeywords id = d := by
    rw [canonicalKeywords]
    split
    case isTrue hidentifier =>
      have hsame : d.rename id "id" "$id" = d := rename_of_has fun _ => h.identifier hidentifier
      rw [hsame, rename_of_has h.definitions]
    case isFalse => exact rename_of_has h.definitions
  rw [normalizeSpelling, hkeywords, wrapExtends]
  cases hget : d.get? id "extends" with
  | none => rfl
  | some extended =>
      obtain ⟨first, rest, hnode⟩ := h.extended extended hget
      simp [items?, hnode]

lemma constToEnum_of_listed (h : d.has id "const" = true → d.has id "enum" = true) :
    d.constToEnum id = d := by
  rw [constToEnum]
  split
  case isTrue => rfl
  case isFalse henum =>
    cases hget : d.get? id "const" with
    | none => rfl
    | some value => exact absurd (h (by rw [has, hget, Option.isSome_some])) henum

lemma escapeDescription_of_staysOpen
    (h : ∀ text, d.string? id "description" = some text → Text.StaysOpen text.toList) :
    d.escapeDescription id = d := by
  rw [escapeDescription]
  cases htext : d.string? id "description" with
  | none => rfl
  | some text => simp [Text.replacePair_of_staysOpen (h text htext)]

/-- There is nothing to write out in an array schema that is measured. -/
lemma expandItems_of_measured (h : d.Measured s id) :
    d.expandItems id (d.leastItems id) (d.bound? id "maxItems") = d := by
  rw [expandItems]
  cases hget : d.get? id "items" with
  | none => rfl
  | some items =>
      dsimp only
      cases hnode : d.node items with
      | leaf value => rfl
      | object members =>
          obtain ⟨hmost, hleast⟩ := h.single items hget (by rw [isObject, members?, hnode]; rfl)
          have hzero : d.leastItems id = 0 := by
            rw [leastItems]
            rcases hleast with hnone | hzero
            · rw [hnone, Option.getD_none]
            · rw [hzero, Option.getD_some]
          simp [hmost, hzero]
      | array l =>
          cases hmost : d.bound? id "maxItems" with
          | none => rfl
          | some n =>
              have hlength : l.length ≤ n := by
                have hle := (h.most n hmost).2
                rw [listAt, hget, Option.bind_some, items?, hnode] at hle
                exact hle
              simp [Nat.not_lt.mpr hlength]

lemma boundArrays_of_measured (h : d.Measured s id) (harrays : d.describesArrays id = true)
    (hs : s.ignoreBounds = false) : boundArrays s d id = d := by
  have hmost : d.mostItems s id = d.bound? id "maxItems" := by
    rw [mostItems]
    cases hbound : d.bound? id "maxItems" with
    | none => rfl
    | some n => rw [Option.filter_some, if_pos (h.kept n hbound)]
  have hwithLeast : d.withLeast id = d := if_pos h.least
  have hwithMost : d.withMost id (d.bound? id "maxItems") = d := by
    rw [withMost]
    cases d.bound? id "maxItems" <;> rfl
  rw [boundArrays_eq harrays hs, hwithLeast, hmost, hwithMost, expandItems_of_measured h, ite_self]

/-- **A turn changes nothing about a schema in normal form**, unless it is the root, called
something, and has no identifier. -/
lemma normalizeContents_of_inForm (h : d.InForm s id)
    (hroot : id = root → name.any (!·.isEmpty) = true → d.has id "$id" = true) :
    normalizeContents s root name d id = d := by
  have hidentifier (hid : id = root) : d.defaultRootId id name = d := by
    cases name with
    | none => rfl
    | some text =>
        rw [defaultRootId]
        cases hempty : text.isEmpty with
        | true => rfl
        | false => rw [hroot hid (by simp [hempty])]; rfl
  have hmore : defaultAdditionalProperties s d id = d := by
    rw [defaultAdditionalProperties]
    split
    case isTrue hsilent =>
      simp only [Bool.and_eq_true, Bool.not_eq_true'] at hsilent
      rw [h.closed hsilent.1.1 hsilent.2] at hsilent
      cases hsilent.1.2
    case isFalse => rfl
  have hbounds : boundArrays s d id = d := by
    cases harrays : d.describesArrays id with
    | false =>
        rw [boundArrays, harrays]
        rfl
    | true =>
        cases hs : s.ignoreBounds with
        | true =>
            obtain ⟨hleast, hmost⟩ := h.unmeasured hs harrays
            rw [boundArrays, harrays, hs]
            simp [erase_of_not_has hleast, erase_of_not_has hmost]
        | false => exact boundArrays_of_measured (h.measured hs harrays) harrays hs
  rw [normalizeContents, constToEnum_of_listed h.listed,
    escapeDescription_of_staysOpen h.description]
  split
  case isTrue hid => rw [hidentifier (beq_iff_eq.mp hid), hmore, hbounds]
  case isFalse => rw [hmore, hbounds]

/-! ### All turns -/

section Normal

variable (hd : d.Closed) (hdistinct : d.Distinct)
include hd hdistinct

/-- Every schema that is found at the start is spelled as it should be when all have had their
turn. -/
lemma spelled_respelled (hid : id ∈ d.schemaIds root) : (d.respelled root).Spelled id := by
  obtain ⟨d₂, hbefore, hclosed, hnode, hafter, hclosed', hnode'⟩ :=
    exists_step altersAt_normalizeSpelling (fun _ _ hd hlt => keeps_normalizeSpelling hd hlt) hd
      (nodup_schemaIds d root) (fun _ => lt_size_of_mem_schemaIds) hid
  have hobject := isObject_schema hid
  have hlt := lt_size_of_isObject hobject
  have hstep := spelled_normalizeSpelling hclosed ((hbefore.isObject_eq id hlt).trans hobject)
    (hbefore.distinct id hlt (hdistinct id))
  refine hstep.of_alters hafter hclosed' fun key => ?_
  rw [get?, get?, members?, members?, respelled, hnode']

/-- A schema that is found after the first round and follows the rules is in normal form in the
end. -/
lemma inForm_normalize (s : Settings) (name : Option String) {source : String}
    (hvalid : d.violations root source = []) (hid : id ∈ (d.respelled root).schemaIds root) :
    (d.normalize s root name).InForm s id := by
  have hstart := (thins_respelled hd hdistinct root).mem_schemaIds hid
  have hrules := check_ne_violated hvalid hstart
  obtain ⟨d₂, hturn, hobject, hobject₂⟩ := exists_turn_isObject hd hdistinct name hid s
  have hlt := lt_size_of_isObject hobject
  have hspelled : d₂.Spelled id := (spelled_respelled hd hdistinct hstart).of_alters hturn.before
    (keeps_respelled hd root).closed hturn.get?_eq
  have hleast := hturn.start.leastItems_eq hd (hturn.get?_eq_start hlt (by decide))
  have hmost : d₂.bound? id "maxItems" = d.bound? id "maxItems" :=
    hturn.start.bound?_eq hd (hturn.get?_eq_start hlt (by decide))
  have hstep :=
    inForm_normalizeContents hturn.closed hobject₂ (hturn.start.distinct id hlt (hdistinct id))
    hspelled (hleast ▸ leastItems_le_limit hrules)
    (fun n hn => hleast ▸ leastItems_le_of_bound? hrules (hmost ▸ hn)) s root name
  exact hstep.of_alters hturn.after hturn.closed_step hturn.get?_eq_after

/-- The root has an identifier in the end, if it is called something. -/
lemma has_identifier_normalize (s : Settings) (hroot : root ∈ (d.respelled root).schemaIds root)
    (hname : name.any (!·.isEmpty) = true) : (d.normalize s root name).has root "$id" = true := by
  obtain ⟨d₂, hturn, -, hobject₂⟩ := exists_turn_isObject hd hdistinct name hroot s
  have halters := altersAt_describe s root name d₂ root
  have hlt := Nat.lt_of_lt_of_le (lt_size_of_isObject hobject₂) halters.size_le
  rw [has, hturn.get?_eq_after, normalizeContents_eq,
    (altersAt_boundArrays s _ root).get?_eq root hlt _ (by decide), ← has,
    has_identifier_describe hobject₂, hname, beq_self_eq_true, Bool.and_self, Bool.or_true]

end Normal

/-- **All schemas are in normal form.** In the normal form of a document that follows the rules,
every schema at a schema position is in normal form, and it stood at a schema position before: when
the rules were checked, and when the contents of schemas were looked at. -/
theorem normalize_establishes (s : Settings) (d : Document) (root : NodeId) (name : Option String)
    (source : String) (hd : d.Closed) (hdistinct : d.Distinct)
    (hvalid : d.violations root source = []) (id : NodeId)
    (hid : id ∈ (d.normalize s root name).schemaIds root) :
    (d.normalize s root name).InForm s id ∧
      id ∈ (d.respelled root).schemaIds root ∧ id ∈ d.schemaIds root := by
  have hstill := (thins_normalize hd hdistinct s root name).mem_schemaIds hid
  exact ⟨inForm_normalize hd hdistinct s name hvalid hstill, hstill,
    (thins_respelled hd hdistinct root).mem_schemaIds hstill⟩

/-- A schema that is the schema of its own items, with the old spelling of keywords, a single schema
that it extends, and a description that would end a comment. -/
def unkemptDocument : Document :=
  ⟨#[⟨.object [("id", 1), ("definitions", 2), ("extends", 5), ("description", 7), ("items", 0),
      ("minItems", 8)], .root⟩,
    ⟨.leaf (.string "a"), .under 0⟩, ⟨.object [("D", 3)], .under 0⟩,
    ⟨.object [("const", 4)], .under 2⟩, ⟨.leaf (.number (.int 3)), .under 3⟩,
    ⟨.object [("type", 6)], .under 0⟩,
    ⟨.leaf (.string "object"), .under 5⟩, ⟨.leaf (.string "a */ b"), .under 0⟩,
    ⟨.leaf (.number (.int 2)), .under 0⟩]⟩

/-- The schema and the two below it are in normal form. -/
theorem normalize_establishes_unkempt :
    unkemptDocument.Closed ∧ unkemptDocument.Distinct ∧ unkemptDocument.violations 0 "" = [] ∧
    (unkemptDocument.normalize {} 0 (some "Root")).schemaIds 0 = [0, 5, 3] ∧
    ∀ id ∈ [0, 5, 3], (unkemptDocument.normalize {} 0 (some "Root")).InForm {} id := by
  have hclosed : unkemptDocument.Closed := by decide
  have hdistinct : unkemptDocument.Distinct := by decide
  have hvalid : unkemptDocument.violations 0 "" = [] := by decide +kernel
  have hids : (unkemptDocument.normalize {} 0 (some "Root")).schemaIds 0 = [0, 5, 3] := by
    decide +kernel
  refine ⟨hclosed, hdistinct, hvalid, hids, fun id hid => ?_⟩
  exact (normalize_establishes {} unkemptDocument 0 (some "Root") "" hclosed hdistinct hvalid id
    (hids ▸ hid)).1

/-- Steps that change nothing. -/
lemma foldl_eq_self {f : Document → NodeId → Document} {ids : List NodeId}
    (h : ∀ id ∈ ids, f d id = d) : ids.foldl f d = d := by
  induction ids with
  | nil => rfl
  | cons id ids ih =>
      rw [List.foldl_cons, h id List.mem_cons_self]
      exact ih fun id' hid' => h id' (List.mem_cons_of_mem _ hid')

/-- **A second round changes nothing.** Bringing the schemas of a document that follows the rules to
normal form once more leaves every node as it is, and adds none. -/
theorem normalize_normalize (s : Settings) (d : Document) (root : NodeId) (name : Option String)
    (source : String) (hd : d.Closed) (hdistinct : d.Distinct)
    (hvalid : d.violations root source = []) :
    (d.normalize s root name).normalize s root name = d.normalize s root name := by
  have hthins := thins_normalize hd hdistinct s root name
  have hform (id : NodeId) (hid : id ∈ (d.normalize s root name).schemaIds root) :
      (d.normalize s root name).InForm s id :=
    inForm_normalize hd hdistinct s name hvalid (hthins.mem_schemaIds hid)
  have hspelling : (d.normalize s root name).respelled root = d.normalize s root name :=
    foldl_eq_self fun id hid => normalizeSpelling_of_spelled (hform id hid).toSpelled
  rw [normalize_eq s (d.normalize s root name), hspelling]
  refine foldl_eq_self fun id hid => normalizeContents_of_inForm (hform id hid) ?_
  rintro rfl hname
  exact has_identifier_normalize hd hdistinct s (hthins.mem_schemaIds hid) hname

/-- The first round adds nodes, and the second none. -/
theorem normalize_normalize_unkempt :
    unkemptDocument.Closed ∧ unkemptDocument.Distinct ∧ unkemptDocument.violations 0 "" = [] ∧
    unkemptDocument.size < (unkemptDocument.normalize {} 0 (some "Root")).size ∧
    (unkemptDocument.normalize {} 0 (some "Root")).normalize {} 0 (some "Root")
      = unkemptDocument.normalize {} 0 (some "Root") := by
  have hclosed : unkemptDocument.Closed := by decide
  have hdistinct : unkemptDocument.Distinct := by decide
  have hvalid : unkemptDocument.violations 0 "" = [] := by decide +kernel
  exact ⟨hclosed, hdistinct, hvalid, by decide +kernel,
    normalize_normalize {} unkemptDocument 0 (some "Root") "" hclosed hdistinct hvalid⟩

end SchemaDecl.Document
