/-
Bounds of array schemas in the normal form.

An array schema whose items are described by one schema, or by none, comes out of the normal form
with as many positions as its bounds ask for. The step that does so looks at one schema; whatever
the other steps do, they leave it as it is.

* `Document.leastItems`, `Document.mostItems`: the bounds of a schema, as far as they are kept.
* `Document.IsArraySchema`: the array schemas that are looked at.
* `Document.Bounded`: the normal form of such a schema.
* `Document.bounded_boundArrays`, `Document.bounded_normalize`: a step, and all steps, lead to it.
-/
import SchemaDecl.Proofs.Document.Alteration
import SchemaDecl.Proofs.Document.Reading

namespace SchemaDecl

/-! ### Rules about bounds -/

lemma Verdict.ofBool_ne_violated {ok : Bool} : Verdict.ofBool ok ≠ .violated ↔ ok = true := by
  cases ok <;> simp [ofBool]

lemma Rule.mem_all (rule : Rule) : rule ∈ Rule.all := by cases rule <;> decide

/-- Bounds as counts are ordered as the numbers are. -/
lemma Json.Double.toBound_le_of_le {x y : Json.Double} (h : x.le y = true) :
    x.toBound ≤ y.toBound := by
  obtain ⟨xneg, xunits⟩ := x
  obtain ⟨yneg, yunits⟩ := y
  rw [Json.Double.le, decide_eq_true_eq, toUnits, toUnits] at h
  rw [toBound, toBound]
  cases xneg with
  | true => exact Nat.zero_le _
  | false =>
      cases yneg with
      | true =>
          -- A number that is not below zero and not above a negative one is zero.
          have hzero : xunits = 0 := by
            simp only [Bool.false_eq_true, if_false, if_true] at h
            omega
          simp [hzero]
      | false =>
          have hle : xunits ≤ yunits := by
            simp only [Bool.false_eq_true, if_false] at h
            omega
          have hdiv : xunits / one ≤ yunits / one := Nat.div_le_div_right hle
          simp only [Bool.false_eq_true, if_false]
          omega

namespace Document

variable {s : Settings} {d d' : Document} {id id' root c : NodeId} {key : String}
  {keys : List String} {least : Nat} {most : Option Nat}

/-- The least number of items, or none. -/
def leastItems (d : Document) (id : NodeId) : Nat := (d.bound? id "minItems").getD 0

/-- The greatest number of items, if it is kept. -/
def mostItems (s : Settings) (d : Document) (id : NodeId) : Option Nat :=
  (d.bound? id "maxItems").filter (keepsMaximum s (d.leastItems id))

lemma mostItems_eq_some_iff {n : Nat} : d.mostItems s id = some n ↔
    d.bound? id "maxItems" = some n ∧
      (∀ ceiling, s.ceiling? = some ceiling → n - d.leastItems id ≤ ceiling) ∧ n ≤ tupleLimit := by
  rw [mostItems, Option.filter_eq_some_iff, keepsMaximum, Bool.and_eq_true, decide_eq_true_eq]
  cases s.ceiling? <;> simp

/-- A schema of a document that follows the rules follows each of them. -/
lemma check_ne_violated {source : String} (h : d.violations root source = [])
    (hid : id ∈ d.schemaIds root) (rule : Rule) : rule.check d id ≠ .violated := by
  obtain ⟨e, he, rfl⟩ := List.mem_map.mp hid
  have hnone : d.violatedAt e.2 = [] := List.map_eq_nil_iff.mp (List.flatMap_eq_nil_iff.mp h e he)
  simpa using List.filter_eq_nil_iff.mp hnone rule rule.mem_all

lemma bound?_eq_some_iff {n : Nat} :
    d.bound? id key = some n ↔ ∃ x, d.double? id key = some x ∧ x.toBound = n :=
  Option.map_eq_some_iff

section Rules

variable (h : ∀ rule : Rule, rule.check d id ≠ .violated)
include h

lemma leastItems_le_limit : d.leastItems id ≤ tupleLimit := by
  have hrule := h .minItemsWithinLimit
  rw [Rule.check, Rule.ofNumber] at hrule
  rw [leastItems, bound?]
  cases hleast : d.double? id "minItems" with
  | none => exact Nat.zero_le _
  | some x =>
      rw [hleast] at hrule
      have hle := Json.Double.toBound_le_of_le (Verdict.ofBool_ne_violated.mp hrule)
      have hlimit : (Json.Double.ofInt tupleLimit).toBound = tupleLimit := by decide +kernel
      exact hle.trans_eq hlimit

lemma leastItems_le_of_bound? {n : Nat} (hn : d.bound? id "maxItems" = some n) :
    d.leastItems id ≤ n := by
  have hrule := h .maxItemsAtLeastMinItems
  obtain ⟨y, hmost, rfl⟩ := bound?_eq_some_iff.mp hn
  rw [Rule.check, hmost] at hrule
  rw [leastItems, bound?]
  cases hleast : d.double? id "minItems" with
  | none => exact Nat.zero_le _
  | some x =>
      rw [hleast] at hrule
      exact Json.Double.toBound_le_of_le (Verdict.ofBool_ne_violated.mp hrule)

end Rules

/-! ### Array schemas and their normal form -/

/-- The schema describes arrays, with one schema for all items or with none. Its members are a map:
no key stands twice among them. -/
structure IsArraySchema (d : Document) (id : NodeId) : Prop where
  type : d.string? id "type" = some "array"
  more : d.get? id "additionalItems" = none
  items : ∀ c, d.get? id "items" = some c → d.isObject c = true
  distinct : d.DistinctAt id

/-- The schema has bounds, and as many positions as they ask for: all have the schema `items`, and
so has what follows them if there is no greatest number. -/
structure Bounded (d : Document) (id : NodeId) (items : Option NodeId) (least : Nat)
    (most : Option Nat) : Prop where
  least_eq : (Lower.tupleBound? d id "minItems").getD 0 = least
  most_eq : Lower.tupleBound? d id "maxItems" = most
  object : ∀ c, items = some c → d.isObject c = true
  absent : items = none → d.get? id "items" = none
  single : ∀ c, items = some c → least = 0 → most = none → d.get? id "items" = some c
  several : ∀ c, items = some c → least ≠ 0 ∨ most ≠ none →
    (∃ list, d.get? id "items" = some list ∧
      d.node list = .array (List.replicate (max (most.getD 0) least) c)) ∧
    d.get? id "additionalItems" = if most.isNone then some c else none

lemma IsArraySchema.isObject_eq (h : d.IsArraySchema id) : d.isObject id = true := by
  have htype := h.type
  rw [string?, scalar?, get?] at htype
  rw [isObject]
  cases hmembers : d.members? id with
  | none => simp [hmembers] at htype
  | some members => rfl

lemma IsArraySchema.describesArrays (h : d.IsArraySchema id) : d.describesArrays id = true := by
  rw [Document.describesArrays, hasType, h.type]
  simp

section Transfer

variable (halters : d.Alters d' keys) (hd : d.Closed)
include halters hd

/-- An array schema stays one, if it holds the same. -/
lemma IsArraySchema.of_alters (h : d.IsArraySchema id)
    (hget : ∀ key ∈ ["type", "items", "additionalItems"], d'.get? id key = d.get? id key) :
    d'.IsArraySchema id where
  type := by
    rw [string?, halters.scalar?_eq hd (hget "type" (by simp))]
    exact h.type
  more := by rw [hget "additionalItems" (by simp), h.more]
  items c hc := by
    rw [hget "items" (by simp)] at hc
    rw [halters.isObject_eq c (hd.get?_lt hc), h.items c hc]
  distinct := halters.distinct id (lt_size_of_isObject h.isObject_eq) h.distinct

lemma Alters.leastItems_eq (hget : d'.get? id "minItems" = d.get? id "minItems") :
    d'.leastItems id = d.leastItems id := by
  rw [leastItems, halters.bound?_eq hd hget, leastItems]

lemma Alters.mostItems_eq (hleast : d'.leastItems id = d.leastItems id)
    (hget : d'.get? id "maxItems" = d.get? id "maxItems") :
    d'.mostItems s id = d.mostItems s id := by
  rw [mostItems, halters.bound?_eq hd hget, hleast, mostItems]

/-- An array schema stays one, with the same items and bounds, if it holds the same. -/
lemma IsArraySchema.same_of_alters (h : d.IsArraySchema id)
    (hget : ∀ key ∈ "type" :: boundKeys, d'.get? id key = d.get? id key) :
    d'.IsArraySchema id ∧ d'.get? id "items" = d.get? id "items" ∧
      d'.leastItems id = d.leastItems id ∧ d'.mostItems s id = d.mostItems s id := by
  have hleast := halters.leastItems_eq hd (hget "minItems" (by simp [boundKeys]))
  refine ⟨h.of_alters halters hd fun key hkey => hget key ?_, hget _ (by simp [boundKeys]), hleast,
    halters.mostItems_eq hd hleast (hget "maxItems" (by simp [boundKeys]))⟩
  simp only [List.mem_cons, List.not_mem_nil, or_false] at hkey
  rcases hkey with rfl | rfl | rfl <;> simp [boundKeys]

/-- A schema in normal form stays in it, and so does a copy that holds the same. -/
lemma Bounded.of_alters {items : Option NodeId} (h : d.Bounded id items least most)
    (hget : ∀ key ∈ boundKeys, d'.get? id' key = d.get? id key) :
    d'.Bounded id' items least most := by
  have hitems : d'.get? id' "items" = d.get? id "items" := hget _ (by simp [boundKeys])
  have hmore : d'.get? id' "additionalItems" = d.get? id "additionalItems" :=
    hget _ (by simp [boundKeys])
  have hbound {key : String} (hkey : key ∈ boundKeys) :
      Lower.tupleBound? d' id' key = Lower.tupleBound? d id key := by
    rw [Lower.tupleBound?, Lower.tupleBound?, halters.bound?_eq hd (hget key hkey)]
  refine ⟨?_, ?_, fun c hc => ?_, ?_, ?_, fun c hc hbounds => ?_⟩
  · rw [hbound (by simp [boundKeys]), h.least_eq]
  · rw [hbound (by simp [boundKeys]), h.most_eq]
  · have hobject := h.object c hc
    rw [halters.isObject_eq c (lt_size_of_isObject hobject), hobject]
  · rw [hitems]
    exact h.absent
  · rw [hitems]
    exact h.single
  · obtain ⟨⟨list, hlist, hnode⟩, hrest⟩ := h.several c hc hbounds
    rw [hitems, hmore]
    refine ⟨⟨list, hlist, ?_⟩, hrest⟩
    have hplain : d.isObject list = false := by simp [isObject, members?, hnode]
    rw [halters.plain list (hd.get?_lt hlist) hplain, hnode]

end Transfer

/-! ### One step -/

section Step

variable (hobject : d.isObject id = true)
include hobject

lemma get?_set_self : (d.set id key c).get? id key = some c := by
  obtain ⟨members, hnode⟩ := exists_members_of_isObject hobject
  rw [set, get?_of_node (node_changeMembers hnode _)]
  exact Keyed.get?_insert_self

lemma get?_setList_self (key : String) (items : List NodeId) :
    (d.setList id key items).get? id key = some d.size ∧
      (d.setList id key items).node d.size = .array items := by
  have hlt := lt_size_of_isObject hobject
  have halloc : d.AltersAt (d.alloc (.array items) (.under id)).2 id [] := altersAt_alloc
  refine ⟨get?_set_self ((halloc.isObject_eq id hlt).trans hobject), ?_⟩
  exact ((altersAt_set _ id key d.size).node_eq d.size lt_size_alloc (Nat.ne_of_gt hlt)).trans
    node_alloc_self

lemma scalar?_setValue_self {value : Json.Scalar} :
    (d.setValue id key (.scalar value)).scalar? id key = some value := by
  have hlt := lt_size_of_isObject hobject
  have halloc : d.AltersAt (d.alloc (.leaf value)).2 id [] := altersAt_alloc
  have hlink : (d.alloc (.leaf value)).2.AltersAt
    ((d.alloc (.leaf value)).2.linkIfFree d.size (.under id)) id [] := altersAt_linkIfFree
  have hset := altersAt_set ((d.alloc (.leaf value)).2.linkIfFree d.size (.under id)) id key d.size
  have hobject' := (halloc.trans hlink).isObject_eq id hlt
  have hnode := (hset.node_eq d.size (Nat.lt_of_lt_of_le lt_size_alloc hlink.size_le)
    (Nat.ne_of_gt hlt)).trans ((hlink.node_eq d.size lt_size_alloc (Nat.ne_of_gt hlt)).trans
      node_alloc_self)
  have hvalue : d.setValue id key (.scalar value)
      = ((d.alloc (.leaf value)).2.linkIfFree d.size (.under id)).set id key d.size := by
    rw [setValue, insert]
    rfl
  rw [hvalue, scalar?_of_get? (get?_set_self (hobject'.trans hobject)), leaf?, hnode]

/-- Nothing is left under a key that is taken out. -/
lemma has_setValue_self {value : Json.Scalar} :
    (d.setValue id key (.scalar value)).has id key = true := by
  have hnew : (d.setValue id key (.scalar value)).scalar? id key = some value :=
    scalar?_setValue_self hobject
  cases hget : (d.setValue id key (.scalar value)).get? id key with
  | none =>
      rw [scalar?, hget] at hnew
      cases hnew
  | some c => rw [has, hget, Option.isSome_some]

lemma get?_erase_self (hdistinct : d.DistinctAt id) : (d.erase id key).get? id key = none := by
  obtain ⟨members, hnode⟩ := exists_members_of_isObject hobject
  rw [DistinctAt, members?_of_node hnode] at hdistinct
  rw [erase, get?_of_node (node_changeMembers hnode _)]
  exact Keyed.Distinct.get?_erase hdistinct

end Step

/-- Positions are written out as the bounds ask for. -/
lemma bounded_expandItems (hd : d.Closed) (h : d.IsArraySchema id)
    (hleast : d.leastItems id = least) (hmost : d.bound? id "maxItems" = most)
    (hlimit : least ≤ tupleLimit) (hlimit' : ∀ n, most = some n → n ≤ tupleLimit) :
    (d.expandItems id least most).Bounded id (d.get? id "items") least most := by
  have hobject := h.isObject_eq
  have hlt := lt_size_of_isObject hobject
  have halters := altersAt_expandItems d id least most
  have hbound {key : String} (hkey : key ∉ ["items", "additionalItems"]) :
      Lower.tupleBound? (d.expandItems id least most) id key = Lower.tupleBound? d id key := by
    rw [Lower.tupleBound?, Lower.tupleBound?,
      halters.bound?_eq hd (halters.get?_eq id hlt key hkey)]
  refine ⟨?_, ?_, fun c hc => ?_, fun hnone => ?_, fun c hc hzero hunbounded => ?_,
    fun c hc hbounds => ?_⟩
  · rw [hbound (by simp), Lower.tupleBound?]
    rw [leastItems] at hleast
    cases hmin : d.bound? id "minItems" with
    | none =>
        rw [hmin] at hleast
        exact hleast
    | some n =>
        rw [hmin] at hleast
        obtain rfl : n = least := hleast
        exact Nat.min_eq_left hlimit
  · rw [hbound (by simp), Lower.tupleBound?, hmost]
    cases most with
    | none => rfl
    | some n => exact congrArg some (Nat.min_eq_left (hlimit' n rfl))
  · rw [halters.isObject_eq c (hd.get?_lt hc), h.items c hc]
  · rw [expandItems, hnone]
    exact hnone
  · obtain ⟨members, hnode⟩ := exists_members_of_isObject (h.items c hc)
    rw [expandItems, hc, hzero, hunbounded]
    simp only [hnode, Option.isSome_none, Nat.lt_irrefl, decide_false, Bool.or_self,
      Bool.false_eq_true, if_false, hc]
  · obtain ⟨members, hnode⟩ := exists_members_of_isObject (h.items c hc)
    set positions := List.replicate (max (most.getD 0) least) c
    obtain ⟨hlist, hpositions⟩ := get?_setList_self hobject "items" positions
    have hset := altersAt_setList d id "items" positions
    have hlt' := Nat.lt_of_lt_of_le hlt hset.size_le
    have hsome : (most.isSome || decide (0 < least)) = true := by
      rcases hbounds with hne | hne
      · simp [Nat.pos_of_ne_zero hne]
      · simp [Option.isSome_iff_ne_none.mpr hne]
    have hrun : d.expandItems id least most = if most.isNone then
        (d.setList id "items" positions).set id "additionalItems" c
        else d.setList id "items" positions := by
      rw [expandItems, hc]
      simp only [hnode, hsome, if_true]
      rfl
    rw [hrun]
    cases most with
    | none =>
        have hmore := altersAt_set (d.setList id "items" positions) id "additionalItems" c
        have hkeeps : d.Keeps (d.setList id "items" positions) :=
          keeps_setList hd hlt _ fun x hx => List.eq_of_mem_replicate hx ▸ hd.get?_lt hc
        have hsize : d.size < (d.setList id "items" positions).size := hkeeps.closed.get?_lt hlist
        refine ⟨⟨d.size, ?_, ?_⟩, get?_set_self ((hset.isObject_eq id hlt).trans hobject)⟩
        · exact (hmore.get?_eq id hlt' "items" (by simp)).trans hlist
        · exact (hmore.node_eq d.size hsize (Nat.ne_of_gt hlt)).trans hpositions
    | some n =>
        exact ⟨⟨d.size, hlist, hpositions⟩,
          (hset.get?_eq id hlt "additionalItems" (by simp)).trans h.more⟩

/-- A schema that has no least number of items gets one. -/
def withLeast (d : Document) (id : NodeId) : Document :=
  if d.has id "minItems" then d else d.setValue id "minItems" (.int 0)

/-- A greatest number of items that is not kept goes. -/
def withMost (d : Document) (id : NodeId) (most : Option Nat) : Document :=
  if (d.bound? id "maxItems").isSome && most.isNone then d.erase id "maxItems" else d

lemma boundArrays_eq (harrays : d.describesArrays id = true) (hs : s.ignoreBounds = false) :
    boundArrays s d id =
      if tupleLimit < (d.withLeast id).leastItems id
      then (d.withLeast id).withMost id ((d.withLeast id).mostItems s id)
      else ((d.withLeast id).withMost id ((d.withLeast id).mostItems s id)).expandItems id
        ((d.withLeast id).leastItems id) ((d.withLeast id).mostItems s id) := by
  rw [boundArrays, harrays, hs]
  rfl

lemma altersAt_withLeast (d : Document) (id : NodeId) :
    d.AltersAt (d.withLeast id) id ["minItems"] := by
  rw [withLeast]
  split
  · exact .refl d id _
  · exact altersAt_setValue d id _ _

lemma has_withLeast (hobject : d.isObject id = true) :
    (d.withLeast id).has id "minItems" = true := by
  rw [withLeast]
  split
  case isTrue hhas => exact hhas
  case isFalse => exact has_setValue_self hobject

lemma leastItems_withLeast (hobject : d.isObject id = true) :
    (d.withLeast id).leastItems id = d.leastItems id := by
  rw [withLeast]
  split
  case isTrue => rfl
  case isFalse hnone =>
    have hget : d.get? id "minItems" = none := by simpa [has] using hnone
    have hnew :
        (d.setValue id "minItems" (.int 0)).scalar? id "minItems" = some (.number (.int 0)) :=
      scalar?_setValue_self hobject
    have hdouble : (d.setValue id "minItems" (.int 0)).double? id "minItems"
        = some (Json.Double.ofInt 0) := by
      rw [double?, hnew]
      rfl
    have hzero : (Json.Double.ofInt 0).toBound = 0 := by decide +kernel
    have hnone' : d.double? id "minItems" = none := by
      rw [double?, scalar?, hget]
      rfl
    rw [leastItems, bound?, hdouble, Option.map_some, Option.getD_some, hzero, leastItems, bound?,
      hnone', Option.map_none, Option.getD_none]

lemma altersAt_withMost (d : Document) (id : NodeId) (most : Option Nat) :
    d.AltersAt (d.withMost id most) id ["maxItems"] := by
  rw [withMost]
  split
  · exact altersAt_erase d id _
  · exact .refl d id _

lemma bound?_withMost (hobject : d.isObject id = true) (hdistinct : d.DistinctAt id) :
    (d.withMost id (d.mostItems s id)).bound? id "maxItems" = d.mostItems s id := by
  rw [withMost]
  split
  case isTrue hgone =>
    rw [Bool.and_eq_true, Option.isNone_iff_eq_none] at hgone
    rw [bound?, double?, scalar?, get?_erase_self hobject hdistinct, hgone.2]
    rfl
  case isFalse hkept =>
    rw [mostItems] at hkept ⊢
    cases hmost : d.bound? id "maxItems" with
    | none => rfl
    | some n =>
        rw [hmost] at hkept
        cases hkeeps : keepsMaximum s (d.leastItems id) n with
        | true => rw [Option.filter_some, if_pos hkeeps]
        | false => simp [Option.filter_some, hkeeps] at hkept

/-- Before its positions are written out, an array schema gets a least number, and keeps a greatest
number only if it may. -/
lemma exists_expandItems_eq (hd : d.Closed) (hobject : d.isObject id = true)
    (hdistinct : d.DistinctAt id) (harrays : d.describesArrays id = true)
    (hs : s.ignoreBounds = false) (hlimit : d.leastItems id ≤ tupleLimit) :
    ∃ d₂, boundArrays s d id = d₂.expandItems id (d.leastItems id) (d.mostItems s id) ∧
      d.AltersAt d₂ id ["minItems", "maxItems"] ∧ d₂.Closed ∧ d₂.leastItems id = d.leastItems id ∧
      d₂.bound? id "maxItems" = d.mostItems s id ∧ d₂.has id "minItems" = true := by
  have hlt := lt_size_of_isObject hobject
  -- The least number is there, and the same as before.
  have halters₁ := altersAt_withLeast d id
  have hd₁ : (d.withLeast id).Closed := by
    rw [withLeast]
    split
    · exact hd
    · exact (keeps_setValue hd hlt _).closed
  have hleast₁ := leastItems_withLeast hobject
  have hmost₁ : (d.withLeast id).mostItems s id = d.mostItems s id :=
    halters₁.mostItems_eq hd hleast₁ (halters₁.get?_eq id hlt _ (by simp))
  -- The greatest number is the one that is kept.
  have halters₂ := altersAt_withMost (d.withLeast id) id (d.mostItems s id)
  have hd₂ : ((d.withLeast id).withMost id (d.mostItems s id)).Closed := by
    rw [withMost]
    split
    · exact (keeps_erase hd₁ id _).closed
    · exact hd₁
  have hmost₂ : ((d.withLeast id).withMost id (d.mostItems s id)).bound? id "maxItems"
      = d.mostItems s id := by
    rw [← hmost₁]
    exact bound?_withMost ((halters₁.isObject_eq id hlt).trans hobject)
      (halters₁.distinct id hlt hdistinct)
  have hleast₂ :
      ((d.withLeast id).withMost id (d.mostItems s id)).leastItems id = d.leastItems id :=
    (halters₂.leastItems_eq hd₁ (halters₂.get?_eq id (Nat.lt_of_lt_of_le hlt halters₁.size_le) _
      (by simp))).trans hleast₁
  have hhas₂ : ((d.withLeast id).withMost id (d.mostItems s id)).has id "minItems" = true := by
    rw [has, halters₂.get?_eq id (Nat.lt_of_lt_of_le hlt halters₁.size_le) _ (by simp), ← has]
    exact has_withLeast hobject
  refine ⟨_, ?_, (halters₁.mono (by simp)).trans (halters₂.mono (by simp)), hd₂, hleast₂, hmost₂,
    hhas₂⟩
  rw [boundArrays_eq harrays hs, hleast₁, hmost₁, if_neg (Nat.not_lt.mpr hlimit)]

/-- **One step brings an array schema to its normal form.** -/
lemma bounded_boundArrays (hd : d.Closed) (h : d.IsArraySchema id) (hs : s.ignoreBounds = false)
    (hlimit : d.leastItems id ≤ tupleLimit) :
    (boundArrays s d id).Bounded id (d.get? id "items") (d.leastItems id) (d.mostItems s id) := by
  have hlt := lt_size_of_isObject h.isObject_eq
  obtain ⟨d₂, hrun, halters, hd₂, hleast, hmost, -⟩ :=
    exists_expandItems_eq hd h.isObject_eq h.distinct h.describesArrays hs hlimit
  have hget (key : String) (hkey : key ∈ ["type", "items", "additionalItems"]) :
      d₂.get? id key = d.get? id key := halters.get?_eq id hlt key (by revert key; decide)
  rw [hrun, ← hget "items" (by simp)]
  exact bounded_expandItems hd₂ (h.of_alters halters.toAlters hd hget) hleast hmost hlimit
    fun n hn => (mostItems_eq_some_iff.mp hn).2.2

/-! ### All steps -/

/-- **An array schema comes out of the normal form with the positions that its bounds ask for**, if
it is still found where schemas stand when keywords have been spelled anew. -/
lemma bounded_normalize (name : Option String) (hd : d.Closed) (h : d.IsArraySchema id)
    (hs : s.ignoreBounds = false) (hlimit : d.leastItems id ≤ tupleLimit)
    (hid : id ∈ (d.respelled root).schemaIds root) :
    (d.normalize s root name).Bounded id (d.get? id "items") (d.leastItems id)
      (d.mostItems s id) := by
  have hlt := lt_size_of_isObject h.isObject_eq
  -- New spelling does not concern what is said about items, and neither do steps at other schemas.
  have hd₁ := keeps_respelled hd root
  have halters₁ := alters_respelled d root
  obtain ⟨h₁, hitems₁, hleast₁, hmost₁⟩ := h.same_of_alters (s := s) halters₁ hd fun key hkey =>
    halters₁.get?_eq id hlt key (by revert key; decide)
  obtain ⟨d₂, hturn⟩ := exists_turn s name hd hid
  obtain ⟨h₂, hitems₂, hleast₂, hmost₂⟩ := h₁.same_of_alters (s := s) hturn.before hd₁.closed
    fun key _ => hturn.get?_eq key
  -- The step at the schema itself.
  have hlt₂ := Nat.lt_of_lt_of_le (Nat.lt_of_lt_of_le hlt hd₁.size_le) hturn.before.size_le
  have hd₃ := keeps_describe hturn.closed hlt₂ s root name
  have halters₃ := altersAt_describe s root name d₂ id
  obtain ⟨h₃, hitems₃, hleast₃, hmost₃⟩ := h₂.same_of_alters (s := s) halters₃.toAlters hturn.closed
    fun key hkey => halters₃.get?_eq id hlt₂ key (by revert key; decide)
  have hstep := bounded_boundArrays hd₃.closed h₃ hs
    (by rw [hleast₃, hleast₂, hleast₁]; exact hlimit)
  rw [← normalizeContents_eq, hitems₃, hitems₂, hitems₁, hleast₃, hleast₂, hleast₁, hmost₃, hmost₂,
    hmost₁] at hstep
  exact hstep.of_alters hturn.after hturn.closed_step fun key _ => hturn.get?_eq_after key

end Document

end SchemaDecl
