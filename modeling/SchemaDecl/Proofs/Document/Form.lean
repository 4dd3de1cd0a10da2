/-
What the normal form says of a schema.

The contents of a schema are looked at once, when it is its turn. What its description, its values
and its bounds are like in the normal form can be said of what they were at the start.

* `Document.string?_description_normalize`: a description cannot end a comment.
* `Document.listAt_enum_normalize`: all values are listed.
* `Document.Capped`, `Document.capped_normalize`: there are no more positions than items are
  allowed.
-/
import SchemaDecl.Proofs.Declaration.Comment
import SchemaDecl.Proofs.Document.Ways

namespace SchemaDecl.Document

variable {s : Settings} {d d' : Document} {id root : NodeId} {name : Option String} {most : Nat}

/-! ### Descriptions -/

/-- A text in which nothing ends a comment. -/
def escapedText (text : String) : String :=
  String.ofList (Text.replacePair '*' '/' ['*', ' ', '/'] text.toList)

lemma staysOpen_escapedText (text : String) : Text.StaysOpen (escapedText text).toList := by
  rw [escapedText, String.toList_ofList]
  exact Text.staysOpen_replacePair _

section Step

variable (hd : d.Closed) (hobject : d.isObject id = true)
include hobject

lemma string?_escapeDescription :
    (d.escapeDescription id).string? id "description"
      = (d.string? id "description").map escapedText := by
  rw [escapeDescription]
  cases htext : d.string? id "description" with
  | none => exact htext
  | some text =>
      dsimp only
      split
      case isTrue hsame =>
        rw [htext, Option.map_some, escapedText, beq_iff_eq.mp hsame, String.ofList_toList]
      case isFalse =>
        have hnew :
            (d.setValue id "description" (.string (escapedText text))).scalar? id "description"
            = some (.string (escapedText text)) := scalar?_setValue_self hobject
        rw [← escapedText, string?, hnew]
        rfl

/-- A constant is listed as the only value, if there are no others. -/
lemma listAt_constToEnum : (d.constToEnum id).listAt id "enum" = d.values id := by
  rw [constToEnum, values]
  split
  case isTrue => rfl
  case isFalse henum =>
    have hnone : d.get? id "enum" = none := by simpa [has] using henum
    cases hconst : d.get? id "const" with
    | none =>
        rw [listAt, hnone]
        rfl
    | some value =>
        obtain ⟨hget, hnode⟩ : ((d.erase id "const").setList id "enum" [value]).get? id "enum"
            = some (d.erase id "const").size ∧ _ :=
          get?_setList_self (isObject_erase.trans hobject) "enum" [value]
        rw [listAt, hget, Option.bind_some, items?, hnode]
        rfl

lemma has_enum_constToEnum :
    (d.constToEnum id).has id "enum" = (d.has id "enum" || d.has id "const") := by
  rw [constToEnum]
  split
  case isTrue henum => rw [henum, Bool.true_or]
  case isFalse henum =>
    rw [Bool.not_eq_true] at henum
    rw [henum, Bool.false_or]
    cases hconst : d.get? id "const" with
    | none => rw [henum, has, hconst, Option.isSome_none]
    | some value =>
        rw [has, (get?_setList_self (isObject_erase.trans hobject) "enum" [value]).1, has, hconst]
        rfl

include hd

/-- When the values and the description have been looked at, only the identifier, further properties
and bounds are. -/
lemma altersAt_contents_escaped (s : Settings) (root : NodeId) (name : Option String) :
    ((d.constToEnum id).escapeDescription id).Closed ∧
    ((d.constToEnum id).escapeDescription id).AltersAt (normalizeContents s root name d id) id
      ("$id" :: "additionalProperties" :: boundKeys) := by
  refine ⟨?_, ?_⟩
  · exact ((keeps_constToEnum hd (lt_size_of_isObject hobject)).andThen
      (lt_size_of_isObject hobject) keeps_escapeDescription).closed
  · rw [normalizeContents_eq]
    exact ((altersAt_describe_escaped s root name d id).mono (by simp)).trans
      ((altersAt_boundArrays s _ id).mono (by simp))

lemma string?_normalizeContents (s : Settings) (root : NodeId) (name : Option String) :
    (normalizeContents s root name d id).string? id "description"
      = (d.string? id "description").map escapedText := by
  have hlt := lt_size_of_isObject hobject
  have hconst := altersAt_constToEnum d id
  have hobject' := (hconst.isObject_eq id hlt).trans hobject
  obtain ⟨hclosed, halters⟩ := altersAt_contents_escaped hd hobject s root name
  have hlt' :=
    Nat.lt_of_lt_of_le hlt ((hconst.size_le).trans (altersAt_escapeDescription _ id).size_le)
  rw [halters.string?_eq hclosed (halters.get?_eq id hlt' _ (by simp [boundKeys])),
    string?_escapeDescription hobject',
    hconst.string?_eq hd (hconst.get?_eq id hlt _ (by simp))]

lemma listAt_enum_normalizeContents (s : Settings) (root : NodeId) (name : Option String) :
    (normalizeContents s root name d id).listAt id "enum" = d.values id := by
  have hlt := lt_size_of_isObject hobject
  have hconst := keeps_constToEnum hd hlt
  have hescape := altersAt_escapeDescription (d.constToEnum id) id
  obtain ⟨hclosed, halters⟩ := altersAt_contents_escaped hd hobject s root name
  have hlt' := Nat.lt_of_lt_of_le hlt hconst.size_le
  rw [halters.listAt_eq hclosed (halters.get?_eq id (Nat.lt_of_lt_of_le hlt' hescape.size_le) _
      (by simp [boundKeys])),
    hescape.listAt_eq hconst.closed (hescape.get?_eq id hlt' _ (by simp)),
    listAt_constToEnum hobject]

lemma has_enum_normalizeContents (s : Settings) (root : NodeId) (name : Option String) :
    (normalizeContents s root name d id).has id "enum" = (d.has id "enum" || d.has id "const") := by
  have hlt := lt_size_of_isObject hobject
  have hescape := altersAt_escapeDescription (d.constToEnum id) id
  obtain ⟨-, halters⟩ := altersAt_contents_escaped hd hobject s root name
  have hlt' := Nat.lt_of_lt_of_le hlt (altersAt_constToEnum d id).size_le
  rw [has, halters.get?_eq id (Nat.lt_of_lt_of_le hlt' hescape.size_le) _ (by simp [boundKeys]),
    hescape.get?_eq id hlt' _ (by simp), ← has, has_enum_constToEnum hobject]

end Step

/-! ### Bounds -/

/-- The least number of items is not above `most`, and no more than so many positions are listed. -/
structure Capped (d : Document) (id : NodeId) (most : Nat) : Prop where
  least_le : (Lower.tupleBound? d id "minItems").getD 0 ≤ most
  positions_le : (d.listAt id "items").length ≤ most

/-- A schema that holds the same about its bounds is capped as well. -/
lemma Capped.of_alters {id' : NodeId} {keys : List String} (h : d.Capped id most)
    (halters : d.Alters d' keys) (hd : d.Closed)
    (hget : ∀ key ∈ boundKeys, d'.get? id' key = d.get? id key) : d'.Capped id' most where
  least_le := by
    rw [Lower.tupleBound?, halters.bound?_eq hd (hget "minItems" (by simp [boundKeys]))]
    exact h.least_le
  positions_le := by
    rw [halters.listAt_eq hd (hget "items" (by simp [boundKeys]))]
    exact h.positions_le

/-- Positions are written out, or cut off, up to the greatest number. What follows them is left as
it is. -/
lemma positions_expandItems (hobject : d.isObject id = true) {least : Nat} (hle : least ≤ most) :
    ((d.expandItems id least (some most)).listAt id "items").length ≤ most ∧
    (d.expandItems id least (some most)).get? id "additionalItems"
      = d.get? id "additionalItems" := by
  have hset (l : List NodeId) (hl : l.length ≤ most) :
      ((d.setList id "items" l).listAt id "items").length ≤ most ∧
      (d.setList id "items" l).get? id "additionalItems" = d.get? id "additionalItems" := by
    obtain ⟨hget, hnode⟩ := get?_setList_self hobject "items" l
    refine ⟨?_,
      (altersAt_setList d id "items" l).get?_eq id (lt_size_of_isObject hobject) _ (by simp)⟩
    rw [listAt, hget, Option.bind_some, items?, hnode]
    exact hl
  rw [expandItems]
  cases hget : d.get? id "items" with
  | none => exact ⟨by simp [listAt, hget], rfl⟩
  | some items =>
      dsimp only
      cases hnode : d.node items with
      | leaf value => exact ⟨by simp [listAt, hget, items?, hnode], rfl⟩
      | object members =>
          simp only [Option.isSome_some, Bool.true_or, if_true, Option.isNone_some,
            Bool.false_eq_true, if_false, Option.getD_some, Nat.max_eq_left hle]
          exact hset _ (Nat.le_of_eq List.length_replicate)
      | array l =>
          dsimp only
          split
          · exact hset _ (List.length_take_le _ _)
          case isFalse hfew =>
            refine ⟨?_, rfl⟩
            rw [listAt, hget, Option.bind_some, items?, hnode]
            exact Nat.not_lt.mp hfew

/-- Bounds that are in order are so when they have been cut off at the limit. -/
lemma least_le_of_tupleBound? (hle : ∀ n, d.bound? id "maxItems" = some n → d.leastItems id ≤ n)
    (hmost : Lower.tupleBound? d id "maxItems" = some most) :
    (Lower.tupleBound? d id "minItems").getD 0 ≤ most := by
  obtain ⟨n, hn, rfl⟩ := Option.map_eq_some_iff.mp hmost
  have hleast := hle n hn
  rw [leastItems] at hleast
  rw [Lower.tupleBound?]
  cases hmin : d.bound? id "minItems" with
  | none => exact Nat.zero_le _
  | some k =>
      rw [hmin, Option.getD_some] at hleast
      exact min_le_min_right _ hleast

/-- **One step caps the positions of a schema**, if its bounds are in order and its greatest number
of items is kept. What follows the positions is left as it is. -/
lemma capped_boundArrays (hd : d.Closed) (hobject : d.isObject id = true)
    (hdistinct : d.DistinctAt id) (hlimit : d.leastItems id ≤ tupleLimit)
    (hle : ∀ n, d.bound? id "maxItems" = some n → d.leastItems id ≤ n)
    (hmost : Lower.tupleBound? (boundArrays s d id) id "maxItems" = some most) :
    (boundArrays s d id).Capped id most ∧
      (boundArrays s d id).get? id "additionalItems" = d.get? id "additionalItems" := by
  have hlt := lt_size_of_isObject hobject
  cases harrays : d.describesArrays id with
  | false =>
      -- There are no positions in a schema that does not describe arrays.
      have hrun : boundArrays s d id = d := by
        rw [boundArrays, harrays]
        rfl
      have hnone : d.get? id "items" = none := by
        simpa [has] using (Bool.or_eq_false_iff.mp harrays).2
      rw [hrun] at hmost ⊢
      exact ⟨⟨least_le_of_tupleBound? hle hmost, by simp [listAt, hnone]⟩, rfl⟩
  | true =>
      cases hs : s.ignoreBounds with
      | true =>
          -- Bounds that are ignored are taken out.
          have hrun : boundArrays s d id = (d.erase id "minItems").erase id "maxItems" := by
            rw [boundArrays, harrays, hs]
            rfl
          have hgone : (boundArrays s d id).get? id "maxItems" = none := by
            rw [hrun]
            exact get?_erase_self (isObject_erase.trans hobject)
              ((altersAt_erase d id _).distinct id hlt hdistinct)
          rw [Lower.tupleBound?, bound?, double?, scalar?, hgone] at hmost
          cases hmost
      | false =>
          obtain ⟨d₂, hrun, halters, hd₂, hleast, hkept, -⟩ :=
            exists_expandItems_eq hd hobject hdistinct harrays hs hlimit
          have hexpand := altersAt_expandItems d₂ id (d.leastItems id) (d.mostItems s id)
          rw [← hrun] at hexpand
          have hget (key : String) (hkey : key ∉ ["items", "additionalItems"]) :
              (boundArrays s d id).get? id key = d₂.get? id key :=
            hexpand.get?_eq id (Nat.lt_of_lt_of_le hlt halters.size_le) key hkey
          have hkept' := (hexpand.bound?_eq hd₂ (hget "maxItems" (by simp))).trans hkept
          have hleast' := (hexpand.leastItems_eq hd₂ (hget "minItems" (by simp))).trans hleast
          obtain ⟨n, hn, hmin⟩ := Option.map_eq_some_iff.mp hmost
          rw [hkept'] at hn
          obtain ⟨hbound, -, hlimit'⟩ := mostItems_eq_some_iff.mp hn
          obtain rfl : n = most := (Nat.min_eq_left hlimit').symm.trans hmin
          obtain ⟨hpositions, hmore⟩ :=
            positions_expandItems ((halters.isObject_eq id hlt).trans hobject) (hle n hbound)
          rw [← hn, ← hrun] at hpositions hmore
          refine ⟨⟨least_le_of_tupleBound? (fun k hk => ?_) hmost, hpositions⟩,
            hmore.trans (halters.get?_eq id hlt _ (by simp))⟩
          obtain rfl := Option.some.inj (hn.symm.trans (hkept'.symm.trans hk))
          exact hleast' ▸ hle n hbound

/-! ### All steps -/

section Normal

variable (hd : d.Closed) (hdistinct : d.Distinct) (name : Option String)
  (hid : id ∈ (d.respelled root).schemaIds root)
include hd hdistinct hid

/-- A schema that is found when keywords have been spelled anew has its turn, as the object that it
was at the start. -/
lemma exists_turn_isObject (s : Settings) :
    ∃ d₂, Turn s d root name id d₂ ∧ d.isObject id = true ∧ d₂.isObject id = true := by
  obtain ⟨d₂, hturn⟩ := exists_turn s name hd hid
  have hobject : d.isObject id = true :=
    ((thins_respelled hd hdistinct root).isObject_eq id).symm.trans (isObject_schema hid)
  exact ⟨d₂, hturn, hobject,
    (hturn.start.isObject_eq id (lt_size_of_isObject hobject)).trans hobject⟩

/-- **The description in the normal form cannot end a comment.** -/
lemma string?_description_normalize (s : Settings) :
    (d.normalize s root name).string? id "description"
      = (d.string? id "description").map escapedText := by
  obtain ⟨d₂, hturn, hobject, hobject₂⟩ := exists_turn_isObject hd hdistinct name hid s
  rw [hturn.after.string?_eq hturn.closed_step (hturn.get?_eq_after _),
    string?_normalizeContents hturn.closed hobject₂,
    hturn.start.string?_eq hd (hturn.get?_eq_start (lt_size_of_isObject hobject) (by decide))]

/-- **All values are listed in the normal form.** -/
lemma listAt_enum_normalize (s : Settings) :
    (d.normalize s root name).listAt id "enum" = d.values id := by
  obtain ⟨d₂, hturn, hobject, hobject₂⟩ := exists_turn_isObject hd hdistinct name hid s
  rw [hturn.after.listAt_eq hturn.closed_step (hturn.get?_eq_after _),
    listAt_enum_normalizeContents hturn.closed hobject₂,
    hturn.start.values_eq hd fun key hkey =>
      hturn.get?_eq_start (lt_size_of_isObject hobject) (by revert key; decide)]

lemma has_enum_normalize (s : Settings) :
    (d.normalize s root name).has id "enum" = (d.has id "enum" || d.has id "const") := by
  obtain ⟨d₂, hturn, hobject, hobject₂⟩ := exists_turn_isObject hd hdistinct name hid s
  have hlt := lt_size_of_isObject hobject
  rw [has, hturn.get?_eq_after, ← has, has_enum_normalizeContents hturn.closed hobject₂, has, has,
    hturn.get?_eq_start hlt (by decide), hturn.get?_eq_start hlt (by decide), ← has, ← has]

/-- **There are no more positions than items are allowed in the normal form** of a schema whose
bounds are in order, if its greatest number of items is kept. What follows the positions is as it
was. -/
lemma capped_normalize (hlimit : d.leastItems id ≤ tupleLimit)
    (hle : ∀ n, d.bound? id "maxItems" = some n → d.leastItems id ≤ n)
    (hmost : Lower.tupleBound? (d.normalize s root name) id "maxItems" = some most) :
    (d.normalize s root name).Capped id most ∧
      (d.normalize s root name).get? id "additionalItems" = d.get? id "additionalItems" := by
  obtain ⟨d₂, hturn, hobject, hobject₂⟩ := exists_turn_isObject hd hdistinct name hid s
  have hlt := lt_size_of_isObject hobject
  have hlt₂ := lt_size_of_isObject hobject₂
  -- Bounds are looked at in a document that says what the first one said about items.
  have hdescribe := altersAt_describe s root name d₂ id
  have hd₃ := keeps_describe hturn.closed hlt₂ s root name
  have halters :
      d.Alters (describe s root name d₂ id) (spellingKeys ++ (contentsKeys ++ boundKeys)) :=
    hturn.start.trans (hdescribe.toAlters.mono (by simp))
  have hget (key : String) (hkey : key ∈ boundKeys) :
      (describe s root name d₂ id).get? id key = d.get? id key :=
    (hdescribe.get?_eq id hlt₂ key (by revert key; decide)).trans
      (hturn.get?_eq_start hlt (by revert key; decide))
  have hleast := halters.leastItems_eq hd (hget "minItems" (by simp [boundKeys]))
  have hle₃ (n : Nat) (hn : (describe s root name d₂ id).bound? id "maxItems" = some n) :
      (describe s root name d₂ id).leastItems id ≤ n := by
    rw [halters.bound?_eq hd (hget "maxItems" (by simp [boundKeys]))] at hn
    exact hleast ▸ hle n hn
  rw [Lower.tupleBound?, hturn.after.bound?_eq hturn.closed_step (hturn.get?_eq_after _),
    ← Lower.tupleBound?, normalizeContents_eq] at hmost
  obtain ⟨hcapped, hmore⟩ := capped_boundArrays hd₃.closed
    ((hdescribe.isObject_eq id hlt₂).trans hobject₂) (halters.distinct id hlt (hdistinct id))
    (hleast ▸ hlimit) hle₃ hmost
  rw [← normalizeContents_eq] at hcapped hmore
  exact ⟨hcapped.of_alters hturn.after hturn.closed_step fun key _ => hturn.get?_eq_after key,
    ((hturn.get?_eq_after _).trans hmore).trans (hget _ (by simp [boundKeys]))⟩

end Normal

/-- What the first document says of a schema, spelling apart, is said still if the schema has no
turn. -/
lemma get?_normalize_of_not_mem (s : Settings) (name : Option String) (hlt : id < d.size)
    (hid : id ∉ (d.respelled root).schemaIds root) {key : String} (hkey : key ∉ spellingKeys) :
    (d.normalize s root name).get? id key = d.get? id key := by
  have halters := alters_respelled d root
  have hnode := node_normalize_of_not_mem s name (Nat.lt_of_lt_of_le hlt halters.size_le) hid
  rw [get?, members?, hnode, ← members?, ← get?]
  exact halters.get?_eq id hlt key hkey

end SchemaDecl.Document
