/-
Twins in normal form.

Bringing a schema to normal form goes with the same at its image, and at a spare node it concerns
spare nodes only. So documents that are twins stay twins.

* `Document.Concerted`: a step at a node that keeps documents twins; `Concerted.foldl` takes it to
  all schemas.
* `Document.concerted_normalizeSpelling`, `Document.concerted_normalizeContents`: the steps to the
  normal form.
* `Twin.normalize`: the normal form of both documents.
-/
import SchemaDecl.Proofs.Spare.Position

namespace SchemaDecl.Document

variable {s : Settings} {d e d' e' : Document} {k key : String} {m extra i c x root root' : NodeId}
  {f f' : NodeId → NodeId} {step step' step₁ step₁' : Document → NodeId → Document}

/-- A step at a node and at its image, or at a spare node alone, keeps documents twins. The step may
depend on which node is the root. -/
structure Concerted (k : String) (m extra root root' : NodeId)
    (step step' : Document → NodeId → Document) : Prop where
  both : ∀ {f d e i}, Twin k m extra f d e → root < d.size → f root = root' → i < d.size → i ≠ m →
    Advances k m extra f d e (step d i) (step' e (f i))
  spare : ∀ {f d e x}, Twin k m extra f d e → x < e.size → Apart f d.size x →
    Advances k m extra f d e d (step' e x)

namespace Twin

/-- The twin alone has changed. -/
lemma advances_spare (h : Twin k m extra f d e') (hsize : e.size ≤ e'.size) :
    Advances k m extra f d e d e' :=
  ⟨f, ⟨Nat.le_refl _, hsize, fun _ _ => rfl, fun _ hi hle => absurd hi (Nat.not_lt_of_le hle)⟩, h⟩

/-- A new list among the spare nodes. -/
lemma advances_setList_spare (h : Twin k m extra f d e) (hlt : x < e.size) (hx : Apart f d.size x)
    (hkey : key ∉ referringKeys) {items : List NodeId}
    (hitems : ∀ c ∈ items, c < e.size ∧ Apart f d.size c) :
    Advances k m extra f d e d (e.setList x key items) :=
  (h.setList_spare hx hlt hkey hitems).advances_spare
    (keeps_setList h.right hlt _ fun c hc => (hitems c hc).1).size_le

end Twin

/-- What comes after a change that leaves the sizes as they are. -/
lemma Advances.of_size_eq {d'' e'' : Document} (h : Advances k m extra f d' e' d'' e'')
    (hsize : d'.size = d.size) (hsize' : e'.size = e.size) : Advances k m extra f d e d'' e'' := by
  obtain ⟨f', hlater, htwin⟩ := h
  exact ⟨f', ⟨hsize ▸ hlater.size_le, hsize' ▸ hlater.size_le', hsize ▸ hlater.agree,
    hsize ▸ hsize' ▸ hlater.fresh⟩, htwin⟩

namespace Concerted

lemma refl : Concerted k m extra root root' (fun d _ => d) (fun e _ => e) :=
  ⟨fun h _ _ _ _ => h.refl_advances, fun h _ _ => h.refl_advances⟩

/-- One step after another at the same node. -/
lemma comp (h : Concerted k m extra root root' step step')
    (h₁ : Concerted k m extra root root' step₁ step₁') :
    Concerted k m extra root root' (fun d i => step₁ (step d i) i)
      (fun e i => step₁' (step' e i) i) where
  both htwin hroot hroot' hi hm := by
    refine (h.both htwin hroot hroot' hi hm).trans fun f' hlater htwin' => ?_
    have hstep := h₁.both htwin' (Nat.lt_of_lt_of_le hroot hlater.size_le)
      ((hlater.agree _ hroot).trans hroot') (Nat.lt_of_lt_of_le hi hlater.size_le) hm
    rwa [hlater.agree _ hi] at hstep
  spare htwin hlt hx := (h.spare htwin hlt hx).trans fun f' hlater htwin' =>
    h₁.spare htwin' (Nat.lt_of_lt_of_le hlt hlater.size_le') (hlater.apart hx hlt)

/-- A step that depends on something that is read off a node and off its image alike. -/
lemma read {α : Type} (step step' : α → Document → NodeId → Document)
    (r r' : Document → NodeId → α)
    (hr : ∀ {f d e i}, Twin k m extra f d e → root < d.size → f root = root' → i < d.size → i ≠ m →
      r' e (f i) = r d i)
    (h : ∀ a, Concerted k m extra root root' (step a) (step' a)) :
    Concerted k m extra root root' (fun d i => step (r d i) d i)
    (fun e i => step' (r' e i) e i) where
  both htwin hroot hroot' hi hm := by
    rw [hr htwin hroot hroot' hi hm]
    exact (h _).both htwin hroot hroot' hi hm
  spare htwin hlt hx := (h _).spare htwin hlt hx

/-- One of two steps, as something says that is read off a node and off its image alike. -/
lemma ite (r r' : Document → NodeId → Bool)
    (hr : ∀ {f d e i}, Twin k m extra f d e → root < d.size → f root = root' → i < d.size → i ≠ m →
      r' e (f i) = r d i)
    (h : Concerted k m extra root root' step step')
    (h₁ : Concerted k m extra root root' step₁ step₁') :
    Concerted k m extra root root' (fun d i => if r d i then step d i else step₁ d i)
      (fun e i => if r' e i then step' e i else step₁' e i) := by
  refine .read (fun b d i => if b then step d i else step₁ d i)
    (fun b e i => if b then step' e i else step₁' e i) r r' hr fun b => ?_
  cases b
  · exact h₁
  · exact h

/-- The step at every one of some nodes and at their images. Between these there may be spare
nodes. -/
lemma foldl (h : Concerted k m extra root root' step step') (htwin : Twin k m extra f d e)
    (hroot : root < d.size) (hroot' : f root = root') {ids ids' : List NodeId}
    (hids : ids'.filter (fun x => !spareIn f d.size x) = ids.map f)
    (hlt : ∀ i ∈ ids, i < d.size) (hlt' : ∀ x ∈ ids', x < e.size) (hm : ∀ i ∈ ids, i ≠ m) :
    Advances k m extra f d e (ids.foldl step d) (ids'.foldl step' e) := by
  induction ids' generalizing ids f d e with
  | nil =>
      obtain rfl : ids = [] := by simpa using hids.symm
      exact htwin.refl_advances
  | cons x ids' ih =>
      obtain ⟨hx, hafter⟩ := List.forall_mem_cons.mp hlt'
      -- later on, the same nodes are spare
      have hstill {f' : NodeId → NodeId} {d' e' : Document} (hlater : Later f d e f' d' e')
          {rest : List NodeId} (hrest : ids'.filter (fun x => !spareIn f d.size x) = rest.map f)
          (hltrest : ∀ i ∈ rest, i < d.size) :
          ids'.filter (fun x => !spareIn f' d'.size x) = rest.map f' := by
        have hmap : rest.map f = rest.map f' :=
          List.map_congr_left fun i hi => (hlater.agree i (hltrest i hi)).symm
        rw [← hmap, ← hrest]
        refine List.filter_congr fun y hy => congrArg (!·) ?_
        rw [Bool.eq_iff_iff, spareIn_eq_true_iff, spareIn_eq_true_iff]
        refine ⟨fun hy' i hi => ?_, fun hy' => hlater.apart hy' (hafter y hy)⟩
        rw [← hlater.agree i hi]
        exact hy' i (Nat.lt_of_lt_of_le hi hlater.size_le)
      by_cases hspare : Apart f d.size x
      · rw [List.filter_cons_of_neg (by simp [spareIn_eq_true_iff.mpr hspare])] at hids
        rw [List.foldl_cons]
        refine (h.spare htwin hx hspare).trans fun f' hlater htwin' => ?_
        exact ih htwin' hroot ((hlater.agree root hroot).trans hroot') (hstill hlater hids hlt) hlt
          (fun y hy => Nat.lt_of_lt_of_le (hafter y hy) hlater.size_le') hm
      · rw [List.filter_cons_of_pos (by simpa [spareIn] using hspare)] at hids
        cases ids with
        | nil => simp at hids
        | cons i ids =>
            obtain ⟨rfl, htail⟩ := List.cons.inj hids
            obtain ⟨hi, hlt⟩ := List.forall_mem_cons.mp hlt
            obtain ⟨him, hm⟩ := List.forall_mem_cons.mp hm
            rw [List.foldl_cons, List.foldl_cons]
            refine (h.both htwin hroot hroot' hi him).trans fun f' hlater htwin' => ?_
            exact ih htwin' (Nat.lt_of_lt_of_le hroot hlater.size_le)
              ((hlater.agree root hroot).trans hroot') (hstill hlater htail hlt)
              (fun j hj => Nat.lt_of_lt_of_le (hlt j hj) hlater.size_le)
              (fun y hy => Nat.lt_of_lt_of_le (hafter y hy) hlater.size_le') hm

end Concerted

/-! ### Steps to the normal form -/

lemma concerted_erase (key : String) :
    Concerted k m extra root root' (fun d i => d.erase i key) (fun e i => e.erase i key) where
  both h _ _ hi hm := (h.erase hi hm).advances size_changeMembers size_changeMembers
  spare h _ hx := (h.erase_spare hx).advances_spare (Nat.le_of_eq size_changeMembers.symm)

lemma concerted_setScalar (hkey : key ∉ referringKeys) (value : Json.Scalar) :
    Concerted k m extra root root' (fun d i => d.setValue i key (.scalar value))
      (fun e i => e.setValue i key (.scalar value)) where
  both h _ _ hi hm := h.setScalar hi hm value
  spare h hlt hx := (h.setScalar_spare hx hlt hkey value).advances_spare
    (keeps_setValue h.right hlt _).size_le

lemma size_rename {target : String} : (d.rename i key target).size = d.size := by
  rw [rename]
  split
  · exact size_changeMembers
  · rfl

/-- A string `id` becomes `$id`. -/
lemma concerted_renameId : Concerted k m extra root root'
    (fun d i => if (d.string? i "id").isSome then d.rename i "id" "$id" else d)
    (fun e i => if (e.string? i "id").isSome then e.rename i "id" "$id" else e) where
  both {f d e i} h _ _ hi hm := by
    rw [h.string?_eq hi hm]
    split
    case isTrue hstring =>
      refine (h.rename hi hm (by decide) fun _ c hc => ?_).advances size_rename size_rename
      -- what is renamed is a leaf
      rw [string?, scalar?_of_get? hc, leaf?] at hstring
      rw [isObject, members?]
      cases hnode : d.node c <;> simp_all
    case isFalse => exact h.refl_advances
  spare {f d e x} h _ hx := by
    split
    · exact (h.rename_spare hx (by decide)).advances_spare (Nat.le_of_eq size_rename.symm)
    · exact h.refl_advances

/-- Definitions become `$defs`. -/
lemma concerted_renameDefinitions (hk : k ≠ "$defs") : Concerted k m extra root root'
    (fun d i => d.rename i "definitions" "$defs")
    (fun e i => e.rename i "definitions" "$defs") where
  both h _ _ hi hm :=
    (h.rename hi hm (by decide) fun heq => absurd heq.symm hk).advances size_rename size_rename
  spare {f d e x} h _ hx := by
    have hnone : e.canRename x "definitions" "$defs" = false := by
      rw [canRename, has, h.get?_spare hx (by decide)]
      rfl
    rw [Document.rename, hnone]
    exact h.refl_advances

lemma concerted_wrapExtends : Concerted k m extra root root' wrapExtends wrapExtends where
  both {f d e i} h hroot hroot' hi hm := by
    rw [wrapExtends, wrapExtends, h.get?_eq hi (.inl hm)]
    cases hc : d.get? i "extends" with
    | none => exact h.refl_advances
    | some c =>
        rw [Option.map_some]
        dsimp only
        rw [h.items?_eq (h.left.closed.get?_lt hc)]
        cases d.items? c with
        | none =>
            exact h.setList hi hm (List.forall_mem_singleton.mpr
              (h.left.loose_of_get? (by decide) hc))
        | some items =>
            cases items with
            | nil => exact (concerted_erase "extends").both h hroot hroot' hi hm
            | cons first rest => exact h.refl_advances
  spare {f d e x} h hlt hx := by
    rw [wrapExtends]
    split
    · exact h.refl_advances
    case h_2 c hc =>
      split
      · exact (h.erase_spare hx).advances_spare (Nat.le_of_eq size_changeMembers.symm)
      · exact h.refl_advances
      · exact h.advances_setList_spare hlt hx (by decide)
          (List.forall_mem_singleton.mpr ⟨h.right.get?_lt hc, h.apart_of_get? hx hc⟩)

lemma mem_children_erase (hc : c ∈ ((d.erase i key).node x).children) :
    c ∈ (d.node x).children := by
  by_cases hx : x = i
  · subst hx
    cases hobject : d.isObject x with
    | false => rwa [erase, changeMembers_of_not_isObject hobject] at hc
    | true =>
        obtain ⟨members, hnode⟩ := exists_members_of_isObject hobject
        rw [erase, node_changeMembers hnode] at hc
        rw [hnode]
        obtain ⟨entry, hentry, rfl⟩ := List.mem_map.mp hc
        exact List.mem_map_of_mem (Keyed.mem_erase hentry)
  · rwa [erase, node_changeMembers_of_ne hx] at hc

lemma concerted_constToEnum : Concerted k m extra root root' constToEnum constToEnum where
  both {f d e i} h _ _ hi hm := by
    rw [constToEnum, constToEnum, h.has_eq hi hm, h.get?_eq hi (.inl hm)]
    split
    · exact h.refl_advances
    · cases hc : d.get? i "const" with
      | none => exact h.refl_advances
      | some c =>
          have hloose := h.left.loose_of_get? (by decide) hc
          have herased : (d.erase i "const").Loose m c :=
            ⟨Nat.lt_of_lt_of_eq hloose.lt size_changeMembers.symm, hloose.ne,
              fun hmem => hloose.unheld (mem_children_erase hmem)⟩
          exact ((h.erase hi hm).setList (Nat.lt_of_lt_of_eq hi size_changeMembers.symm) hm
            (List.forall_mem_singleton.mpr herased)).of_size_eq size_changeMembers
            size_changeMembers
  spare {f d e x} h hlt hx := by
    rw [constToEnum]
    split
    · exact h.refl_advances
    · split
      · exact h.refl_advances
      case h_2 c hc =>
        have hsize : (e.erase x "const").size = e.size := size_changeMembers
        exact ((h.erase_spare hx).advances_setList_spare (hsize ▸ hlt) hx (by decide)
          (List.forall_mem_singleton.mpr
            ⟨hsize ▸ h.right.get?_lt hc, h.apart_of_get? hx hc⟩)).of_size_eq
            rfl hsize

lemma concerted_escapeDescription :
    Concerted k m extra root root' escapeDescription escapeDescription where
  both {f d e i} h _ _ hi hm := by
    rw [escapeDescription, escapeDescription, h.string?_eq hi hm]
    cases d.string? i "description" with
    | none => exact h.refl_advances
    | some text =>
        dsimp only
        split
        · exact h.refl_advances
        · exact h.setScalar hi hm _
  spare {f d e x} h hlt hx := by
    rw [escapeDescription]
    split
    · exact h.refl_advances
    · dsimp only
      split
      · exact h.refl_advances
      · exact (h.setScalar_spare hx hlt (by decide) _).advances_spare
          (keeps_setValue h.right hlt _).size_le

lemma concerted_defaultRootId (name : Option String) :
    Concerted k m extra root root' (fun d i => d.defaultRootId i name)
      (fun e i => e.defaultRootId i name) := by
  cases name with
  | none => exact .refl
  | some name =>
      exact .ite (fun d i => name.isEmpty || d.has i "$id")
        (fun e i => name.isEmpty || e.has i "$id")
        (fun h _ _ hi hm => by rw [h.has_eq hi hm]) .refl
        (concerted_setScalar (by decide) (.string name))

lemma concerted_defaultAdditionalProperties (s : Settings) :
    Concerted k m extra root root' (defaultAdditionalProperties s)
    (defaultAdditionalProperties s) :=
  .ite _ _ (fun h _ _ hi hm => by
      rw [describesObjects, describesObjects, h.outline.hasType_eq (h.tells hi hm), h.has_eq hi hm,
        h.has_eq hi hm, h.has_eq hi hm])
    (concerted_setScalar (by decide) (.bool s.additionalProperties)) .refl

/-- The schema for all items is listed, so often as there are positions. -/
lemma Twin.setList_replicate (h : Twin k m extra f d e) (hi : i < d.size) (hm : i ≠ m)
    (hc : d.Loose m c) (n : Nat) :
    Advances k m extra f d e (d.setList i "items" (List.replicate n c))
      (e.setList (f i) "items" (List.replicate n (f c))) := by
  rw [← List.map_replicate]
  exact h.setList hi hm fun a ha => List.eq_of_mem_replicate ha ▸ hc

/-- The schema for all items is listed and describes further items too. In the list it does not hold
the map, so that it may be put under the key. -/
lemma Twin.set_additionalItems (h : Twin k m extra f d e) (hk : k ≠ "additionalItems")
    (hi : i < d.size) (hm : i ≠ m) (hc : d.get? i "items" = some c) {n : Nat} (hn : n ≠ 0) :
    Advances k m extra f d e
      ((d.setList i "items" (List.replicate n c)).set i "additionalItems" c)
      ((e.setList (f i) "items" (List.replicate n (f c))).set (f i) "additionalItems" (f c)) := by
  have hloose := h.left.loose_of_get? (by decide) hc
  obtain ⟨f', hlater, htwin⟩ := h.setList_replicate hi hm hloose n
  have hmem : c ∈ (d.setList i "items" (List.replicate n c)).listAt i "items" := by
    obtain ⟨hget, hitems⟩ := get?_setList_self (isObject_of_get? hc) "items" (List.replicate n c)
    rw [listAt, hget, Option.bind_some, items?, hitems]
    exact List.mem_replicate.mpr ⟨hn, rfl⟩
  have hadmits : (d.setList i "items" (List.replicate n c)).Admits k m ("additionalItems", c) :=
    ⟨htwin.left.loose_of_mem_listAt hmem, fun heq => absurd heq.symm hk⟩
  have hset := htwin.set (Nat.lt_of_lt_of_le hi hlater.size_le) hm hadmits
  rw [hlater.agree i hi, hlater.agree c hloose.lt] at hset
  obtain ⟨f'', hlater', htwin'⟩ := hset.advances size_changeMembers size_changeMembers
  exact ⟨f'', hlater.trans hlater', htwin'⟩

lemma Twin.expandItems (h : Twin k m extra f d e) (hk : k ≠ "additionalItems") (hi : i < d.size)
    (hm : i ≠ m) (least : Nat) (most : Option Nat) :
    Advances k m extra f d e (d.expandItems i least most) (e.expandItems (f i) least most) := by
  rw [Document.expandItems, Document.expandItems, h.get?_eq hi (.inl hm)]
  cases hc : d.get? i "items" with
  | none => exact h.refl_advances
  | some c =>
      have hloose := h.left.loose_of_get? (by decide) hc
      rw [Option.map_some]
      dsimp only
      rw [h.node_eq c hloose.lt hloose.ne]
      cases hnode : d.node c with
      | leaf value => exact h.refl_advances
      | array list =>
          have hlist : ∀ a ∈ list, d.Loose m a := fun a ha =>
            h.left.loose_of_grandchild (mem_children_of_get? hc) (by rw [hnode]; exact ha)
          cases most with
          | none => exact h.refl_advances
          | some most =>
              simp only [Node.map, List.length_map, ← List.map_take]
              split
              · exact h.setList hi hm fun a ha => hlist a (List.mem_of_mem_take ha)
              · exact h.refl_advances
      | object members =>
          simp only [Node.map]
          split
          case isFalse => exact h.refl_advances
          case isTrue hsome =>
            split
            case isFalse => exact h.setList_replicate hi hm hloose _
            case isTrue hnone =>
              obtain rfl := Option.isNone_iff_eq_none.mp hnone
              have hleast : 0 < least := by simpa using hsome
              exact h.set_additionalItems hk hi hm hc (by simpa using Nat.ne_of_gt hleast)

lemma Twin.expandItems_spare (h : Twin k m extra f d e) (hlt : x < e.size) (hx : Apart f d.size x)
    (least : Nat) (most : Option Nat) :
    Advances k m extra f d e d (e.expandItems x least most) := by
  rw [Document.expandItems]
  cases hc : e.get? x "items" with
  | none => exact h.refl_advances
  | some c =>
      have hapart := h.apart_of_get? hx hc
      dsimp only
      cases hnode : e.node c with
      | leaf value => exact h.refl_advances
      | array list =>
          have hlist : ∀ a ∈ list, a < e.size ∧ Apart f d.size a := fun a ha =>
            have ha' : a ∈ (e.node c).children := by rw [hnode]; exact ha
            ⟨h.right.child_lt ha', (h.idle c hapart).apart a ha'⟩
          dsimp only
          split
          · split
            · exact h.advances_setList_spare hlt hx (by decide)
                fun a ha => hlist a (List.mem_of_mem_take ha)
            · exact h.refl_advances
          · exact h.refl_advances
      | object members =>
          dsimp only
          split
          case isFalse => exact h.refl_advances
          case isTrue =>
            have hlist : Advances k m extra f d e d
                (e.setList x "items" (List.replicate (max (most.getD 0) least) c)) :=
              h.advances_setList_spare hlt hx (by decide) fun a ha =>
                List.eq_of_mem_replicate ha ▸ ⟨h.right.get?_lt hc, hapart⟩
            refine hlist.trans fun f' hlater htwin => ?_
            split
            · have hlt' := Nat.lt_of_lt_of_le (h.right.get?_lt hc) hlater.size_le'
              exact (htwin.set_spare (hlater.apart hx hlt) (by decide)
                (hlater.apart hapart (h.right.get?_lt hc)) hlt').advances_spare
                  (Nat.le_of_eq size_changeMembers.symm)
            · exact htwin.refl_advances

lemma concerted_expandItems (hk : k ≠ "additionalItems") (least : Nat) (most : Option Nat) :
    Concerted k m extra root root' (fun d i => d.expandItems i least most)
      (fun e i => e.expandItems i least most) where
  both h _ _ hi hm := h.expandItems hk hi hm least most
  spare h hlt hx := h.expandItems_spare hlt hx least most

lemma concerted_withLeast : Concerted k m extra root root' withLeast withLeast :=
  .ite _ _ (fun h _ _ hi hm => h.has_eq hi hm) .refl
    (concerted_setScalar (by decide) (.number (.int 0)))

lemma concerted_withMost (most : Option Nat) : Concerted k m extra root root'
    (fun d i => d.withMost i most) (fun e i => e.withMost i most) :=
  .ite _ _ (fun h _ _ hi hm => by rw [h.bound?_eq hi hm]) (concerted_erase "maxItems") .refl

/-- An array schema with a least and a greatest number of items is written out. -/
def fitted (bounds : Nat × Option Nat) (d : Document) (i : NodeId) : Document :=
  if tupleLimit < bounds.1 then d.withMost i bounds.2
  else (d.withMost i bounds.2).expandItems i bounds.1 bounds.2

lemma concerted_fitted (hk : k ≠ "additionalItems") (bounds : Nat × Option Nat) :
    Concerted k m extra root root' (fitted bounds) (fitted bounds) := by
  by_cases hlimit : tupleLimit < bounds.1
  · have hfitted : fitted bounds = fun d i => d.withMost i bounds.2 := by
      funext d i
      rw [fitted, if_pos hlimit]
    rw [hfitted]
    exact concerted_withMost bounds.2
  · have hfitted : fitted bounds
        = fun d i => (d.withMost i bounds.2).expandItems i bounds.1 bounds.2 := by
      funext d i
      rw [fitted, if_neg hlimit]
    rw [hfitted]
    exact (concerted_withMost bounds.2).comp (concerted_expandItems hk bounds.1 bounds.2)

/-- The bounds of an array schema on both sides. -/
lemma concerted_bounds (hk : k ≠ "additionalItems") (s : Settings) : Concerted k m extra root root'
    (fun d i => fitted (d.leastItems i, d.mostItems s i) d i)
    (fun e i => fitted (e.leastItems i, e.mostItems s i) e i) :=
  .read fitted fitted (fun d i => (d.leastItems i, d.mostItems s i))
    (fun e i => (e.leastItems i, e.mostItems s i))
    (fun h _ _ hi hm => by
      rw [mostItems, mostItems, leastItems, leastItems, h.bound?_eq hi hm, h.bound?_eq hi hm])
    (concerted_fitted hk)

lemma concerted_boundArrays (hk : k ≠ "additionalItems") (s : Settings) :
    Concerted k m extra root root' (boundArrays s) (boundArrays s) := by
  have harrays {f : NodeId → NodeId} {d e : Document} {i : NodeId} (h : Twin k m extra f d e)
      (hi : i < d.size) (hm : i ≠ m) : e.describesArrays (f i) = d.describesArrays i := by
    rw [describesArrays, describesArrays, h.outline.hasType_eq (h.tells hi hm), h.has_eq hi hm]
  cases hs : s.ignoreBounds with
  | true =>
      have hbounds : boundArrays s = fun d i => if d.describesArrays i then
          (d.erase i "minItems").erase i "maxItems" else d := by
        funext d i
        cases hdescribes : d.describesArrays i <;> rw [boundArrays, hdescribes, hs] <;> rfl
      rw [hbounds]
      exact .ite _ _ (fun h _ _ hi hm => harrays h hi hm)
        ((concerted_erase _).comp (concerted_erase _)) .refl
  | false =>
      have hbounds : boundArrays s = fun d i => if d.describesArrays i then
          fitted ((d.withLeast i).leastItems i, (d.withLeast i).mostItems s i) (d.withLeast i) i
          else d := by
        funext d i
        cases hdescribes : d.describesArrays i with
        | false => rw [boundArrays, hdescribes]; rfl
        | true => rw [boundArrays_eq hdescribes hs]; rfl
      rw [hbounds]
      exact .ite _ _ (fun h _ _ hi hm => harrays h hi hm)
        (concerted_withLeast.comp (concerted_bounds hk s)) .refl

/-- The spelling of a schema. -/
lemma concerted_normalizeSpelling (hk : k ≠ "$defs") :
    Concerted k m extra root root' normalizeSpelling normalizeSpelling :=
  (concerted_renameId.comp (concerted_renameDefinitions hk)).comp concerted_wrapExtends

/-- The root takes the name of the declaration, on both sides. -/
lemma concerted_rootId (name : Option String) : Concerted k m extra root root'
    (fun d i => if i == root then d.defaultRootId i name else d)
    (fun e i => if i == root' then e.defaultRootId i name else e) := by
  refine .ite (fun _ i => i == root) (fun _ x => x == root')
    (fun {f d e i} h hroot hroot' hi _ => ?_)
    (concerted_defaultRootId name) .refl
  rw [Bool.eq_iff_iff, beq_iff_eq, beq_iff_eq, ← hroot']
  exact ⟨h.inj i hi root hroot, congrArg f⟩

/-- The contents of a schema. -/
lemma concerted_normalizeContents (hk : k ≠ "additionalItems") (s : Settings)
    (name : Option String) :
    Concerted k m extra root root' (normalizeContents s root name)
      (normalizeContents s root' name) :=
  (((concerted_constToEnum.comp concerted_escapeDescription).comp (concerted_rootId name)).comp
    (concerted_defaultAdditionalProperties s)).comp (concerted_boundArrays hk s)

/-- **The normal forms of twins are twins.** -/
theorem Twin.normalize (h : Twin k m extra f d e) (hk : k ≠ "$defs") (hk' : k ≠ "additionalItems")
    (s : Settings) (hroot : root < d.size) (hm : root ≠ m) (name : Option String) :
    Advances k m extra f d e (d.normalize s root name) (e.normalize s (f root) name) := by
  rw [normalize_eq, normalize_eq]
  have hspelling := (concerted_normalizeSpelling hk).foldl h hroot rfl (h.schemaIds_eq hroot)
    (fun _ => lt_size_of_mem_schemaIds) (fun _ => lt_size_of_mem_schemaIds)
    fun _ hi => h.ne_of_mem_schemaIds hm hi
  refine hspelling.trans fun f' hlater htwin => ?_
  have hroot' := hlater.agree root hroot
  have hids := htwin.schemaIds_eq (Nat.lt_of_lt_of_le hroot hlater.size_le)
  rw [hroot'] at hids
  exact (concerted_normalizeContents hk' s name).foldl htwin
    (Nat.lt_of_lt_of_le hroot hlater.size_le) hroot' hids
    (fun _ => lt_size_of_mem_schemaIds) (fun _ => lt_size_of_mem_schemaIds)
    fun _ hi => htwin.ne_of_mem_schemaIds hm hi

end SchemaDecl.Document
