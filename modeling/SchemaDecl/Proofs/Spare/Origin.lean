/-
The documents of a value and of the same value with a spare definition.

* `Document.twin_start`: the documents are twins as soon as the definitions have been inserted.
* `Document.Twin.insert`: they stay twins when the same value is inserted into both.
* `Document.Origin`: what holds of documents just inserted: nodes come after those that they hold,
  and pointers lead below a definition.
* `Document.exists_origin`: the documents of the two values are such twins.
-/
import SchemaDecl.Proofs.Document.Value
import SchemaDecl.Proofs.Document.Ways
import SchemaDecl.Proofs.Spare.Step

namespace SchemaDecl.Document

variable {d e d' e' : Document} {k key : String} {m extra i c x root : NodeId} {n : Node}
  {f f' : NodeId → NodeId} {value spare : Json} {objs : List (Keyed Json)}

/-! ### The definitions -/

/-- No object has a member under the key. -/
def Absent (d : Document) (k : String) : Prop :=
  ∀ i members, d.node i = .object members → k ∉ members.map Prod.fst

/-- Nodes that mirror objects without a key do not have the key either. -/
lemma Sprouts.absent (h : Sprouts {} d objs) (hk : ∀ o ∈ objs, k ∉ o.map Prod.fst) :
    d.Absent k := by
  intro i entries hnode
  obtain ⟨members, hmem, hmirrors⟩ := h.mirrors i (Nat.zero_le i) entries hnode
  rw [hmirrors.keys_eq]
  exact hk members hmem

lemma apart_id_iff {n : Nat} : Apart id n x ↔ n ≤ x :=
  ⟨fun hx => Nat.le_of_not_lt fun hlt => hx x hlt rfl,
    fun hle _ hi heq => Nat.not_lt_of_le hle (heq ▸ hi)⟩

section Start

variable {entries : Keyed NodeId} (hd : d.Closed) (hsprouts : Sprouts {} d objs)
  (habsent : d.Absent k) (hentries : ∀ entry ∈ entries, entry.2 < d.size)
  (hk : k ∉ entries.map Prod.fst)
include hd hsprouts habsent hentries hk

/-- The map of definitions is held by nothing yet. -/
lemma secluded_start : (d.alloc (.object entries)).2.Secluded k d.size := by
  have hnode {x : NodeId} (hx : x < d.size) : (d.alloc (.object entries)).2.node x = d.node x := by
    rw [node_alloc, if_neg (Nat.ne_of_lt hx)]
  have hlt : ∀ c ∈ (Node.object entries).children, c < d.size := by
    intro c hc
    obtain ⟨entry, hentry, rfl⟩ := List.mem_map.mp hc
    exact hentries entry hentry
  have hfits {n : Node} (hn : ∀ c ∈ n.children, c < d.size)
      (hkeys : ∀ members, n = .object members → k ∉ members.map Prod.fst) :
      (d.alloc (.object entries)).2.Fits k d.size n := by
    refine ⟨fun c hc => ?_, fun c hc hmem => ?_, fun members heq entry hentry hm => ?_,
      fun items heq hmem => ?_, fun members heq entry hentry hkey => ?_⟩
    · rw [size_alloc]
      exact Nat.lt_succ_of_lt (hn c hc)
    · rw [hnode (hn c hc)] at hmem
      exact Nat.lt_irrefl _ (hd.child_lt hmem)
    · subst heq
      exact absurd (hm ▸ hn entry.2 (List.mem_map_of_mem hentry)) (Nat.lt_irrefl _)
    · subst heq
      exact Nat.lt_irrefl _ (hn d.size hmem)
    · exact absurd (hkey ▸ List.mem_map_of_mem hentry) (hkeys members heq)
  refine ⟨(keeps_alloc hd ⟨fun c hc => Nat.lt_succ_of_lt (hlt c hc), by simp⟩).closed,
    ?_, fun x => ?_, fun x hx => ?_⟩
  · rw [isObject, members?_of_node node_alloc_self]
    rfl
  · rw [node_alloc]
    split
    · refine hfits hlt fun members heq => ?_
      obtain rfl := Node.object.inj heq
      exact hk
    · exact hfits (fun c hc => hd.child_lt hc) (habsent x)
  · rw [link_alloc, hsprouts.free x (Nat.zero_le x), ite_self] at hx
    cases hx

/-- **With a spare definition the documents are twins**, as soon as the definitions are there. -/
lemma twin_start (hspare : ∀ o ∈ spare.objects, ∀ entry ∈ o, entry.1 ∉ referringKeys) :
    Twin k d.size (d.insert spare).1 (Function.update id d.size (d.insert spare).2.size)
      (d.alloc (.object entries)).2
      ((d.insert spare).2.alloc (.object (entries ++ [(k, (d.insert spare).1)]))).2 := by
  obtain ⟨hs, hle, hlt, -⟩ := sprouts_insert spare d
  have hclosed := (keeps_insert spare hd).1.closed
  generalize (d.insert spare).1 = extra at hle hlt ⊢
  generalize (d.insert spare).2 = e at hs hlt hclosed ⊢
  have hidlt (i : NodeId) (hi : i < d.size) : i < e.size := Nat.lt_of_lt_of_le hi hs.size_le
  have hself {i : NodeId} (hi : i < d.size) : Function.update id d.size e.size i = i :=
    Function.update_of_ne (Nat.ne_of_lt hi) _ _
  have happly {x : NodeId} (hx : d.size ≤ x) (hne : x ≠ e.size) :
      Apart (Function.update id d.size e.size) (d.size + 1) x :=
    apart_update_iff.mpr ⟨apart_id_iff.mpr hx, hne⟩
  refine ⟨secluded_start hd hsprouts habsent hentries hk, ?_, fun i hi => ?_,
    fun i hi j hj heq => ?_,
    fun i hi hm => ?_, ⟨entries, node_alloc_self, Keyed.get?_eq_none_iff.mpr hk, ?_⟩,
    fun i hi => ?_,
    ?_, fun x hx => ?_⟩
  · refine (keeps_alloc hclosed ⟨fun c hc => ?_, by simp⟩).closed
    obtain ⟨entry, hentry, rfl⟩ := List.mem_map.mp hc
    rcases List.mem_append.mp hentry with hentry | hentry
    · exact Nat.lt_succ_of_lt (hidlt _ (hentries entry hentry))
    · obtain rfl := List.mem_singleton.mp hentry
      exact Nat.lt_succ_of_lt hlt
  · rw [size_alloc] at hi ⊢
    exact update_lt hidlt hi
  · rw [size_alloc] at hi hj
    exact update_inj hidlt (fun _ _ _ _ heq => heq) hi hj heq
  · rw [size_alloc] at hi
    have hlt : i < d.size := Nat.lt_of_le_of_ne (Nat.le_of_lt_succ hi) hm
    rw [hself hlt, node_alloc, if_neg (Nat.ne_of_lt (hidlt i hlt)), hs.node_eq hlt, node_alloc,
      if_neg hm, map_update fun c hc => hd.child_lt hc, Node.map_id]
  · rw [Function.update_self, node_alloc_self, map_entries_update hentries]
    exact congrArg (fun l => Node.object (l ++ [(k, extra)])) (List.map_id entries).symm
  · rw [size_alloc] at hi
    rcases Nat.lt_succ_iff_lt_or_eq.mp hi with hold | rfl
    · rw [hself hold, link_alloc, if_neg (Nat.ne_of_lt (hidlt i hold)), hs.link_eq hold, link_alloc,
        if_neg (Nat.ne_of_lt hold), hsprouts.free i (Nat.zero_le i)]
      rfl
    · rw [Function.update_self, link_alloc, if_pos rfl, link_alloc, if_pos rfl]
      rfl
  · rw [size_alloc]
    exact happly hle (Nat.ne_of_lt hlt)
  · rw [size_alloc] at hx ⊢
    obtain ⟨hapart, hne⟩ := apart_update_iff.mp hx
    have hle := apart_id_iff.mp hapart
    rw [node_alloc, if_neg hne]
    refine ⟨fun c hc => happly (hs.parts x hle c hc).1 (Nat.ne_of_lt (hclosed.child_lt hc)),
      fun entries' hnode' entry hentry hkey => ?_⟩
    obtain ⟨members, hmem, hmirrors⟩ := hs.mirrors x hle entries' hnode'
    have hkeys : entry.1 ∈ members.map Prod.fst := hmirrors.keys_eq ▸ List.mem_map_of_mem hentry
    obtain ⟨member, hmember, heq⟩ := List.mem_map.mp hkeys
    exact hspare members hmem member hmember (heq ▸ hkey)

end Start

/-! ### The same value on both sides -/

lemma Loose.extended (h : d.Loose m c) (hd : d.Extends d') : d'.Loose m c := by
  refine ⟨Nat.lt_of_lt_of_le h.lt hd.size_le, h.ne, ?_⟩
  rw [hd.node_eq h.lt]
  exact h.unheld

namespace Twin

/-- A node of loose ones is added on both sides. -/
lemma alloc_loose (h : Twin k m extra f d e) (hn : ∀ c ∈ n.children, d.Loose m c)
    (hk : ∀ members, n = .object members → k ∉ members.map Prod.fst) :
    ∃ f', Later f d e f' (d.alloc n).2 (e.alloc (n.map f)).2 ∧
      Twin k m extra f' (d.alloc n).2 (e.alloc (n.map f)).2 ∧
      f' (d.alloc n).1 = (e.alloc (n.map f)).1 ∧ (d.alloc n).2.Loose m (d.alloc n).1 := by
  have hfits : d.Fits k m n := by
    refine ⟨fun c hc => (hn c hc).lt, fun c hc => (hn c hc).unheld,
      fun members heq entry hentry hm => ?_,
      fun items heq hmem => ?_, fun members heq entry hentry hkey => ?_⟩
    · subst heq
      exact absurd hm (hn entry.2 (List.mem_map_of_mem hentry)).ne
    · subst heq
      exact (hn m hmem).ne rfl
    · exact absurd (hkey ▸ List.mem_map_of_mem hentry) (hk members heq)
  obtain ⟨hlater, htwin⟩ := h.alloc (l := .free) hfits (fun p hp => by cases hp)
    fun heq => by cases heq
  refine ⟨_, hlater, htwin, Function.update_self .., lt_size_alloc, Nat.ne_of_gt h.map_lt, ?_⟩
  have hnode : (d.alloc n).2.node (d.alloc n).1 = n := node_alloc_self
  rw [hnode]
  exact fun hmem => (hn m hmem).ne rfl

mutual

/-- Inserting a value without the key of the spare definition. -/
lemma insert : (value : Json) → {f : NodeId → NodeId} → {d e : Document} → Twin k m extra f d e →
    (∀ o ∈ value.objects, k ∉ o.map Prod.fst) →
    ∃ f', Later f d e f' (d.insert value).2 (e.insert value).2 ∧
      Twin k m extra f' (d.insert value).2 (e.insert value).2 ∧
      f' (d.insert value).1 = (e.insert value).1 ∧
      (d.insert value).2.Loose m (d.insert value).1
  | .scalar value, f, d, e, h, _ => by
      rw [Document.insert, Document.insert]
      exact h.alloc_loose (n := .leaf value) (fun _ hc => nomatch hc) fun _ heq => nomatch heq
  | .array items, f, d, e, h, hk => by
      rw [Json.objects] at hk
      obtain ⟨f₁, hlater, htwin, hids, hloose⟩ := insertItems items h hk
      rw [insert_array, insert_array, hids]
      obtain ⟨f₂, hlater', hrest⟩ := htwin.alloc_loose (n := .array (d.insertItems items).1) hloose
        fun _ heq => nomatch heq
      exact ⟨f₂, hlater.trans hlater', hrest⟩
  | .object members, f, d, e, h, hk => by
      rw [Json.objects] at hk
      obtain ⟨hk, hk'⟩ := List.forall_mem_cons.mp hk
      obtain ⟨f₁, hlater, htwin, hids, hloose⟩ := insertMembers members h hk'
      have hchildren : ∀ c ∈ (Node.object (d.insertMembers members).1).children,
          (d.insertMembers members).2.Loose m c := by
        intro c hc
        obtain ⟨entry, hentry, rfl⟩ := List.mem_map.mp hc
        exact hloose entry hentry
      have hkeys : ∀ entries, Node.object (d.insertMembers members).1 = .object entries →
          k ∉ entries.map Prod.fst := by
        rintro _ ⟨⟩
        rwa [Distinct.map_fst_insertMembers]
      obtain ⟨f₂, hlater', hrest⟩ := htwin.alloc_loose hchildren hkeys
      rw [insert_object, insert_object, hids]
      exact ⟨f₂, hlater.trans hlater', hrest⟩

lemma insertItems : (items : List Json) → {f : NodeId → NodeId} → {d e : Document} →
    Twin k m extra f d e → (∀ o ∈ Json.itemObjects items, k ∉ o.map Prod.fst) →
    ∃ f', Later f d e f' (d.insertItems items).2 (e.insertItems items).2 ∧
      Twin k m extra f' (d.insertItems items).2 (e.insertItems items).2 ∧
      (e.insertItems items).1 = (d.insertItems items).1.map f' ∧
      ∀ c ∈ (d.insertItems items).1, (d.insertItems items).2.Loose m c
  | [], f, d, e, h, _ => ⟨f, .refl f d e, h, rfl, fun _ hc => nomatch hc⟩
  | item :: rest, f, d, e, h, hk => by
      rw [Json.itemObjects] at hk
      obtain ⟨hk, hk'⟩ := List.forall_mem_append.mp hk
      obtain ⟨f₁, hlater, htwin, hid, hloose⟩ := insert item h hk
      obtain ⟨f₂, hlater', htwin', hids, hloose'⟩ := insertItems rest htwin hk'
      have hextends := (sprouts_insertItems rest (d.insert item).2).1.toExtends
      rw [insertItems_cons, insertItems_cons]
      refine ⟨f₂, hlater.trans hlater', htwin', ?_,
        List.forall_mem_cons.mpr ⟨hloose.extended hextends, hloose'⟩⟩
      rw [List.map_cons, hlater'.agree _ hloose.lt, hid, hids]

lemma insertMembers : (members : List (String × Json)) → {f : NodeId → NodeId} →
    {d e : Document} → Twin k m extra f d e →
    (∀ o ∈ Json.memberObjects members, k ∉ o.map Prod.fst) →
    ∃ f', Later f d e f' (d.insertMembers members).2 (e.insertMembers members).2 ∧
      Twin k m extra f' (d.insertMembers members).2 (e.insertMembers members).2 ∧
      (e.insertMembers members).1 = (d.insertMembers members).1.map (fun e => (e.1, f' e.2)) ∧
      ∀ entry ∈ (d.insertMembers members).1, (d.insertMembers members).2.Loose m entry.2
  | [], f, d, e, h, _ => ⟨f, .refl f d e, h, rfl, fun _ hc => nomatch hc⟩
  | (key, value) :: rest, f, d, e, h, hk => by
      rw [Json.memberObjects] at hk
      obtain ⟨hk, hk'⟩ := List.forall_mem_append.mp hk
      obtain ⟨f₁, hlater, htwin, hid, hloose⟩ := insert value h hk
      obtain ⟨f₂, hlater', htwin', hids, hloose'⟩ := insertMembers rest htwin hk'
      have hextends := (sprouts_insertMembers rest (d.insert value).2).1.toExtends
      rw [insertMembers_cons, insertMembers_cons]
      refine ⟨f₂, hlater.trans hlater', htwin', ?_,
        List.forall_mem_cons.mpr ⟨hloose.extended hextends, hloose'⟩⟩
      rw [List.map_cons, hlater'.agree _ hloose.lt, hid, hids]

end

end Twin

/-! ### The whole value -/

/-- Documents of values: a node comes after those that it holds, nothing is linked, the map of
definitions is held by the root, nothing but the spare definition has its key, and every pointer
leads below a definition. -/
structure Origin (k : String) (m : NodeId) (f : NodeId → NodeId) (d e : Document) (root : NodeId) :
    Prop where
  parts : ∀ i, ∀ c ∈ (d.node i).children, c < i
  free : ∀ i, d.link i = .free
  absent : d.Absent k
  definitions : d.get? root "$defs" = some m
  points : ∀ c pointer, d.localPointer? c = some pointer → ∃ name rest,
    Pointer.steps? pointer.toList = some ("$defs".toList :: name :: rest) ∧
      (d.get? m (String.ofList name)).isSome = true
  map_pointer : e.localPointer? (f m) = d.localPointer? m

/-- A pointer below a definition of `defs`. -/
def PointsBelow (defs : Keyed Json) (pointer : String) : Prop :=
  ∃ name rest, Pointer.steps? pointer.toList = some ("$defs".toList :: name :: rest) ∧
    Keyed.has defs (String.ofList name) = true

/-- A value with `defs` as its definitions, after `pre` and before `post`. -/
def valueWith (pre defs post : Keyed Json) : Json :=
  .object (pre ++ ("$defs", .object defs) :: post)

/-- The definitions are inserted after what comes before them, and the root comes last. -/
lemma inserted_valueWith {pre defs post : Keyed Json} {before inside after : Keyed NodeId}
    {d₁ d₂ d₃ : Document} (h₁ : insertMembers {} pre = (before, d₁))
    (h₂ : d₁.insertMembers defs = (inside, d₂))
    (h₃ : (d₂.alloc (.object inside)).2.insertMembers post = (after, d₃)) :
    inserted (valueWith pre defs post)
      = d₃.alloc (.object (before ++ ("$defs", d₂.size) :: after)) := by
  rw [inserted, valueWith, insert_object, insertMembers_append, insertMembers_cons,
    insert_object, h₁]
  dsimp only
  rw [h₂]
  dsimp only
  rw [h₃]
  rfl

lemma insertMembers_concat {members : Keyed Json} {entries : Keyed NodeId}
    (h : d.insertMembers members = (entries, e)) (k : String) (spare : Json) :
    d.insertMembers (members ++ [(k, spare)])
      = (entries ++ [(k, (e.insert spare).1)], (e.insert spare).2) := by
  rw [insertMembers_append, h]
  dsimp only
  rw [insertMembers_cons, insertMembers]

/-- The root may be added: it holds the map of definitions, what came before the map, and what came
after it. -/
lemma Twin.fits_root (h : Twin k m extra f d e) (hparts : ∀ i, ∀ c ∈ (d.node i).children, c < i)
    {before after : Keyed NodeId} (hbefore : ∀ entry ∈ before, entry.2 < m)
    (hafter : ∀ entry ∈ after, d.Loose m entry.2)
    (hk : k ∉ (before ++ ("$defs", m) :: after).map Prod.fst) :
    d.Fits k m (.object (before ++ ("$defs", m) :: after)) := by
  have hentry {entry : String × NodeId} (hmem : entry ∈ before ++ ("$defs", m) :: after) :
      entry.2 ≤ m ∧ (entry.2 = m → entry.1 = "$defs") ∨ d.Loose m entry.2 := by
    rcases List.mem_append.mp hmem with hmem | hmem
    · exact .inl ⟨Nat.le_of_lt (hbefore entry hmem),
        fun heq => absurd (hbefore entry hmem) (heq ▸ Nat.lt_irrefl _)⟩
    · rcases List.mem_cons.mp hmem with rfl | hmem
      · exact .inl ⟨Nat.le_refl _, fun _ => rfl⟩
      · exact .inr (hafter entry hmem)
  refine ⟨fun c hc => ?_, fun c hc => ?_, ?_, (fun _ heq => by cases heq), ?_⟩
  · obtain ⟨entry, hmem, rfl⟩ := List.mem_map.mp hc
    rcases hentry hmem with ⟨hle, -⟩ | hloose
    · exact Nat.lt_of_le_of_lt hle h.map_lt
    · exact hloose.lt
  · obtain ⟨entry, hmem, rfl⟩ := List.mem_map.mp hc
    rcases hentry hmem with ⟨hle, -⟩ | hloose
    · exact fun hheld => Nat.not_lt_of_le hle (hparts _ m hheld)
    · exact hloose.unheld
  · rintro _ ⟨⟩ entry hmem heq
    rcases hentry hmem with ⟨-, haside⟩ | hloose
    · exact haside heq
    · exact absurd heq hloose.ne
  · rintro _ ⟨⟩ entry hmem heq
    exact absurd (heq ▸ List.mem_map_of_mem hmem) hk

/-- The root is added to both documents. -/
lemma Twin.alloc_root (h : Twin k m extra f d e) (hparts : ∀ i, ∀ c ∈ (d.node i).children, c < i)
    {before after : Keyed NodeId} (hbefore : ∀ entry ∈ before, entry.2 < m ∧ f entry.2 = entry.2)
    (hafter : ∀ entry ∈ after, d.Loose m entry.2)
    (hk : k ∉ (before ++ ("$defs", m) :: after).map Prod.fst) :
    Twin k m extra (Function.update f d.size e.size)
      (d.alloc (.object (before ++ ("$defs", m) :: after))).2
      (e.alloc (.object (before ++ ("$defs", f m) :: after.map fun e => (e.1, f e.2)))).2 := by
  have hfits := h.fits_root hparts (fun entry hentry => (hbefore entry hentry).1) hafter hk
  have himage : (Node.object (before ++ ("$defs", m) :: after)).map f
      = .object (before ++ ("$defs", f m) :: after.map fun e => (e.1, f e.2)) := by
    have hold : before.map (fun e => (e.1, f e.2)) = before := by
      refine (List.map_congr_left fun entry hentry => ?_).trans (List.map_id before)
      rw [(hbefore entry hentry).2]
      rfl
    rw [Node.map, List.map_append, List.map_cons, hold]
  rw [← himage]
  exact (h.alloc (l := .free) hfits (fun p hp => by cases hp) fun heq => by cases heq).2

/-- What is there when the definitions of a value have been inserted. -/
lemma inserted_definitions {pre defs : Keyed Json} {before inside : Keyed NodeId} {d₁ d₂ : Document}
    (h₁ : insertMembers {} pre = (before, d₁)) (h₂ : d₁.insertMembers defs = (inside, d₂)) :
    d₂.Closed ∧ Sprouts {} d₂ (Json.memberObjects pre ++ Json.memberObjects defs) ∧
      (∀ entry ∈ before, entry.2 < d₂.size) ∧ (∀ entry ∈ inside, entry.2 < d₂.size) ∧
      before.map Prod.fst = pre.map Prod.fst ∧ inside.map Prod.fst = defs.map Prod.fst := by
  obtain ⟨hs₁, hbefore, hmirrors₁⟩ := sprouts_insertMembers pre {}
  obtain ⟨hs₂, hinside, hmirrors₂⟩ := sprouts_insertMembers defs d₁
  have hclosed₁ := (keeps_insertMembers pre (d := {}) (fun _ hslot => nomatch hslot)).1.closed
  rw [h₁] at hs₁ hbefore hmirrors₁ hclosed₁
  have hclosed₂ := (keeps_insertMembers defs hclosed₁).1.closed
  dsimp only at hs₁ hbefore hmirrors₁ hclosed₂
  rw [h₂] at hs₂ hinside hmirrors₂ hclosed₂
  dsimp only at hs₂ hinside hmirrors₂ hclosed₂
  exact ⟨hclosed₂, hs₁.trans hs₂,
    fun entry hentry => Nat.lt_of_lt_of_le (hbefore entry hentry).2 hs₂.size_le,
    fun entry hentry => (hinside entry hentry).2, hmirrors₁.keys_eq, hmirrors₂.keys_eq⟩

lemma objects_valueWith (pre defs post : Keyed Json) : (valueWith pre defs post).objects
    = (pre ++ ("$defs", .object defs) :: post) ::
      (Json.memberObjects pre ++ (defs :: Json.memberObjects defs ++ Json.memberObjects post)) := by
  rw [valueWith, Json.objects, Json.memberObjects_append, Json.memberObjects, Json.objects]

/-- The documents of a value and of the value with a spare definition are twins. The root holds the
map of definitions, and both have the keys of the value. -/
lemma exists_twin_inserted {pre defs post : Keyed Json}
    (hk : ∀ o ∈ (valueWith pre defs post).objects, k ∉ o.map Prod.fst)
    (hspare : ∀ o ∈ spare.objects, ∀ entry ∈ o, entry.1 ∉ referringKeys) :
    ∃ m extra f, Twin k m extra f (inserted (valueWith pre defs post)).2
        (inserted (valueWith pre (defs ++ [(k, spare)]) post)).2 ∧
      f (inserted (valueWith pre defs post)).1
        = (inserted (valueWith pre (defs ++ [(k, spare)]) post)).1 ∧
      (∃ before after, (inserted (valueWith pre defs post)).2.node
          (inserted (valueWith pre defs post)).1 = .object (before ++ ("$defs", m) :: after) ∧
        before.map Prod.fst = pre.map Prod.fst) ∧
      (∃ inside, (inserted (valueWith pre defs post)).2.node m = .object inside ∧
        inside.map Prod.fst = defs.map Prod.fst) ∧
      (inserted (valueWith pre (defs ++ [(k, spare)]) post)).2.leaf? extra = spare.scalar? := by
  obtain ⟨before, d₁, h₁⟩ : ∃ entries d, insertMembers {} pre = (entries, d) := ⟨_, _, rfl⟩
  obtain ⟨inside, d₂, h₂⟩ : ∃ entries d, d₁.insertMembers defs = (entries, d) := ⟨_, _, rfl⟩
  obtain ⟨after, d₄, h₄⟩ : ∃ entries d,
    (d₂.alloc (.object inside)).2.insertMembers post = (entries, d) := ⟨_, _, rfl⟩
  obtain ⟨after', e₄, h₄'⟩ : ∃ entries e, ((d₂.insert spare).2.alloc
      (.object (inside ++ [(k, (d₂.insert spare).1)]))).2.insertMembers post = (entries, e) :=
    ⟨_, _, rfl⟩
  have hleft := inserted_valueWith h₁ h₂ h₄
  have hright := inserted_valueWith h₁ (insertMembers_concat h₂ k spare) h₄'
  have hk' := hk
  simp only [objects_valueWith, List.forall_mem_cons, List.forall_mem_append] at hk'
  obtain ⟨hkroot, hkpre, ⟨hkdefs, hkinside⟩, hkpost⟩ := hk'
  -- up to the map of definitions
  obtain ⟨hclosed, hs, hbefore, hinside, hkeysbefore, hkeysinside⟩ := inserted_definitions h₁ h₂
  have hstart := twin_start hclosed hs
    (hs.absent (List.forall_mem_append.mpr ⟨hkpre, hkinside⟩)) hinside (hkeysinside ▸ hkdefs) hspare
  -- after it
  obtain ⟨f₄, hlater, htwin, hids, hloose⟩ := hstart.insertMembers post hkpost
  have hextends := (sprouts_insertMembers post (d₂.alloc (.object inside)).2).1.toExtends
  have hextends' := (sprouts_insertMembers post ((d₂.insert spare).2.alloc
    (.object (inside ++ [(k, (d₂.insert spare).1)]))).2).1.toExtends
  have hkeysafter := Distinct.map_fst_insertMembers (d₂.alloc (.object inside)).2 post
  rw [h₄, h₄'] at hlater htwin hids
  rw [h₄] at hloose hextends hkeysafter
  rw [h₄'] at hextends'
  dsimp only at hlater htwin hids hloose hextends hextends' hkeysafter
  have hself {i : NodeId} (hi : i < d₂.size) : f₄ i = i := by
    rw [hlater.agree i (by rw [size_alloc]; exact Nat.lt_succ_of_lt hi)]
    exact Function.update_of_ne (Nat.ne_of_lt hi) _ _
  have hmap : f₄ d₂.size = (d₂.insert spare).2.size := by
    rw [hlater.agree d₂.size lt_size_alloc]
    exact Function.update_self ..
  -- the root
  have hparts : ∀ i, ∀ c ∈ (d₄.node i).children, c < i := by
    intro i c hc
    have hs₅ := (sprouts_insert (valueWith pre defs post) {}).1
    rw [← inserted, hleft] at hs₅
    rw [← (Sprouts.extends_alloc d₄ _).node_eq (lt_size_of_mem_children hc)] at hc
    exact (hs₅.parts i (Nat.zero_le i) c hc).2
  have hkroot' : k ∉ (before ++ ("$defs", d₂.size) :: after).map Prod.fst := by
    rw [List.map_append, List.map_cons] at hkroot ⊢
    rwa [hkeysbefore, hkeysafter]
  have hrooted := htwin.alloc_root hparts
    (fun entry hentry => ⟨hbefore entry hentry, hself (hbefore entry hentry)⟩) hloose hkroot'
  rw [hmap, ← hids] at hrooted
  obtain ⟨-, -, hextra, hscalar⟩ := sprouts_insert spare d₂
  have hextra' : (d₂.insert spare).1
      < ((d₂.insert spare).2.alloc (.object (inside ++ [(k, (d₂.insert spare).1)]))).2.size :=
    Nat.lt_of_lt_of_le hextra (Sprouts.extends_alloc _ _).size_le
  rw [hleft, hright]
  refine ⟨d₂.size, (d₂.insert spare).1, Function.update f₄ d₄.size e₄.size, hrooted,
    Function.update_self .., ⟨before, after, node_alloc_self, hkeysbefore⟩,
    ⟨inside, ?_, hkeysinside⟩, ?_⟩
  · rw [(Sprouts.extends_alloc d₄ _).node_eq htwin.map_lt]
    exact (hextends.node_eq lt_size_alloc).trans node_alloc_self
  · rw [(Sprouts.extends_alloc e₄ _).leaf?_eq (Nat.lt_of_lt_of_le hextra' hextends'.size_le),
      hextends'.leaf?_eq hextra', (Sprouts.extends_alloc _ _).leaf?_eq hextra, hscalar]

/-- A spare definition under the key `$ref` makes no reference of the map, if it is none of the
strings that begin with a hash sign. -/
lemma Twin.map_pointer_eq (h : Twin k m extra f d e) (habsent : d.Absent k)
    (hextra : e.leaf? extra = spare.scalar?)
    (hplain : k = "$ref" → ∀ text, spare = .string text → text.toList.head? ≠ some '#') :
    e.localPointer? (f m) = d.localPointer? m := by
  by_cases hk : k = "$ref"
  · subst hk
    obtain ⟨entries, hd, hnone, he⟩ := h.map_eq
    have hleft : d.localPointer? m = none := by
      rw [localPointer?, string?, scalar?, get?_of_node hd, hnone]
      rfl
    rw [hleft, Option.eq_none_iff_forall_ne_some]
    intro pointer hpointer
    obtain ⟨hstring, hhash⟩ := localPointer?_eq_some_iff.mp hpointer
    have hget : e.get? (f m) "$ref" = some extra := by
      rw [get?_of_node he]
      exact Keyed.get?_append_of_get?_eq_none _ (by rw [Keyed.get?_map, hnone]; rfl) _
    rw [string?, scalar?_of_get? hget, hextra] at hstring
    cases spare with
    | scalar value =>
        cases value with
        | string text =>
            obtain rfl := Option.some.inj hstring
            exact hplain rfl text rfl hhash
        | _ => cases hstring
    | _ => cases hstring
  · rw [localPointer?, localPointer?, string?, string?, h.scalar?_eq' h.map_lt (.inr (Ne.symm hk))]

/-- **The documents of a value and of the value with a spare definition are twins**, and all
pointers in the value lead below other definitions. -/
theorem exists_origin {pre defs post : Keyed Json} (hpre : "$defs" ∉ pre.map Prod.fst)
    (hk : ∀ o ∈ (valueWith pre defs post).objects, k ∉ o.map Prod.fst)
    (hrefs : ∀ o ∈ (valueWith pre defs post).objects, ∀ pointer,
      Keyed.get? o "$ref" = some (.string pointer) → pointer.toList.head? = some '#' →
        PointsBelow defs pointer)
    (hspare : ∀ o ∈ spare.objects, ∀ entry ∈ o, entry.1 ∉ referringKeys)
    (hplain : k = "$ref" → ∀ text, spare = .string text → text.toList.head? ≠ some '#') :
    ∃ m extra f, Twin k m extra f (inserted (valueWith pre defs post)).2
        (inserted (valueWith pre (defs ++ [(k, spare)]) post)).2 ∧
      f (inserted (valueWith pre defs post)).1
        = (inserted (valueWith pre (defs ++ [(k, spare)]) post)).1 ∧
      Origin k m f (inserted (valueWith pre defs post)).2
        (inserted (valueWith pre (defs ++ [(k, spare)]) post)).2
        (inserted (valueWith pre defs post)).1 := by
  obtain ⟨m, extra, f, htwin, hroot, ⟨before, after, hrootnode, hbefore⟩, ⟨inside, hmap, hinside⟩,
    hextra⟩ := exists_twin_inserted hk hspare
  have hs := (sprouts_insert (valueWith pre defs post) {}).1
  have habsent := hs.absent hk
  refine ⟨m, extra, f, htwin, hroot, fun i c hc => (hs.parts i (Nat.zero_le i) c hc).2,
    fun i => hs.free i (Nat.zero_le i), habsent, ?_,
    fun c pointer hpointer => ?_, htwin.map_pointer_eq habsent hextra hplain⟩
  · rw [get?_of_node hrootnode]
    exact Keyed.get?_append_cons_self (hbefore ▸ hpre)
  · obtain ⟨hstring, -⟩ := localPointer?_eq_some_iff.mp hpointer
    obtain ⟨child, hchild⟩ := exists_get?_of_string? hstring
    obtain ⟨entries, hnode⟩ := exists_members_of_isObject (isObject_of_get? hchild)
    obtain ⟨members, hmem, hmirrors⟩ := hs.mirrors c (Nat.zero_le c) entries hnode
    obtain ⟨hget, hhash⟩ := hmirrors.get?_eq_of_localPointer? hnode hpointer
    obtain ⟨name, rest, hsteps, hname⟩ := hrefs members hmem pointer hget hhash
    refine ⟨name, rest, hsteps, ?_⟩
    rw [get?_of_node hmap, ← Keyed.has, Keyed.has_eq_of_keys_eq hinside]
    exact hname

end SchemaDecl.Document
