/-
The schemas of twins.

The schemas of a document have their images among the schemas of its twin, in the same order, and
the others there are spare.

* `Twin.positions_eq`: the positions inside a node and inside its image, the spare ones left out.
* `Twin.schemaIds_eq`: the schemas of both documents.
* `Twin.ne_of_mem_schemaIds`: the map of definitions is no schema.
-/
import SchemaDecl.Proofs.Document.Ways
import SchemaDecl.Proofs.Spare.Step
import SchemaDecl.Proofs.Walk.Embedding

namespace SchemaDecl.Document

variable {d e : Document} {k : String} {m extra i c x root : NodeId} {f : NodeId → NodeId}

/-! ### Positions -/

/-- The number is no image. -/
def spareIn (f : NodeId → NodeId) (n : Nat) (x : NodeId) : Bool := decide (Apart f n x)

lemma spareIn_eq_true_iff {n : Nat} : spareIn f n x = true ↔ Apart f n x := decide_eq_true_iff

lemma spareIn_image {n : Nat} (hi : i < n) : spareIn f n (f i) = false :=
  decide_eq_false fun h => h i hi rfl

/-- Edges to images are kept. -/
lemma keptEdges_map {κ : Type} {g : κ → κ} {n : Nat} {es : List (κ × NodeId)}
    (h : ∀ e ∈ es, e.2 < n) : Walk.keptEdges (spareIn f n) (es.map fun e => (g e.1, f e.2))
      = es.map fun e => (g e.1, f e.2) := by
  refine List.filter_eq_self.mpr fun e he => ?_
  obtain ⟨e', he', rfl⟩ := List.mem_map.mp he
  simp [spareIn_image (h e' he')]

lemma keptEdges_self {n : Nat} {c : NodeId} (h : c < n) :
    Walk.keptEdges (spareIn f n) [((none : Option String), f c)] = [(none, f c)] := by
  rw [Walk.keptEdges_cons, if_neg (by simp [spareIn_image h])]
  rfl

/-- Edges to spare nodes are left out. -/
lemma keptEdges_eq_nil {κ : Type} {n : Nat} {es : List (κ × NodeId)} (h : ∀ e ∈ es, Apart f n e.2) :
    Walk.keptEdges (spareIn f n) es = [] :=
  List.filter_eq_nil_iff.mpr fun e he => by simp [spareIn_eq_true_iff.mpr (h e he)]

namespace Twin

section Positions

variable (h : Twin k m extra f d e)
include h

/-- Positions of spare nodes are spare. -/
lemma apart_of_mem_positions (hx : Apart f d.size x) {entry : Option String × NodeId}
    (hc : entry ∈ e.positions x) : Apart f d.size entry.2 := by
  rcases mem_positions ⟨entry.1, hc⟩ with ⟨key, -, hget⟩ | ⟨p, hp, hc⟩
  · exact h.apart_of_get? hx hget
  · exact (h.idle p ((h.idle x hx).apart p hp)).apart _ hc

/-- The map of definitions stands at no position. -/
lemma ne_of_mem_positions {entry : Option String × NodeId} (hc : entry ∈ d.positions i) :
    entry.2 ≠ m := by
  rcases mem_positions ⟨entry.1, hc⟩ with ⟨key, hkey, hget⟩ | ⟨p, hp, hc⟩
  · exact (h.left.loose_of_get? hkey hget).ne
  · exact (h.left.loose_of_grandchild hp hc).ne

lemma keptEdges_indexed (hi : i < d.size) :
    Walk.keptEdges (spareIn f d.size) (e.indexed (f i))
      = (d.indexed i).map fun e => (e.1, f e.2) := by
  rw [h.outline.indexed_eq hi]
  refine keptEdges_map (g := id) fun entry hentry => ?_
  exact h.child_lt (mem_children_of_mem_items (exists_mem_indexed.mp ⟨entry.1, hentry⟩))

lemma keptEdges_named (hi : i < d.size) :
    Walk.keptEdges (spareIn f d.size) (e.named (f i)) = (d.named i).map fun e => (e.1, f e.2) := by
  have hmembers {members : Keyed NodeId} (hnode : d.node i = .object members) :
      Walk.keptEdges (spareIn f d.size)
          ((members.map fun e => (e.1, f e.2)).map fun e => (some e.1, e.2))
        = (members.map fun e => (some e.1, e.2)).map fun e => (e.1, f e.2) := by
    have hswap : ((members.map fun e => (e.1, f e.2)).map fun e => (some e.1, e.2))
        = (members.map fun e => (some e.1, e.2)).map fun e => (e.1, f e.2) := by
      simp [List.map_map, Function.comp_def]
    rw [hswap]
    refine keptEdges_map (g := id) fun entry hentry => ?_
    obtain ⟨entry', hentry', rfl⟩ := List.mem_map.mp hentry
    exact h.entry_lt hnode entry' hentry'
  by_cases hm : i = m
  · subst hm
    obtain ⟨entries, hd, -, he⟩ := h.map_eq
    rw [named, named, hd, he]
    have hextra : Walk.keptEdges (spareIn f d.size) [(some k, extra)] = [] :=
      keptEdges_eq_nil (by simpa using h.extra_apart)
    simp only [List.map_append, Walk.keptEdges_append, hmembers hd, List.map_cons, List.map_nil,
      hextra, List.append_nil]
  · have hnode' := h.node_eq i hi hm
    cases hnode : d.node i with
    | object members =>
        rw [hnode] at hnode'
        rw [named, named, hnode, hnode']
        exact hmembers hnode
    | array items =>
        rw [hnode] at hnode'
        rw [named, named, hnode, hnode']
        exact h.keptEdges_indexed hi
    | leaf value =>
        rw [hnode] at hnode'
        rw [named, named, hnode, hnode']
        exact h.keptEdges_indexed hi

lemma keptEdges_oneOrMany (hi : i < d.size) :
    Walk.keptEdges (spareIn f d.size) (e.oneOrMany (f i))
      = (d.oneOrMany i).map fun e => (e.1, f e.2) := by
  rw [oneOrMany, oneOrMany, h.outline.isArray_eq hi]
  split
  · exact h.keptEdges_indexed hi
  · exact keptEdges_self hi

/-- The positions under some keywords, the spare ones left out. Under the key of the spare
definition there are only spare ones. -/
lemma keptEdges_under (hi : i < d.size) {g g' : NodeId → List (Option String × NodeId)}
    (hg : ∀ c < d.size,
      Walk.keptEdges (spareIn f d.size) (g' (f c)) = (g c).map fun e => (e.1, f e.2))
    (hspare : ∀ x, Apart f d.size x → ∀ entry ∈ g' x, Apart f d.size entry.2) (keys : List String) :
    Walk.keptEdges (spareIn f d.size)
        (keys.flatMap fun key => ((e.get? (f i) key).map g').getD [])
      = (keys.flatMap fun key => ((d.get? i key).map g).getD []).map fun e => (e.1, f e.2) := by
  rw [Walk.keptEdges_flatMap, List.map_flatMap]
  refine List.flatMap_congr fun key _ => ?_
  by_cases hkey : i ≠ m ∨ key ≠ k
  · rw [h.get?_eq hi hkey]
    cases hc : d.get? i key with
    | none => rfl
    | some c => exact hg c (h.left.closed.get?_lt hc)
  · obtain ⟨rfl, rfl⟩ : i = m ∧ key = k := by simpa [not_or] using hkey
    obtain ⟨entries, hd, hk, -⟩ := h.map_eq
    rw [get?_of_node hd, hk]
    cases hx : e.get? (f i) key with
    | none => rfl
    | some x =>
        refine keptEdges_eq_nil fun entry hentry => hspare x ?_ entry hentry
        exact h.eq_extra_of_get? hx ▸ h.extra_apart

/-- Positions on both sides. -/
lemma positions_eq (hi : i < d.size) :
    Walk.keptEdges (spareIn f d.size) (e.positions (f i))
      = (d.positions i).map fun e => (e.1, f e.2) := by
  have hindexed : ∀ x, Apart f d.size x → ∀ entry ∈ e.indexed x, Apart f d.size entry.2 :=
    fun x hx entry hentry => (h.idle x hx).apart _
      (mem_children_of_mem_items (exists_mem_indexed.mp ⟨entry.1, hentry⟩))
  have hnamed : ∀ x, Apart f d.size x → ∀ entry ∈ e.named x, Apart f d.size entry.2 :=
    fun x hx entry hentry => (h.idle x hx).apart _ (exists_mem_named.mp ⟨entry.1, hentry⟩)
  have hself : ∀ x, Apart f d.size x → ∀ entry ∈ [((none : Option String), x)],
      Apart f d.size entry.2 := by simp
  have hone : ∀ x, Apart f d.size x → ∀ entry ∈ e.oneOrMany x, Apart f d.size entry.2 := by
    intro x hx entry hentry
    rw [oneOrMany] at hentry
    split at hentry
    · exact hindexed x hx entry hentry
    · exact hself x hx entry hentry
  have hself' : ∀ c < d.size, Walk.keptEdges (spareIn f d.size) [((none : Option String), f c)]
      = [((none : Option String), c)].map fun e => (e.1, f e.2) := fun c hc =>
    keptEdges_self hc
  simp only [positions, Walk.keptEdges_append, List.map_append,
    h.keptEdges_under hi (fun _ hc => h.keptEdges_indexed hc) hindexed,
    h.keptEdges_under hi (fun _ hc => h.keptEdges_named hc) hnamed,
    h.keptEdges_under hi hself' hself,
    h.keptEdges_under hi (fun _ hc => h.keptEdges_oneOrMany hc) hone]
  congr 1
  -- what is left are the keywords that are not known
  have hunknown {members : Keyed NodeId} (hnode : d.node i = .object members) :
      Walk.keptEdges (spareIn f d.size) ((members.map fun e => (e.1, f e.2)).flatMap fun entry =>
          if knownKeywords.contains entry.1 then [] else e.named entry.2)
        = (members.flatMap fun entry =>
          if knownKeywords.contains entry.1 then [] else d.named entry.2).map
            fun e => (e.1, f e.2) := by
    rw [List.flatMap_map, Walk.keptEdges_flatMap, List.map_flatMap]
    refine List.flatMap_congr fun entry hentry => ?_
    split
    · rfl
    · exact h.keptEdges_named (h.entry_lt hnode entry hentry)
  by_cases hm : i = m
  · subst hm
    obtain ⟨entries, hd, -, he⟩ := h.map_eq
    have hextra : Walk.keptEdges (spareIn f d.size)
        (if knownKeywords.contains k then [] else e.named extra) = [] := by
      split
      · rfl
      · exact keptEdges_eq_nil (hnamed extra h.extra_apart)
    rw [members?_of_node hd, members?_of_node he, Option.getD_some, Option.getD_some,
      List.flatMap_append, Walk.keptEdges_append, hunknown hd, List.flatMap_singleton, hextra,
      List.append_nil]
  · rw [h.members?_eq hi hm, members?]
    cases hnode : d.node i with
    | object members => exact hunknown hnode
    | _ => rfl

/-- Schemas below a schema, on both sides. -/
lemma schemaEdges_eq (hi : i < d.size) :
    Walk.keptEdges (spareIn f d.size) (e.schemaEdges (f i))
      = (d.schemaEdges i).map fun e => (e.1, f e.2) := by
  rw [schemaEdges, schemaEdges, Walk.keptEdges, List.filter_comm, ← Walk.keptEdges,
    h.positions_eq hi, List.filter_map]
  refine congrArg (List.map _) (List.filter_congr fun entry hentry => ?_)
  exact h.isObject_eq (h.left.closed.positions_lt hentry)

lemma embeds_schemaEdges : Walk.Embeds d.schemaEdges e.schemaEdges (· < d.size) f id
    (spareIn f d.size) where
  inj := h.inj
  keeps _ hi := spareIn_image hi
  next_eq _ hi := h.schemaEdges_eq hi
  dom_next _ _ _ hentry := h.left.closed.positions_lt (List.mem_filter.mp hentry).1
  spare_next _ hx _ hentry := spareIn_eq_true_iff.mpr
    (h.apart_of_mem_positions (spareIn_eq_true_iff.mp hx) (List.mem_filter.mp hentry).1)

/-- **The schemas of the twin are the images of the schemas, in order, and spare ones.** -/
lemma schemaIds_eq (hroot : root < d.size) :
    (e.schemaIds (f root)).filter (fun x => !spareIn f d.size x) = (d.schemaIds root).map f := by
  rw [schemaIds, schemaIds, schemas, schemas, h.isObject_eq hroot]
  split
  · have hentered := h.embeds_schemaEdges.entered (fun _ => schemaEdges_of_size_le)
      (fun _ => schemaEdges_of_size_le) (none, root) hroot
    rw [List.filter_map, List.map_map]
    have hmap := congrArg (List.map Prod.snd) hentered
    rw [List.map_map] at hmap
    exact hmap
  · rfl

/-- The map of definitions is no schema below another node. -/
lemma ne_of_mem_schemaIds (hm : root ≠ m) (hi : i ∈ d.schemaIds root) : i ≠ m := by
  rw [mem_schemaIds_iff] at hi
  rcases Relation.ReflTransGen.cases_tail hi.2 with heq | ⟨p, -, label, hedge⟩
  · exact heq ▸ hm
  · exact h.ne_of_mem_positions (List.mem_filter.mp hedge).1

end Positions

end Twin

end SchemaDecl.Document
