/-
Named definitions of documents that grow.

Definitions are collected from a root on. Nodes that are added to a closed document cannot be
reached from its nodes, so that the same definitions are found when it has grown.

* `Document.Extends.positions_eq`, `Document.Extends.schemaIds_eq`: positions and schemas stay.
* `Definitions.collect_of_extends`: so do the definitions.
* `Definitions.plain_of_mem_collect`: copies of schemas are not among them.
-/
import SchemaDecl.Proofs.Document.Reading
import SchemaDecl.Proofs.Document.Ways
import SchemaDecl.Proofs.Walk.Embedding

namespace SchemaDecl

variable {d d' d₀ : Document} {id c root : NodeId}

namespace Document.Extends

variable (h : d.Extends d')
include h

/-! ### Positions -/

lemma indexed_eq (hc : c < d.size) : d'.indexed c = d.indexed c := by
  rw [indexed, indexed, items?, items?, h.node_eq hc]

lemma named_eq (hc : c < d.size) : d'.named c = d.named c := by
  rw [named, named, h.node_eq hc, h.indexed_eq hc]

lemma oneOrMany_eq (hc : c < d.size) : d'.oneOrMany c = d.oneOrMany c := by
  rw [oneOrMany, oneOrMany, isArray, isArray, items?, items?, h.node_eq hc, h.indexed_eq hc]

variable (hd : d.Closed)
include hd

/-- The positions inside a schema stay. -/
lemma positions_eq (hid : id < d.size) : d'.positions id = d.positions id := by
  have hunder (keys : List String) (f : Document → NodeId → List (Option String × NodeId))
      (hf : ∀ c < d.size, f d' c = f d c) :
      (keys.flatMap fun key => ((d'.get? id key).map (f d')).getD [])
        = keys.flatMap fun key => ((d.get? id key).map (f d)).getD [] :=
    congrArg (keys.flatMap ·) (funext fun key => by rw [h.get?_map_eq hd hid key f hf])
  have hmembers : d'.members? id = d.members? id := by rw [members?, members?, h.node_eq hid]
  have hunknown : (((d'.members? id).getD []).flatMap fun e =>
        if knownKeywords.contains e.1 then [] else d'.named e.2)
      = ((d.members? id).getD []).flatMap fun e =>
        if knownKeywords.contains e.1 then [] else d.named e.2 := by
    rw [hmembers, List.flatMap_def, List.flatMap_def]
    refine congrArg List.flatten (List.map_congr_left fun e he => ?_)
    have hlt : e.2 < d.size := by
      refine hd.child_lt (?_ : e.2 ∈ (d.node id).children)
      rw [members?] at he
      cases hnode : d.node id with
      | object members =>
          rw [hnode] at he
          exact List.mem_map_of_mem he
      | _ => simp [hnode] at he
    rw [h.named_eq hlt]
  rw [positions, positions, hunknown]
  dsimp only
  rw [hunder _ indexed fun _ => h.indexed_eq, hunder _ named fun _ => h.named_eq,
    hunder _ (fun _ c => [(none, c)]) fun _ _ => rfl, hunder _ oneOrMany fun _ => h.oneOrMany_eq,
    hunder _ named fun _ => h.named_eq]

lemma schemaEdges_eq (hid : id < d.size) : d'.schemaEdges id = d.schemaEdges id := by
  rw [schemaEdges, schemaEdges, h.positions_eq hd hid]
  exact List.filter_congr fun entry he => h.isObject_eq (hd.positions_lt he)

/-- **The schemas below a root stay.** -/
lemma schemaIds_eq (hroot : root < d.size) : d'.schemaIds root = d.schemaIds root := by
  rw [schemaIds, schemaIds, schemas, schemas, h.isObject_eq hroot]
  split
  · refine congrArg (List.map _) (Walk.entered_congr (· < d.size)
      (fun _ hx => h.schemaEdges_eq hd hx) (fun _ _ entry he => ?_)
      (fun _ => schemaEdges_of_size_le) (fun _ => schemaEdges_of_size_le) (none, root) hroot)
    exact hd.positions_lt (List.mem_filter.mp he).1
  · rfl

end Document.Extends

namespace Definitions

variable {l : List (String × NodeId)}

/-! ### Definitions -/

lemma entries_register (defs : Definitions) (a : String × NodeId) : (defs.register a).entries
    = if Keyed.has defs.entries a.1 then defs.entries else defs.entries ++ [a] := by
  rw [register]
  split
  · rfl
  · rfl

/-- The name of a node can be read off the definitions by name. -/
lemma keyOf?_eq_find? (defs : Definitions) (id : NodeId) :
    defs.keyOf? id = (defs.entries.find? fun e => e.2 == id).map (·.1) := defs.lookup_names id

/-- What is registered has been there or has been given. -/
lemma mem_of_mem_foldl_register {defs : Definitions} {a : String × NodeId}
    (h : a ∈ (l.foldl register defs).entries) : a ∈ defs.entries ∨ a ∈ l := by
  induction l generalizing defs with
  | nil => exact .inl h
  | cons b l ih =>
      rcases ih h with hmem | hmem
      · rw [entries_register] at hmem
        split at hmem
        · exact .inl hmem
        · rcases List.mem_append.mp hmem with hmem | hmem
          · exact .inl hmem
          · exact .inr (List.mem_cons.mpr (.inl (List.mem_singleton.mp hmem)))
      · exact .inr (List.mem_cons_of_mem _ hmem)

/-- Definitions under the same names are registered alike. -/
lemma entries_foldl_register (l : List (String × NodeId)) {f : NodeId → NodeId}
    {defs defs' : Definitions} (hdefs : defs'.entries = defs.entries.map fun e => (e.1, f e.2)) :
    ((l.map fun e => (e.1, f e.2)).foldl register defs').entries
      = (l.foldl register defs).entries.map fun e => (e.1, f e.2) := by
  induction l generalizing defs defs' with
  | nil => exact hdefs
  | cons a l ih =>
      rw [List.map_cons, List.foldl_cons, List.foldl_cons]
      refine ih ?_
      have hhas : Keyed.has defs'.entries a.1 = Keyed.has defs.entries a.1 := by
        rw [hdefs, Keyed.has, Keyed.get?_map, Option.isSome_map, Keyed.has]
      rw [entries_register, entries_register, hhas]
      split
      · exact hdefs
      · rw [hdefs, List.map_append]
        rfl

/-- **Definitions stay** when a closed document grows. -/
theorem collect_of_extends (h : d.Extends d') (hd : d.Closed) (hroot : root < d.size) :
    collect d' root = collect d root := by
  rw [collect, collect, h.schemaIds_eq hd hroot, List.flatMap_def, List.flatMap_def]
  refine congrArg (List.foldl register empty ·.flatten) (List.map_congr_left fun id hid => ?_)
  have hlt := Document.lt_size_of_mem_schemaIds hid
  rw [offered, offered, h.membersAt_eq hd hlt, h.membersAt_eq hd hlt]

/-- What is defined is a node of the document that lowering began with, or no schema. -/
lemma plain_of_mem_collect (h : d.DerivedFrom d₀) {e : String × NodeId}
    (he : e ∈ (collect d root).entries) : d₀.Plain d e.2 := by
  rcases mem_of_mem_foldl_register he with he | he
  · cases he
  · obtain ⟨id, -, he⟩ := List.mem_flatMap.mp he
    exact (List.mem_append.mp he).elim h.plain_membersAt h.plain_membersAt

lemma keyOf?_eq_none {defs : Definitions} (h : ∀ e ∈ defs.entries, e.2 ≠ id) :
    defs.keyOf? id = none := by
  rw [keyOf?_eq_find?, Option.map_eq_none_iff, List.find?_eq_none]
  exact fun e he heq => h e he (beq_iff_eq.mp heq)

end Definitions

end SchemaDecl
