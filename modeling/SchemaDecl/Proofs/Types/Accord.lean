/-
Lowering two documents side by side.

The nodes of a document have images in another one, and what lowering looks at is the same on both
sides. Then what is made of a schema is made of its image, under the same number and the same name,
because schemas are of the same categories, called alike, and made of the same parts.

* `Document.Reads`: what lowering looks at is the same for a node that it meets and for its image.
* `View`: a way in which the nodes of two documents correspond; `View.Lowers` is what it takes for
  them to be lowered alike.
* `Lowering.Alike`: states in the lowering of the two documents.
* `Lower.Accords`: two computations give the same result and go from such states to such states.
* `Lower.parallel_schemaBeyond`: a node and its image are lowered in accord.
* `View.Lowers.ofDocument_eq`: the two documents have the same types.
-/
import SchemaDecl.Proofs.Document.Lineage
import SchemaDecl.Proofs.Document.Outline
import SchemaDecl.Proofs.Document.Ways
import SchemaDecl.Proofs.Types.Outcome

namespace SchemaDecl

open Document Definitions

/-! ### What lowering looks at -/

/-- The keys of the maps whose entries become fields. -/
def fieldKeys (s : Settings) : List String :=
  if s.unreachableDefinitions then ["properties", "patternProperties", "$defs"]
  else ["properties", "patternProperties"]

/-- What lowering looks at is the same for a node that it meets and for its image, and it goes on to
such nodes only. -/
structure Document.Reads (s : Settings) (f : NodeId → NodeId) (Met : NodeId → Prop)
    (d e : Document) : Prop extends Outline f d e where
  tells : ∀ i < d.size, Met i → Tells f d e i
  empty_eq : ∀ i < d.size, Met i →
    (e.members? (f i)).map List.isEmpty = (d.members? i).map List.isEmpty
  least_eq : ∀ i < d.size, Met i →
    (Lower.tupleBound? e (f i) "minItems").getD 0 = (Lower.tupleBound? d i "minItems").getD 0
  most_eq : ∀ i < d.size, Met i →
    Lower.tupleBound? e (f i) "maxItems" = Lower.tupleBound? d i "maxItems"
  membersAt_eq : ∀ i < d.size, Met i → ∀ key ∈ fieldKeys s,
    e.membersAt (f i) key = (d.membersAt i key).map fun entry => (entry.1, f entry.2)
  toJson_eq : ∀ i < d.size, Met i → d.isObject i = false → e.toJson (f i) = d.toJson i
  rootOf_eq : ∀ i < d.size, Met i → e.rootOf (f i) = f (d.rootOf i)
  met_rootOf : ∀ i < d.size, Met i → Met (d.rootOf i)
  met_listAt : ∀ i, Met i → ∀ key, ∀ c ∈ d.listAt i key, Met c
  met_membersAt : ∀ i, Met i → ∀ key ∈ fieldKeys s, ∀ entry ∈ d.membersAt i key, Met entry.2
  met_get? : ∀ i, Met i → ∀ key ∈ ["items", "additionalItems", "additionalProperties"],
    ∀ c, d.get? i key = some c → d.isObject c = true → Met c

lemma Document.Reads.hasSinglePattern_eq {s : Settings} {f : NodeId → NodeId} {Met : NodeId → Prop}
    {d e : Document} {i : NodeId} (h : Reads s f Met d e) (hi : i < d.size) (hmet : Met i) :
    Lower.hasSinglePattern e (f i) = Lower.hasSinglePattern d i := by
  have hkey : "patternProperties" ∈ fieldKeys s := by
    rw [fieldKeys]
    split <;> decide
  rw [Lower.hasSinglePattern, Lower.hasSinglePattern, h.allowsMore_eq (h.tells i hi hmet),
    h.membersAt_eq i hi hmet _ hkey, List.length_map]

/-! ### Views of two documents -/

/-- A way to look at two documents: the images of nodes, the nodes that lowering meets, how the
documents are related, and how definitions are. -/
structure View (V : Type) where
  image : V → NodeId → NodeId
  Met : V → NodeId → Prop
  Relates : V → Document → Document → Prop
  Named : V → Document → Document → Definitions → Definitions → Prop

/-- The keys that say what a schema is called and what it is about. -/
def identityKeys : List String := ["$id", "title", "description", "name"]

namespace View

variable {V : Type} {M : View V} {s : Settings} {v v₁ v₂ : V} {d e d₁ e₁ d₂ e₂ : Document}
  {i : NodeId}

/-- Related documents have grown into related documents. -/
structure Advances (M : View V) (v : V) (d e : Document) (v₁ : V) (d₁ e₁ : Document) : Prop where
  later : Later (M.image v) d e (M.image v₁) d₁ e₁
  met : ∀ i < d.size, M.Met v₁ i ↔ M.Met v i
  relates : M.Relates v₁ d₁ e₁

lemma Advances.trans (h : M.Advances v d e v₁ d₁ e₁) (h' : M.Advances v₁ d₁ e₁ v₂ d₂ e₂) :
    M.Advances v d e v₂ d₂ e₂ where
  later := h.later.trans h'.later
  met i hi := (h'.met i (Nat.lt_of_lt_of_le hi h.later.size_le)).trans (h.met i hi)
  relates := h'.relates

/-- What it takes for related documents to be lowered alike. -/
structure Lowers (M : View V) (s : Settings) : Prop where
  reads : ∀ {v d e}, M.Relates v d e → Reads s (M.image v) (M.Met v) d e
  copyWithout : ∀ {v d e i}, M.Relates v d e → i < d.size → M.Met v i → d.isObject i = true →
    ∀ keys ⊆ identityKeys, ∃ v₁, M.Advances v d e v₁ (d.copyWithout i keys).2
      (e.copyWithout (M.image v i) keys).2 ∧ M.image v₁ d.size = e.size ∧ M.Met v₁ d.size
  setType : ∀ {v d e i}, M.Relates v d e → i < d.size → M.Met v i → d.isObject i = true →
    ∀ name, ∃ v₁, M.Advances v d e v₁ (d.setValue i "type" (.string name))
      (e.setValue (M.image v i) "type" (.string name))
  eraseDefault : ∀ {v d e i}, M.Relates v d e → i < d.size → M.Met v i → d.isObject i = true →
    M.Relates v (d.erase i "default") (e.erase (M.image v i) "default")
  named_collect : ∀ {v d e r}, M.Relates v d e → r < d.size → M.Met v r →
    M.Named v d e (collect d r) (collect e (M.image v r))
  keyOf?_eq : ∀ {v d e i defs defs'}, M.Relates v d e → M.Named v d e defs defs' → i < d.size →
    d.isObject i = true → defs'.keyOf? (M.image v i) = defs.keyOf? i
  named_later : ∀ {v d e v₁ d₁ e₁ defs defs'}, M.Named v d e defs defs' →
    M.Advances v d e v₁ d₁ e₁ → d.Extends d₁ → M.Named v₁ d₁ e₁ defs defs'

/-- Copies of a schema and of its image. -/
structure Copied (M : View V) (v : V) (d e : Document) (copy copy' : NodeId × Document) (v₁ : V) :
    Prop where
  advances : M.Advances v d e v₁ copy.2 copy'.2
  grows : d.Extends copy.2
  image : M.image v₁ copy.1 = copy'.1
  lt : copy.1 < copy.2.size
  met : M.Met v₁ copy.1
  isObject : copy.2.isObject copy.1 = true

namespace Lowers

variable (h : M.Lowers s) (hr : M.Relates v d e) (hi : i < d.size) (hmet : M.Met v i)
  (hobject : d.isObject i = true)
include h hr hi hmet hobject

lemma exists_copyWithout {keys : List String} (hkeys : keys ⊆ identityKeys) :
    ∃ v₁, M.Copied v d e (d.copyWithout i keys) (e.copyWithout (M.image v i) keys) v₁ := by
  obtain ⟨v₁, hadvances, himage, hcopy⟩ := h.copyWithout hr hi hmet hobject keys hkeys
  obtain ⟨hgrows, -, hlt, hisObject⟩ :=
    (DerivedFrom.refl (h.reads hr).left).copyWithout hobject keys
  exact ⟨v₁, hadvances, hgrows, himage, hlt, hcopy, hisObject⟩

/-- Copies with one of the listed types alone. A default goes on both sides or on none. -/
lemma exists_withType (name : String) :
    ∃ v₁, M.Copied v d e (Lower.withType d i name) (Lower.withType e (M.image v i) name) v₁ := by
  obtain ⟨hgrows, -, hlt, -⟩ := (DerivedFrom.refl (h.reads hr).left).withType hobject name
  obtain ⟨leaf, hleaf, -⟩ := exists_type_withType hobject name
  obtain ⟨v₁, hcopy⟩ := h.exists_copyWithout hr hi hmet hobject
    (by decide : ["$id", "description", "title"] ⊆ identityKeys)
  suffices hsuffices :
      ∃ v₂, M.Advances v d e v₂ (Lower.withType d i name).2
          (Lower.withType e (M.image v i) name).2 ∧
        M.image v₂ (Lower.withType d i name).1 = (Lower.withType e (M.image v i) name).1 ∧
        M.Met v₂ (Lower.withType d i name).1 by
    obtain ⟨v₂, hadvances, himage, hmet₂⟩ := hsuffices
    exact ⟨v₂, hadvances, hgrows, himage, hlt, hmet₂, isObject_of_get? hleaf⟩
  rw [Lower.withType, Lower.withType]
  generalize d.copyWithout i ["$id", "description", "title"] = left at hcopy ⊢
  generalize e.copyWithout (M.image v i) ["$id", "description", "title"] = right at hcopy ⊢
  obtain ⟨copy, d₁⟩ := left
  obtain ⟨copy', e₁⟩ := right
  obtain rfl : M.image v₁ copy = copy' := hcopy.image
  obtain ⟨v₂, hset⟩ := h.setType hcopy.advances.relates hcopy.lt hcopy.met hcopy.isObject name
  have hlt := Nat.lt_of_lt_of_le hcopy.lt hset.later.size_le
  have himage : M.image v₂ copy = M.image v₁ copy := hset.later.agree copy hcopy.lt
  have hmet₂ := (hset.met copy hcopy.lt).mpr hcopy.met
  have hreads := h.reads hset.relates
  have hfits := hreads.defaultFits_eq (hreads.tells copy hlt hmet₂) name
  have herase := h.eraseDefault hset.relates hlt hmet₂
    ((isObject_setScalar (.string name)).trans hcopy.isObject)
  rw [himage] at hfits herase
  dsimp only
  rw [hfits]
  split
  · exact ⟨v₂, hcopy.advances.trans hset, himage, hmet₂⟩
  · exact ⟨v₂, (hcopy.advances.trans hset).trans
      ⟨.of_size_eq size_changeMembers size_changeMembers, fun _ _ => .rfl, herase⟩, himage, hmet₂⟩

end Lowers

end View

/-! ### States -/

namespace Lowering

variable {V : Type} {M : View V} {s : Settings} {v v₁ v₂ : V} {i j : NodeId}
  {st st' st₁ st₁' st₂ st₂' : Lowering}

/-- States in the lowering of related documents: the types and the names are the same, the same is
on record for a node and its image, and so are the definitions below them. -/
structure Alike (M : View V) (v : V) (st st' : Lowering) : Prop where
  relates : M.Relates v st.document st'.document
  types : st'.types = st.types
  names : st'.names = st.names
  made : ∀ i < st.document.size, ∀ c,
    st'.made.lookup (M.image v i, c) = st.made.lookup (i, c)
  made_lt : ∀ entry ∈ st.made, entry.1.1 < st.document.size
  made_lt' : ∀ entry ∈ st'.made, entry.1.1 < st'.document.size
  definitions : ∀ r < st.document.size, M.Met v r → Option.Rel
    (M.Named v st.document st'.document)
    (st.definitions.lookup r) (st'.definitions.lookup (M.image v r))
  definitions_lt : ∀ entry ∈ st.definitions, entry.1 < st.document.size
  definitions_lt' : ∀ entry ∈ st'.definitions, entry.1 < st'.document.size

/-- Alike states that come after others: the documents have grown, and all numbers have kept their
images. -/
structure Ensues (M : View V) (v : V) (st st' : Lowering) (v₁ : V) (st₁ st₁' : Lowering) :
    Prop where
  advances : M.Advances v st.document st'.document v₁ st₁.document st₁'.document
  grows : st.document.Extends st₁.document
  alike : Alike M v₁ st₁ st₁'

/-- A node that is met, and its image. -/
structure Pairs (M : View V) (v : V) (st : Lowering) (i j : NodeId) : Prop where
  lt : i < st.document.size
  met : M.Met v i
  image : M.image v i = j

lemma Pairs.reserved {aspect : Aspect} (h : Pairs M v st i j) :
    Pairs M v (st.reserved aspect) i j :=
  ⟨h.lt, h.met, h.image⟩

lemma Ensues.pairs (h : Ensues M v st st' v₁ st₁ st₁') (hp : Pairs M v st i j) :
    Pairs M v₁ st₁ i j :=
  ⟨Nat.lt_of_lt_of_le hp.lt h.advances.later.size_le, (h.advances.met i hp.lt).mpr hp.met,
    (h.advances.later.agree i hp.lt).trans hp.image⟩

lemma Ensues.isObject (h : Ensues M v st st' v₁ st₁ st₁') (hp : Pairs M v st i j)
    (hobject : st.document.isObject i = true) : st₁.document.isObject i = true :=
  (h.grows.isObject_eq hp.lt).trans hobject

lemma Alike.ensues (h : Alike M v st₁ st₁') (hd : st₁.document = st.document)
    (he : st₁'.document = st'.document) : Ensues M v st st' v st₁ st₁' :=
  ⟨⟨.of_size_eq (by rw [hd]) (by rw [he]), fun _ _ => .rfl, h.relates⟩, hd ▸ .refl _, h⟩

lemma Ensues.trans (h : Ensues M v st st' v₁ st₁ st₁')
    (h' : Ensues M v₁ st₁ st₁' v₂ st₂ st₂') : Ensues M v st st' v₂ st₂ st₂' :=
  ⟨h.advances.trans h'.advances, h.grows.trans h'.grows, h'.alike⟩

lemma lookup_eq_none {α β : Type} [BEq α] [LawfulBEq α] {l : List (α × β)} {a : α}
    (h : ∀ entry ∈ l, entry.1 ≠ a) : l.lookup a = none := by
  rw [List.lookup_eq_none_iff]
  intro entry hentry
  simpa using (h entry hentry).symm

lemma rel_imp {α β : Type} {R S : α → β → Prop} {a : Option α} {b : Option β} (h : Option.Rel R a b)
    (hRS : ∀ a b, R a b → S a b) : Option.Rel S a b := by
  cases h with
  | none => exact .none
  | some hR => exact .some (hRS _ _ hR)

/-- The documents of alike states may grow: nothing is on record for the new nodes. -/
lemma Alike.setDocument (hM : M.Lowers s) (h : Alike M v st st') {d e : Document}
    (hadvances : M.Advances v st.document st'.document v₁ d e) (hgrows : st.document.Extends d) :
    Ensues M v st st' v₁ { st with document := d } { st' with document := e } where
  advances := hadvances
  grows := hgrows
  alike := {
    relates := hadvances.relates
    types := h.types
    names := h.names
    made i hi c := by
      by_cases hold : i < st.document.size
      · rw [hadvances.later.agree i hold]
        exact h.made i hold c
      · have hle := hadvances.later.fresh i hi (Nat.le_of_not_lt hold)
        have hnone : st.made.lookup (i, c) = none := lookup_eq_none fun entry hentry heq => by
          have hlt := h.made_lt entry hentry
          rw [heq] at hlt
          exact hold hlt
        have hnone' : st'.made.lookup (M.image v₁ i, c) = none :=
          lookup_eq_none fun entry hentry heq => by
            have hlt := h.made_lt' entry hentry
            rw [heq] at hlt
            exact Nat.not_lt_of_le hle hlt
        exact hnone'.trans hnone.symm
    made_lt entry hentry := Nat.lt_of_lt_of_le (h.made_lt entry hentry) hadvances.later.size_le
    made_lt' entry hentry := Nat.lt_of_lt_of_le (h.made_lt' entry hentry) hadvances.later.size_le'
    definitions r hr hmet := by
      by_cases hold : r < st.document.size
      · rw [hadvances.later.agree r hold]
        exact rel_imp (h.definitions r hold ((hadvances.met r hold).mp hmet))
          fun _ _ hnamed => hM.named_later hnamed hadvances hgrows
      · have hle := hadvances.later.fresh r hr (Nat.le_of_not_lt hold)
        have hnone : st.definitions.lookup r = none := lookup_eq_none fun entry hentry heq =>
          hold (heq ▸ h.definitions_lt entry hentry)
        have hnone' : st'.definitions.lookup (M.image v₁ r) = none :=
          lookup_eq_none fun entry hentry heq =>
            Nat.not_lt_of_le hle (heq ▸ h.definitions_lt' entry hentry)
        dsimp only
        rw [hnone, hnone']
        exact .none
    definitions_lt entry hentry :=
      Nat.lt_of_lt_of_le (h.definitions_lt entry hentry) hadvances.later.size_le
    definitions_lt' entry hentry :=
      Nat.lt_of_lt_of_le (h.definitions_lt' entry hentry) hadvances.later.size_le' }

/-- The same change of the types and the names. -/
lemma Alike.setTypes (h : Alike M v st st') {g : TypeGraph → TypeGraph} {n : Names → Names} :
    Alike M v { st with types := g st.types, names := n st.names }
      { st' with types := g st'.types, names := n st'.names } :=
  { h with
    types := congrArg g h.types
    names := congrArg n h.names }

/-- A node and its image are reserved. -/
lemma Alike.reserved (hM : M.Lowers s) (h : Alike M v st st') (hp : Pairs M v st i j)
    (c : Option Category) : Alike M v (st.reserved (i, c)) (st'.reserved (j, c)) := by
  have hreads := hM.reads h.relates
  obtain ⟨hi, -, rfl⟩ := hp
  refine { h with
    types := by rw [Lowering.reserved, Lowering.reserved, h.types]
    made := fun j hj c' => ?_
    made_lt := List.forall_mem_cons.mpr ⟨hi, h.made_lt⟩
    made_lt' := List.forall_mem_cons.mpr ⟨hreads.lt i hi, h.made_lt'⟩ }
  have hsize : st'.types.size = st.types.size := by rw [h.types]
  by_cases hsame : (j, c') = (i, c)
  · obtain ⟨rfl, rfl⟩ := Prod.mk.inj hsame
    rw [lookup_reserved_self, lookup_reserved_self, hsize]
  · have hsame' : (M.image v j, c') ≠ (M.image v i, c) := by
      intro heq
      obtain ⟨hf, rfl⟩ := Prod.mk.inj heq
      exact hsame (by rw [hreads.inj j hj i hi hf])
    rw [lookup_reserved_of_ne hsame, lookup_reserved_of_ne hsame', h.made j hj c']

end Lowering

namespace Lower

open Lowering

variable {V : Type} {M : View V} {s : Settings} {v v₁ : V} {i j : NodeId}
  {st st' st₁ st₁' : Lowering} {α β γ : Type}

/-! ### Computations in accord -/

/-- Two computations give the same result and lead from alike states to alike ones. -/
def Accords (M : View V) (v : V) (st st' : Lowering) (x x' : Lower α) : Prop :=
  (x'.run st').1 = (x.run st).1 ∧ ∃ v₁, Ensues M v st st' v₁ (x.run st).2 (x'.run st').2

namespace Accords

lemma pure (h : Alike M v st st') (a : α) : Accords M v st st' (pure a) (pure a) :=
  ⟨rfl, v, h.ensues rfl rfl⟩

/-- One computation after another. -/
lemma bind {x x' : Lower α} {g g' : α → Lower β} (h : Accords M v st st' x x')
    (hg : ∀ a v₁ st₁ st₁', Ensues M v st st' v₁ st₁ st₁' → Accords M v₁ st₁ st₁' (g a) (g' a)) :
    Accords M v st st' (x >>= g) (x' >>= g') := by
  obtain ⟨hresult, v₁, hensues⟩ := h
  have hbind : (x >>= g).run st = (g (x.run st).1).run (x.run st).2 := rfl
  have hbind' : (x' >>= g').run st' = (g' (x'.run st').1).run (x'.run st').2 := rfl
  obtain ⟨hresult', v₂, hensues'⟩ := hg (x.run st).1 v₁ _ _ hensues
  refine ⟨?_, v₂, ?_⟩
  · rw [hbind, hbind', hresult, hresult']
  · rw [hbind, hbind', hresult]
    exact hensues.trans hensues'

/-- The computations of the items of a list and of other items, one after the other. -/
lemma mapM (h : Alike M v st st') {φ : α → β} {g : α → Lower γ} {g' : β → Lower γ}
    (l : List α) (hg : ∀ a ∈ l, ∀ v₁ st₁ st₁', Ensues M v st st' v₁ st₁ st₁' →
      Accords M v₁ st₁ st₁' (g a) (g' (φ a))) :
    Accords M v st st' (l.mapM g) ((l.map φ).mapM g') := by
  induction l generalizing v st st' with
  | nil => exact .pure h []
  | cons a l ih =>
      obtain ⟨ha, hl⟩ := List.forall_mem_cons.mp hg
      rw [List.map_cons, List.mapM_cons, List.mapM_cons]
      refine .bind (ha v st st' (h.ensues rfl rfl)) fun b v₁ st₁ st₁' hensues => ?_
      refine .bind (ih hensues.alike fun a' ha' v₂ st₂ st₂' hensues' =>
        hl a' ha' v₂ st₂ st₂' (hensues.trans hensues')) fun bs v₂ st₂ st₂' hensues' => ?_
      exact .pure hensues'.alike (b :: bs)

lemma mapM_same (h : Alike M v st st') {g g' : α → Lower γ} (l : List α)
    (hg : ∀ a v₁ st₁ st₁', Ensues M v st st' v₁ st₁ st₁' → Accords M v₁ st₁ st₁' (g a) (g' a)) :
    Accords M v st st' (l.mapM g) (l.mapM g') := by
  have hmapM : Accords M v st st' (l.mapM g) ((l.map id).mapM g') :=
    mapM h l fun a _ => hg a
  rwa [List.map_id] at hmapM

end Accords

/-- A computation that begins with reading the document. -/
lemma accords_document_bind {g g' : Document → Lower α}
    (h : Accords M v st st' (g st.document) (g' st'.document)) :
    Accords M v st st' (document >>= g) (document >>= g') := h

/-- A computation that begins with another document. -/
lemma accords_setDocument_bind {d e : Document} {g g' : Unit → Lower α}
    (hensues : Ensues M v st st' v₁ { st with document := d } { st' with document := e })
    (h : Accords M v₁ { st with document := d } { st' with document := e } (g ()) (g' ())) :
    Accords M v st st' (setDocument d >>= g) (setDocument e >>= g') := by
  obtain ⟨hresult, v₂, hensues'⟩ := h
  exact ⟨hresult, v₂, hensues.trans hensues'⟩

lemma accords_answering {make make' : Lower TypeId} (hmake : Accords M v st st' make make')
    (i j : NodeId) : Accords M v st st' (answering i make) (answering j make') := by
  obtain ⟨hresult, v₁, hensues⟩ := hmake
  exact ⟨hresult, v₁, hensues.advances, hensues.grows, { hensues.alike with }⟩

section Basic

variable (h : Alike M v st st')
include h

lemma accords_alloc (t : TypeNode) : Accords M v st st' (alloc t) (alloc t) := by
  refine ⟨?_, v, (h.setTypes (g := fun g => (g.alloc t).2) (n := id)).ensues rfl rfl⟩
  exact congrArg TypeGraph.size h.types

lemma accords_annotate (t : TypeId) (note : String) :
    Accords M v st st' (annotate t note) (annotate t note) :=
  -- the note is added to the types alone
  ⟨rfl, v, (h.setTypes (g := fun g => ((annotate t note).run { st with types := g }).2.types)
    (n := id)).ensues rfl rfl⟩

lemma accords_allocTop (key : Option String) :
    Accords M v st st' (allocTop s key) (allocTop s key) :=
  accords_alloc h _

/-- What is on record is on record for both; else it is made for both. -/
lemma accords_once (hp : Pairs M v st i j) {c : Option Category} {make make' : Lower TypeNode}
    (hmake : Accords M v (st.reserved (i, c)) (st'.reserved (j, c)) make make') :
    Accords M v st st' (once (i, c) make) (once (j, c) make') := by
  obtain ⟨hi, -, rfl⟩ := hp
  rw [Accords, once_run, once_run, h.made i hi c]
  cases st.made.lookup (i, c) with
  | some id => exact ⟨rfl, v, h.ensues rfl rfl⟩
  | none =>
      obtain ⟨hresult, v₁, hensues⟩ := hmake
      dsimp only
      rw [hresult, h.types]
      refine ⟨rfl, v₁, hensues.advances, hensues.grows, ?_⟩
      exact hensues.alike.setTypes
        (g := fun g => g.set st.types.size (make.run (st.reserved (i, c))).1) (n := id)

end Basic

/-- A node and its image are lowered in accord. -/
def Parallel (M : View V) (down down' : Descent) : Prop :=
  ∀ v st st' i j key, Alike M v st st' → Pairs M v st i j →
    Accords M v st st' (down i key) (down' j key)

variable {down down' : Descent}

/-- A node that was there is lowered later. -/
lemma Parallel.later (hdown : Parallel M down down') {c : NodeId} (hc : c < st.document.size)
    (hmet : M.Met v c) (key : Option String) (hensues : Ensues M v st st' v₁ st₁ st₁') :
    Accords M v₁ st₁ st₁' (down c key) (down' (M.image v c) key) :=
  hdown v₁ st₁ st₁' c (M.image v c) key hensues.alike (hensues.pairs ⟨hc, hmet, rfl⟩)

variable (hM : M.Lowers s)
include hM

/-! ### Names -/

/-- The definitions below a root and below its image. -/
lemma named_definitionsOf (h : Alike M v st st') {r : NodeId} (hr : r < st.document.size)
    (hmet : M.Met v r) :
    M.Named v st.document st'.document ((definitionsOf r).run st).1
        ((definitionsOf (M.image v r)).run st').1 ∧
      Ensues M v st st' v ((definitionsOf r).run st).2
        ((definitionsOf (M.image v r)).run st').2 := by
  have hreads := hM.reads h.relates
  have hrel := h.definitions r hr hmet
  cases hleft : st.definitions.lookup r with
  | some defs =>
      cases hright : st'.definitions.lookup (M.image v r) with
      | some defs' =>
          rw [hleft, hright] at hrel
          rw [definitionsOf_run_of_some hleft, definitionsOf_run_of_some hright]
          cases hrel with
          | some hnamed => exact ⟨hnamed, h.ensues rfl rfl⟩
      | none =>
          rw [hleft, hright] at hrel
          cases hrel
  | none =>
      cases hright : st'.definitions.lookup (M.image v r) with
      | some defs' =>
          rw [hleft, hright] at hrel
          cases hrel
      | none =>
          have hnamed := hM.named_collect h.relates hr hmet
          rw [definitionsOf_run_of_none hleft, definitionsOf_run_of_none hright]
          refine ⟨hnamed, Alike.ensues ?_ rfl rfl⟩
          refine { h with
            definitions := fun q hq hqm => ?_
            definitions_lt := List.forall_mem_cons.mpr ⟨hr, h.definitions_lt⟩
            definitions_lt' := List.forall_mem_cons.mpr ⟨hreads.lt r hr, h.definitions_lt'⟩ }
          by_cases hqr : q = r
          · subst hqr
            simp only [List.lookup_cons_self]
            exact .some hnamed
          · have hfqr : M.image v q ≠ M.image v r := fun heq => hqr (hreads.inj q hq r hr heq)
            dsimp only
            rw [List.lookup_cons, List.lookup_cons, beq_false_of_ne hqr, beq_false_of_ne hfqr]
            exact h.definitions q hq hqm

section Names

variable (h : Alike M v st st') (hp : Pairs M v st i j)
include h hp

lemma accords_finish (shape : Shape) (key name : Option String) :
    Accords M v st st' (finish i shape key name) (finish j shape key name) := by
  have hreads := hM.reads h.relates
  obtain ⟨hi, hmet, rfl⟩ := hp
  refine accords_document_bind ?_
  rw [hreads.string?_eq (hreads.tells i hi hmet) "description" (by decide)]
  exact .pure h _

variable (hobject : st.document.isObject i = true)
include hobject

/-- **A schema and its image are defined under the same name.** -/
lemma accords_definitionKey? : Accords M v st st' (definitionKey? i) (definitionKey? j) := by
  have hreads := hM.reads h.relates
  obtain ⟨hi, hmet, rfl⟩ := hp
  obtain ⟨hnamed, hensues⟩ := named_definitionsOf hM h (rootOf_lt hreads.left hi)
    (hreads.met_rootOf i hi hmet)
  rw [Accords, definitionKey?_run, definitionKey?_run, hreads.rootOf_eq i hi hmet]
  exact ⟨hM.keyOf?_eq h.relates hnamed hi hobject, v, hensues.advances, hensues.grows,
    { hensues.alike with }⟩

lemma accords_nameHint? (fallback : Option String) :
    Accords M v st st' (nameHint? i fallback) (nameHint? j fallback) := by
  have hkey := accords_definitionKey? hM h hp hobject
  have hreads := hM.reads h.relates
  obtain ⟨hi, hmet, rfl⟩ := hp
  have htells := hreads.tells i hi hmet
  refine accords_document_bind ?_
  rw [hreads.string?_eq htells "title" (by decide), hreads.string?_eq htells "$id" (by decide)]
  cases (st.document.string? i "title").filter (!·.isEmpty) with
  | some title => exact .pure h _
  | none =>
      cases (st.document.string? i "$id").filter (!·.isEmpty) with
      | some identifier => exact .pure h _
      | none =>
          refine hkey.bind fun key v₁ st₁ st₁' hensues => ?_
          cases key <;> exact .pure hensues.alike _

lemma accords_claimName (fallback : Option String) :
    Accords M v st st' (claimName i fallback) (claimName j fallback) := by
  refine (accords_nameHint? hM h hp hobject fallback).bind fun hint v₁ st₁ st₁' hensues => ?_
  cases hint with
  | none => exact .pure hensues.alike none
  | some hint =>
      have hallocate : Alike M v₁
          { st₁ with names := (st₁.names.allocate hint).2 }
          { st₁' with names := (st₁'.names.allocate hint).2 } :=
        hensues.alike.setTypes (g := id) (n := fun names => (names.allocate hint).2)
      refine ⟨?_, v₁, hallocate.ensues rfl rfl⟩
      exact congrArg (fun names : Names => some (names.allocate hint).1) hensues.alike.names

end Names

/-! ### Shapes -/

section Shapes

variable (hdown : Parallel M down down') (h : Alike M v st st') (hp : Pairs M v st i j)
include h hp

lemma accords_untypedArray : Accords M v st st' (untypedArray s i) (untypedArray s j) := by
  have hreads := hM.reads h.relates
  obtain ⟨hi, hmet, rfl⟩ := hp
  refine accords_document_bind ?_
  dsimp only
  rw [hreads.least_eq i hi hmet, hreads.most_eq i hi hmet]
  refine (accords_allocTop h none).bind fun top v₁ st₁ st₁' hensues => ?_
  split <;> exact .pure hensues.alike _

include hdown

/-- The items of a list, in whatever way they become results. -/
lemma accords_items (key : String) (hkey : key ∉ sizeKeys) :
    Accords M v st st' ((st.document.listAt i key).mapM fun item => down item none)
      ((st'.document.listAt j key).mapM fun item => down' item none) := by
  have hreads := hM.reads h.relates
  obtain ⟨hi, hmet, rfl⟩ := hp
  rw [hreads.listAt_eq (hreads.tells i hi hmet) key hkey]
  exact .mapM h _ fun c hc v₁ st₁ st₁' hensues =>
    hdown.later (hreads.left.listAt_lt hc) (hreads.met_listAt i hmet key c hc) none hensues

lemma accords_list (key : String) (hkey : key ∉ sizeKeys) :
    Accords M v st st' (list down i key) (list down' j key) :=
  accords_document_bind (accords_items hM hdown h hp key hkey)

lemma accords_enumeration : Accords M v st st' (enumeration down i) (enumeration down' j) := by
  have hreads := hM.reads h.relates
  obtain ⟨hi, hmet, rfl⟩ := hp
  have htells := hreads.tells i hi hmet
  refine accords_document_bind (.bind ?_ fun members v₁ st₁ st₁' hensues =>
    .pure hensues.alike (Shape.enumeration members))
  rw [hreads.listAt_eq htells "enum" (by decide),
    hreads.strings_eq htells "tsEnumNames" (by decide), List.zip_map_left]
  refine .mapM h _ fun entry hentry v₁ st₁ st₁' hensues => ?_
  have hvalue := (List.of_mem_zip hentry).1
  exact (hdown.later (hreads.left.listAt_lt hvalue) (hreads.met_listAt i hmet _ _ hvalue) none
    hensues).bind fun type v₂ st₂ st₂' hensues' => .pure hensues'.alike (entry.2, type)

lemma accords_restType? :
    Accords M v st st' (restType? s down i) (restType? s down' j) := by
  have hreads := hM.reads h.relates
  obtain ⟨hi, hmet, rfl⟩ := hp
  refine accords_document_bind ?_
  rw [hreads.tells i hi hmet "additionalItems" (by decide)]
  cases hc : st.document.get? i "additionalItems" with
  | none => exact .pure h none
  | some c =>
      have hlt := hreads.left.get?_lt hc
      dsimp only [Option.map_some]
      rw [hreads.isObject_eq c hlt, hreads.leafIs_eq hlt]
      split
      case isTrue hobject =>
        have hc := hreads.met_get? i hmet _ (by decide) c hc hobject
        exact (hdown.later hlt hc none (h.ensues rfl rfl)).bind fun type v₁ st₁ st₁' hensues =>
          .pure hensues.alike (some type)
      case isFalse =>
        split
        · exact (accords_allocTop h none).bind fun type v₁ st₁ st₁' hensues =>
            .pure hensues.alike (some type)
        · exact .pure h none

lemma accords_typedArray : Accords M v st st' (typedArray s down i) (typedArray s down' j) := by
  have hlist := accords_list hM hdown h hp "items" (by decide)
  have hrest {v₁ : V} {st₁ st₁' : Lowering} (hensues : Ensues M v st st' v₁ st₁ st₁') :=
    accords_restType? hM hdown hensues.alike (hensues.pairs hp)
  have htop : Accords M v st st' (do return Shape.array (← allocTop s none))
      (do return Shape.array (← allocTop s none)) :=
    (accords_allocTop h none).bind fun type v₁ st₁ st₁' hensues =>
      .pure hensues.alike (Shape.array type)
  have hreads := hM.reads h.relates
  obtain ⟨hi, hmet, rfl⟩ := hp
  refine accords_document_bind ?_
  rw [hreads.tells i hi hmet "items" (by decide)]
  cases hc : st.document.get? i "items" with
  | none => exact htop
  | some c =>
      have hlt := hreads.left.get?_lt hc
      dsimp only [Option.map_some]
      rw [hreads.least_eq i hi hmet, hreads.most_eq i hi hmet]
      cases hnode : st.document.node c with
      | leaf value =>
          rw [hreads.node_of_leaf hlt hnode]
          exact htop
      | object members =>
          obtain ⟨members', hnode'⟩ := hreads.exists_node_of_object hlt hnode
          rw [hnode']
          have hobject : st.document.isObject c = true := by
            rw [Document.isObject, members?_of_node hnode]
            rfl
          have hmet := hreads.met_get? i hmet _ (by decide) c hc hobject
          exact (hdown.later hlt hmet none (h.ensues rfl rfl)).bind
            fun type v₁ st₁ st₁' hensues => .pure hensues.alike (Shape.array type)
      | array items =>
          rw [hreads.node_of_array hlt hnode]
          refine hlist.bind fun params v₁ st₁ st₁' hensues => ?_
          exact (hrest hensues).bind fun rest v₂ st₂ st₂' hensues' => .pure hensues'.alike _

/-- The members of an object, each lowered under its key. -/
lemma accords_members (key : String) (hkey : key ∈ fieldKeys s)
    (field : String → TypeId → Lower Field)
    (hfield : ∀ key type v₁ st₁ st₁', Alike M v₁ st₁ st₁' →
      Accords M v₁ st₁ st₁' (field key type) (field key type)) :
    Accords M v st st'
      ((st.document.membersAt i key).mapM fun e => down e.2 (some e.1) >>= field e.1)
      ((st'.document.membersAt j key).mapM fun e => down' e.2 (some e.1) >>= field e.1) := by
  have hreads := hM.reads h.relates
  obtain ⟨hi, hmet, rfl⟩ := hp
  rw [hreads.membersAt_eq i hi hmet key hkey]
  refine .mapM h _ fun entry hentry v₁ st₁ st₁' hensues => ?_
  exact (hdown.later (hreads.left.membersAt_lt hentry)
    (hreads.met_membersAt i hmet key hkey entry hentry) (some entry.1) hensues).bind
      fun type v₂ st₂ st₂' hensues' => hfield entry.1 type v₂ st₂ st₂' hensues'.alike

lemma accords_propertyFields :
    Accords M v st st' (propertyFields down i) (propertyFields down' j) := by
  have hmembers := accords_members hM hdown h hp "properties"
    (by rw [fieldKeys]; split <;> decide)
    (fun key type => pure
      { key, required := (st.document.strings i "required").contains key, type })
    fun key type v₁ st₁ st₁' h₁ => .pure h₁ _
  have hreads := hM.reads h.relates
  obtain ⟨hi, hmet, rfl⟩ := hp
  refine accords_document_bind ?_
  rw [hreads.strings_eq (hreads.tells i hi hmet) "required" (by decide)]
  exact hmembers

lemma accords_patternFields (owner : Option String) :
    Accords M v st st' (patternFields down i owner) (patternFields down' j owner) := by
  have hmembers := accords_members hM hdown h hp "patternProperties"
    (by rw [fieldKeys]; split <;> decide)
    (fun key type => do
      annotate type (patternNote owner key)
      return {
        key := if hasSinglePattern st.document i then indexKey else key
        required := hasSinglePattern st.document i ||
          (st.document.strings i "required").contains key
        isPattern := !hasSinglePattern st.document i
        type })
    fun key type v₁ st₁ st₁' h₁ => (accords_annotate h₁ type _).bind
      fun _ v₂ st₂ st₂' hensues => .pure hensues.alike _
  have hreads := hM.reads h.relates
  obtain ⟨hi, hmet, rfl⟩ := hp
  refine accords_document_bind ?_
  dsimp only
  rw [hreads.strings_eq (hreads.tells i hi hmet) "required" (by decide),
    hreads.hasSinglePattern_eq hi hmet]
  exact hmembers

/-- The definitions become fields if they are asked for; else they are not met. -/
lemma accords_wantedDefinitionFields (owner : Option String) :
    Accords M v st st' (wantedDefinitionFields s down i owner)
      (wantedDefinitionFields s down' j owner) := by
  rw [wantedDefinitionFields, wantedDefinitionFields]
  split
  case isFalse => exact .pure h []
  case isTrue hs =>
    have hmembers := accords_members hM hdown h hp "$defs" (by rw [fieldKeys, if_pos hs]; decide)
      (fun key type => do
        annotate type (definitionNote owner key)
        return {
          key
          required := (st.document.strings i "required").contains key
          isDefinition := true
          type })
      fun key type v₁ st₁ st₁' h₁ => (accords_annotate h₁ type _).bind
        fun _ v₂ st₂ st₂' hensues => .pure hensues.alike _
    have hreads := hM.reads h.relates
    obtain ⟨hi, hmet, rfl⟩ := hp
    refine accords_document_bind ?_
    rw [hreads.strings_eq (hreads.tells i hi hmet) "required" (by decide)]
    exact hmembers

lemma accords_indexType? : Accords M v st st' (indexType? s down i) (indexType? s down' j) := by
  have hreads := hM.reads h.relates
  obtain ⟨hi, hmet, rfl⟩ := hp
  refine accords_document_bind ?_
  rw [hreads.tells i hi hmet "additionalProperties" (by decide), hreads.hasSinglePattern_eq hi hmet]
  have htop : Accords M v st st' (do return some (← allocTop s (some indexKey)))
      (do return some (← allocTop s (some indexKey))) :=
    (accords_allocTop h _).bind fun type v₁ st₁ st₁' hensues => .pure hensues.alike (some type)
  cases hc : st.document.get? i "additionalProperties" with
  | none =>
      dsimp only [Option.map_none]
      split
      · exact .pure h none
      · exact htop
  | some c =>
      have hlt := hreads.left.get?_lt hc
      dsimp only [Option.map_some]
      rw [hreads.isObject_eq c hlt, hreads.leafIs_eq hlt]
      split
      case isTrue hobject =>
        have hc := hreads.met_get? i hmet _ (by decide) c hc hobject
        exact (hdown.later hlt hc _ (h.ensues rfl rfl)).bind fun type v₁ st₁ st₁' hensues =>
          .pure hensues.alike (some type)
      case isFalse =>
        split
        · exact .pure h none
        · exact htop

lemma accords_record (name : Option String) :
    Accords M v st st' (record s down i name) (record s down' j name) := by
  refine (accords_propertyFields hM hdown h hp).bind fun properties v₁ st₁ st₁' h₁ => ?_
  have hp₁ := h₁.pairs hp
  refine (accords_patternFields hM hdown h₁.alike hp₁ name).bind fun patterns v₂ st₂ st₂' h₂ => ?_
  have hp₂ := h₂.pairs hp₁
  refine (accords_wantedDefinitionFields hM hdown h₂.alike hp₂ name).bind
    fun definitions v₃ st₃ st₃' h₃ => ?_
  have hp₃ := h₃.pairs hp₂
  refine (accords_indexType? hM hdown h₃.alike hp₃).bind fun index v₄ st₄ st₄' h₄ => ?_
  refine accords_document_bind ?_
  exact (accords_items hM hdown h₄.alike (h₄.pairs hp₃) "extends" (by decide)).bind
    fun supers v₅ st₅ st₅' h₅ => .pure h₅.alike _

variable (hobject : st.document.isObject i = true)
include hobject

lemma accords_alternative (name : String) :
    Accords M v st st' (alternative down i name) (alternative down' j name) := by
  obtain ⟨hi, hmet, rfl⟩ := hp
  obtain ⟨v₁, hcopy⟩ := hM.exists_withType h.relates hi hmet hobject name
  have hensues := h.setDocument hM hcopy.advances hcopy.grows
  exact accords_document_bind (accords_setDocument_bind hensues
    (hdown v₁ _ _ _ _ none hensues.alike ⟨hcopy.lt, hcopy.met, hcopy.image⟩))

lemma accords_typeUnion : Accords M v st st' (typeUnion down i) (typeUnion down' j) := by
  have halternative (name : String) {v₁ : V} {st₁ st₁' : Lowering}
      (hensues : Ensues M v st st' v₁ st₁ st₁') :=
    accords_alternative hM hdown hensues.alike (hensues.pairs hp) (hensues.isObject hp hobject) name
  have hreads := hM.reads h.relates
  obtain ⟨hi, hmet, rfl⟩ := hp
  refine accords_document_bind (.bind ?_ fun types v₁ st₁ st₁' hensues =>
    .pure hensues.alike (Shape.union types))
  rw [hreads.strings_eq (hreads.tells i hi hmet) "type" (by decide)]
  exact .mapM_same h _ fun name v₁ st₁ st₁' hensues => halternative name hensues

/-- **The shapes of a schema and of its image**, under any category. -/
lemma accords_shapeOf (name : Option String) (category : Category) :
    Accords M v st st' (shapeOf s down i name category) (shapeOf s down' j name category) := by
  have hlist (key : String) (hkey : key ∉ sizeKeys) (make : List TypeId → Shape) :
      Accords M v st st' (do return make (← list down i key))
        (do return make (← list down' j key)) :=
    (accords_list hM hdown h hp key hkey).bind fun types v₁ st₁ st₁' hensues =>
      .pure hensues.alike (make types)
  have htext (key : String) (hkey : key ∉ sizeKeys) (make : String → Shape) :
      Accords M v st st' (do return make (((← document).string? i key).getD ""))
        (do return make (((← document).string? j key).getD "")) := by
    have hreads := hM.reads h.relates
    obtain ⟨hi, hmet, rfl⟩ := hp
    refine accords_document_bind ?_
    rw [hreads.string?_eq (hreads.tells i hi hmet) key hkey]
    exact .pure h _
  cases category with
  | allOf => exact hlist "allOf" (by decide) .intersection
  | anyOf => exact hlist "anyOf" (by decide) .union
  | oneOf => exact hlist "oneOf" (by decide) .union
  | unnamedEnum => exact hlist "enum" (by decide) .union
  | customType => exact htext "tsType" (by decide) .custom
  | reference => exact htext "$ref" (by decide) fun text => .custom (s.refName text)
  | namedEnum => exact accords_enumeration hM hdown h hp
  | namedSchema => exact accords_record hM hdown h hp name
  | unnamedSchema => exact accords_record hM hdown h hp name
  | typedArray => exact accords_typedArray hM hdown h hp
  | untypedArray => exact accords_untypedArray hM h hp
  | union => exact accords_typeUnion hM hdown h hp hobject
  | _ => exact .pure h _

/-! ### Types of schemas -/

lemma accords_under (category : Category) (key : Option String) :
    Accords M v st st' (under s down i category key) (under s down' j category key) := by
  refine accords_once h hp ?_
  have hreserved := h.reserved hM hp (some category)
  refine (accords_claimName hM hreserved hp.reserved hobject _).bind
    fun name v₁ st₁ st₁' h₁ => ?_
  have hp₁ := h₁.pairs hp.reserved
  have hobject₁ := h₁.isObject hp.reserved hobject
  refine (accords_shapeOf hM hdown h₁.alike hp₁ hobject₁ name category).bind
    fun shape v₂ st₂ st₂' h₂ => ?_
  exact accords_finish hM h₂.alike (h₂.pairs hp₁) shape key name

lemma accords_intersection (categories : List Category) (key : Option String) :
    Accords M v st st' (intersection s down i categories key)
      (intersection s down' j categories key) := by
  refine accords_once h hp ?_
  have hreserved := h.reserved hM hp none
  refine (accords_claimName hM hreserved hp.reserved hobject none).bind
    fun name v₁ st₁ st₁' h₁ => ?_
  have hp₁ := h₁.pairs hp.reserved
  have hobject₁ := h₁.isObject hp.reserved hobject
  obtain ⟨v₂, hcopy⟩ := hM.exists_copyWithout h₁.alike.relates hp₁.lt hp₁.met hobject₁
    (List.Subset.refl identityKeys)
  rw [hp₁.image] at hcopy
  have h₂ := h₁.alike.setDocument hM hcopy.advances hcopy.grows
  refine accords_document_bind (accords_setDocument_bind h₂ (.bind ?_
    fun members v₃ st₃ st₃' h₃ => accords_finish hM h₃.alike (h₃.pairs (h₂.pairs hp₁)) _ key name))
  have hcopied : Pairs M v₂ { st₁ with document := (st₁.document.copyWithout i _).2 } _ _ :=
    ⟨hcopy.lt, hcopy.met, hcopy.image⟩
  exact .mapM_same h₂.alike categories fun category v₃ st₃ st₃' h₃ =>
    accords_under hM hdown h₃.alike (h₃.pairs hcopied) (h₃.isObject hcopied hcopy.isObject)
      category key

end Shapes

lemma accords_literal (h : Alike M v st st') (hp : Pairs M v st i j)
    (hobject : st.document.isObject i = false) (key : Option String) :
    Accords M v st st' (literal i key) (literal j key) := by
  have hreads := hM.reads h.relates
  obtain ⟨hi, hmet, rfl⟩ := hp
  refine accords_document_bind ?_
  rw [hreads.toJson_eq i hi hmet hobject]
  exact accords_alloc h _

lemma parallel_schemaWith (hdown : Parallel M down down') :
    Parallel M (schemaWith s down) (schemaWith s down') := by
  intro v st st' i j key h hp
  have hreads := hM.reads h.relates
  have hisObject : st'.document.isObject j = st.document.isObject i := by
    rw [← hp.image, hreads.isObject_eq i hp.lt]
  have hcategories : st'.document.categories j = st.document.categories i := by
    rw [← hp.image, hreads.categories_eq (hreads.tells i hp.lt hp.met)
      (hreads.empty_eq i hp.lt hp.met)]
  refine accords_document_bind ?_
  rw [hisObject, hcategories]
  split
  case isTrue hobject =>
    split
    · exact accords_under hM hdown h hp hobject _ key
    · exact accords_intersection hM hdown h hp hobject _ key
  case isFalse hobject =>
    exact accords_literal hM h hp (Bool.eq_false_of_not_eq_true hobject) key

/-- **A node and its image are lowered in accord**, with the same fuel. -/
theorem parallel_schemaBeyond (fuel : Nat) :
    Parallel M (schemaBeyond s (fun _ _ => reserve) fuel)
      (schemaBeyond s (fun _ _ => reserve) fuel) := by
  induction fuel with
  | zero => exact fun v st st' i j key h _ => accords_alloc h _
  | succ fuel ih =>
      exact fun v st st' i j key h hp =>
        accords_answering (parallel_schemaWith hM ih v st st' i j key h hp) i j

end Lower

/-! ### Types of related documents -/

section Types

variable {V : Type} {M : View V} {s : Settings} {v : V} {d e : Document} {root : NodeId}

lemma Lowering.alike_start (h : M.Relates v d e) :
    Alike M v { document := d } { document := e } where
  relates := h
  types := rfl
  names := rfl
  made _ _ _ := rfl
  made_lt _ hentry := absurd hentry List.not_mem_nil
  made_lt' _ hentry := absurd hentry List.not_mem_nil
  definitions _ _ _ := .none
  definitions_lt _ hentry := absurd hentry List.not_mem_nil
  definitions_lt' _ hentry := absurd hentry List.not_mem_nil

/-- **Related documents have the same types.** The larger one has more fuel, which makes no
difference. -/
theorem View.Lowers.ofDocument_eq (hM : M.Lowers s) (h : M.Relates v d e) (hroot : root < d.size)
    (hmet : M.Met v root) :
    TypeGraph.ofDocument s e (M.image v root) = TypeGraph.ofDocument s d root := by
  have hreads := hM.reads h
  have hfuel : Lowering.ofDocument s d root
      = (Lower.schemaBeyond s (fun _ _ => Lower.reserve) (2 * e.size + 2) root none).run
          { document := d } :=
    (Lowering.runs_ofDocument hreads.left hroot (fun _ _ => Lower.reserve)
      (by have := hreads.size_le; omega)).same
  obtain ⟨hresult, v₁, hensues⟩ := Lower.parallel_schemaBeyond hM (2 * e.size + 2) v
    { document := d } { document := e } root (M.image v root) none (Lowering.alike_start h)
    ⟨hroot, hmet, rfl⟩
  rw [TypeGraph.ofDocument, TypeGraph.ofDocument, hfuel]
  exact Prod.ext hresult hensues.alike.types

end Types

end SchemaDecl
