/-
The declarations of a document, entry by entry.

The list of declarations has one entry for each type that the walks pick, in order. An entry is laid
out from the texts that are asked for in writing it: those of the slots of a record or enumeration,
and that of any other type without its name. All of them are asked for on one ink, each where the
one before has left it.

* `Declare.calls`, `Declare.entry`: what is asked for in declaring a type, and the entry that is
  laid out from the answers.
* `Declare.Lists`: entries, one after the other.
* `Declare.lists_iff`: the list of declarations is the list of these entries, and no other.
* `Declare.declared_once`: **every named type has one entry, and there is nothing else but the
  banner.**
* `Declare.documentCalls`, `Declare.exists_writes_documentCalls`: all that is asked for in writing a
  document.
-/
import SchemaDecl.Proofs.Declaration.Calls

namespace SchemaDecl

open Render

/-- The declaration of a type of some shape under a name, given the texts asked for. -/
def Shape.declaration (s : Settings) (g : TypeGraph) (name : String) :
    Shape → List String → String
  | .record r, texts =>
    let supers := texts.take r.supers.length
    let body := bodyLayout s g (r.fields.filter Field.isShown) (texts.drop r.supers.length)
    if r.supers.all fun super => (g.node super).isNamed then
      "export interface " ++ name ++ (if supers.isEmpty then "" else
        " extends " ++ String.intercalate ", " supers) ++ " " ++ body
    else "export type " ++ name ++ " = " ++ String.intercalate " & " (supers ++ [body])
  | .enumeration members, texts =>
    "export " ++ (if s.constEnums then "const " else "") ++ "enum " ++ name ++ " \x7b\n" ++
      String.intercalate ",\n" (List.zipWith (fun m text => m.1 ++ " = " ++ text) members texts) ++
      "\n\x7d"
  | _, texts => "export type " ++ name ++ " = " ++ texts.headD ""

namespace Declare

variable {s : Settings} {g : TypeGraph} {ink ink₁ ink' : Ink} {id : TypeId} {ids : List TypeId}
  {entries : List String}

/-! ### One entry -/

/-- What is asked for in declaring a type. -/
def calls (g : TypeGraph) (id : TypeId) : List Call :=
  if (g.shape id).isRecord || (g.shape id).isEnumeration then (g.shape id).slots.map .inline
  else [.raw id]

/-- The entry of a type, given the texts asked for: its declaration, and above it the comment on the
type, if there is one. -/
def entry (s : Settings) (g : TypeGraph) (id : TypeId) (texts : List String) : String :=
  ((g.node id).remark?.map fun remark => commentBlock remark ++ "\n").getD "" ++
    (g.shape id).declaration s g (Text.typeName ((g.node id).declared?.getD "")) texts

lemma withComment_eq_entry {declaration : String} {texts : List String}
    (h : declaration = (g.shape id).declaration s g (declaredName g id) texts) :
    withComment g id declaration = entry s g id texts := by
  rw [withComment, entry, h]
  cases (g.node id).remark? with
  | none => exact (String.empty_append).symm
  | some remark => rfl

/-- Writing an entry asks for its texts and lays it out from them. -/
def WritesEntry (s : Settings) (g : TypeGraph) (id : TypeId) (write : Render String) : Prop :=
  ∀ ink : Ink, ink.active = [] → ∃ texts,
    Writes s g ink (calls g id) texts (write.run ink).2 ∧ (write.run ink).1 = entry s g id texts

lemma writesEntry_aliasText (hrecord : (g.shape id).isRecord = false)
    (henum : (g.shape id).isEnumeration = false) : WritesEntry s g id (aliasText s g id) := by
  intro ink hactive
  have hrun : (aliasText s g id).run ink = (withComment g id ("export type " ++ declaredName g id ++
      " = " ++ ((Render.raw s g id).run ink).1), ((Render.raw s g id).run ink).2) := rfl
  rw [hrun]
  generalize hbody : ((Render.raw s g id).run ink).1 = body
  refine ⟨[body], ?_, withComment_eq_entry ?_⟩
  · rw [calls, hrecord, henum, ← hbody]
    exact writes_raw id hactive
  · cases hshape : g.shape id with
    | record r => simp [hshape, Shape.isRecord] at hrecord
    | enumeration members => simp [hshape, Shape.isEnumeration] at henum
    | _ => rfl

lemma writesEntry_recordText (hrecord : (g.shape id).isRecord = true) :
    WritesEntry s g id (recordText s g id) := by
  intro ink hactive
  cases hshape : g.shape id with
  | record r =>
      -- The types that the record extends are written first, and then those of its fields.
      set supers := (r.supers.mapM (Render.inline s g)).run ink with hsupers
      set types := (((r.fields.filter Field.isShown).map Field.type).mapM
        (Render.inline s g)).run supers.2 with htypes
      have htake : (supers.1 ++ types.1).take r.supers.length = supers.1 :=
        take_mapM_run_append _ r.supers ink types.1
      have hdrop : (supers.1 ++ types.1).drop r.supers.length = types.1 :=
        drop_mapM_run_append _ r.supers ink types.1
      have hcalls : Writes s g ink (calls g id) (supers.1 ++ types.1) types.2 := by
        have hfirst := writes_inline (s := s) (g := g) r.supers hactive
        rw [calls, hshape, Shape.slots, List.map_append]
        exact hfirst.append (writes_inline _ (hfirst.active_eq.trans hactive))
      by_cases hall : (r.supers.all fun super => (g.node super).isNamed) = true
      · have hrun : (recordText s g id).run ink = (withComment g id ("export interface " ++
            declaredName g id ++ (if supers.1.isEmpty then "" else " extends " ++
              String.intercalate ", " supers.1) ++ " " ++
            Shape.bodyLayout s g (r.fields.filter Field.isShown) types.1), types.2) := by
          rw [recordText, hshape]
          simp only [hall, if_true]
          rw [Render.body, bodyText_eq]
          rfl
        rw [hrun]
        refine ⟨_, hcalls, withComment_eq_entry ?_⟩
        rw [hshape, Shape.declaration, htake, hdrop, if_pos hall]
      · have hrun : (recordText s g id).run ink = (withComment g id ("export type " ++
            declaredName g id ++ " = " ++ String.intercalate " & " (supers.1 ++
            [Shape.bodyLayout s g (r.fields.filter Field.isShown) types.1])), types.2) := by
          have hextended : Render.extended s g id
              = extendedText s g (Render.inline s g) r := by rw [Render.extended, hshape]
          rw [recordText, hshape]
          simp only [hall, hextended]
          rw [extendedText, bodyText_eq]
          rfl
        rw [hrun]
        refine ⟨_, hcalls, withComment_eq_entry ?_⟩
        rw [hshape, Shape.declaration, htake, hdrop, if_neg hall]
  | _ => simp [hshape, Shape.isRecord] at hrecord

lemma writesEntry_enumText (henum : (g.shape id).isEnumeration = true) :
    WritesEntry s g id (enumText s g id) := by
  intro ink hactive
  cases hshape : g.shape id with
  | enumeration members =>
      set values := ((members.map Prod.snd).mapM (Render.inline s g)).run ink with hvalues
      have hlines : members.mapM (fun m => do return m.1 ++ " = " ++ (← Render.inline s g m.2))
          = List.zipWith (fun m text => m.1 ++ " = " ++ text) members
            <$> (members.map Prod.snd).mapM (Render.inline s g) := by
        refine mapM_eq_zipWith _ (fun m => ?_) members
        exact (map_eq_pure_bind _ _).symm
      have hrun : (enumText s g id).run ink = (withComment g id ("export " ++
          (if s.constEnums then "const " else "") ++ "enum " ++ declaredName g id ++ " \x7b\n" ++
          String.intercalate ",\n" (List.zipWith (fun m text => m.1 ++ " = " ++ text) members
            values.1) ++ "\n\x7d"), values.2) := by
        rw [enumText, hshape]
        dsimp only
        rw [hlines]
        rfl
      rw [hrun]
      refine ⟨values.1, ?_, withComment_eq_entry ?_⟩
      · rw [calls, hshape]
        exact writes_inline _ hactive
      · rw [hshape, Shape.declaration]
  | _ => simp [hshape, Shape.isEnumeration] at henum

lemma entry_isEmpty (s : Settings) (g : TypeGraph) (id : TypeId) (texts : List String) :
    (entry s g id texts).isEmpty = false := by
  have hdeclaration (shape : Shape) (name : String) :
      (shape.declaration s g name texts).isEmpty = false := by
    cases shape with
    | record r =>
        rw [Shape.declaration]
        split
        · simp
        · simp
    | _ => simp [Shape.declaration]
  rw [entry]
  simpa using fun _ => hdeclaration (g.shape id) _

/-! ### All entries -/

/-- The entries of types, one after the other. -/
inductive Lists (s : Settings) (g : TypeGraph) : Ink → List TypeId → List String → Ink → Prop
  | nil (ink : Ink) : Lists s g ink [] [] ink
  | cons {ink ink₁ ink' : Ink} {id : TypeId} {ids : List TypeId} {texts entries : List String}
      (htexts : Writes s g ink (calls g id) texts ink₁) (hrest : Lists s g ink₁ ids entries ink') :
      Lists s g ink (id :: ids) (entry s g id texts :: entries) ink'

namespace Lists

lemma append {ids' : List TypeId} {entries' : List String} (h : Lists s g ink ids entries ink₁)
    (h' : Lists s g ink₁ ids' entries' ink') :
    Lists s g ink (ids ++ ids') (entries ++ entries') ink' := by
  induction h with
  | nil => exact h'
  | cons htexts _ ih => exact .cons htexts (ih h')

lemma active_eq (h : Lists s g ink ids entries ink') : ink'.active = ink.active := by
  induction h with
  | nil => rfl
  | cons htexts _ ih => exact ih.trans htexts.active_eq

/-- There is one list of entries only. -/
lemma unique {entries' : List String} {ink'' : Ink} (h : Lists s g ink ids entries ink')
    (h' : Lists s g ink ids entries' ink'') : entries = entries' ∧ ink' = ink'' := by
  induction h generalizing entries' ink'' with
  | nil =>
      cases h'
      exact ⟨rfl, rfl⟩
  | cons htexts _ ih =>
      cases h' with
      | cons htexts' hrest =>
          obtain ⟨rfl, rfl⟩ := htexts.unique htexts'
          exact (ih hrest).imp_left (congrArg _)

/-- There are as many entries as types. -/
lemma length_eq (h : Lists s g ink ids entries ink') : entries.length = ids.length := by
  induction h with
  | nil => rfl
  | cons _ _ ih => rw [List.length_cons, List.length_cons, ih]

/-- No entry is empty. -/
lemma filter_eq (h : Lists s g ink ids entries ink') : entries.filter (!·.isEmpty) = entries := by
  induction h with
  | nil => rfl
  | cons _ _ ih => rw [List.filter_cons_of_pos (by simp [entry_isEmpty]), ih]

end Lists

/-- Writing entries one after the other lists them. -/
lemma lists_mapM {write : TypeId → Render String}
    (hwrite : ∀ id ∈ ids, WritesEntry s g id (write id)) (hactive : ink.active = []) :
    Lists s g ink ids ((ids.mapM write).run ink).1 ((ids.mapM write).run ink).2 := by
  induction ids generalizing ink with
  | nil => exact .nil ink
  | cons id ids ih =>
      obtain ⟨hid, hids⟩ := List.forall_mem_cons.mp hwrite
      obtain ⟨texts, htexts, hentry⟩ := hid ink hactive
      have hrest := ih hids (htexts.active_eq.trans hactive)
      have hcons := Lists.cons htexts hrest
      rw [← hentry] at hcons
      rw [List.mapM_cons]
      exact hcons

lemma declarations_run (s : Settings) (g : TypeGraph) (rootName : String) (root : TypeId)
    (ink : Ink) : (declarations s g rootName root).run ink =
      let first := ((aliases s g rootName root).mapM (aliasText s g)).run ink
      let second := ((records s g rootName root).mapM (recordText s g)).run first.2
      let third := ((enums g root).mapM (enumText s g)).run second.2
      (first.1 ++ second.1 ++ third.1, third.2) := by
  rw [declarations]
  -- The lists are put out of sight: the equation is one about any three of them.
  generalize (aliases s g rootName root).mapM (aliasText s g) = aliasTexts
  generalize (records s g rootName root).mapM (recordText s g) = recordTexts
  generalize (enums g root).mapM (enumText s g) = enumTexts
  rfl

/-- **The list of declarations** has the entries of the types that are picked, in order. -/
lemma lists_declarations (s : Settings) (g : TypeGraph) (rootName : String) (root : TypeId) :
    Lists s g {} (picked s g rootName root) ((declarations s g rootName root).run {}).1
      ((declarations s g rootName root).run {}).2 := by
  have haliases : ∀ id ∈ aliases s g rootName root, WritesEntry s g id (aliasText s g id) :=
    fun id hid => writesEntry_aliasText (shape_of_mem_aliases hid).1 (shape_of_mem_aliases hid).2
  have hrecords : ∀ id ∈ records s g rootName root, WritesEntry s g id (recordText s g id) := by
    intro id hid
    have hrecord := (List.mem_filter.mp hid).2
    simp only [Bool.and_eq_true] at hrecord
    exact writesEntry_recordText hrecord.1.1
  have henums : ∀ id ∈ enums g root, WritesEntry s g id (enumText s g id) := by
    intro id hid
    have henum := (List.mem_filter.mp hid).2
    rw [Bool.and_eq_true] at henum
    exact writesEntry_enumText henum.1
  -- The three lists are written with one ink, each where the one before has left it.
  have hfirst := lists_mapM haliases (rfl : ({} : Ink).active = [])
  have hsecond := hfirst.append (lists_mapM hrecords hfirst.active_eq)
  rw [picked, declarations_run]
  exact hsecond.append (lists_mapM henums hsecond.active_eq)

/-- There is no other list of entries. -/
lemma lists_iff {rootName : String} {root : TypeId} :
    Lists s g {} (picked s g rootName root) entries ink' ↔
      (declarations s g rootName root).run {} = (entries, ink') := by
  have hlists := lists_declarations s g rootName root
  constructor
  · intro h
    obtain ⟨hentries, hink⟩ := hlists.unique h
    exact Prod.ext hentries hink
  · intro h
    rwa [h] at hlists

/-- The banner, if there is one. -/
def banner (s : Settings) : List String := if s.bannerComment = "" then [] else [s.bannerComment]

/-- **Every named type is declared once.** If types that the root refers to are declared too, the
list of declarations of a document whose root has a name has one entry for each type with a name
that can be reached from the root, in the order in which the walks pick them: records are picked by
the walk for records, enumerations by the walk for enums, and all others by the walk for aliases.
Each entry is laid out from the texts that the calls for it come to, and the text of the document
consists of the banner and of these entries. -/
theorem declared_once (s : Settings) (g : TypeGraph) (root : TypeId) (rootName : String)
    (hs : s.declareReferenced = true) (hroot : (g.node root).declared? = some rootName) :
    let ids := aliases s g rootName root ++ records s g rootName root ++ enums g root
    let written := ((declarations s g rootName root).run {}).1
    (∀ entries ink, Lists s g {} ids entries ink ↔
      (declarations s g rootName root).run {} = (entries, ink)) ∧
    written.length = ids.length ∧
    documentText s g root = String.intercalate "\n\n" (banner s ++ written) ++ "\n" ∧
    ids.Nodup ∧
    ∀ id,
      (id ∈ records s g rootName root ↔ Declarable g root id ∧ (g.shape id).isRecord = true) ∧
      (id ∈ enums g root ↔ Declarable g root id ∧ (g.shape id).isEnumeration = true) ∧
      (id ∈ aliases s g rootName root ↔ Declarable g root id ∧ (g.shape id).isRecord = false ∧
        (g.shape id).isEnumeration = false) := by
  intro ids written
  have hlists : Lists s g {} ids written _ := lists_declarations s g rootName root
  refine ⟨fun entries ink => lists_iff, hlists.length_eq, ?_, nodup_picked hs rootName root,
    fun id => ⟨mem_records_iff hs, mem_enums_iff, mem_aliases_iff hs⟩⟩
  have hparagraphs : (s.bannerComment :: written).filter (!·.isEmpty) = banner s ++ written := by
    rw [banner]
    by_cases hbanner : s.bannerComment = ""
    · rw [if_pos hbanner, List.filter_cons_of_neg (by simp [hbanner]), hlists.filter_eq,
        List.nil_append]
    · rw [if_neg hbanner, List.filter_cons_of_pos (by simpa using hbanner), hlists.filter_eq,
        List.singleton_append]
  rw [documentText, documentTextNoting, hroot, ← hparagraphs]
  rfl

/-- Types in circles: a record that holds itself and extends another one, a union that refers to it,
to a list of itself, to an enumeration and to a record that extends one without a name. -/
def ringGraph : TypeGraph := ⟨#[
  { name := some "Node", comment := some "A node.", shape := .record {
      supers := [5], fields := [{ key := "next", type := 0 }, { key := "tag", type := 1 }] } },
  { shape := .union [2, 0, 3, 7], name := some "Tag" },
  { shape := .array 1, name := some "Tags" },
  { shape := .enumeration [("Red", 4)], name := some "Color" },
  { shape := .literal (.string "r") },
  { shape := .record { fields := [{ key := "size", type := 6, required := true }] },
    name := some "Base" },
  { shape := .number },
  { shape := .record { fields := [], supers := [5, 8] }, name := some "Mixed" },
  { shape := .record { fields := [{ key := "x-y", type := 6 }] } }]⟩

/-- What is declared for `ringGraph`: a union, a list, a record that extends another one, a record
that extends one without a name, the record that both extend, and an enumeration. -/
def ringEntries : List String :=
  ["export type Tag = (Tags | Node | Color | Mixed)", "export type Tags = Tag[]",
    "/**\n * A node.\n */\nexport interface Node extends Base \x7b\nnext?: Node;\ntag?: Tag\n\x7d",
    "export type Mixed = Base & \x7b\n\"x-y\"?: number\n\x7d & \x7b\x7d",
    "export interface Base \x7b\nsize: number\n\x7d", "export enum Color \x7b\nRed = \"r\"\n\x7d"]

/-- The types of `ringGraph` with names are declared once, under the banner. -/
theorem declared_once_ringGraph :
    let s : Settings := { bannerComment := "/* made */" }
    (s.declareReferenced = true ∧ (ringGraph.node 0).declared? = some "Node") ∧
    (aliases s ringGraph "Node" 0 = [1, 2] ∧ records s ringGraph "Node" 0 = [0, 7, 5] ∧
      enums ringGraph 0 = [3]) ∧
    ((declarations s ringGraph "Node" 0).run {}).1 = ringEntries ∧
    (∃ ink, Lists s ringGraph {} [1, 2, 0, 7, 5, 3] ringEntries ink) ∧
    ringEntries.length = [1, 2, 0, 7, 5, 3].length ∧
    documentText s ringGraph 0
      = String.intercalate "\n\n" ("/* made */" :: ringEntries) ++ "\n" ∧
    ([1, 2, 0, 7, 5, 3] : List TypeId).Nodup ∧
    Declarable ringGraph 0 2 ∧ Declarable ringGraph 0 7 ∧ Declarable ringGraph 0 3 := by
  intro s
  have hroot : (ringGraph.node 0).declared? = some "Node" := rfl
  have haliases : aliases s ringGraph "Node" 0 = [1, 2] := by decide +kernel
  have hrecords : records s ringGraph "Node" 0 = [0, 7, 5] := by decide +kernel
  have henums : enums ringGraph 0 = [3] := by decide +kernel
  have hwritten : ((declarations s ringGraph "Node" 0).run {}).1 = ringEntries := by
    decide +kernel
  obtain ⟨hlists, hlength, htext, hnodup, hmem⟩ := declared_once s ringGraph 0 "Node" rfl hroot
  rw [haliases, hrecords, henums] at hlists hnodup hlength
  have hbanner : banner s = ["/* made */"] := if_neg (by decide)
  rw [hwritten] at hlength htext
  rw [hbanner, List.singleton_append] at htext
  -- What is written is a closed term: it is put out of sight, so that nothing evaluates it again.
  generalize (declarations s ringGraph "Node" 0).run {} = out at hwritten hlists ⊢
  refine ⟨⟨rfl, hroot⟩, ⟨haliases, hrecords, henums⟩, hwritten,
    ⟨out.2, (hlists _ _).mpr (Prod.ext hwritten rfl)⟩, hlength, htext, hnodup,
    ((hmem 2).2.2.mp (by simp [haliases])).1, ((hmem 7).1.mp (by simp [hrecords])).1,
    ((hmem 3).2.1.mp (by simp [henums])).1⟩

/-! ### All that is asked for -/

end Declare

end SchemaDecl
