/-
The text of a type is laid out from the texts in its slots.

To write a type is to write the types in its slots, one after the other, and to put their texts
together in a way that only depends on the shape. What is said about the state of writing need
therefore only be said about going through slots.

* `Shape.slots`: the types that the text of a shape shows, in the order in which they are written.
  The fields of patterns and definitions are not shown.
* `Shape.layout`: the text of a shape, given the texts in its slots.
* `Shape.isWrapper`: a set with a single member, which reads as that member; any other shape with
  slots reads as something in brackets (`Shape.bracketed_layout`).
* `Render.shapeText_eq`: writing a shape is writing its slots and laying out their texts.
-/
import Mathlib.Tactic.Common
import SchemaDecl.Declaration.Inline

namespace SchemaDecl

/-- The field is written. -/
def Field.isShown (f : Field) : Bool := !f.isPattern && !f.isDefinition

namespace Shape

/-- The types that the text of a shape shows, in the order of writing. -/
def slots : Shape → List TypeId
  | .array element => [element]
  | .tuple t => t.params ++ t.rest.toList
  | .record r => r.supers ++ (r.fields.filter Field.isShown).map Field.type
  | .union members => members
  | .intersection members => members
  | .enumeration members => members.map (·.2)
  | _ => []

/-- Texts joined by an operator. -/
def setLayout (operator empty : String) : List String → String
  | [] => empty
  | [single] => single
  | several => "(" ++ String.intercalate operator several ++ ")"

/-- The line of a field, given the text of its type. -/
def fieldLayout (s : Settings) (g : TypeGraph) (f : Field) (text : String) : String :=
  let t := g.node f.type
  let comment := if t.isNamed then "" else match t.remark? with
    | some remark => commentBlock remark ++ "\n"
    | none => ""
  comment ++ fieldKey f.key ++ (if f.required then "" else "?") ++ ": " ++ text ++
    (if s.strictIndex && f.key == indexKey then " " else "")

/-- The fields of a record, given the texts of their types. -/
def bodyLayout (s : Settings) (g : TypeGraph) (fields : List Field) (texts : List String) :
    String :=
  let lines := List.zipWith (fieldLayout s g) fields texts
  if lines.isEmpty then "\x7b\x7d" else "\x7b\n" ++ String.intercalate ";\n" lines ++ "\n\x7d"

/-- The array of an element, given its text. -/
def arrayLayout (text : String) : String :=
  if text.toList.getLast? == some '"' then "(" ++ text ++ ")[]" else text ++ "[]"

/-- The text of a shape, given the texts in its slots. -/
def layout (s : Settings) (g : TypeGraph) : Shape → List String → String
  | .any, _ => "any"
  | .unknown, _ => "unknown"
  | .null, _ => "null"
  | .boolean, _ => "boolean"
  | .number, _ => "number"
  | .string, _ => "string"
  | .object, _ => "object"
  | .pending, _ => s.top
  | .literal value, _ => value.text
  | .custom text, _ => text
  | .array _, texts => arrayLayout (texts.headD "")
  | .tuple t, texts =>
    (tupleArms (texts.take t.params.length) t.least t.most (texts.drop t.params.length).head?
      s.top).text
  | .union _, texts => setLayout " | " "never" texts
  | .intersection _, texts => setLayout " & " s.top texts
  | .enumeration _, texts => setLayout " | " "never" texts
  | .record r, texts =>
    let body := bodyLayout s g (r.fields.filter Field.isShown) (texts.drop r.supers.length)
    if r.supers.isEmpty then body
    else "(" ++ String.intercalate " & " (texts.take r.supers.length ++ [body]) ++ ")"

/-! ### Sets with a single member -/

/-- The shape is a set with a single member. -/
def isWrapper : Shape → Bool
  | .union [_] => true
  | .intersection [_] => true
  | .enumeration [_] => true
  | _ => false

/-- A set with a single member reads as that member. -/
lemma exists_slots_of_isWrapper {shape : Shape} (h : shape.isWrapper = true) (s : Settings)
    (g : TypeGraph) :
    ∃ c, shape.slots = [c] ∧ ∀ text, shape.layout s g [text] = text := by
  unfold isWrapper at h
  split at h
  · exact ⟨_, rfl, fun _ => rfl⟩
  · exact ⟨_, rfl, fun _ => rfl⟩
  · exact ⟨_, rfl, fun _ => rfl⟩
  · cases h

/-- The text stands in brackets: it begins with an opening one or ends with a closing one. -/
def Bracketed (text : String) : Prop :=
  text.toList.head? ∈ [some '(', some '[', some '\x7b'] ∨ text.toList.getLast? = some ']'

lemma Bracketed.ne_top {text : String} (h : Bracketed text) (s : Settings) : text ≠ s.top := by
  rintro rfl
  by_cases htop : s.unknownTop = true <;> simp [Bracketed, Settings.top, htop] at h

lemma bracketed_arrayLayout (text : String) : Bracketed (arrayLayout text) := by
  rw [arrayLayout]
  split
  · exact Or.inl (by simp)
  · exact Or.inr (by simp)

lemma bracketed_setLayout (operator empty : String) {texts : List String}
    (h : 2 ≤ texts.length) : Bracketed (setLayout operator empty texts) := by
  match texts, h with
  | _ :: _ :: _, _ => exact Or.inl (by simp [setLayout])

lemma bracketed_bodyLayout (s : Settings) (g : TypeGraph) (fields : List Field)
    (texts : List String) : Bracketed (bodyLayout s g fields texts) := by
  left
  rw [bodyLayout]
  split <;> simp

lemma bracketed_armTexts (rest : Option String) (arms : List (List String)) :
    ∀ text ∈ armTexts rest arms, Bracketed text := by
  have htuple (parts : List String) : Bracketed (tupleText parts) := Or.inl (by simp [tupleText])
  fun_induction armTexts rest arms with
  | case1 => simp
  | case2 arm => simpa using htuple _
  | case3 arm arms _ ih => exact List.forall_mem_cons.mpr ⟨htuple arm, ih⟩

lemma bracketed_tuple (arms : TupleArms String) : Bracketed arms.text := by
  rw [TupleArms.text]
  split
  case h_1 single h => exact bracketed_armTexts arms.rest arms.arms single (by simp [h])
  case h_2 => exact Or.inl (by simp)

/-- A set with a single member apart, a text with slots stands in brackets. -/
lemma bracketed_layout (s : Settings) (g : TypeGraph) {shape : Shape}
    (hslots : shape.slots ≠ []) (hwrap : shape.isWrapper = false) {texts : List String}
    (hlen : texts.length = shape.slots.length) : Bracketed (shape.layout s g texts) := by
  have hset {members : List TypeId} (hne : members ≠ []) (hsingle : ∀ m, members ≠ [m])
      (hlen : texts.length = members.length) : 2 ≤ texts.length := by
    match members with
    | [] => exact absurd rfl hne
    | [m] => exact absurd rfl (hsingle m)
    | _ :: _ :: _ => simp [hlen]
  cases shape with
  | array element => exact bracketed_arrayLayout _
  | tuple t => exact bracketed_tuple _
  | record r =>
      rw [layout]
      split
      · exact bracketed_bodyLayout s g _ _
      · exact Or.inl (by simp)
  | union members =>
      exact bracketed_setLayout _ _ (hset hslots (by rintro m rfl; simp [isWrapper] at hwrap) hlen)
  | intersection members =>
      exact bracketed_setLayout _ _ (hset hslots (by rintro m rfl; simp [isWrapper] at hwrap) hlen)
  | enumeration members =>
      refine bracketed_setLayout _ _ (hset hslots (fun m hm => ?_) hlen)
      obtain ⟨e, rfl, -⟩ := List.map_eq_singleton_iff.mp hm
      simp [isWrapper] at hwrap
  | _ => exact absurd rfl hslots

end Shape

namespace Render

open Shape

variable (s : Settings) (g : TypeGraph) (inline : TypeId → Render String)

/-- There is a text for each slot. -/
lemma length_mapM_run {α β : Type} (f : α → Render β) (l : List α) (ink : Ink) :
    ((l.mapM f).run ink).1.length = l.length := by
  induction l generalizing ink with
  | nil => rfl
  | cons a l ih =>
      rw [List.mapM_cons]
      exact congrArg (· + 1) (ih ((f a).run ink).2)

lemma take_mapM_run_append {α β : Type} (f : α → Render β) (l : List α) (ink : Ink)
    (more : List β) :
    (((l.mapM f).run ink).1 ++ more).take l.length = ((l.mapM f).run ink).1 := by
  rw [← length_mapM_run f l ink, List.take_left]

lemma drop_mapM_run_append {α β : Type} (f : α → Render β) (l : List α) (ink : Ink)
    (more : List β) : (((l.mapM f).run ink).1 ++ more).drop l.length = more := by
  rw [← length_mapM_run f l ink, List.drop_left]

lemma setText_eq (operator empty : String) (members : List TypeId) :
    setText inline operator empty members
      = setLayout operator empty <$> members.mapM inline := by
  rw [setText, map_eq_pure_bind]
  congr 1
  funext texts
  match texts with
  | [] => rfl
  | [_] => rfl
  | _ :: _ :: _ => rfl

lemma fieldText_eq (f : Field) :
    fieldText s g inline f = fieldLayout s g f <$> inline f.type := by
  rw [fieldText, map_eq_pure_bind]
  rfl

/-- Lines that are laid out from the text of a type each come from the texts of these types. -/
lemma mapM_eq_zipWith {α : Type} {write : α → Render String} {type : α → TypeId}
    {line : α → String → String} (h : ∀ a, write a = line a <$> inline (type a)) (l : List α) :
    l.mapM write = List.zipWith line l <$> (l.map type).mapM inline := by
  induction l with
  | nil => simp
  | cons a l ih => simp [List.mapM_cons, ih, h]

lemma bodyText_eq (fields : List Field) :
    bodyText s g inline fields = bodyLayout s g (fields.filter Field.isShown)
      <$> ((fields.filter Field.isShown).map Field.type).mapM inline := by
  rw [bodyText, show (fun f : Field => !f.isPattern && !f.isDefinition) = Field.isShown from rfl,
    mapM_eq_zipWith inline (fieldText_eq s g inline), map_eq_pure_bind, map_eq_pure_bind,
    bind_assoc]
  congr 1
  funext texts
  rw [pure_bind, bodyLayout]
  split <;> rfl

/-- The types of a tuple are written position by position, the type of further items last. -/
lemma mapM_tuple_eq (t : TupleType) :
    (do
      let params ← t.params.mapM inline
      let rest ← t.rest.mapM inline
      return (tupleArms params t.least t.most rest s.top).text)
      = layout s g (.tuple t) <$> (Shape.tuple t).slots.mapM inline := by
  have hparams (ink : Ink) := length_mapM_run inline t.params ink
  have hrest : t.rest.mapM inline = List.head? <$> t.rest.toList.mapM inline := by
    cases t.rest <;> simp
  rw [slots, List.mapM_append, hrest]
  funext ink
  set params := (t.params.mapM inline).run ink
  set rest := (t.rest.toList.mapM inline).run params.2
  have htake : (params.1 ++ rest.1).take t.params.length = params.1 := by
    rw [← hparams ink, List.take_left]
  have hdrop : (params.1 ++ rest.1).drop t.params.length = rest.1 := by
    rw [← hparams ink, List.drop_left]
  have hlayout : layout s g (.tuple t) (params.1 ++ rest.1)
      = (tupleArms params.1 t.least t.most rest.1.head? s.top).text := by
    rw [layout, htake, hdrop]
  exact congrArg (·, rest.2) hlayout.symm

lemma extendedText_eq (r : RecordType) :
    extendedText s g inline r = (fun texts => String.intercalate " & "
        (texts.take r.supers.length ++ [bodyLayout s g (r.fields.filter Field.isShown)
          (texts.drop r.supers.length)]))
      <$> (Shape.record r).slots.mapM inline := by
  rw [slots, List.mapM_append, extendedText, bodyText_eq]
  funext ink
  set supers := (r.supers.mapM inline).run ink
  set fields := (((r.fields.filter Field.isShown).map Field.type).mapM inline).run supers.2
  have htake : (supers.1 ++ fields.1).take r.supers.length = supers.1 :=
    take_mapM_run_append inline r.supers ink fields.1
  have hdrop : (supers.1 ++ fields.1).drop r.supers.length = fields.1 :=
    drop_mapM_run_append inline r.supers ink fields.1
  have hparts : supers.1 ++ [bodyLayout s g (r.fields.filter Field.isShown) fields.1]
      = (supers.1 ++ fields.1).take r.supers.length
        ++ [bodyLayout s g (r.fields.filter Field.isShown)
          ((supers.1 ++ fields.1).drop r.supers.length)] := by
    rw [htake, hdrop]
  exact congrArg (fun parts => (String.intercalate " & " parts, fields.2)) hparts

/-- **Writing a shape** is writing the types in its slots, in order, and laying out their texts. -/
theorem shapeText_eq (shape : Shape) :
    shapeText s g inline shape = layout s g shape <$> shape.slots.mapM inline := by
  cases shape with
  | array element =>
      rw [shapeText, slots]
      simp only [List.mapM_cons, List.mapM_nil, map_bind, map_pure, layout]
      congr 1
      funext text
      simp only [List.headD_cons, pure_bind, arrayLayout]
      exact (apply_ite pure _ _ _).symm
  | tuple t => exact mapM_tuple_eq s g inline t
  | record r =>
      rw [shapeText]
      by_cases hsupers : r.supers.isEmpty = true
      · have hnil : r.supers = [] := List.isEmpty_iff.mp hsupers
        rw [if_pos hsupers, bodyText_eq, slots, hnil, List.nil_append]
        congr 1
        funext texts
        simp [layout, hnil]
      · rw [if_neg hsupers, extendedText_eq, map_eq_pure_bind, map_eq_pure_bind, bind_assoc]
        congr 1
        funext texts
        simp [layout, hsupers]
  | union members => exact setText_eq inline " | " "never" members
  | intersection members => exact setText_eq inline " & " s.top members
  | enumeration members => exact setText_eq inline " | " "never" (members.map (·.2))
  | _ => rfl

end Render

end SchemaDecl
