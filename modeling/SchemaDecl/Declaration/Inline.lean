/-
The text of types inside other types.

A type with a name is written as that name, any other by its parts. What has been written is kept,
and a type without a name that is met again while it is being written is cut off with the type of
what nothing describes.

* `Ink`: the texts kept, the types being written, and those that were cut off.
* `Render.inline`: the text of a type where it is used.
* `Render.raw`: the text of a type without its name.
* `Render.extended`, `Render.body`: the text of a record with the types it extends, and of its
  fields.
-/
import SchemaDecl.Declaration.Comment
import SchemaDecl.Declaration.Key
import SchemaDecl.Declaration.Tuple
import SchemaDecl.Settings
import SchemaDecl.Text.TypeName
import SchemaDecl.Types.Basic

namespace SchemaDecl

/-- The state of writing. `cut` holds the types that were cut off, latest first. -/
structure Ink where
  texts : List (TypeId × String) := []
  active : List TypeId := []
  cut : List TypeId := []

/-- Writing with a state. -/
abbrev Render := StateM Ink

namespace Render

variable (s : Settings) (g : TypeGraph)

/-- Keeps a text. -/
def keep (id : TypeId) (text : String) : Render Unit :=
  modify fun ink => { ink with texts := (id, text) :: ink.texts }

/-- The text of a type where it is used, given how to write it without its name. -/
def inlineWith (raw : TypeId → Render String) (id : TypeId) : Render String := do
  match (← get).texts.lookup id with
  | some text => pure text
  | none =>
    let text ← match (g.node id).declared? with
      | some name => pure (Text.typeName name)
      | none => raw id
    keep id text
    pure text

section Parts

variable (inline : TypeId → Render String)

/-- Members joined by an operator; a single one stands by itself, and `empty` for none. -/
def setText (operator empty : String) (members : List TypeId) : Render String := do
  match ← members.mapM inline with
  | [] => pure empty
  | [single] => pure single
  | several => pure ("(" ++ String.intercalate operator several ++ ")")

/-- One field of a record. The comment on a type without a name stands above the field. -/
def fieldText (f : Field) : Render String := do
  let t := g.node f.type
  let comment := if t.isNamed then "" else match t.remark? with
    | some remark => commentBlock remark ++ "\n"
    | none => ""
  let type ← inline f.type
  return comment ++ fieldKey f.key ++ (if f.required then "" else "?") ++ ": " ++ type ++
    (if s.strictIndex && f.key == indexKey then " " else "")

/-- The fields of a record; those of patterns and definitions are left out. -/
def bodyText (fields : List Field) : Render String := do
  let lines ← (fields.filter fun f => !f.isPattern && !f.isDefinition).mapM (fieldText s g inline)
  if lines.isEmpty then return "\x7b\x7d"
  else return "\x7b\n" ++ String.intercalate ";\n" lines ++ "\n\x7d"

/-- The types that a record extends and its fields, joined as an intersection. -/
def extendedText (r : RecordType) : Render String := do
  let supers ← r.supers.mapM inline
  let body ← bodyText s g inline r.fields
  return String.intercalate " & " (supers ++ [body])

/-- The text of a shape. -/
def shapeText : Shape → Render String
  | .any => return "any"
  | .unknown => return "unknown"
  | .null => return "null"
  | .boolean => return "boolean"
  | .number => return "number"
  | .string => return "string"
  | .object => return "object"
  | .pending => return s.top
  | .literal value => return value.text
  | .custom text => return text
  | .array element => do
    let text ← inline element
    if text.toList.getLast? == some '"' then return "(" ++ text ++ ")[]" else return text ++ "[]"
  | .tuple t => do
    let params ← t.params.mapM inline
    let rest ← t.rest.mapM inline
    return (tupleArms params t.least t.most rest s.top).text
  | .union members => setText inline " | " "never" members
  | .intersection members => setText inline " & " s.top members
  | .enumeration members => setText inline " | " "never" (members.map (·.2))
  | .record r => do
    if r.supers.isEmpty then bodyText s g inline r.fields
    else return "(" ++ (← extendedText s g inline r) ++ ")"

end Parts

/-- The text of a type without its name. The types being written are all different, so that as much
`fuel` as there are types, and one more, is enough. -/
def rawWith : (fuel : Nat) → TypeId → Render String
  | 0, _ => pure s.top
  | fuel + 1, id => do
    if (← get).active.contains id then
      modify fun ink => { ink with cut := id :: ink.cut }
      pure s.top
    else
      modify fun ink => { ink with active := id :: ink.active }
      let text ← shapeText s g (inlineWith g (rawWith fuel)) (g.shape id)
      modify fun ink => { ink with active := ink.active.erase id }
      pure text

/-- The text of a type without its name. -/
def raw (id : TypeId) : Render String := rawWith s g (g.size + 1) id

/-- The text of a type where it is used. -/
def inline (id : TypeId) : Render String := inlineWith g (raw s g) id

/-- The text of the fields of a record. -/
def body (fields : List Field) : Render String := bodyText s g (inline s g) fields

/-- The text of a record with the types it extends; other types are written without their names. -/
def extended (id : TypeId) : Render String :=
  match g.shape id with
  | .record r => extendedText s g (inline s g) r
  | _ => raw s g id

end Render

end SchemaDecl
