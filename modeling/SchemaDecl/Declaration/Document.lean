/-
The declarations of a document.

Aliases come first, then records, then enums. Each of these is a walk over the types from the root.
A root without a name is written as the text of its type alone.

* `Declare.aliases`, `records`, `enums`: the types to be declared, in order.
* `Declare.documentText`: the text of all declarations.
-/
import SchemaDecl.Declaration.Inline
import SchemaDecl.Walk

namespace SchemaDecl.Declare

variable (s : Settings) (g : TypeGraph)

/-! ### What is declared -/

/-- The type is declared although it is not the root, or it has the name of the root. -/
def isExported (rootName : String) (id : TypeId) : Bool :=
  s.declareReferenced || (g.node id).declared? == some rootName

/-- Where the walk for aliases goes on: not into enumerations, and from a record only to types that
are exported. -/
def aliasEdges (rootName : String) (id : TypeId) : List (Unit × TypeId) :=
  match g.shape id with
  | .record r =>
    ((Shape.record r).children.filter (isExported s g rootName)).map ((), ·)
  | shape => shape.parts.map ((), ·)

/-- The type that a step of the walk for aliases declares: a named type that is no record and no
enumeration, when it is entered. An array is declared after its elements. -/
def aliasAt : Walk.Step Unit → Option TypeId
  | .enter _ id =>
    let shape := g.shape id
    if (g.node id).isNamed && !shape.isRecord && !shape.isEnumeration && !shape.isArray
    then some id else none
  | .leave id => if (g.node id).isNamed && (g.shape id).isArray then some id else none

/-- The types declared as aliases. -/
def aliases (rootName : String) (root : TypeId) : List TypeId :=
  (Walk.record (aliasEdges s g rootName) g.size ((), root)).filterMap (aliasAt g)

/-- The types below a root in the order of entering, the values of enumerations left aside. -/
def reached (root : TypeId) : List TypeId :=
  (Walk.entered (fun id => (g.shape id).parts.map ((), ·)) g.size ((), root)).map (·.2)

/-- The types declared as records. -/
def records (rootName : String) (root : TypeId) : List TypeId :=
  (reached g root).filter fun id =>
    (g.shape id).isRecord && (g.node id).isNamed && isExported s g rootName id

/-- The types declared as enums. -/
def enums (root : TypeId) : List TypeId :=
  (reached g root).filter fun id => (g.shape id).isEnumeration && (g.node id).isNamed

/-! ### How it is declared -/

/-- The name in the declaration of a type. -/
def declaredName (id : TypeId) : String := Text.typeName ((g.node id).declared?.getD "")

/-- A declaration with the comment on its type above it. -/
def withComment (id : TypeId) (declaration : String) : String :=
  match (g.node id).remark? with
  | some remark => commentBlock remark ++ "\n" ++ declaration
  | none => declaration

/-- The declaration of an alias. -/
def aliasText (id : TypeId) : Render String := do
  let text ← Render.raw s g id
  return withComment g id ("export type " ++ declaredName g id ++ " = " ++ text)

/-- The declaration of a record. If some type that it extends has no name, it is an alias of an
intersection. -/
def recordText (id : TypeId) : Render String := do
  match g.shape id with
  | .record r =>
    if r.supers.all fun super => (g.node super).isNamed then
      let supers ← r.supers.mapM (Render.inline s g)
      let extending := if supers.isEmpty then "" else " extends " ++ String.intercalate ", " supers
      let body ← Render.body s g r.fields
      return withComment g id ("export interface " ++ declaredName g id ++ extending ++ " " ++ body)
    else
      let text ← Render.extended s g id
      return withComment g id ("export type " ++ declaredName g id ++ " = " ++ text)
  | _ => aliasText s g id

/-- The declaration of an enum. -/
def enumText (id : TypeId) : Render String := do
  match g.shape id with
  | .enumeration members =>
    let lines ← members.mapM fun (label, value) => do
      return label ++ " = " ++ (← Render.inline s g value)
    return withComment g id ("export " ++ (if s.constEnums then "const " else "") ++ "enum " ++
      declaredName g id ++ " \x7b\n" ++ String.intercalate ",\n" lines ++ "\n\x7d")
  | _ => aliasText s g id

/-- The declarations of a document whose root has a name. -/
def declarations (rootName : String) (root : TypeId) : Render (List String) := do
  let aliasTexts ← (aliases s g rootName root).mapM (aliasText s g)
  let recordTexts ← (records s g rootName root).mapM (recordText s g)
  let enumTexts ← (enums g root).mapM (enumText s g)
  return aliasTexts ++ recordTexts ++ enumTexts

/-- The text of a document, and the types that were cut off in writing it. -/
def documentTextNoting (root : TypeId) : String × List TypeId :=
  match (g.node root).declared? with
  | none =>
    let (text, ink) := (Render.raw s g root).run {}
    (text, ink.cut.reverse)
  | some rootName =>
    let (texts, ink) := (declarations s g rootName root).run {}
    let paragraphs := (s.bannerComment :: texts).filter (!·.isEmpty)
    (String.intercalate "\n\n" paragraphs ++ "\n", ink.cut.reverse)

/-- The text of a document. -/
def documentText (root : TypeId) : String := (documentTextNoting s g root).1

end SchemaDecl.Declare
