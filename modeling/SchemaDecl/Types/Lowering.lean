/-
From schemas to types: the state of lowering, names, and the frame in which a type is made.

A type gets its number and its name before the types it is made of are looked at. A schema that
contains itself meets the number again, so that circles of schemas become circles of types.

* `Lowering`: the state: the document, the types made so far, the names handed out, which schema has
  become which type, and what has been answered for which node and looked up among the definitions.
* `Lower.once`: makes the type of a schema, or finds it made or under way.
* `Lower.claimName`: the name of a schema: its title, its identifier, the name it is defined under,
  or a given one.
-/
import SchemaDecl.Document.Category
import SchemaDecl.Document.Definitions
import SchemaDecl.Document.Lineage
import SchemaDecl.Document.Value
import SchemaDecl.Names
import SchemaDecl.Settings
import SchemaDecl.Types.Basic

namespace SchemaDecl

/-- A schema and the category under which it is taken; no category stands for the intersection of
all its categories. -/
abbrev Aspect := NodeId × Option Category

/-- A node that was asked for, and the type it was given. -/
structure Answer where
  node : NodeId
  type : TypeId
deriving DecidableEq, Repr

/-- A node that was looked up among the definitions, and the name that was found for it. -/
structure Lookup where
  node : NodeId
  key : Option String
deriving DecidableEq, Repr

/-- The state of lowering. Definitions are kept for each root, as they are when first asked for. The
answers are the history of the nodes that were asked for, and the lookups that of the nodes that
were looked up among the definitions, latest first. -/
structure Lowering where
  document : Document
  types : TypeGraph := {}
  names : Names := {}
  made : List (Aspect × TypeId) := []
  definitions : List (NodeId × Definitions) := []
  answers : List Answer := []
  lookups : List Lookup := []

/-- Lowering with a state. -/
abbrev Lower := StateM Lowering

/-- How a node found under a key becomes a type. -/
abbrev Descent := NodeId → Option String → Lower TypeId

namespace Lower

/-- The document as it is. -/
def document : Lower Document := do return (← get).document

/-- Puts a document in place of the one there was. -/
def setDocument (d : Document) : Lower Unit := modify fun st => { st with document := d }

/-- Adds a type. -/
def alloc (t : TypeNode) : Lower TypeId := fun st =>
  let (id, types) := st.types.alloc t
  (id, { st with types })

/-- Takes a number for a type that is still to be made. -/
def reserve : Lower TypeId := alloc { shape := .pending }

/-- Gives a reserved number its type. -/
def fill (id : TypeId) (t : TypeNode) : Lower Unit :=
  modify fun st => { st with types := st.types.set id t }

/-- Adds the type of what nothing describes. -/
def allocTop (s : Settings) (key : Option String) : Lower TypeId :=
  alloc { shape := .top s.unknownTop, key }

/-- Adds a note to the comment on a type. -/
def annotate (id : TypeId) (note : String) : Lower Unit := modify fun st =>
  let t := st.types.node id
  let comment := match t.remark? with
    | some remark => remark ++ "\n\n" ++ note
    | none => note
  { st with types := st.types.set id { t with comment := some comment } }

/-- The type of an aspect: the one it was given before, or a new one. It is on record before it is
made. -/
def once (aspect : Aspect) (make : Lower TypeNode) : Lower TypeId := do
  match (← get).made.lookup aspect with
  | some id => pure id
  | none =>
    let id ← reserve
    modify fun st => { st with made := (aspect, id) :: st.made }
    let t ← make
    fill id t
    pure id

/-- Notes what is answered for a node. -/
def answering (node : NodeId) (make : Lower TypeId) : Lower TypeId := do
  let type ← make
  modify fun st => { st with answers := ⟨node, type⟩ :: st.answers }
  pure type

/-- The definitions below a root, collected when first asked for. -/
def definitionsOf (root : NodeId) : Lower Definitions := do
  match (← get).definitions.lookup root with
  | some defs => pure defs
  | none =>
    let defs := Definitions.collect (← document) root
    modify fun st => { st with definitions := (root, defs) :: st.definitions }
    pure defs

/-- The name under which a node is defined in its document. -/
def definitionKey? (id : NodeId) : Lower (Option String) := do
  let defs ← definitionsOf ((← document).rootOf id)
  let key := defs.keyOf? id
  modify fun st => { st with lookups := ⟨id, key⟩ :: st.lookups }
  return key

/-- What a schema would be called: its title, its identifier, the name it is defined under, or
`fallback`. Empty texts do not count, apart from an empty name of a definition. -/
def nameHint? (id : NodeId) (fallback : Option String) : Lower (Option String) := do
  let d ← document
  match (d.string? id "title").filter (!·.isEmpty) with
  | some title => return some title
  | none =>
    match (d.string? id "$id").filter (!·.isEmpty) with
    | some identifier => return some identifier
    | none =>
      match ← definitionKey? id with
      | some key => return some key
      | none => return fallback.filter (!·.isEmpty)

/-- Hands out a name for a schema, if there is something to call it. -/
def claimName (id : NodeId) (fallback : Option String) : Lower (Option String) := do
  match ← nameHint? id fallback with
  | none => return none
  | some hint =>
    let (name, names) := (← get).names.allocate hint
    modify fun st => { st with names }
    return some name

/-- The type node of a schema, with its description as the comment. -/
def finish (id : NodeId) (shape : Shape) (key name : Option String) : Lower TypeNode := do
  return { shape, comment := (← document).string? id "description", key, name }

end Lower

end SchemaDecl
