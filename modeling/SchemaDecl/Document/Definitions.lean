/-
Named definitions of a document.

* `Definitions`: definitions by name and names by definition, which agree.
* `Definitions.collect`: the entries of every definitions map at a schema position. The first entry
  with a name counts.
* `Definitions.keyOf?`: the first name of a node.
-/
import SchemaDecl.Document.Position

namespace SchemaDecl

/-- Definitions by name, in the order in which they were found, and the name of each node. A node
goes by the first name that it is found under. -/
structure Definitions where
  entries : Keyed NodeId
  names : List (NodeId × String)
  lookup_names : ∀ id, names.lookup id = (entries.find? fun e => e.2 == id).map (·.1)
deriving Repr

namespace Definitions

/-- No definitions. -/
def empty : Definitions := ⟨[], [], fun _ => rfl⟩

/-- Gives a node a name, unless it has one. -/
def addName (names : List (NodeId × String)) (id : NodeId) (name : String) :
    List (NodeId × String) :=
  if (names.lookup id).isSome then names else names ++ [(id, name)]

theorem lookup_addName (names : List (NodeId × String)) (id x : NodeId) (name : String) :
    (addName names id name).lookup x
      = (names.lookup x).or (if id == x then some name else none) := by
  rw [addName]
  split
  case isTrue hnamed =>
    by_cases hx : id = x
    · obtain ⟨first, hfirst⟩ := Option.isSome_iff_exists.mp hnamed
      rw [← hx, hfirst, Option.some_or]
    · rw [if_neg (by simpa using hx), Option.or_none]
  case isFalse _ =>
    rw [List.lookup_append]
    by_cases hx : id = x
    · rw [hx, List.lookup_cons_self, if_pos (beq_self_eq_true x)]
    · have hother : (x == id) = false := beq_false_of_ne (Ne.symm hx)
      rw [List.lookup_cons, hother, if_neg (by simpa using hx), List.lookup_nil]

/-- Adds a definition, unless its name is taken. -/
def register (defs : Definitions) (entry : String × NodeId) : Definitions :=
  if Keyed.has defs.entries entry.1 then defs
  else
    { entries := defs.entries ++ [entry]
      names := addName defs.names entry.2 entry.1
      lookup_names := fun id => by
        rw [lookup_addName, defs.lookup_names, List.find?_append, Option.map_or,
          List.find?_singleton]
        split
        · rfl
        · rfl }

/-- The entries of the definitions maps of a schema. -/
def offered (d : Document) (id : NodeId) : List (String × NodeId) :=
  d.membersAt id "$defs" ++ d.membersAt id "definitions"

/-- The definitions found at schema positions below a root. -/
def collect (d : Document) (root : NodeId) : Definitions :=
  ((d.schemaIds root).flatMap (offered d)).foldl register empty

/-- The definition with a name. -/
def get? (defs : Definitions) (name : String) : Option NodeId := Keyed.get? defs.entries name

/-- The first name that a node was registered under. -/
def keyOf? (defs : Definitions) (id : NodeId) : Option String := defs.names.lookup id

/-- How many definitions there are. -/
def size (defs : Definitions) : Nat := defs.entries.length

end Definitions

end SchemaDecl
