/-
Names handed out during one compilation.

* `Names.allocate`: the type name of a hint, with the first free counter if it is taken.
-/
import SchemaDecl.Text.TypeName

namespace SchemaDecl

/-- The names handed out so far, the latest first. -/
structure Names where
  used : List String := []
deriving Repr

namespace Names

/-- The name has been handed out. -/
def contains (n : Names) (name : String) : Bool := n.used.contains name

/-- How many names have been handed out. -/
def size (n : Names) : Nat := n.used.length

/-- The name that a hint asks for: its type name, or `NoName` if nothing remains of it. -/
def wanted (hint : String) : String :=
  let name := Text.typeName hint
  if name.isEmpty then "NoName" else name

/-- The name itself if it is free, else the name with the least counter `1`, `2`, … that makes it
free. One more counter than there are names is enough. -/
def firstFree (n : Names) (name : String) : String :=
  if n.contains name then
    let numbered := (List.range (n.size + 1)).map fun k => name ++ toString (k + 1)
    (numbered.find? fun candidate => !n.contains candidate).getD name
  else name

/-- Hands out a name for a hint. -/
def allocate (n : Names) (hint : String) : String × Names :=
  let name := n.firstFree (wanted hint)
  (name, ⟨name :: n.used⟩)

end Names

end SchemaDecl
