/-
Simpler unions and intersections.

* `TypeGraph.simplifyAt`: one union or intersection. A member that nothing describes takes the
  whole; members that say the same as a named one go; of members with the same text the first stays.
* `TypeGraph.simplify`: all of them below a root, the inner ones first.
-/
import SchemaDecl.Declaration.Inline
import SchemaDecl.Walk

namespace SchemaDecl.TypeGraph

variable (s : Settings)

/-- The texts of the members of a set: as they say what they are, and as they are used. The same ink
writes both. -/
def memberTexts (g : TypeGraph) (members : List TypeId) : Render (List String × List String) := do
  let saying ← members.mapM fun m =>
    if (g.shape m).isEnumeration then Render.inline s g m else Render.raw s g m
  let used ← members.mapM (Render.inline s g)
  return (saying, used)

/-- All texts are the same. -/
def alike : List String → Bool
  | a :: b :: rest => a == b && alike (b :: rest)
  | _ => true

/-- The members whose texts have not stood before; `seen` holds those that have. -/
def firsts (seen : List String) : List (TypeId × String) → List TypeId
  | [] => []
  | (m, text) :: rest =>
    if seen.contains text then firsts seen rest else m :: firsts (text :: seen) rest

/-- The members of a set that stay, given the texts of all. -/
def kept (g : TypeGraph) (members : List TypeId) (texts : List String × List String) :
    List TypeId :=
  let entries := members.zip texts.2
  let named := entries.filter fun e => (g.node e.1).isNamed
  firsts [] (if alike texts.1 && !named.isEmpty then named else entries)

/-- Simplifies one union or intersection, and tells which types were cut off in writing. -/
def simplifyAt (g : TypeGraph) (id : TypeId) : TypeGraph × List TypeId :=
  let members := g.children id
  if members.any fun m => (g.shape m).isAny then (g.setShape id .any, [])
  else if members.any fun m => (g.shape m).isUnknown then (g.setShape id .unknown, [])
  else
    let (texts, ink) := (memberTexts s g members).run {}
    let kept := g.kept members texts
    let g := if kept.length == members.length then g
      else g.setShape id ((g.shape id).withMembers kept)
    (g, ink.cut.reverse)

/-- The unions and intersections below a root, inner ones before outer ones. Enumerations are not
looked into. -/
def sets (g : TypeGraph) (root : TypeId) : List TypeId :=
  (Walk.left (fun id => (g.shape id).parts.map ((), ·)) g.size ((), root)).filter
    fun id => (g.shape id).isSet

/-- Simplifies every union and intersection below a root, and tells which types were cut off. -/
def simplifyNoting (g : TypeGraph) (root : TypeId) : TypeGraph × List TypeId :=
  (g.sets root).foldl (fun (g, cut) id =>
    let (g, more) := simplifyAt s g id
    (g, cut ++ more)) (g, [])

/-- Simplifies every union and intersection below a root. -/
def simplify (g : TypeGraph) (root : TypeId) : TypeGraph := (simplifyNoting s g root).1

end SchemaDecl.TypeGraph
