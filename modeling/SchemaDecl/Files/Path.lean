/-
Paths as texts.

A path is a text in which slashes divide pieces. Empty pieces and single dots stay where they are.

* `Path.pieces`, `Path.parts`: all pieces, and those that count.
* `Path.join`: a path below another.
* `Path.stem?`: the last name without its extension.
* `Path.shorter`: the paths above a path.
-/
import SchemaDecl.Text.Split

namespace SchemaDecl.Path

/-- The pieces of a path between its slashes. -/
def pieces (path : String) : List String := (Text.split '/' path.toList).map String.ofList

/-- The path starts at the top of all directories. -/
def isAbsolute (path : String) : Bool := path.toList.head? == some '/'

/-- A piece that stays where it is. -/
def isIdle (piece : String) : Bool := piece == "" || piece == "."

/-- The pieces that count. A dot counts at the front only. -/
def parts (path : String) : List String :=
  match pieces path with
  | "." :: rest => "." :: rest.filter fun piece => !isIdle piece
  | all => all.filter fun piece => !isIdle piece

/-- The path that is reached by `path` from `dir`. -/
def join (dir path : String) : String :=
  if isAbsolute path then path
  else if dir == "" || dir.toList.getLast? == some '/' then dir ++ path
  else dir ++ "/" ++ path

/-- The last part, unless it is made of dots that lead somewhere else. -/
def name? (path : String) : Option String :=
  (parts path).getLast?.filter fun part => part != "." && part != ".."

/-- A name without its extension, which is all from the last dot on. A dot at the front starts no
extension. -/
def withoutExtension (name : String) : String :=
  match name.toList.reverse.dropWhile (· != '.') with
  | [] => name
  | [_] => name
  | _ :: before => String.ofList before.reverse

/-- The last name of a path without its extension. -/
def stem? (path : String) : Option String := (name? path).map withoutExtension

/-- The path with given parts. -/
def ofParts (absolute : Bool) (parts : List String) : String :=
  (if absolute then "/" else "") ++ "/".intercalate parts

/-- The paths above a path, the longest first. -/
def shorter (path : String) : List String :=
  let parts := parts path
  (List.range' 1 (parts.length - 1)).reverse.map fun n =>
    ofParts (isAbsolute path) (parts.take n)

end SchemaDecl.Path
