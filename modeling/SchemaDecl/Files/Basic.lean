/-
A tree of files.

Entries are kept by location, which is the list of names from the top. Paths are walked piece by
piece from a working directory: each piece but the last has to lead to a directory, and a name has
a limited length.

* `Files`: the tree.
* `FileError`: why it refuses, with the wording.
* `Files.locate`, `Files.read`, `Files.write`: what a path leads to.
* `Files.makeDirectory`, `Files.makeDirectories`: new directories.
* `Files.children`: the names in a directory, sorted.
-/
import SchemaDecl.Files.Path

namespace SchemaDecl

/-- Why a tree of files refuses. -/
inductive FileError where
  | notFound
  | alreadyExists
  | notDirectory
  | isDirectory
  | nameTooLong
deriving DecidableEq, Repr

/-- The wording of a refusal. -/
def FileError.text : FileError → String
  | .notFound => "No such file or directory (os error 2)"
  | .alreadyExists => "File exists (os error 17)"
  | .notDirectory => "Not a directory (os error 20)"
  | .isDirectory => "Is a directory (os error 21)"
  | .nameTooLong => "File name too long (os error 36)"

/-- The names from the top to an entry. -/
abbrev Location := List String

/-- What can stand at a location. -/
inductive Entry where
  | directory
  | file (content : List UInt8)
deriving DecidableEq, Repr

/-- A tree of files with a working directory. -/
structure Files where
  /-- The working directory. -/
  here : Location := []
  /-- What stands below the top. -/
  entries : List (Location × Entry) := []
deriving Repr

namespace Files

/-- What stands at a location. The working directory and all above it are directories. -/
def entry? (f : Files) (loc : Location) : Option Entry :=
  if loc.isPrefixOf f.here then some .directory else f.entries.lookup loc

/-- Puts an entry at a location, in place of the one that is there. -/
def put (f : Files) (loc : Location) (entry : Entry) : Files :=
  { f with entries := f.entries.filter (fun e => e.1 != loc) ++ [(loc, entry)] }

/-- The most bytes that a name may have. -/
def nameLimit : Nat := 255

/-- The most bytes that a path may have. -/
def pathLimit : Nat := 4095

/-- Where a piece leads from a location, which has to be a directory. -/
def step (f : Files) (loc : Location) (piece : String) : Except FileError Location :=
  match f.entry? loc with
  | none => .error .notFound
  | some (.file _) => .error .notDirectory
  | some .directory =>
    if Path.isIdle piece then .ok loc
    else if piece == ".." then .ok loc.dropLast
    else if nameLimit < piece.utf8ByteSize then .error .nameTooLong
    else .ok (loc ++ [piece])

/-- Where a path starts. -/
def start (f : Files) (path : String) : Location := if Path.isAbsolute path then [] else f.here

/-- Where a path leads. There need not be an entry. -/
def locate (f : Files) (path : String) : Except FileError Location :=
  if path.isEmpty then .error .notFound
  else if pathLimit < path.utf8ByteSize then .error .nameTooLong
  else (Path.pieces path).foldlM f.step (f.start path)

/-- What a path leads to. -/
def find? (f : Files) (path : String) : Option Entry :=
  match f.locate path with
  | .ok loc => f.entry? loc
  | .error _ => none

/-- The path leads to a directory. -/
def isDirectory (f : Files) (path : String) : Bool := f.find? path == some .directory

/-- The content of the file that a path leads to. -/
def read (f : Files) (path : String) : Except FileError (List UInt8) := do
  match f.entry? (← f.locate path) with
  | none => throw .notFound
  | some .directory => throw .isDirectory
  | some (.file content) => pure content

/-- Writes a file. Its directory has to be there. -/
def write (f : Files) (path : String) (content : List UInt8) : Except FileError Files := do
  let loc ← f.locate path
  match f.entry? loc with
  | some .directory => throw .isDirectory
  | _ => pure (f.put loc (.file content))

/-- Makes a directory in a directory that is there. -/
def makeDirectory (f : Files) (path : String) : Except FileError Files := do
  if pathLimit < path.utf8ByteSize then throw .nameTooLong
  let pieces := (Path.pieces path).filter (· != "")
  match pieces.getLast? with
  | none => throw .alreadyExists
  | some last =>
    let above ← pieces.dropLast.foldlM f.step (f.start path)
    let loc ← f.step above last
    if Path.isIdle last || last == ".." || (f.entry? loc).isSome then throw .alreadyExists
    else pure (f.put loc .directory)

/-- Makes the first of some directories, each of which stands in the next. Those that are missing
are made before. -/
def makeNested (f : Files) : List String → Except FileError Files
  | [] => .ok f
  | path :: above =>
    match f.makeDirectory path with
    | .ok made => .ok made
    | .error .notFound =>
      match f.makeNested above with
      | .error e => .error e
      | .ok f =>
        match f.makeDirectory path with
        | .ok made => .ok made
        | .error e => if f.isDirectory path then .ok f else .error e
    | .error e => if f.isDirectory path then .ok f else .error e

/-- Makes a directory with all that are missing above it. A directory that is there is left
alone. -/
def makeDirectories (f : Files) (path : String) : Except FileError Files :=
  f.makeNested (path :: Path.shorter path)

/-- The names in a directory, sorted. -/
def children (f : Files) (loc : Location) : List String :=
  (f.entries.filterMap fun e =>
    match e.1.getLast? with
    | some name => if e.1.dropLast == loc then some name else none
    | none => none).mergeSort fun a b => !decide (b < a)

/-- The files of `after` that `before` does not have with the same content. -/
def changes (before after : Files) : List (Location × List UInt8) :=
  after.entries.filterMap fun e =>
    match e.2 with
    | .directory => none
    | .file content =>
      if before.entry? e.1 == some (.file content) then none else some (e.1, content)

end Files

end SchemaDecl
