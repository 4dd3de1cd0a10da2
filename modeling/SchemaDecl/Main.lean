/-
The command line.

The part of the files that a command can see is taken as a tree, the command is run on it, and what
it has changed is written back.
-/
import SchemaDecl.Command.Run

namespace SchemaDecl.CommandLine

/-- The path of a location. -/
def pathOf (loc : Location) : String := Path.ofParts true loc

/-- Adds the entry at a location, if there is one. -/
def loadEntry (f : Files) (loc : Location) : IO Files := do
  try
    let path ← IO.FS.realPath (pathOf loc)
    if ← path.isDir then return f.put loc .directory
    else return f.put loc (.file (← IO.FS.readBinFile path).toList)
  catch _ => return f

/-- Adds what stands on the way of a path, and what it leads to. -/
def loadPath (f : Files) (path : String) : IO Files := do
  let mut f := f
  let mut loc := f.start path
  for piece in Path.pieces path do
    match f.step loc piece with
    | .ok next =>
      loc := next
      f ← loadEntry f loc
    | .error _ => return f
  return f

/-- Adds the names below a directory, at most `depth` levels of them. Contents are left out. -/
def browse : (depth : Nat) → Files → Location → IO Files
  | 0, f, _ => return f
  | depth + 1, f, loc => do
    try
      let mut f := f
      for entry in ← (← IO.FS.realPath (pathOf loc)).readDir do
        let child := loc ++ [entry.fileName]
        if ← entry.path.isDir then f ← browse depth (f.put child .directory) child
        else f := f.put child (.file [])
      return f
    catch _ => return f

/-- The longest path that can be walked. -/
def longestPath : Nat := 4096

/-- The number of levels that a pattern can reach. -/
def levels (input : String) : Nat :=
  let pieces := Path.pieces input
  if pieces.contains "**" then longestPath else pieces.length

/-- The location from which an input is searched. -/
def searchFrom (f : Files) (input : String) : Location :=
  let fixed := (Path.pieces input).takeWhile fun piece => !isPattern piece
  match fixed.foldlM f.step (f.start input) with
  | .ok loc => loc
  | .error _ => f.here

/-- Adds the names that an input can stand for. -/
def loadNames (f : Files) (input : String) : IO Files := do
  if isPattern input then
    let fixed := (Path.pieces input).takeWhile fun piece => !isPattern piece
    let f ← loadPath f (Path.ofParts false fixed)
    browse (levels input) f (searchFrom f input)
  else return f

/-- Adds the contents that inputs stand for. -/
def loadInputs (f : Files) (inputs : List String) : IO Files := do
  let f ← inputs.foldlM loadNames f
  match inputs.mapM (inputPaths f) with
  | .ok paths => paths.flatten.foldlM loadPath f
  | .error _ => return f

/-- Adds the files that a compilation may write. -/
def loadOutputs (f : Files) (a : CompileArguments) : IO Files := do
  match a.outDir, a.inputs.mapM (inputPaths f) with
  | some dir, .ok paths =>
    paths.flatten.foldlM (fun f path => loadPath f (CompileArguments.outputPath dir path)) f
  | _, _ => return f

/-- The files that a command can see. -/
def load (a : Arguments) : IO Files := do
  let f : Files := { here := Path.parts (← IO.currentDir).toString }
  match a with
  | .compile a => do
    let f ← loadInputs f a.inputs
    let f ← a.config.toList.foldlM loadPath f
    loadOutputs f a
  | .validate inputs => loadInputs f inputs

/-- Writes back what a command has changed. -/
def store (before after : Files) : IO Unit := do
  for (loc, entry) in after.entries do
    if entry == .directory && (before.entry? loc).isNone then IO.FS.createDirAll (pathOf loc)
  for (loc, content) in before.changes after do
    IO.FS.writeBinFile (pathOf loc) ⟨content.toArray⟩

/-- How the command is used. -/
def usage : String := "usage: (compile | validate) -i INPUT... [flags]"

/-- Runs a command. The answer is the exit status. -/
def execute (a : Arguments) : IO UInt32 := do
  let files ← load a
  let outcome := a.run files
  store files outcome.progress.files
  IO.print outcome.progress.output
  IO.eprint (outcome.reportText true)
  return if outcome.succeeded then 0 else 1

end SchemaDecl.CommandLine

/-- The command line. -/
def main (arguments : List String) : IO UInt32 := do
  match SchemaDecl.Arguments.parse? arguments with
  | some a => SchemaDecl.CommandLine.execute a
  | none =>
    IO.eprintln SchemaDecl.CommandLine.usage
    return 2
