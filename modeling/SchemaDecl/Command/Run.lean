/-
Running commands on a tree of files.

A compilation writes one text of declarations for each input, to the output or to a file of its own.
A check reports what it finds. Faults of single inputs are counted, other faults end the command.

* `CommandError`: what ends a command, with the wording.
* `Run`: a command as a change of the files, with the output and the report.
* `Arguments.run`: runs a command.
-/
import SchemaDecl.Command.Arguments
import SchemaDecl.Compile
import SchemaDecl.Files.Search
import SchemaDecl.Settings.Decode

namespace SchemaDecl

/-- Why inputs cannot be found. -/
inductive InputError where
  | badPattern (error : PatternError)
  | noMatch (pattern : String)
deriving DecidableEq, Repr

/-- The wording of an error. -/
def InputError.message : InputError → String
  | .badPattern error => error.message
  | .noMatch pattern => "glob pattern matched no files: " ++ pattern

/-- What ends a command. -/
inductive CommandError where
  | config (path : String) (cause : CompileError)
  | inputs (cause : InputError)
  | input (cause : CompileError)
  | create (path : String) (cause : FileError)
  | write (path : String) (cause : FileError)
  | notCompiled (failed total : Nat)
  | notValid (failed total : Nat)

namespace CommandError

/-- The wording of an error. -/
def message : CommandError → String
  | .config path _ => "failed to load config " ++ path
  | .inputs _ => "failed to resolve input file paths"
  | .input cause => cause.message
  | .create path _ => "failed to create " ++ path
  | .write path _ => "failed to write " ++ path
  | .notCompiled failed total =>
    toString failed ++ " of " ++ toString total ++ " input(s) failed to compile"
  | .notValid failed total =>
    toString failed ++ " of " ++ toString total ++ " input(s) failed validation"

/-- What lies behind an error, the nearest first. -/
def causes : CommandError → List String
  | .config _ cause => cause.message :: cause.causes
  | .inputs cause => [cause.message]
  | .input cause => cause.causes
  | .create _ cause => [cause.text]
  | .write _ cause => [cause.text]
  | .notCompiled _ _ => []
  | .notValid _ _ => []

/-- A text whose further lines are moved to the right. -/
def indented (blanks text : String) : String :=
  ("\n" ++ blanks).intercalate ((Text.split '\n' text.toList).map String.ofList)

/-- The wording of causes. Several are numbered. -/
def causesText : List String → String
  | [] => ""
  | [cause] => "\n\nCaused by:\n    " ++ indented "    " cause
  | causes =>
    "\n\nCaused by:" ++ String.join (causes.mapIdx fun i cause =>
      "\n    " ++ toString i ++ ": " ++ indented "       " cause)

/-- The wording of an error with all that lies behind it. -/
def text (e : CommandError) : String := "Error: " ++ e.message ++ causesText e.causes

end CommandError

/-- A line of a report. -/
inductive Report where
  | notice (notice : Notice)
  | line (text : String)
deriving DecidableEq, Repr

/-- What a command has done. -/
structure Progress where
  files : Files
  output : String := ""
  report : List Report := []

/-- A command. What was done before an error stays done. -/
abbrev Run := ExceptT CommandError (StateM Progress)

namespace Run

/-- Adds to the report. -/
def report (lines : List Report) : Run Unit :=
  modify fun p => { p with report := p.report ++ lines }

/-- Adds a line to the report. -/
def say (text : String) : Run Unit := report [.line text]

/-- Adds to the output. -/
def print (text : String) : Run Unit := modify fun p => { p with output := p.output ++ text }

/-- Changes the files. -/
def change (failed : FileError → CommandError) (change : Files → Except FileError Files) :
    Run Unit := do
  match change (← get).files with
  | .ok files => modify fun p => { p with files }
  | .error e => throw (failed e)

end Run

/-- The input is a pattern. -/
def isPattern (input : String) : Bool :=
  input.toList.any fun c => c == '*' || c == '?' || c == '[' || c == '\x7b'

/-- The paths that an input stands for. -/
def inputPaths (f : Files) (input : String) : Except InputError (List String) :=
  if !isPattern input then .ok [input]
  else match f.matching input with
    | .error e => .error (.badPattern e)
    | .ok [] => .error (.noMatch input)
    | .ok paths => .ok paths

/-- The paths that inputs stand for. -/
def allInputPaths (f : Files) (inputs : List String) : Run (List String) :=
  match inputs.mapM (inputPaths f) with
  | .ok paths => pure paths.flatten
  | .error e => throw (.inputs e)

namespace CompileArguments

/-- The settings of a file. -/
def readSettings (f : Files) (path : String) : Except CompileError Settings := do
  let source ← (f.read path).mapError (.unreadable path ·)
  (Settings.decode source).mapError fun fault => .malformed path fault source

/-- Settings as changed by flags. -/
def apply (a : CompileArguments) (s : Settings) : Settings :=
  { s with
    bannerComment := a.banner.getD s.bannerComment
    unknownTop := s.unknownTop && !a.anyTop
    additionalProperties := s.additionalProperties || a.additionalProperties
    declareReferenced := s.declareReferenced && !a.rootOnly
    constEnums := s.constEnums || a.constEnums
    ignoreBounds := s.ignoreBounds || a.ignoreBounds
    strictIndex := s.strictIndex || a.strictIndex
    unreachableDefinitions := s.unreachableDefinitions || a.unreachableDefinitions
    maxItems := a.maxItems.getD s.maxItems }

/-- The settings that are asked for. -/
def settings (a : CompileArguments) (f : Files) : Run Settings :=
  match a.config with
  | none => pure (a.apply {})
  | some path =>
    match readSettings f path with
    | .ok s => pure (a.apply s)
    | .error e => throw (.config path e)

/-- Compiles a file under the name that is asked for, or under its own. -/
def compileOne (a : CompileArguments) (s : Settings) (f : Files) (path : String) : Compilation :=
  match a.name with
  | none => compileFile s f path
  | some name => compileRead s (readValue f path) (some name)

/-- The file for the declarations of an input. -/
def outputPath (dir path : String) : String :=
  Path.join dir ((Path.stem? path).getD path ++ ".d.ts")

/-- Writes declarations where they are asked for. -/
def deliver (a : CompileArguments) (path declarations : String) : Run Unit := do
  match a.outDir with
  | none => Run.print declarations
  | some dir =>
    Run.change (.create dir) (·.makeDirectories dir)
    let out := outputPath dir path
    Run.change (.write out) (·.write out (Text.utf8 declarations))
    Run.say ("wrote " ++ out)

/-- Writes declarations, or reports why there are none. The answer is whether there are none. -/
def finish (a : CompileArguments) (path : String) (result : Except CompileError String) :
    Run Bool := do
  match result with
  | .ok declarations =>
    a.deliver path declarations
    return false
  | .error e =>
    Run.say ("error " ++ path ++ ": " ++ ": ".intercalate (e.message :: e.causes))
    return true

/-- Compiles all inputs, then writes the declarations of one after the other. -/
def run (a : CompileArguments) : Run Unit := do
  let files := (← get).files
  let s ← a.settings files
  let paths ← allInputPaths files a.inputs
  let compiled := paths.map fun path => (path, a.compileOne s files path)
  Run.report (compiled.flatMap fun e => e.2.notices.map .notice)
  let failed ← compiled.mapM fun e => a.finish e.1 e.2.result
  if failed.contains true then throw (.notCompiled (failed.count true) paths.length)

end CompileArguments

/-- Checks a file. The answer is whether there are violations. -/
def checkFile (path : String) : Run Bool := do
  match readValue (← get).files path with
  | .error e => throw (.input e)
  | .ok value =>
    Run.report ((referenceNotices value).map .notice)
    match checkValue value path with
    | [] =>
      Run.say ("ok " ++ path)
      return false
    | violations =>
      Run.report (violations.map fun v => .line ("invalid " ++ v.text))
      return true

/-- Checks all inputs. -/
def checkFiles (inputs : List String) : Run Unit := do
  let paths ← allInputPaths (← get).files inputs
  let failed ← paths.mapM checkFile
  if failed.contains true then throw (.notValid (failed.count true) paths.length)

/-- What a command has done, and whether it went well. -/
structure Outcome where
  succeeded : Bool
  progress : Progress

/-- A report as a text, with or without notices. -/
def Outcome.reportText (o : Outcome) (withNotices : Bool) : String :=
  String.join (o.progress.report.map fun
    | .notice n => if withNotices then n.line ++ "\n" else ""
    | .line text => text ++ "\n")

/-- The command that is asked for. -/
def Arguments.command : Arguments → Run Unit
  | .compile a => a.run
  | .validate inputs => checkFiles inputs

/-- Runs a command. An error that ends it is the last line of the report. -/
def Arguments.run (a : Arguments) (files : Files) : Outcome :=
  match (a.command.run ⟨files, "", []⟩ : Except CommandError Unit × Progress) with
  | (.ok _, progress) => ⟨true, progress⟩
  | (.error e, progress) => ⟨false, { progress with report := progress.report ++ [.line e.text] }⟩

end SchemaDecl
