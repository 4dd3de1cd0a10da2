/-
Compiling schemas into declarations.

The steps are: the settings are checked, containers are linked, rules are checked, schemas are
brought to normal form, types are made and simplified, and declarations are written.

* `CompileError`: why there are no declarations, with the wording.
* `Notice`: what is worth telling apart from the result.
* `compileDocument`, `compile`, `compileText`, `compileFile`: the declarations of a document, a
  value, a text, a file.
* `checkValue`: the violations of the rules in a value.
-/
import SchemaDecl.Declaration.Document
import SchemaDecl.Document.Lineage
import SchemaDecl.Document.Reference
import SchemaDecl.Files.Basic
import SchemaDecl.Json.Reader
import SchemaDecl.Types.Build
import SchemaDecl.Types.Simplify

namespace SchemaDecl

/-- Why there are no declarations. -/
inductive CompileError where
  | settings (maxItems : Int)
  | invalid (diagnostics : List Diagnostic)
  | unreadable (path : String) (cause : FileError)
  | malformed (path : String) (fault : Json.Fault) (source : List UInt8)

namespace CompileError

/-- The wording of an error. -/
def message : CompileError → String
  | .settings n => "expected options.max_items to be >= -1, but was given " ++ toString n
  | .invalid diagnostics =>
    "schema failed validation with " ++ toString diagnostics.length ++ " error(s)" ++
      String.join (diagnostics.map fun v => "\n  " ++ v.text)
  | .unreadable path _ => "unable to read file " ++ path
  | .malformed path fault source =>
    "error parsing JSON in " ++ path ++ ": " ++ fault.message source

/-- What lies behind an error. -/
def causes : CompileError → List String
  | .unreadable _ cause => [cause.text]
  | _ => []

end CompileError

/-- What is worth telling. -/
inductive Notice where
  | unresolved (reference : Unresolved)
  | violation (diagnostic : Diagnostic)
  | cut (id : TypeId)
deriving DecidableEq, Repr

/-- A notice as a line of a log. -/
def Notice.line : Notice → String
  | .unresolved (.circular pointer) =>
    " WARN json_tsd::schema::refs: circular $ref chain left unresolved pointer=" ++
      Text.visible pointer
  | .unresolved (.dangling pointer) =>
    " WARN json_tsd::schema::refs: local $ref does not resolve; " ++
      "kept as a named reference pointer=" ++ Text.visible pointer
  | .violation diagnostic => "ERROR json_tsd: " ++ Text.inert diagnostic.text
  | .cut id =>
    " WARN json_tsd::generator::render: anonymous cycle rendered as the top type ast=" ++
      toString id

/-- The result of a compilation, and what was worth telling on the way. -/
structure Compilation where
  notices : List Notice := []
  result : Except CompileError String

/-- What a document without a name is called in reports. -/
def inlineSource : String := "<inline>"

/-- The declarations of a document that is linked and follows the rules. -/
def declare (s : Settings) (d : Document) (root : NodeId) (name : Option String) : Compilation :=
  let (id, types) := TypeGraph.ofDocument s (d.normalize s root name) root
  let (types, cutBefore) := types.simplifyNoting s id
  let (text, cutAfter) := Declare.documentTextNoting s types id
  { notices := (cutBefore ++ cutAfter).map .cut, result := .ok text }

/-- Compiles a document. -/
def compileDocument (s : Settings) (d : Document) (root : NodeId) (name : Option String) :
    Compilation :=
  if !s.isValid then { result := .error (.settings s.maxItems) }
  else
    let d := d.linkFrom root .root
    match d.violations root (name.getD inlineSource) with
    | [] => declare s d root name
    | violations =>
      { notices := violations.map .violation, result := .error (.invalid violations) }

/-- The references of a value that cannot be resolved. -/
def referenceNotices (value : Json) : List Notice :=
  let (root, d) := Document.inserted value
  (d.unresolved root).map .unresolved

/-- Compiles a value. -/
def compile (s : Settings) (value : Json) (name : Option String) : Compilation :=
  let (root, d) := Document.ofJson value
  let compiled := compileDocument s d root name
  { compiled with notices := referenceNotices value ++ compiled.notices }

/-- The first value of a text that is called `path` in reports. -/
def parseSource (path : String) (source : List UInt8) : Except CompileError Json :=
  (Json.parse source).mapError fun fault => .malformed path fault source

/-- The first value of a file. -/
def readValue (f : Files) (path : String) : Except CompileError Json := do
  let source ← (f.read path).mapError (.unreadable path ·)
  parseSource path source

/-- Compiles a value if there is one. -/
def compileRead (s : Settings) (read : Except CompileError Json) (name : Option String) :
    Compilation :=
  match read with
  | .ok value => compile s value name
  | .error e => { result := .error e }

/-- Compiles a text. -/
def compileText (s : Settings) (text : String) (name : Option String) : Compilation :=
  compileRead s (parseSource inlineSource (Text.utf8 text)) name

/-- Compiles a file, whose name without its extension is the name of the root. -/
def compileFile (s : Settings) (f : Files) (path : String) : Compilation :=
  compileRead s (readValue f path) (Path.stem? path)

/-- The violations of the rules in a value. -/
def checkValue (value : Json) (source : String) : List Diagnostic :=
  let (root, d) := Document.ofJson value
  (d.linkFrom root .root).violations root source

end SchemaDecl
