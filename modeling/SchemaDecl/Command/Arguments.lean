/-
Arguments of the command line.

Flags stand behind two dashes with their name, or behind one dash with their letter; letters can be
put together. A value follows as the next argument, after an equals sign, or right behind a letter.

* `Arguments`: what is asked for.
* `Arguments.parse?`: the reading of arguments.
-/

namespace SchemaDecl

/-- What a compilation is asked to do. -/
structure CompileArguments where
  inputs : List String
  config : Option String := none
  banner : Option String := none
  anyTop : Bool := false
  additionalProperties : Bool := false
  rootOnly : Bool := false
  constEnums : Bool := false
  maxItems : Option Int := none
  ignoreBounds : Bool := false
  strictIndex : Bool := false
  unreachableDefinitions : Bool := false
  name : Option String := none
  outDir : Option String := none
deriving DecidableEq, Repr

/-- What is asked for. -/
inductive Arguments where
  | compile (arguments : CompileArguments)
  | validate (inputs : List String)
deriving DecidableEq, Repr

/-- The flags. -/
inductive Flag where
  | verbose
  | input
  | config
  | banner
  | anyTop
  | additionalProperties
  | rootOnly
  | constEnums
  | maxItems
  | ignoreBounds
  | strictIndex
  | unreachableDefinitions
  | name
  | outDir
deriving DecidableEq, Repr

/-- What follows a flag. -/
inductive Arity where
  /-- Nothing follows. -/
  | none
  /-- A value follows. -/
  | one
  /-- A value follows that may look like a flag. -/
  | verbatim
  /-- Values follow, one at least. -/
  | many
deriving DecidableEq, Repr

namespace Flag

/-- The flags of every command. -/
def general : List Flag := [.verbose]

/-- The flags of a check. -/
def ofValidate : List Flag := general ++ [.input]

/-- The flags of a compilation. -/
def ofCompile : List Flag :=
  ofValidate ++
    [.config, .banner, .anyTop, .additionalProperties, .rootOnly, .constEnums, .maxItems,
    .ignoreBounds, .strictIndex, .unreachableDefinitions, .name, .outDir]

/-- The name of a flag. -/
def text : Flag → String
  | .verbose => "verbose"
  | .input => "input"
  | .config => "config"
  | .banner => "banner"
  | .anyTop => "any"
  | .additionalProperties => "additional-properties"
  | .rootOnly => "no-declare-external"
  | .constEnums => "const-enums"
  | .maxItems => "max-items"
  | .ignoreBounds => "ignore-min-and-max-items"
  | .strictIndex => "strict-index-signatures"
  | .unreachableDefinitions => "unreachable-definitions"
  | .name => "name"
  | .outDir => "out-dir"

/-- The letter of a flag. -/
def letter? : Flag → Option Char
  | .verbose => some 'v'
  | .input => some 'i'
  | .outDir => some 'o'
  | _ => none

/-- What follows a flag. -/
def arity : Flag → Arity
  | .input => .many
  | .config => .one
  | .banner => .one
  | .maxItems => .verbatim
  | .name => .one
  | .outDir => .one
  | _ => .none

end Flag

/-- What the next argument may be. -/
inductive Expecting where
  /-- A flag. -/
  | flag
  /-- A value of a flag. -/
  | value (flag : Flag)
  /-- A further value, or a flag. -/
  | more (flag : Flag)
  /-- Nothing. -/
  | nothing
deriving DecidableEq, Repr

/-- What has been read: the flags with their values, and what may be next. -/
structure Reading where
  found : List (Flag × List String) := []
  expecting : Expecting := .flag
deriving DecidableEq, Repr

namespace Reading

/-- Notes a flag with its values. -/
def note (r : Reading) (flag : Flag) (values : List String) (expecting : Expecting) : Reading :=
  ⟨r.found ++ [(flag, values)], expecting⟩

/-- A value must not be missing when a flag starts. -/
def ready? (r : Reading) : Option Reading :=
  match r.expecting with
  | .value _ => none
  | .nothing => none
  | _ => some { r with expecting := .flag }

/-- Reads a flag with the value that is written with it, if there is one. -/
def flag? (r : Reading) (flag : Flag) (value : Option String) : Option Reading :=
  match flag.arity, value with
  | .none, none => some (r.note flag [] .flag)
  | .none, some _ => none
  | _, some value => some (r.note flag [value] .flag)
  | _, none => some { r with expecting := .value flag }

/-- Reads a name of a flag, behind its dashes. -/
def named? (flags : List Flag) (r : Reading) (text : List Char) : Option Reading := do
  let name := String.ofList (text.takeWhile (· != '='))
  let value := match text.dropWhile (· != '=') with
    | [] => none
    | _ :: value => some (String.ofList value)
  (← r.ready?).flag? (← flags.find? fun f => f.text == name) value

/-- Reads letters of flags. What is behind a letter whose flag takes a value is that value. -/
def letters? (flags : List Flag) : List Char → Reading → Option Reading
  | [], r => some r
  | c :: rest, r => do
    let flag ← flags.find? fun f => f.letter? == some c
    if flag.arity == .none then letters? flags rest (r.note flag [] .flag)
    else match rest with
      | [] => r.flag? flag none
      | '=' :: value => r.flag? flag (some (String.ofList value))
      | value => r.flag? flag (some (String.ofList value))

/-- Reads an argument that is no flag. -/
def value? (r : Reading) (text : String) : Option Reading :=
  match r.expecting with
  | .value flag => some (r.note flag [text] (if flag.arity == .many then .more flag else .flag))
  | .more flag => some (r.note flag [text] (.more flag))
  | .flag => none
  | .nothing => none

/-- A value is due, and it may look like a flag. -/
def takesAny (r : Reading) : Bool :=
  match r.expecting with
  | .value flag => flag.arity == .verbatim
  | _ => false

/-- Reads an argument. -/
def argument? (flags : List Flag) (r : Reading) (text : String) : Option Reading :=
  if r.takesAny then r.value? text
  else match text.toList with
    | ['-', '-'] => (r.ready?).map fun r => { r with expecting := .nothing }
    | '-' :: '-' :: name => named? flags r name
    | '-' :: c :: rest => do letters? flags (c :: rest) (← r.ready?)
    | _ => r.value? text

/-- The flags of arguments. -/
def all? (flags : List Flag) (arguments : List String) : Option Reading := do
  let r ← arguments.foldlM (argument? flags) {}
  match r.expecting with
  | .value _ => none
  | _ => some r

/-- How often a flag was given. -/
def count (r : Reading) (flag : Flag) : Nat := (r.found.filter fun e => e.1 == flag).length

/-- The values of a flag. -/
def values (r : Reading) (flag : Flag) : List String :=
  (r.found.filter fun e => e.1 == flag).flatMap (·.2)

/-- Only some flags can be given more than once. -/
def repeatsNone (r : Reading) : Bool :=
  r.found.all fun e => e.1 == .verbose || e.1 == .input || r.count e.1 == 1

/-- A flag was given. -/
def has (r : Reading) (flag : Flag) : Bool := r.count flag != 0

/-- The value of a flag. -/
def get? (r : Reading) (flag : Flag) : Option String := (r.values flag).head?

/-- Paths are not empty. -/
def pathsGiven (r : Reading) : Bool := r.get? .config != some "" && r.get? .outDir != some ""

end Reading

namespace Arguments

/-- A text of digits as a number. -/
def natural? (digits : List Char) : Option Nat :=
  if digits.isEmpty || !digits.all Char.isDigit then none
  else some (digits.foldl (fun n c => 10 * n + (c.toNat - 48)) 0)

/-- A text as an integer of 64 bits with a sign. -/
def integer? (text : String) : Option Int := do
  let n : Int ← match text.toList with
    | '-' :: digits => (natural? digits).map fun n => -(n : Int)
    | '+' :: digits => (natural? digits).map fun n => (n : Int)
    | digits => (natural? digits).map fun n => (n : Int)
  if -(Nat.pow 2 63 : Int) ≤ n && n < Nat.pow 2 63 then some n else none

/-- The inputs, of which there is one at least. -/
def inputs? (r : Reading) : Option (List String) :=
  if (r.values .input).isEmpty then none else some (r.values .input)

/-- What a reading asks a compilation to do. -/
def compile? (r : Reading) : Option Arguments := do
  let inputs ← inputs? r
  let maxItems ← match r.get? .maxItems with
    | none => some none
    | some text => (integer? text).map some
  if !r.repeatsNone || !r.pathsGiven then none
  else return .compile {
    inputs, maxItems
    config := r.get? .config
    banner := r.get? .banner
    anyTop := r.has .anyTop
    additionalProperties := r.has .additionalProperties
    rootOnly := r.has .rootOnly
    constEnums := r.has .constEnums
    ignoreBounds := r.has .ignoreBounds
    strictIndex := r.has .strictIndex
    unreachableDefinitions := r.has .unreachableDefinitions
    name := r.get? .name
    outDir := r.get? .outDir }

/-- What the arguments behind the name of a command ask for. -/
def ofCommand? (command : String) (rest : List String) : Option Arguments :=
  match command with
  | "compile" => do compile? (← Reading.all? Flag.ofCompile rest)
  | "validate" => do return .validate (← inputs? (← Reading.all? Flag.ofValidate rest))
  | _ => none

/-- The reading of arguments. The first that is no flag is the name of the command, and general
flags can stand before it. -/
def parseFrom? (r : Reading) : List String → Option Arguments
  | [] => none
  | text :: rest =>
    match Reading.argument? Flag.general r text with
    | some r => parseFrom? r rest
    | none => if r.expecting == .flag then ofCommand? text rest else none

/-- The reading of arguments. -/
def parse? (arguments : List String) : Option Arguments := parseFrom? {} arguments

end Arguments

end SchemaDecl
