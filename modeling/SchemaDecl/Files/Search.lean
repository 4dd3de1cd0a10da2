/-
Searching files by patterns.

A pattern for paths has a pattern for each piece. The tree is walked from the top or the working
directory, in the order of names, and a directory comes before what it holds.

* `Files.matching`: the paths that fit a pattern.
-/
import SchemaDecl.Files.Basic
import SchemaDecl.Files.Pattern

namespace SchemaDecl.Files

/-- Where a pattern starts: the slashes at its front, or a dot. -/
def searchStart (text : List Char) : String :=
  match text.takeWhile (· == '/') with
  | [] => "."
  | slashes => String.ofList slashes

/-- The patterns of the pieces of a text. A slash at the end ends the last piece. -/
def piecePatterns (text : List Char) : Except PatternError (List Pattern) :=
  let pieces := Text.split '/' (text.dropWhile (· == '/'))
  (if pieces.getLast? == some [] then pieces.dropLast else pieces).mapM Pattern.parse

/-- The path of `name` in the directory `path`; the working directory is not written. -/
def below (path name : String) : String :=
  if Path.parts path == ["."] then name else Path.join path name

/-- Continues behind a path whose name fits the first of the patterns. -/
def continueAt (expand : List Pattern → String → List String) (patterns : List Pattern)
    (path name : String) : List String :=
  match patterns with
  | [] => []
  | p :: rest => if p.matchesName name.toList then expand rest path else []

/-- The paths for an entry of a directory that fit the patterns. -/
def visitChild (f : Files) (expand : List Pattern → String → List String) (patterns : List Pattern)
    (path name : String) : List String :=
  match patterns with
  | [] => []
  | p :: rest =>
    if !p.isDeep then continueAt expand (p :: rest) path name
    else
      let rest := rest.dropWhile Pattern.isDeep
      let inside := if f.isDirectory path then expand (p :: rest) path else []
      if !rest.isEmpty then continueAt expand rest path name ++ inside
      else if f.isDirectory path then path :: inside
      else []

/-- The entries for the directory itself and for the one above, which fit only patterns that start
with a dot. -/
def dotEntries (p : Pattern) : List String :=
  if p.head? == some (.char '.') then ["..", "."].filter fun dots => p.matchesName dots.toList
  else []

/-- The paths below `path` that fit the patterns, given how to find them one step further down. -/
def expandWith (f : Files) (expand : List Pattern → String → List String) :
    List Pattern → String → List String
  | [], path => [path]
  | p :: rest, path =>
    match p.literal? with
    | some name =>
      let next := below path name
      let there :=
        if name == "." || name == ".." then f.isDirectory path else (f.find? next).isSome
      if there then expand rest next else []
    | none =>
      match f.find? path, f.locate path with
      | some .directory, .ok loc =>
        (dotEntries p).flatMap (fun dots => expand rest (Path.join path dots)) ++
          (f.children loc).flatMap fun name =>
            visitChild f expand (p :: rest) (below path name) name
      | _, _ => []

/-- The paths below `path` that fit the patterns, in at most `fuel` steps down. -/
def expand (f : Files) : (fuel : Nat) → List Pattern → String → List String
  | 0 => fun _ _ => []
  | fuel + 1 => expandWith f (expand f fuel)

/-- The paths that fit a pattern. Each step takes a piece of the pattern or goes down the tree, and
each piece goes up by one at most, so that the steps are bounded. A slash at the end asks for
directories. -/
def matching (f : Files) (text : String) : Except PatternError (List String) := do
  let chars := text.toList
  let _ ← Pattern.parse chars
  let patterns ← piecePatterns chars
  let fuel := 2 * patterns.length + f.entries.length + f.here.length + 2
  let found := expand f fuel patterns (searchStart chars)
  if chars.getLast? == some '/' then return found.filter f.isDirectory else return found

end SchemaDecl.Files
