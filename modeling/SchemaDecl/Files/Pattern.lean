/-
Patterns for names.

A question mark stands for a character, a star for any characters, a bracket for the characters that
it lists or, after an exclamation mark, does not list. Two stars are a piece of a path of their own.

* `Pattern.parse`: the pattern of a text.
* `Pattern.matchesName`: whether a name fits.
* `PatternError`: why a text is no pattern, with the wording.
-/

namespace SchemaDecl

/-- A part of a pattern. -/
inductive PatternToken where
  /-- A character. -/
  | char (c : Char)
  /-- Any character. -/
  | one
  /-- Any characters. -/
  | many
  /-- Any directories. -/
  | deep
  /-- A character in one of the ranges. -/
  | within (ranges : List (Char × Char))
  /-- A character in none of the ranges. -/
  | except (ranges : List (Char × Char))
deriving DecidableEq, Repr

/-- A pattern. -/
abbrev Pattern := List PatternToken

/-- Why a text is no pattern. -/
inductive PatternFlaw where
  | stars
  | deepPiece
  | bracket
deriving DecidableEq, Repr

/-- Why a text is no pattern, and near which character. -/
structure PatternError where
  flaw : PatternFlaw
  position : Nat
deriving DecidableEq, Repr

/-- The wording of a flaw. -/
def PatternFlaw.text : PatternFlaw → String
  | .stars => "wildcards are either regular `*` or recursive `**`"
  | .deepPiece => "recursive wildcards must form a single path component"
  | .bracket => "invalid range pattern"

/-- The wording of an error. -/
def PatternError.message (e : PatternError) : String :=
  "Pattern syntax error near position " ++ toString e.position ++ ": " ++ e.flaw.text

namespace Pattern

/-- The ranges that stand between brackets. -/
def ranges : List Char → List (Char × Char)
  | lo :: '-' :: hi :: rest => (lo, hi) :: ranges rest
  | c :: rest => (c, c) :: ranges rest
  | [] => []

/-- The characters before the next closing bracket, and those after it. -/
def toBracket : List Char → Option (List Char × List Char)
  | [] => none
  | ']' :: rest => some ([], rest)
  | c :: rest => (toBracket rest).map fun (inside, after) => (c :: inside, after)

/-- The token after an opening bracket and what follows it. The first character between the brackets
may be a closing bracket. -/
def bracket? : List Char → Option (PatternToken × List Char)
  | '!' :: c :: rest =>
    (toBracket rest).map fun (inside, after) => (.except (ranges (c :: inside)), after)
  | c :: rest => (toBracket rest).map fun (inside, after) => (.within (ranges (c :: inside)), after)
  | [] => none

/-- The token after some stars, of which there are `count`, and what follows it. `before` is the
character before them. -/
def stars (count index : Nat) (before : Option Char) (rest : List Char) :
    Except PatternError (PatternToken × List Char) :=
  if 2 < count then .error ⟨.stars, index + 2⟩
  else if count < 2 then .ok (.many, rest)
  else if before.any (· != '/') then .error ⟨.deepPiece, index - 1⟩
  else match rest with
    | [] => .ok (.deep, [])
    | '/' :: rest => .ok (.deep, rest)
    | _ :: _ => .error ⟨.deepPiece, index + 2⟩

/-- The next token of a text and what follows it. -/
def next (index : Nat) (before : Option Char) (c : Char) (rest : List Char) :
    Except PatternError (PatternToken × List Char) :=
  match c with
  | '?' => .ok (.one, rest)
  | '*' =>
    stars (1 + (rest.takeWhile (· == '*')).length) index before (rest.dropWhile (· == '*'))
  | '[' =>
    match bracket? rest with
    | some found => .ok found
    | none => .error ⟨.bracket, index⟩
  | c => .ok (.char c, rest)

/-- The tokens of the rest of a text, each of which takes a character at least. -/
def parseFrom (whole : List Char) : (fuel : Nat) → List Char → Except PatternError Pattern
  | 0, _ => .ok []
  | _, [] => .ok []
  | fuel + 1, c :: rest => do
    let index := whole.length - (rest.length + 1)
    let before := if index == 0 then none else whole[index - 1]?
    let (token, rest) ← next index before c rest
    return token :: (← parseFrom whole fuel rest)

/-- The pattern of a text. -/
def parse (text : List Char) : Except PatternError Pattern := parseFrom text text.length text

/-- The ends of a text, from the whole to nothing. -/
def suffixes : List Char → List (List Char)
  | [] => [[]]
  | c :: cs => (c :: cs) :: suffixes cs

/-- The character is in one of the ranges. -/
def inRanges (ranges : List (Char × Char)) (c : Char) : Bool :=
  ranges.any fun (lo, hi) => decide (lo ≤ c) && decide (c ≤ hi)

/-- The name fits the pattern. -/
def matchesName : Pattern → List Char → Bool
  | [], name => name.isEmpty
  | .many :: p, name => (suffixes name).any fun rest => matchesName p rest
  | .deep :: p, name => (suffixes name).any fun rest => matchesName p rest
  | .one :: p, name =>
    match name with
    | [] => false
    | _ :: rest => matchesName p rest
  | .char c :: p, name =>
    match name with
    | [] => false
    | d :: rest => c == d && matchesName p rest
  | .within ranges :: p, name =>
    match name with
    | [] => false
    | d :: rest => inRanges ranges d && matchesName p rest
  | .except ranges :: p, name =>
    match name with
    | [] => false
    | d :: rest => !inRanges ranges d && matchesName p rest

/-- The pattern stands for any directories. -/
def isDeep (p : Pattern) : Bool := p.contains .deep

/-- The characters of a pattern without wildcards. -/
def characters? : Pattern → Option (List Char)
  | [] => some []
  | .char c :: p => (characters? p).map (c :: ·)
  | _ :: _ => none

/-- The name that a pattern without wildcards stands for. -/
def literal? (p : Pattern) : Option String := p.characters?.map String.ofList

end Pattern

end SchemaDecl
