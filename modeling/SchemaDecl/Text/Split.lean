/-
Cutting texts at a character and replacing pairs of characters.
-/

namespace SchemaDecl.Text

/-- The pieces of a text between the occurrences of `sep`; one piece more than there are
occurrences. -/
def split (sep : Char) : List Char → List (List Char)
  | [] => [[]]
  | c :: cs =>
    if c == sep then [] :: split sep cs
    else match split sep cs with
      | [] => [[c]]
      | piece :: rest => (c :: piece) :: rest

/-- Every pair `a b`, read from the front and without overlap, is replaced by `by`. -/
def replacePair (a b : Char) (by' : List Char) : List Char → List Char
  | [] => []
  | [c] => [c]
  | c :: d :: cs =>
    if c == a && d == b then by' ++ replacePair a b by' cs else c :: replacePair a b by' (d :: cs)

end SchemaDecl.Text
