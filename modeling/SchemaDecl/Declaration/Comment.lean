/-
Comment blocks.
-/
import SchemaDecl.Text.Space
import SchemaDecl.Text.Split

namespace SchemaDecl

/-- One line of a comment block, without white space at its end. -/
def commentLine (line : List Char) : List Char :=
  Text.trimEnd ([' ', '*', ' '] ++ line) ++ ['\n']

/-- A block comment with one line for each line of the text. -/
def commentBlock (comment : String) : String :=
  "/**\n" ++ String.ofList ((Text.split '\n' comment.toList).flatMap commentLine) ++ " */"

end SchemaDecl
