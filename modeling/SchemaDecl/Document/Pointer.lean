/-
Pointers into documents.

A pointer is `#` and, for every step, a slash and a token, in which `~1` stands for a slash and `~0`
for a tilde. A token is a key in an object and a decimal index in a list.

* `Pointer.decode`: the key of a token.
* `Document.resolve?`: the node that a pointer leads to from a root.
-/
import SchemaDecl.Document.Basic
import SchemaDecl.Text.Split

namespace SchemaDecl

namespace Pointer

/-- The key that a token stands for: every `~1` is a slash, and after that every `~0` a tilde. -/
def decode (token : List Char) : List Char :=
  Text.replacePair '~' '0' ['~'] (Text.replacePair '~' '1' ['/'] token)

/-- The number that decimal digits spell. -/
def decimal? (digits : List Char) : Option Nat :=
  if digits.isEmpty || !digits.all Char.isDigit then none
  else some (digits.foldl (fun n c => n * 10 + (c.toNat - '0'.toNat)) 0)

/-- The index that a decoded token spells: decimal digits, with a plus sign in front or not. -/
def index? : List Char → Option Nat
  | '+' :: digits => decimal? digits
  | digits => decimal? digits

/-- The keys of the steps of a pointer; none if the text is no pointer. -/
def steps? : List Char → Option (List (List Char))
  | ['#'] => some []
  | '#' :: '/' :: path => some ((Text.split '/' path).map decode)
  | _ => none

end Pointer

namespace Document

/-- One step into a container. -/
def step? (d : Document) (id : NodeId) (token : List Char) : Option NodeId :=
  match d.node id with
  | .object members => Keyed.get? members (String.ofList token)
  | .array items => (Pointer.index? token).bind (items[·]?)
  | .leaf _ => none

/-- Some steps, one after the other. -/
def descend? (d : Document) : NodeId → List (List Char) → Option NodeId
  | id, [] => some id
  | id, token :: rest => (d.step? id token).bind fun child => d.descend? child rest

/-- The node that a pointer leads to. -/
def resolve? (d : Document) (root : NodeId) (pointer : String) : Option NodeId :=
  (Pointer.steps? pointer.toList).bind (d.descend? root)

end Document

end SchemaDecl
