/-
Sequences of bounded length as unions of tuples.

A sequence of one to three `T` is `[T] | [T, T] | [T, T, T]`: one tuple for each length, so that no
position that is present can be left undefined.

* `TupleArms`: tuples of growing length and the type of what may follow the longest.
* `tupleArms`: the arms of positional types under bounds.
* `TupleArms.text`: their text.
-/

namespace SchemaDecl

/-- Tuples of growing length; `rest` may be repeated after the last of them. -/
structure TupleArms (α : Type) where
  arms : List (List α)
  rest : Option α
deriving DecidableEq, Repr

variable {α : Type}

/-- The arms of the positional types `elements` for sequences of at least `least` and at most `most`
items, with an explicit type of further items, and a type `top` for positions that nothing
describes.

Without a type of further items, positions up to the maximum are filled with `top`; and if there is
no maximum either but some position up to the minimum is missing, `top` may be repeated. -/
def tupleArms (elements : List α) (least : Nat) (most : Option Nat) (rest : Option α) (top : α) :
    TupleArms α :=
  let padded := match most, rest with
    | some n, none => elements ++ List.replicate (n - elements.length) top
    | _, _ => elements
  let rest := match most, rest with
    | none, none => if elements.length < least then some top else none
    | _, rest => rest
  if least < padded.length then
    ⟨(List.range' least (padded.length + 1 - least)).map padded.take, rest⟩
  else ⟨[padded], rest⟩

/-- The text of one tuple. -/
def tupleText (parts : List String) : String := "[" ++ String.intercalate ", " parts ++ "]"

/-- The texts of the arms; the last one carries the rest. -/
def armTexts (rest : Option String) : List (List String) → List String
  | [] => []
  | [arm] =>
    [tupleText (arm ++ (rest.map fun r => "...(" ++ r ++ ")[]").toList)]
  | arm :: arms => tupleText arm :: armTexts rest arms

/-- The text of the union of the arms. -/
def TupleArms.text (t : TupleArms String) : String :=
  match armTexts t.rest t.arms with
  | [single] => single
  | several => "(" ++ String.intercalate " | " several ++ ")"

end SchemaDecl
