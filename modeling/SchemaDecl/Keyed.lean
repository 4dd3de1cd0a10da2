/-
Entries under keys, in the order in which the keys were first given.

* `Keyed.get?`, `insert`, `erase`, `rename`: the usual operations. A new value under an old key
  takes the place of the old one, and a renamed entry keeps its position.
-/

namespace SchemaDecl

/-- Entries under keys, in order. -/
abbrev Keyed (α : Type) := List (String × α)

namespace Keyed

variable {α : Type}

/-- The value under a key. -/
def get? (m : Keyed α) (key : String) : Option α := m.lookup key

/-- There is an entry under the key. -/
def has (m : Keyed α) (key : String) : Bool := (get? m key).isSome

/-- Sets the value under a key: in place if the key is there, else at the end. -/
def insert : Keyed α → String → α → Keyed α
  | [], key, a => [(key, a)]
  | (k, b) :: rest, key, a => if k == key then (k, a) :: rest else (k, b) :: insert rest key a

/-- Takes the entry under a key out; the others keep their order. -/
def erase : Keyed α → String → Keyed α
  | [], _ => []
  | (k, b) :: rest, key => if k == key then rest else (k, b) :: erase rest key

/-- Puts the entry under `source` under `target`, at the same position. -/
def rename : Keyed α → String → String → Keyed α
  | [], _, _ => []
  | (k, b) :: rest, source, target =>
    if k == source then (target, b) :: rest else (k, b) :: rename rest source target

end Keyed

end SchemaDecl
