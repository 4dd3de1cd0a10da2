/-
Pointers for paths.

A path goes from a node into one container after the other, by the key of a member or by the index
of an item. Its pointer spells the steps out, with every tilde as `~0` and every slash as `~1`. What
is written so holds no slash, and a tilde in it is always the first half of a pair: cut at the
slashes and read with `~1` replaced before `~0`, a pointer gives back the steps that it was made of.

* `PathStep`, `Pointer.ofPath`: paths, and how they are written.
* `Pointer.decode_encode`, `Pointer.steps?_ofPath`: what is written is read back.
* `Document.LeadsTo`, `Document.BreaksOff`: where a path comes to.
* `Document.ofPath_resolves`: **the pointer of a path resolves to the node that the path leads to**,
  and to nothing if the path breaks off.
-/
import SchemaDecl.Proofs.Declaration.Comment
import SchemaDecl.Proofs.Document.Distinct
import SchemaDecl.Proofs.Document.Redirection

namespace SchemaDecl

/-- A step of a path: to the member of an object under a key, or to the item of a list with an
index. -/
inductive PathStep where
  | key (name : String)
  | index (i : Nat)
deriving DecidableEq, Repr

/-- The name of a step: the key, or the index in decimal. -/
def PathStep.name : PathStep → String
  | .key name => name
  | .index i => toString i

namespace Pointer

variable {c : Char} {cs : List Char}

/-- How a character is written in a token. -/
def escape (c : Char) : List Char :=
  if c = '~' then ['~', '0'] else if c = '/' then ['~', '1'] else [c]

/-- The token of a name. -/
def encode (name : List Char) : List Char := name.flatMap escape

/-- The pointer of a path: a slash and a token for every step. -/
def ofPath (path : List PathStep) : String :=
  String.ofList ('#' :: path.flatMap fun step => '/' :: encode step.name.toList)

/-! ### Tokens are read back -/

lemma replacePair_cons_of_ne {a b : Char} {by' : List Char} (h : c ≠ a) :
    Text.replacePair a b by' (c :: cs) = c :: Text.replacePair a b by' cs := by
  cases cs with
  | nil => rfl
  | cons d cs => rw [Text.replacePair, if_neg (by simp [h])]

/-- A token in which the slashes have been read: only tildes are still written as pairs. -/
def halfDecoded (c : Char) : List Char := if c = '~' then ['~', '0'] else [c]

/-- Reading slashes first leaves the tildes as they are written: neither half of their pair begins a
pair that stands for a slash. -/
lemma replacePair_encode (cs : List Char) :
    Text.replacePair '~' '1' ['/'] (encode cs) = cs.flatMap halfDecoded := by
  induction cs with
  | nil => rfl
  | cons c cs ih =>
      rw [encode] at ih
      rw [encode, List.flatMap_cons, List.flatMap_cons, escape, halfDecoded]
      split
      · rw [List.cons_append, List.singleton_append, Text.replacePair, if_neg (by decide),
          replacePair_cons_of_ne (by decide), ih]
        rfl
      case isFalse htilde =>
        split
        case isTrue hslash =>
          rw [List.cons_append, List.singleton_append, Text.replacePair, if_pos (by decide), ih,
            hslash]
        case isFalse =>
          rw [List.singleton_append, replacePair_cons_of_ne htilde, ih, List.singleton_append]

/-- **A token stands for the name it was made of.** -/
lemma decode_encode (cs : List Char) : decode (encode cs) = cs := by
  rw [decode, replacePair_encode]
  induction cs with
  | nil => rfl
  | cons c cs ih =>
      rw [List.flatMap_cons, halfDecoded]
      split
      case isTrue htilde =>
        rw [List.cons_append, List.singleton_append, Text.replacePair, if_pos (by decide), ih,
          htilde, List.singleton_append]
      case isFalse htilde => rw [List.singleton_append, replacePair_cons_of_ne htilde, ih]

lemma slash_not_mem_encode (cs : List Char) : '/' ∉ encode cs := by
  rw [encode, List.mem_flatMap]
  rintro ⟨c, -, hmem⟩
  rw [escape] at hmem
  split at hmem
  · exact absurd hmem (by decide)
  case isFalse =>
    split at hmem
    · exact absurd hmem (by decide)
    case isFalse hslash => exact hslash (List.mem_singleton.mp hmem).symm

/-- Pieces with a separator before each but the first are told apart again. -/
lemma split_append_flatMap {sep : Char} {piece : List Char} {pieces : List (List Char)}
    (h : ∀ p ∈ piece :: pieces, sep ∉ p) :
    Text.split sep (piece ++ pieces.flatMap (sep :: ·)) = piece :: pieces := by
  have hintercalate : piece ++ pieces.flatMap (sep :: ·) = [sep].intercalate (piece :: pieces) := by
    clear h
    induction pieces generalizing piece with
    | nil => rw [List.flatMap_nil, List.append_nil, List.intercalate_singleton]
    | cons next pieces ih =>
        rw [List.flatMap_cons, List.intercalate_cons_cons, ← ih, List.cons_append,
          List.append_assoc, List.singleton_append]
  rw [Text.split_eq_splitOn, hintercalate, List.splitOn_intercalate sep h (List.cons_ne_nil _ _)]

/-- **The steps of the pointer of a path are those of the path.** -/
lemma steps?_ofPath (path : List PathStep) :
    steps? (ofPath path).toList = some (path.map fun step => step.name.toList) := by
  rw [ofPath, String.toList_ofList]
  cases path with
  | nil => rfl
  | cons step path =>
      have hpieces : ∀ p ∈ (step :: path).map fun s => encode s.name.toList, '/' ∉ p := by
        intro p hp
        obtain ⟨s, -, rfl⟩ := List.mem_map.mp hp
        exact slash_not_mem_encode _
      have hsplit : Text.split '/' (encode step.name.toList ++ path.flatMap fun s =>
          '/' :: encode s.name.toList) = (step :: path).map fun s => encode s.name.toList := by
        rw [List.map_cons, ← split_append_flatMap hpieces, List.flatMap_map]
      rw [List.flatMap_cons, List.cons_append, steps?, hsplit, List.map_map]
      exact congrArg some (List.map_congr_left fun s _ => decode_encode s.name.toList)

/-- An index is read as it is written. -/
lemma index?_toString (i : Nat) : index? (toString i).toList = some i := by
  have hdigit : ∀ c ∈ Nat.toDigits 10 i, c.isDigit = true := fun c hc =>
    Nat.isDigit_of_mem_toDigits (by decide) (by decide) hc
  have hvalue := Nat.ofDigitChars_toDigits (b := 10) (n := i) (by decide) (by decide)
  have hdecimal : decimal? (Nat.toDigits 10 i) = some i := by
    have hnonempty : (Nat.toDigits 10 i).isEmpty = false := by simp [Nat.toDigits_ne_nil]
    have hall : (Nat.toDigits 10 i).all Char.isDigit = true := List.all_eq_true.mpr hdigit
    rw [Nat.ofDigitChars_eq_foldl] at hvalue
    rw [decimal?, hnonempty, hall, if_neg (by decide)]
    simpa only [Nat.mul_comm] using congrArg some hvalue
  rw [Nat.toString_eq_repr, Nat.toList_repr]
  -- the first digit is no plus sign
  unfold index?
  split
  case h_1 digits heq =>
    have hplus := hdigit '+' (by rw [heq]; exact List.mem_cons_self)
    exact absurd hplus (by decide)
  case h_2 => exact hdecimal

end Pointer

namespace Document

variable {d : Document} {root id x child target : NodeId} {step : PathStep} {path : List PathStep}

/-! ### Paths in a document -/

/-- The step leads from the node to the other. -/
inductive Enters (d : Document) (id : NodeId) : PathStep → NodeId → Prop
  | key {members : Keyed NodeId} {name : String} {child : NodeId}
      (hnode : d.node id = .object members) (hchild : Keyed.get? members name = some child) :
      Enters d id (.key name) child
  | index {items : List NodeId} {i : Nat} {child : NodeId} (hnode : d.node id = .array items)
      (hchild : items[i]? = some child) : Enters d id (.index i) child

/-- The step leads nowhere: the object lacks the key, the list is too short for the index, or the
node is a leaf. -/
inductive Blocks (d : Document) (id : NodeId) : PathStep → Prop
  | missing {members : Keyed NodeId} {name : String} (hnode : d.node id = .object members)
      (hmissing : Keyed.get? members name = none) : Blocks d id (.key name)
  | short {items : List NodeId} {i : Nat} (hnode : d.node id = .array items)
      (hshort : items.length ≤ i) : Blocks d id (.index i)
  | leaf {value : Json.Scalar} {step : PathStep} (hnode : d.node id = .leaf value) :
      Blocks d id step

/-- The path leads from the node to the other. -/
inductive LeadsTo (d : Document) : NodeId → List PathStep → NodeId → Prop
  | here (id : NodeId) : LeadsTo d id [] id
  | enter {id child target : NodeId} {step : PathStep} {path : List PathStep}
      (hstep : d.Enters id step child) (hrest : LeadsTo d child path target) :
      LeadsTo d id (step :: path) target

/-- The path leads to a node where its next step leads nowhere. -/
def BreaksOff (d : Document) (root : NodeId) (path : List PathStep) : Prop :=
  ∃ before step after x, path = before ++ step :: after ∧ d.LeadsTo root before x ∧ d.Blocks x step

lemma Enters.step?_eq (h : d.Enters id step child) : d.step? id step.name.toList = some child := by
  cases h with
  | key hnode hchild =>
      rw [step?, hnode, PathStep.name, String.ofList_toList]
      exact hchild
  | index hnode hchild =>
      rw [step?, hnode, PathStep.name, Pointer.index?_toString]
      exact hchild

lemma Blocks.step?_eq (h : d.Blocks id step) : d.step? id step.name.toList = none := by
  cases h with
  | missing hnode hmissing =>
      rw [step?, hnode, PathStep.name, String.ofList_toList]
      exact hmissing
  | short hnode hshort =>
      rw [step?, hnode, PathStep.name, Pointer.index?_toString]
      exact List.getElem?_eq_none hshort
  | leaf hnode => rw [step?, hnode]

/-- Along a path, what is left of the way is gone from its end. -/
lemma LeadsTo.descend?_append (h : d.LeadsTo id path target) (steps : List (List Char)) :
    d.descend? id (path.map (fun step => step.name.toList) ++ steps) = d.descend? target steps := by
  induction h with
  | here => rfl
  | enter hstep _ ih =>
      rw [List.map_cons, List.cons_append, descend?, hstep.step?_eq, Option.bind_some, ih]

lemma LeadsTo.append_singleton (h : d.LeadsTo id path x) (hstep : d.Enters x step child) :
    d.LeadsTo id (path ++ [step]) child := by
  induction h with
  | here => exact .enter hstep (.here child)
  | enter hfirst _ ih => exact .enter hfirst (ih hstep)

lemma LeadsTo.resolve?_eq (h : d.LeadsTo root path target) :
    d.resolve? root (Pointer.ofPath path) = some target := by
  have hdescend := h.descend?_append []
  rw [List.append_nil] at hdescend
  rw [resolve?, Pointer.steps?_ofPath, Option.bind_some, hdescend, descend?]

lemma BreaksOff.resolve?_eq (h : d.BreaksOff root path) :
    d.resolve? root (Pointer.ofPath path) = none := by
  obtain ⟨before, step, after, x, rfl, hbefore, hblocks⟩ := h
  rw [resolve?, Pointer.steps?_ofPath, Option.bind_some, List.map_append, hbefore.descend?_append,
    List.map_cons, descend?, hblocks.step?_eq, Option.bind_none]

/-- Without doubled keys, every slot of a node can be stepped into. -/
lemma DistinctAt.exists_enters (hd : d.DistinctAt x) (h : d.Holds x child) :
    ∃ step, d.Enters x step child := by
  rw [Holds] at h
  cases hnode : d.node x with
  | leaf value =>
      rw [hnode, Node.children] at h
      cases h
  | array items =>
      rw [hnode, Node.children] at h
      obtain ⟨i, hi⟩ := List.mem_iff_getElem?.mp h
      exact ⟨.index i, .index hnode hi⟩
  | object members =>
      rw [hnode, Node.children] at h
      obtain ⟨e, he, rfl⟩ := List.mem_map.mp h
      rw [DistinctAt, members?_of_node hnode, Option.getD_some] at hd
      exact ⟨.key e.1, .key hnode (hd.get?_of_mem he)⟩

/-- **The pointer of a path resolves to the node that the path leads to**, whatever the keys, and to
nothing if the path breaks off. So every node that can be reached has a pointer, if no object has a
key twice. -/
theorem ofPath_resolves (d : Document) (root : NodeId) :
    (∀ path target, d.LeadsTo root path target →
      d.resolve? root (Pointer.ofPath path) = some target) ∧
    (∀ path, d.BreaksOff root path → d.resolve? root (Pointer.ofPath path) = none) ∧
    (d.Distinct → ∀ x, Relation.ReflTransGen d.Holds root x →
      ∃ path, d.LeadsTo root path x ∧ d.resolve? root (Pointer.ofPath path) = some x) := by
  refine ⟨fun path target h => h.resolve?_eq, fun path h => h.resolve?_eq, fun hd x hx => ?_⟩
  have hpath : ∃ path, d.LeadsTo root path x := by
    induction hx with
    | refl => exact ⟨[], .here root⟩
    | tail _ hholds ih =>
        obtain ⟨path, hpath⟩ := ih
        obtain ⟨step, hstep⟩ := (hd _).exists_enters hholds
        exact ⟨path ++ [step], hpath.append_singleton hstep⟩
  obtain ⟨path, hpath⟩ := hpath
  exact ⟨path, hpath, hpath.resolve?_eq⟩

/-- An object with a member under the empty key, which has a list under a key with a slash, which
has a member under a key that looks escaped. -/
def awkwardDocument : Document :=
  ⟨#[⟨.object [("", 1)], .root⟩, ⟨.object [("a/b", 2)], .under 0⟩, ⟨.array [3, 4], .under 1⟩,
    ⟨.leaf .null, .free⟩, ⟨.object [("~1", 3)], .under 2⟩]⟩

/-- A path to a leaf by awkward keys, and paths that break off at a missing key, behind the end of a
list and below a leaf. -/
theorem ofPath_resolves_awkward :
    Pointer.ofPath [.key "", .key "a/b", .index 1, .key "~1"] = "#//a~1b/1/~01" ∧
    awkwardDocument.LeadsTo 0 [.key "", .key "a/b", .index 1, .key "~1"] 3 ∧
    awkwardDocument.resolve? 0 "#//a~1b/1/~01" = some 3 ∧
    awkwardDocument.BreaksOff 0 [.key "", .key "b"] ∧
    awkwardDocument.resolve? 0 (Pointer.ofPath [.key "", .key "b"]) = none ∧
    awkwardDocument.BreaksOff 0 [.key "", .key "a/b", .index 2] ∧
    awkwardDocument.resolve? 0 (Pointer.ofPath [.key "", .key "a/b", .index 2]) = none ∧
    awkwardDocument.BreaksOff 0 [.key "", .key "a/b", .index 0, .key "x"] ∧
    awkwardDocument.resolve? 0 (Pointer.ofPath [.key "", .key "a/b", .index 0, .key "x"]) = none ∧
    awkwardDocument.Distinct ∧ Relation.ReflTransGen awkwardDocument.Holds 0 2 ∧
    ∃ path, awkwardDocument.LeadsTo 0 path 2 ∧
      awkwardDocument.resolve? 0 (Pointer.ofPath path) = some 2 := by
  obtain ⟨hleads, hbreaks, hreach⟩ := ofPath_resolves awkwardDocument 0
  have htext : Pointer.ofPath [.key "", .key "a/b", .index 1, .key "~1"] = "#//a~1b/1/~01" := by
    decide +kernel
  have hlist : awkwardDocument.LeadsTo 0 [.key "", .key "a/b"] 2 :=
    .enter (.key rfl rfl) (.enter (.key rfl rfl) (.here 2))
  have hleaf : awkwardDocument.LeadsTo 0 [.key "", .key "a/b", .index 1, .key "~1"] 3 :=
    (hlist.append_singleton (.index rfl rfl)).append_singleton (.key rfl rfl)
  have hkey : awkwardDocument.BreaksOff 0 [.key "", .key "b"] :=
    ⟨[.key ""], .key "b", [], 1, rfl, .enter (.key rfl rfl) (.here 1), .missing rfl rfl⟩
  have hindex : awkwardDocument.BreaksOff 0 [.key "", .key "a/b", .index 2] :=
    ⟨[.key "", .key "a/b"], .index 2, [], 2, rfl, hlist, .short rfl (by decide)⟩
  have hbelow : awkwardDocument.BreaksOff 0 [.key "", .key "a/b", .index 0, .key "x"] :=
    ⟨[.key "", .key "a/b", .index 0], .key "x", [], 3, rfl, hlist.append_singleton (.index rfl rfl),
      .leaf rfl⟩
  have hdistinct : awkwardDocument.Distinct := by decide
  have hreaches : Relation.ReflTransGen awkwardDocument.Holds 0 2 :=
    .head (show 1 ∈ (awkwardDocument.node 0).children by decide)
      (.single (show 2 ∈ (awkwardDocument.node 1).children by decide))
  refine ⟨htext, hleaf, ?_, hkey, hbreaks _ hkey, hindex, hbreaks _ hindex, hbelow,
    hbreaks _ hbelow, hdistinct, hreaches, hreach hdistinct 2 hreaches⟩
  rw [← htext]
  exact hleads _ 3 hleaf

end Document

end SchemaDecl
