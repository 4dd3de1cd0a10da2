/-
Comments that end where they should.

A block comment ends at the first star that stands right before a slash. The block of a text has a
star and a slash as its last two characters, and it ends there just if they stand together nowhere
in the text.

* `Text.StaysOpen`: texts that do not end a comment.
* `Text.staysOpen_replacePair`: a text in which every such pair has been parted.
* `ClosesAtEnd`, `closesAtEnd_commentBlock_iff`: **which blocks end at their end.**
-/
import Mathlib.Data.List.Chain
import Mathlib.Data.List.TakeWhile
import SchemaDecl.Declaration.Comment

namespace SchemaDecl

namespace Text

variable {cs l m : List Char} {c sep : Char}

/-- The text does not end a comment: no star stands right before a slash. -/
def StaysOpen (cs : List Char) : Prop := cs.IsChain fun a b => ¬ (a = '*' ∧ b = '/')

instance : DecidablePred StaysOpen := fun cs => inferInstanceAs (Decidable (List.IsChain _ cs))

/-! ### Parts of texts -/

lemma staysOpen_of_not_mem (h : '*' ∉ cs) : StaysOpen cs := by
  refine List.isChain_iff_forall_rel_of_append_cons_cons.mpr fun a b l₁ l₂ heq hab => h ?_
  rw [heq, hab.1]
  exact List.mem_append_right l₁ List.mem_cons_self

/-- Texts that do not make a pair where they meet. -/
lemma staysOpen_append (h : l.getLast? ≠ some '*' ∨ m.head? ≠ some '/') :
    StaysOpen (l ++ m) ↔ StaysOpen l ∧ StaysOpen m := by
  have hmeet : ∀ a ∈ l.getLast?, ∀ b ∈ m.head?, ¬ (a = '*' ∧ b = '/') := by
    rintro a ha b hb ⟨rfl, rfl⟩
    exact h.elim (· ha) (· hb)
  rw [StaysOpen, List.isChain_append, ← StaysOpen, ← StaysOpen]
  exact ⟨fun h => ⟨h.1, h.2.1⟩, fun h => ⟨h.1, h.2, hmeet⟩⟩

/-- A line is as harmless without the white space at its end. -/
lemma staysOpen_trimEnd : StaysOpen (trimEnd cs) ↔ StaysOpen cs := by
  have hsplit : cs = trimEnd cs ++ (cs.reverse.takeWhile isSpace).reverse := by
    rw [trimEnd, ← List.reverse_append, List.takeWhile_append_dropWhile, List.reverse_reverse]
  have hspace : ∀ c ∈ (cs.reverse.takeWhile isSpace).reverse, isSpace c = true := fun c hc =>
    List.mem_takeWhile_imp (List.mem_reverse.mp hc)
  generalize (cs.reverse.takeWhile isSpace).reverse = blanks at hsplit hspace
  have hopen : StaysOpen blanks :=
    staysOpen_of_not_mem fun hmem => absurd (hspace _ hmem) (by decide)
  have hhead : blanks.head? ≠ some '/' := fun hhead =>
    absurd (hspace _ (List.mem_of_head? hhead)) (by decide)
  conv_rhs => rw [hsplit, staysOpen_append (.inr hhead)]
  exact ⟨fun h => ⟨h, hopen⟩, And.left⟩

lemma split_eq_splitOn (sep : Char) (cs : List Char) : split sep cs = cs.splitOn sep := by
  induction cs with
  | nil => rfl
  | cons c cs ih =>
      rw [split, ih, List.splitOn, List.splitOn, List.splitOnP_cons_eq_if_modifyHead]
      obtain ⟨piece, rest, hpieces⟩ :=
        List.exists_cons_of_ne_nil (List.splitOnP_ne_nil (· == sep) cs)
      rw [hpieces]
      rfl

/-- Texts with a separator between them make no pairs that are not theirs. -/
lemma staysOpen_intercalate_iff (hstar : sep ≠ '*') (hslash : sep ≠ '/')
    {pieces : List (List Char)} :
    StaysOpen ([sep].intercalate pieces) ↔ ∀ piece ∈ pieces, StaysOpen piece := by
  induction pieces with
  | nil => exact ⟨fun _ _ hmem => absurd hmem List.not_mem_nil, fun _ => .nil⟩
  | cons piece pieces ih =>
      cases pieces with
      | nil => rw [List.intercalate_singleton, List.forall_mem_singleton]
      | cons piece' pieces =>
          have hsep : StaysOpen [sep] := .singleton sep
          rw [List.forall_mem_cons, ← ih, List.intercalate_cons_cons,
            staysOpen_append (.inl (by simpa using hstar)),
            staysOpen_append (.inr (by simpa using hslash))]
          exact ⟨fun h => ⟨h.1.1, h.2⟩, fun h => ⟨⟨h.1, hsep⟩, h.2⟩⟩

/-! ### Parted pairs -/

lemma head?_replacePair {a b : Char} {by' : List Char} :
    (replacePair a b (a :: by') cs).head? = cs.head? := by
  fun_cases replacePair a b (a :: by') cs with
  | case1 => rfl
  | case2 => rfl
  | case3 c d cs hpair =>
      rw [Bool.and_eq_true, beq_iff_eq] at hpair
      rw [hpair.1]
      rfl
  | case4 => rfl

/-- **No pair is left when every pair has been parted.** -/
lemma staysOpen_replacePair (cs : List Char) :
    StaysOpen (replacePair '*' '/' ['*', ' ', '/'] cs) := by
  fun_induction replacePair '*' '/' ['*', ' ', '/'] cs with
  | case1 => exact .nil
  | case2 c => exact .singleton c
  | case3 c d cs hpair ih => exact (staysOpen_append (.inl (by simp))).mpr ⟨by decide, ih⟩
  | case4 c d cs hpair ih =>
      refine List.isChain_cons.mpr ⟨fun x hx => ?_, ih⟩
      rw [head?_replacePair] at hx
      obtain rfl : d = x := Option.some.inj hx
      simpa using hpair

/-- A text without pairs is left as it is. -/
lemma replacePair_of_staysOpen {by' : List Char} (h : StaysOpen cs) :
    replacePair '*' '/' by' cs = cs := by
  fun_induction replacePair '*' '/' by' cs with
  | case1 => rfl
  | case2 => rfl
  | case3 c d cs hpair ih =>
      rw [Bool.and_eq_true, beq_iff_eq, beq_iff_eq] at hpair
      exact absurd hpair (List.isChain_cons_cons.mp h).1
  | case4 c d cs hpair ih => rw [ih (List.isChain_cons_cons.mp h).2]

end Text

/-! ### Comment blocks -/

/-- A star stands right before a slash only at the end of the block. -/
def ClosesAtEnd (block : List Char) : Prop :=
  ∀ before after, block = before ++ '*' :: '/' :: after → after = []

open Text

lemma closesAtEnd_concat_iff {cs : List Char} : ClosesAtEnd (cs ++ ['/']) ↔ StaysOpen cs := by
  rw [StaysOpen, List.isChain_iff_forall_rel_of_append_cons_cons]
  constructor
  · rintro h a b before after rfl ⟨rfl, rfl⟩
    have hnil := h before (after ++ ['/']) (by simp)
    simp at hnil
  · intro h before after heq
    rcases List.eq_nil_or_concat after with rfl | ⟨after, c, rfl⟩
    · rfl
    · have hcs : cs = before ++ '*' :: '/' :: after := by
        have happend : cs ++ ['/'] = (before ++ '*' :: '/' :: after) ++ [c] := by simpa using heq
        exact (List.append_inj' happend rfl).1
      exact absurd ⟨rfl, rfl⟩ (h hcs)

lemma staysOpen_flatMap_commentLine_iff {lines : List (List Char)} :
    StaysOpen (lines.flatMap commentLine) ↔ ∀ line ∈ lines, StaysOpen line := by
  induction lines with
  | nil => exact ⟨fun _ _ hmem => absurd hmem List.not_mem_nil, fun _ => .nil⟩
  | cons line lines ih =>
      have hline : StaysOpen (commentLine line) ↔ StaysOpen line := by
        rw [commentLine, staysOpen_append (.inr (by simp)), staysOpen_trimEnd,
          staysOpen_append (.inl (by simp))]
        exact ⟨fun h => h.1.2, fun h => ⟨⟨by decide, h⟩, by decide⟩⟩
      rw [List.flatMap_cons, staysOpen_append (.inl (by simp [commentLine])), hline, ih,
        List.forall_mem_cons]

/-- **A comment block ends at its end** just if its text does not end a comment. -/
theorem closesAtEnd_commentBlock_iff (comment : String) :
    ClosesAtEnd (commentBlock comment).toList ↔ StaysOpen comment.toList := by
  have hblock : (commentBlock comment).toList = (['/', '*', '*', '\n'] ++
      ((split '\n' comment.toList).flatMap commentLine ++ [' ', '*'])) ++ ['/'] := by
    simp [commentBlock]
  have hlines : StaysOpen (['\n'].intercalate (split '\n' comment.toList)) ↔
      ∀ line ∈ split '\n' comment.toList, StaysOpen line :=
    staysOpen_intercalate_iff (by decide) (by decide)
  rw [hblock, closesAtEnd_concat_iff, staysOpen_append (.inl (by simp)),
    staysOpen_append (.inr (by simp)), staysOpen_flatMap_commentLine_iff, ← hlines,
    split_eq_splitOn, List.intercalate_splitOn]
  exact ⟨fun h => h.2.1, fun h => ⟨by decide, h, by decide⟩⟩

end SchemaDecl
