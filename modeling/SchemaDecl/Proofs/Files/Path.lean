/-
Pieces and stems of paths.

* `Text.split_append`, `Text.not_mem_of_mem_split`: the pieces between separators.
* `Path.exists_pieces_join`: a name that is put below a directory is the last piece.
* `Path.name?_eq`: the name of a path is its last piece that counts.
* `Path.not_mem_of_stem?`: a stem is a piece of a name.
-/
import Mathlib.Tactic.Common
import SchemaDecl.Files.Path

namespace SchemaDecl

namespace Text

variable {sep : Char}

lemma split_ne_nil (sep : Char) (cs : List Char) : split sep cs ≠ [] := by
  cases cs with
  | nil => simp [split]
  | cons c cs =>
      rw [split]
      split
      · simp
      · split <;> simp

lemma split_cons_of_ne {c : Char} (h : c ≠ sep) (cs : List Char) : ∃ piece rest,
    split sep cs = piece :: rest ∧ split sep (c :: cs) = (c :: piece) :: rest := by
  obtain ⟨piece, rest, hcs⟩ := List.exists_cons_of_ne_nil (split_ne_nil sep cs)
  refine ⟨piece, rest, hcs, ?_⟩
  rw [split, if_neg (by simpa using h), hcs]

/-- A separator stands between the pieces before it and those after it. -/
lemma split_append (xs ys : List Char) :
    split sep (xs ++ sep :: ys) = split sep xs ++ split sep ys := by
  induction xs with
  | nil => simp [split]
  | cons c xs ih =>
      by_cases hc : c = sep
      · subst hc
        simp [split, ih]
      · obtain ⟨piece, rest, hxs, hsplit⟩ := split_cons_of_ne hc xs
        obtain ⟨piece', rest', hall, hsplit'⟩ := split_cons_of_ne hc (xs ++ sep :: ys)
        rw [ih, hxs, List.cons_append, List.cons.injEq] at hall
        rw [List.cons_append, hsplit', hsplit, ← hall.1, ← hall.2, List.cons_append]

lemma split_of_not_mem {cs : List Char} (h : sep ∉ cs) : split sep cs = [cs] := by
  induction cs with
  | nil => rfl
  | cons c cs ih =>
      rw [List.mem_cons, not_or] at h
      obtain ⟨piece, rest, hcs, hsplit⟩ := split_cons_of_ne (Ne.symm h.1) cs
      rw [ih h.2, List.cons.injEq] at hcs
      rw [hsplit, ← hcs.1, ← hcs.2]

/-- There are no separators in pieces. -/
lemma not_mem_of_mem_split {cs piece : List Char} (h : piece ∈ split sep cs) : sep ∉ piece := by
  induction cs generalizing piece with
  | nil =>
      obtain rfl := List.mem_singleton.mp h
      exact List.not_mem_nil
  | cons c cs ih =>
      by_cases hc : c = sep
      · rw [split, if_pos (by simpa using hc)] at h
        rcases List.mem_cons.mp h with rfl | h
        · exact List.not_mem_nil
        · exact ih h
      · obtain ⟨first, rest, hcs, hsplit⟩ := split_cons_of_ne hc cs
        rw [hsplit] at h
        rw [hcs] at ih
        rcases List.mem_cons.mp h with rfl | h
        · rw [List.mem_cons, not_or]
          exact ⟨Ne.symm hc, ih List.mem_cons_self⟩
        · exact ih (List.mem_cons_of_mem _ h)

end Text

namespace Path

variable {path dir name stem : String}

lemma pieces_ne_nil (path : String) : pieces path ≠ [] :=
  mt List.map_eq_nil_iff.mp (Text.split_ne_nil '/' path.toList)

lemma pieces_append_slash (front back : List Char) :
    pieces (String.ofList (front ++ '/' :: back))
      = pieces (String.ofList front) ++ pieces (String.ofList back) := by
  simp only [pieces, String.toList_ofList, Text.split_append, List.map_append]

lemma pieces_of_not_mem (h : '/' ∉ name.toList) : pieces name = [name] := by
  rw [pieces, Text.split_of_not_mem h, List.map_singleton, String.ofList_toList]

/-- **A name that is put below a directory is the last piece.** -/
lemma exists_pieces_join (dir : String) (h : '/' ∉ name.toList) :
    ∃ above, pieces (join dir name) = above ++ [name] := by
  have hrelative : isAbsolute name = false := by
    rw [isAbsolute, ← Bool.not_eq_true, beq_iff_eq]
    exact fun hhead => h (List.mem_of_mem_head? hhead)
  have hbelow (front : List Char) :
      ∃ above, pieces (String.ofList (front ++ '/' :: name.toList)) = above ++ [name] := by
    refine ⟨pieces (String.ofList front), ?_⟩
    rw [pieces_append_slash, String.ofList_toList, pieces_of_not_mem h]
  rw [join, hrelative, if_neg Bool.false_ne_true]
  split
  case isTrue hdir =>
    rw [Bool.or_eq_true, beq_iff_eq, beq_iff_eq] at hdir
    rcases hdir with rfl | hlast
    · exact ⟨[], by rw [String.empty_append, pieces_of_not_mem h, List.nil_append]⟩
    · obtain ⟨front, hfront⟩ := List.getLast?_eq_some_iff.mp hlast
      have hjoined : dir ++ name = String.ofList (front ++ '/' :: name.toList) := by
        rw [← String.toList_inj, String.toList_append, String.toList_ofList, hfront]
        simp
      rw [hjoined]
      exact hbelow front
  case isFalse =>
    have hjoined : dir ++ "/" ++ name = String.ofList (dir.toList ++ '/' :: name.toList) := by
      rw [← String.toList_inj, String.toList_append, String.toList_append, String.toList_ofList]
      simp
    rw [hjoined]
    exact hbelow dir.toList

/-- The name of a path is its last piece that counts, unless that leads up. -/
lemma name?_eq (path : String) : name? path
    = ((pieces path).filter fun piece => !isIdle piece).getLast?.filter (· != "..") := by
  have hdots (last : Option String) (h : ∀ piece ∈ last, isIdle piece = false) :
      last.filter (fun part => part != "." && part != "..") = last.filter (· != "..") := by
    cases last with
    | none => rfl
    | some piece =>
        have hidle := h piece rfl
        rw [isIdle, Bool.or_eq_false_iff] at hidle
        simp [Option.filter, bne, hidle.2]
  have hcounts (all : List String) :
      ∀ piece ∈ (all.filter fun piece => !isIdle piece).getLast?, isIdle piece = false := by
    intro piece hpiece
    simpa using (List.mem_filter.mp (List.mem_of_getLast? hpiece)).2
  rw [name?, parts]
  split
  case h_1 rest hpieces =>
    rw [hpieces, List.filter_cons_of_neg (by simp [isIdle])]
    cases hrest : rest.filter fun piece => !isIdle piece with
    | nil => rfl
    | cons piece more =>
        rw [List.getLast?_cons_cons, ← hrest, hdots _ (hcounts rest)]
  case h_2 => exact hdots _ (hcounts _)

lemma mem_pieces_of_name? (h : name? path = some name) : name ∈ pieces path := by
  rw [name?_eq] at h
  exact (List.mem_filter.mp (List.mem_of_getLast? (Option.filter_eq_some_iff.mp h).1)).1

lemma mem_of_mem_withoutExtension {c : Char} (h : c ∈ (withoutExtension name).toList) :
    c ∈ name.toList := by
  rw [withoutExtension] at h
  split at h
  · exact h
  · exact h
  case h_3 dot before _ hbefore =>
    have hsub : before ⊆ name.toList.reverse.dropWhile (· != '.') := by
      rw [hbefore]
      exact List.subset_cons_self _ _
    rw [String.toList_ofList, List.mem_reverse] at h
    exact List.mem_reverse.mp ((List.dropWhile_sublist _).subset (hsub h))

/-- A stem is a part of a piece. -/
lemma not_mem_of_stem? (h : stem? path = some stem) : '/' ∉ stem.toList := by
  obtain ⟨name, hname, rfl⟩ := Option.map_eq_some_iff.mp h
  obtain ⟨piece, hpiece, rfl⟩ := List.mem_map.mp (mem_pieces_of_name? hname)
  intro hmem
  have hslash := mem_of_mem_withoutExtension hmem
  rw [String.toList_ofList] at hslash
  exact Text.not_mem_of_mem_split hpiece hslash

end Path

end SchemaDecl
