/-
Names handed out are fresh.

A hint is served by trying the name it asks for, and then that name with the counters `1`, `2`, …
until a name is free. Counters make different names, and no more names are in use than hints have
been served: the search always ends, and it ends at the least counter that helps. A name with a
counter may be one that a later hint asks for by itself; it is then as taken as any other.

* `Names.IsFirstFree`, `Names.isFirstFree_firstFree`: the name that is looked for, and found.
* `Names.Searches`: the search, one candidate after the other, for as long as it takes.
* `Names.searches_iff`: **every search ends, at the first free name.**
* `Names.issued`, `Names.after`: the names that a list of hints gets, one after the other, and what
  has been handed out when all of them have been served.
* `Names.nodup_issued`: no name is handed out twice.
* `Names.issued_first_free`: **what a sequence of hints gets.**
* `Names.settled_of_mem_issued`: names handed out have the form of type names.
-/
import Mathlib.Data.List.Nodup
import Mathlib.Data.List.Perm.Subperm
import SchemaDecl.Names
import SchemaDecl.Proofs.Text.TypeName

namespace SchemaDecl.Names

variable {n : Names} {base candidate name name' : String} {counter k : Nat}

/-! ### The first free name -/

/-- Different counters make different names. -/
lemma numbered_injective (name : String) :
    Function.Injective fun k : Nat => name ++ toString (k + 1) := by
  intro j k h
  have hdigits : Nat.toDigits 10 (j + 1) = Nat.toDigits 10 (k + 1) := by
    simpa [Nat.toString_eq_repr] using congrArg String.toList h
  have hread := congrArg (fun digits => Nat.ofDigitChars 10 digits 0) hdigits
  simpa using hread

/-- There are more counters to try than names in use, so that one of them makes a free name. -/
lemma exists_numbered_not_mem (n : Names) (name : String) :
    ∃ k < n.size + 1, name ++ toString (k + 1) ∉ n.used := by
  by_contra! hall
  have hnodup : ((List.range (n.size + 1)).map fun k => name ++ toString (k + 1)).Nodup :=
    List.Nodup.map (numbered_injective name) List.nodup_range
  have hsub : ((List.range (n.size + 1)).map fun k => name ++ toString (k + 1)) ⊆ n.used := by
    intro candidate hmem
    obtain ⟨k, hk, rfl⟩ := List.mem_map.mp hmem
    exact hall k (List.mem_range.mp hk)
  have hlen := (hnodup.subperm hsub).length_le
  rw [List.length_map, List.length_range, size] at hlen
  omega

lemma contains_iff : n.contains name = true ↔ name ∈ n.used := List.contains_iff_mem

lemma contains_eq_false_iff : n.contains name = false ↔ name ∉ n.used := by
  rw [← contains_iff, Bool.not_eq_true]

/-- The name is `base` if that is free, and otherwise `base` with the least counter that makes it
free. -/
inductive IsFirstFree (taken : List String) (base : String) : String → Prop
  | plain (hfree : base ∉ taken) : IsFirstFree taken base base
  | numbered {k : Nat} (htaken : base ∈ taken)
      (hleast : IsLeast {k | 1 ≤ k ∧ base ++ toString k ∉ taken} k) :
      IsFirstFree taken base (base ++ toString k)

lemma IsFirstFree.not_mem {taken : List String} (h : IsFirstFree taken base name) :
    name ∉ taken := by
  cases h with
  | plain hfree => exact hfree
  | numbered _ hleast => exact hleast.1.2

lemma IsFirstFree.eq_or_exists {taken : List String} (h : IsFirstFree taken base name) :
    name = base ∨ ∃ k : Nat, name = base ++ toString k := by
  cases h with
  | plain => exact .inl rfl
  | @numbered k => exact .inr ⟨k, rfl⟩

/-- What counts is which names are taken, not in which order. -/
lemma IsFirstFree.of_mem_iff {taken taken' : List String} (h : IsFirstFree taken base name)
    (hmem : ∀ x, x ∈ taken ↔ x ∈ taken') : IsFirstFree taken' base name := by
  cases h with
  | plain hfree => exact .plain fun htaken => hfree ((hmem base).mpr htaken)
  | numbered htaken hleast =>
      simp only [hmem] at hleast
      exact .numbered ((hmem base).mp htaken) hleast

/-- There are enough counters to try, and the first that helps is taken. -/
lemma isFirstFree_firstFree (n : Names) (base : String) :
    IsFirstFree n.used base (n.firstFree base) := by
  rw [firstFree]
  split
  case isFalse hfree => exact .plain fun hmem => hfree (contains_iff.mpr hmem)
  case isTrue htaken =>
    obtain ⟨j, hj, hfree⟩ := exists_numbered_not_mem n base
    have hsome : ((List.range (n.size + 1)).find? fun k =>
        !n.contains (base ++ toString (k + 1))).isSome := by
      rw [List.find?_isSome]
      exact ⟨j, List.mem_range.mpr hj, by simpa using contains_eq_false_iff.mpr hfree⟩
    obtain ⟨k, hk⟩ := Option.isSome_iff_exists.mp hsome
    have hfound : ((List.range (n.size + 1)).map fun k => base ++ toString (k + 1)).find?
        (fun candidate => !n.contains candidate) = some (base ++ toString (k + 1)) := by
      rw [List.find?_map]
      exact congrArg (Option.map _) hk
    dsimp only
    rw [hfound, Option.getD_some]
    obtain ⟨hkfree, -, hbefore⟩ := List.find?_range_eq_some.mp hk
    refine .numbered (contains_iff.mp htaken) ⟨⟨Nat.le_add_left 1 k, ?_⟩, ?_⟩
    · exact contains_eq_false_iff.mp (by simpa using hkfree)
    · rintro i ⟨hpos, hfree⟩
      by_contra! hlt
      obtain ⟨i, rfl⟩ := Nat.exists_eq_add_of_le' hpos
      have htaken := hbefore i (by omega)
      rw [Bool.not_not] at htaken
      exact hfree (contains_iff.mp (by simpa using htaken))

/-! ### The search -/

/-- Trying a candidate, and the counters from `counter` on if it is taken, ends at the name. -/
inductive Searches (n : Names) (base : String) : Nat → String → String → Prop
  | stop {counter : Nat} {candidate : String} (hfree : n.contains candidate = false) :
      Searches n base counter candidate candidate
  | next {counter : Nat} {candidate name : String} (htaken : n.contains candidate = true)
      (hrest : Searches n base (counter + 1) (base ++ toString counter) name) :
      Searches n base counter candidate name

lemma Searches.unique (h : n.Searches base counter candidate name)
    (h' : n.Searches base counter candidate name') : name = name' := by
  induction h with
  | stop hfree =>
      cases h' with
      | stop => rfl
      | next htaken => cases hfree.symm.trans htaken
  | next htaken _ ih =>
      cases h' with
      | stop hfree => cases hfree.symm.trans htaken
      | next _ hrest => exact ih hrest

/-- From any counter up to the least one that helps, the search goes on to that one. -/
lemma searches_numbered (hleast : IsLeast {k | 1 ≤ k ∧ base ++ toString k ∉ n.used} k)
    (hpos : 1 ≤ counter) (hle : counter ≤ k) :
    n.Searches base (counter + 1) (base ++ toString counter) (base ++ toString k) := by
  induction hle using Nat.decreasingInduction with
  | self => exact .stop (contains_eq_false_iff.mpr hleast.1.2)
  | of_succ counter hlt ih =>
      refine .next (contains_iff.mpr ?_) (ih (Nat.le_add_left 1 counter))
      by_contra hfree
      exact absurd (hleast.2 ⟨hpos, hfree⟩) (Nat.not_le_of_lt hlt)

lemma IsFirstFree.searches (h : IsFirstFree n.used base name) : n.Searches base 1 base name := by
  cases h with
  | plain hfree => exact .stop (contains_eq_false_iff.mpr hfree)
  | numbered htaken hleast =>
      exact .next (contains_iff.mpr htaken) (searches_numbered hleast le_rfl hleast.1.1)

/-- **Every search ends, at the first free name.** -/
lemma searches_iff : n.Searches base 1 base name ↔ name = n.firstFree base := by
  have hends := (isFirstFree_firstFree n base).searches
  refine ⟨fun h => h.unique hends, ?_⟩
  rintro rfl
  exact hends

/-! ### One name -/

lemma wanted_ne_empty (hint : String) : wanted hint ≠ "" := by
  rw [wanted]
  generalize Text.typeName hint = name
  by_cases h : name = ""
  · simp [h]
  · simp [h]

lemma allocate_not_mem (n : Names) (hint : String) : (n.allocate hint).1 ∉ n.used :=
  (isFirstFree_firstFree n _).not_mem

lemma allocate_ne_empty (n : Names) (hint : String) : (n.allocate hint).1 ≠ "" := by
  have hwanted := wanted_ne_empty hint
  rw [allocate]
  generalize wanted hint = name at hwanted
  rcases (isFirstFree_firstFree n name).eq_or_exists with heq | ⟨k, heq⟩
  · rwa [heq]
  · rw [heq]
    exact fun hempty => hwanted (String.append_eq_empty_iff.mp hempty).1

/-! ### Names for a list of hints -/

/-- The names that hints get, one after the other. -/
def issued (n : Names) : List String → List String
  | [] => []
  | hint :: hints => (n.allocate hint).1 :: issued (n.allocate hint).2 hints

/-- What has been handed out when hints have been served. -/
def after (n : Names) : List String → Names
  | [] => n
  | hint :: hints => after (n.allocate hint).2 hints

lemma issued_append (n : Names) (hints hints' : List String) :
    n.issued (hints ++ hints') = n.issued hints ++ (n.after hints).issued hints' := by
  induction hints generalizing n with
  | nil => rfl
  | cons hint hints ih => exact congrArg ((n.allocate hint).1 :: ·) (ih (n.allocate hint).2)

lemma after_append (n : Names) (hints hints' : List String) :
    n.after (hints ++ hints') = (n.after hints).after hints' := by
  induction hints generalizing n with
  | nil => rfl
  | cons hint hints ih => exact ih (n.allocate hint).2

/-- **No name is handed out twice**, nor is one that had been handed out before. -/
lemma nodup_issued (n : Names) (hints : List String) :
    (n.issued hints).Nodup ∧ ∀ name ∈ n.issued hints, name ∉ n.used ∧ name ≠ "" := by
  induction hints generalizing n with
  | nil => exact ⟨List.nodup_nil, by simp [issued]⟩
  | cons hint hints ih =>
      obtain ⟨hnodup, hfresh⟩ := ih (n.allocate hint).2
      rw [issued]
      refine ⟨List.nodup_cons.mpr ⟨fun hmem => ?_, hnodup⟩, List.forall_mem_cons.mpr
        ⟨⟨allocate_not_mem n hint, allocate_ne_empty n hint⟩, fun name hname => ?_⟩⟩
      · exact (hfresh _ hmem).1 List.mem_cons_self
      · exact ⟨fun hused => (hfresh name hname).1 (List.mem_cons_of_mem _ hused),
          (hfresh name hname).2⟩

lemma used_after (n : Names) (hints : List String) :
    (n.after hints).used = (n.issued hints).reverse ++ n.used := by
  induction hints generalizing n with
  | nil => rfl
  | cons hint hints ih =>
      rw [after, ih, issued, List.reverse_cons, List.append_assoc]
      rfl

lemma length_issued (n : Names) (hints : List String) : (n.issued hints).length = hints.length := by
  induction hints generalizing n with
  | nil => rfl
  | cons hint hints ih => rw [issued, List.length_cons, ih, List.length_cons]

/-- **Hints are served one after the other, each with the first free name.** Names are not empty and
pairwise distinct; a name is known just if it has been handed out, and as many different names are
known as hints have been served. The search for the next hint starts at its type name, or at
`NoName` if that is empty. It ends, whatever the hint, at the one name that is then handed out. -/
theorem issued_first_free (hints : List String) :
    (({} : Names).issued hints).Nodup ∧ "" ∉ ({} : Names).issued hints ∧
    (∀ name, (({} : Names).after hints).contains name = true ↔ name ∈ ({} : Names).issued hints) ∧
    (({} : Names).after hints).used.Nodup ∧ (({} : Names).after hints).size = hints.length ∧
    ∀ hint, wanted hint = (if Text.typeName hint = "" then "NoName" else Text.typeName hint) ∧
      ∃ name, ({} : Names).issued (hints ++ [hint]) = ({} : Names).issued hints ++ [name] ∧
        (∀ found, (({} : Names).after hints).Searches (wanted hint) 1 (wanted hint) found ↔
          found = name) ∧
        IsFirstFree (({} : Names).issued hints) (wanted hint) name := by
  obtain ⟨hnodup, hnew⟩ := nodup_issued {} hints
  have hused : (({} : Names).after hints).used = (({} : Names).issued hints).reverse := by
    rw [used_after, List.append_nil]
  have hmem (name : String) :
      name ∈ (({} : Names).after hints).used ↔ name ∈ ({} : Names).issued hints := by
    rw [hused, List.mem_reverse]
  refine ⟨hnodup, fun hempty => (hnew "" hempty).2 rfl,
    fun name => contains_iff.trans (hmem name), ?_, ?_, fun hint => ⟨?_, ?_⟩⟩
  · rwa [hused, List.nodup_reverse]
  · rw [size, hused, List.length_reverse, length_issued]
  · rw [wanted]
    simp only [String.isEmpty_iff]
  · exact ⟨(({} : Names).after hints).firstFree (wanted hint), issued_append {} hints [hint],
      fun found => searches_iff, (isFirstFree_firstFree _ _).of_mem_iff hmem⟩

example : ({} : Names).issued ["pet", "Pet1", "pet", "!!!", "Pet1"]
    = ["Pet", "Pet1", "Pet2", "NoName", "Pet11"] := by decide +kernel

/-! ### The form of names -/

lemma settled_wanted (hint : String) : Text.Settled (wanted hint).toList := by
  have hsettled := Text.settled_typeNameChars hint.toList
  have hname : (Text.typeName hint).toList = Text.typeNameChars hint.toList := String.toList_ofList
  rw [← hname] at hsettled
  rw [wanted]
  generalize Text.typeName hint = name at hsettled
  split
  · have hsame : Text.typeNameChars "NoName".toList = "NoName".toList := by decide +kernel
    exact hsame ▸ Text.settled_typeNameChars "NoName".toList
  · exact hsettled

lemma settled_allocate (n : Names) (hint : String) :
    Text.Settled (n.allocate hint).1.toList := by
  have hwanted := settled_wanted hint
  rw [allocate]
  generalize wanted hint = name at hwanted
  rcases (isFirstFree_firstFree n name).eq_or_exists with heq | ⟨k, heq⟩
  · rwa [heq]
  · rw [heq, String.toList_append]
    exact hwanted.append_counter k

/-- Names handed out have the form of type names. -/
lemma settled_of_mem_issued {n : Names} {hints : List String} {name : String}
    (h : name ∈ n.issued hints) : Text.Settled name.toList := by
  induction hints generalizing n with
  | nil => cases h
  | cons hint hints ih =>
      rcases List.mem_cons.mp h with rfl | h
      · exact settled_allocate n hint
      · exact ih h

end SchemaDecl.Names
