/-
Type names and identifiers.

Between the blanking of foreign characters and the finished name, the passes only respell: they
raise letters, draw an underscore into the letter after it and drop white space. None of that
touches a digit, or brings one to the front that did not lead before. So the digits of a type name,
and whether one of them stands at its front, can be read off the text that it is made of.

* `Text.Respells`, `Text.respells_typeNameChars`: what the passes do to a text.
* `Text.material`: the characters of a text that its type name is made of.
* `Text.typeName_isIdentifier_iff`: **which texts have an identifier for their type name.**
* `Text.typeName_typeName_eq_iff`: **which type names are their own type names.**
-/
import SchemaDecl.Declaration.Key
import SchemaDecl.Proofs.Text.TypeName

namespace SchemaDecl.Text

open Relation

variable {c : Char} {s t cs : List Char}

/-! ### Respelling -/

/-- The second text is the first one respelt: letters may have been raised, an underscore drawn into
the letter after it, and white space dropped. -/
inductive Respells : List Char → List Char → Prop
  | nil : Respells [] []
  | keep (c : Char) {s t : List Char} (h : Respells s t) : Respells (c :: s) (c :: t)
  | raise {c : Char} {s t : List Char} (hc : c.isAlpha = true) (h : Respells s t) :
      Respells (c :: s) (c.toUpper :: t)
  | join {c : Char} {s t : List Char} (hc : c.isAlpha = true) (h : Respells s t) :
      Respells ('_' :: c :: s) (c.toUpper :: t)
  | drop {c : Char} {s t : List Char} (hc : isSpace c = true) (h : Respells s t) :
      Respells (c :: s) t

lemma Respells.refl (s : List Char) : Respells s s := by
  induction s with
  | nil => exact .nil
  | cons c s ih => exact .keep c ih

lemma respells_raiseLead (s : List Char) : Respells s (raiseLead s) := by
  fun_cases raiseLead s with
  | case1 c cs hlower => exact .keep '_' (.raise (isAlpha_of_isLower hlower) (.refl cs))
  | case2 => exact .refl _
  | case3 => exact .refl _

lemma respells_joinSnake (s : List Char) : Respells s (joinSnake s) := by
  fun_induction joinSnake s with
  | case1 => exact .nil
  | case2 c => exact .refl [c]
  | case3 c d cs hjoin ih =>
      rw [Bool.and_eq_true, beq_iff_eq] at hjoin
      rw [hjoin.1]
      exact .join (isAlpha_of_isLower hjoin.2) ih
  | case4 c d cs hjoin ih => exact .keep c ih

lemma respells_raiseAfterDigit (after : Bool) (s : List Char) :
    Respells s (raiseAfterDigit after s) := by
  induction s generalizing after with
  | nil => exact .nil
  | cons c s ih =>
      rw [raiseAfterDigit]
      split
      case isTrue hraise => exact .raise (Bool.and_eq_true_iff.mp hraise).2 (ih _)
      case isFalse => exact .keep c (ih _)

lemma respells_joinWords (after : Bool) (s : List Char) : Respells s (joinWords after s) := by
  induction s generalizing after with
  | nil => exact .nil
  | cons c s ih =>
      rw [joinWords]
      split
      case isTrue hspace => exact .drop hspace (ih true)
      case isFalse =>
        split
        case isTrue hraise => exact .raise (Bool.and_eq_true_iff.mp hraise).2 (ih false)
        case isFalse => exact .keep c (ih false)

lemma respells_raiseFirst (s : List Char) : Respells s (raiseFirst s) := by
  cases s with
  | nil => exact .nil
  | cons c s =>
      rw [raiseFirst]
      by_cases hlower : c.isLower = true
      · exact .raise (isAlpha_of_isLower hlower) (.refl s)
      · rw [Char.toUpper_eq_of_not_isLower hlower]
        exact .refl (c :: s)

/-! ### Digits are not respelt -/

lemma not_isDigit_of_isSpace (h : isSpace c = true) : isDigit c = false := by
  refine Bool.eq_false_iff.mpr fun hdigit => ?_
  have hspace := not_isSpace_of_continuesName (c := c) (by simp [continuesName, hdigit])
  simp [h] at hspace

/-- The upper case form of a letter is neither a digit nor white space. -/
lemma not_isDigit_toUpper (h : c.isAlpha = true) :
    isDigit c.toUpper = false ∧ isSpace c.toUpper = false :=
  not_isDigit_of_beginsName (beginsName_of_isAlpha (c.isAlpha_toUpper_eq_isAlpha.trans h))

/-- The first character that is no white space is a digit. -/
def leadIsDigit (s : List Char) : Bool := (s.find? (! isSpace ·)).any isDigit

lemma leadIsDigit_cons (h : isSpace c = false) : leadIsDigit (c :: s) = isDigit c := by
  rw [leadIsDigit, List.find?_cons_of_pos (by simp [h]), Option.any_some]

lemma leadIsDigit_cons_of_isSpace (h : isSpace c = true) :
    leadIsDigit (c :: s) = leadIsDigit s := by
  rw [leadIsDigit, List.find?_cons_of_neg (by simp [h]), leadIsDigit]

/-- **Respelling keeps the digits, in their order, and a digit leads after it just if one did
before.** -/
lemma Respells.digits (h : Respells s t) :
    t.filter isDigit = s.filter isDigit ∧ leadIsDigit t = leadIsDigit s := by
  induction h with
  | nil => exact ⟨rfl, rfl⟩
  | @keep c s t _ ih =>
      refine ⟨by rw [List.filter_cons, List.filter_cons, ih.1], ?_⟩
      cases hspace : isSpace c with
      | true => rw [leadIsDigit_cons_of_isSpace hspace, leadIsDigit_cons_of_isSpace hspace, ih.2]
      | false => rw [leadIsDigit_cons hspace, leadIsDigit_cons hspace]
  | @raise c s t hc _ ih =>
      obtain ⟨hupper, hupperSpace⟩ := not_isDigit_toUpper hc
      obtain ⟨hdigit, hspace⟩ := not_isDigit_of_beginsName (beginsName_of_isAlpha hc)
      refine ⟨?_, ?_⟩
      · rw [List.filter_cons_of_neg (by simp [hupper]), List.filter_cons_of_neg (by simp [hdigit]),
          ih.1]
      · rw [leadIsDigit_cons hupperSpace, leadIsDigit_cons hspace, hupper, hdigit]
  | @join c s t hc _ ih =>
      obtain ⟨hupper, hupperSpace⟩ := not_isDigit_toUpper hc
      have hdigit := (not_isDigit_of_beginsName (beginsName_of_isAlpha hc)).1
      refine ⟨?_, ?_⟩
      · rw [List.filter_cons_of_neg (by simp [hupper]), List.filter_cons_of_neg (by decide),
          List.filter_cons_of_neg (by simp [hdigit]), ih.1]
      · rw [leadIsDigit_cons hupperSpace, leadIsDigit_cons (by decide), hupper]
        decide
  | @drop c s t hc _ ih =>
      refine ⟨?_, ?_⟩
      · rw [List.filter_cons_of_neg (by simp [not_isDigit_of_isSpace hc]), ih.1]
      · rw [leadIsDigit_cons_of_isSpace hc, ih.2]

/-! ### What a type name is made of -/

/-- The characters of a text that its type name is made of: accents are taken off, and of what
follows the white space at the front those characters remain that may stand in a name. The first of
all is lost, though, unless it may begin a name. -/
def material (s : List Char) : List Char :=
  match (unaccented s).dropWhile isSpace with
  | [] => []
  | c :: cs => if beginsName c then c :: cs.filter continuesName else cs.filter continuesName

/-- Once foreign characters are blanked, the first character that may stand in a name leads. -/
lemma find?_map_blankUnlessName (cs : List Char) :
    (cs.map blankUnlessName).find? (! isSpace ·) = cs.find? continuesName := by
  induction cs with
  | nil => rfl
  | cons c cs ih =>
      rw [List.map_cons, blankUnlessName]
      split
      case isTrue hc =>
        rw [List.find?_cons_of_pos (by simp [not_isSpace_of_continuesName hc]),
          List.find?_cons_of_pos hc]
      case isFalse hc => rw [List.find?_cons_of_neg (by decide), List.find?_cons_of_neg hc, ih]

lemma filter_isDigit_map_blankUnlessName (cs : List Char) :
    (cs.map blankUnlessName).filter isDigit = (cs.filter continuesName).filter isDigit := by
  induction cs with
  | nil => rfl
  | cons c cs ih =>
      rw [List.map_cons, blankUnlessName]
      split
      case isTrue hc => rw [List.filter_cons_of_pos hc, List.filter_cons, List.filter_cons, ih]
      case isFalse hc => rw [List.filter_cons_of_neg (by decide), List.filter_cons_of_neg hc, ih]

/-- Blanking foreign characters leaves the digits of the material, with the same character
leading. -/
lemma digits_blankForeign (s : List Char) :
    (blankForeign (unaccented s)).filter isDigit = (material s).filter isDigit ∧
      leadIsDigit (blankForeign (unaccented s)) = (material s).head?.any isDigit := by
  have hblank : isDigit ' ' = false := by decide
  have hspace : isSpace ' ' = true := by decide
  rw [blankForeign, material]
  cases (unaccented s).dropWhile isSpace with
  | nil =>
      dsimp only
      split
      · exact ⟨rfl, rfl⟩
      · exact ⟨by decide, by decide⟩
  | cons c cs =>
      dsimp only
      cases hc : beginsName c with
      | true =>
          have hdigits : (c :: cs.map blankUnlessName).filter isDigit
              = (c :: cs.filter continuesName).filter isDigit := by
            rw [List.filter_cons, List.filter_cons, filter_isDigit_map_blankUnlessName]
          have hlead : leadIsDigit (c :: cs.map blankUnlessName) = isDigit c :=
            leadIsDigit_cons (not_isDigit_of_beginsName hc).2
          simp only [Bool.not_true, Bool.false_eq_true, if_false, if_true]
          split
          · rw [List.filter_cons_of_neg (by simp [hblank]), leadIsDigit_cons_of_isSpace hspace]
            exact ⟨hdigits, hlead⟩
          · exact ⟨hdigits, hlead⟩
      | false =>
          simp only [Bool.not_false, if_true, Bool.false_eq_true, if_false]
          rw [List.filter_cons_of_neg (by simp [hblank]), filter_isDigit_map_blankUnlessName,
            leadIsDigit_cons_of_isSpace hspace, leadIsDigit, find?_map_blankUnlessName,
            List.head?_filter]
          exact ⟨rfl, rfl⟩

/-- Where nothing is white space, the first character leads. -/
lemma leadIsDigit_of_continuesName (h : ∀ c ∈ cs, continuesName c = true) :
    leadIsDigit cs = cs.head?.any isDigit := by
  cases cs with
  | nil => rfl
  | cons c cs =>
      rw [leadIsDigit_cons (not_isSpace_of_continuesName (h c List.mem_cons_self)), List.head?_cons,
        Option.any_some]

/-- From foreign characters blanked to the finished name, every pass respells. -/
lemma respells_typeNameChars (s : List Char) :
    ReflTransGen Respells (blankForeign (unaccented s)) (typeNameChars s) := by
  refine .head (respells_raiseLead _) (.head (respells_joinSnake _) ?_)
  refine .head (respells_raiseAfterDigit false _) (.head (respells_joinWords false _) ?_)
  exact .single (respells_raiseFirst _)

/-- **The digits of a type name are those of its material**, and a digit stands at the front of the
one just if it stands at the front of the other. -/
lemma digits_typeNameChars (s : List Char) :
    (typeNameChars s).filter isDigit = (material s).filter isDigit ∧
      (typeNameChars s).head?.any isDigit = (material s).head?.any isDigit := by
  have hpasses := respells_typeNameChars s
  rw [← leadIsDigit_of_continuesName (settled_typeNameChars s).continues]
  generalize typeNameChars s = name at hpasses
  induction hpasses with
  | refl => exact digits_blankForeign s
  | tail _ hpass ih => exact ⟨hpass.digits.1.trans ih.1, hpass.digits.2.trans ih.2⟩

/-! ### Identifiers -/

/-- A character that names may hold may stand in an identifier, unless it is a digit that is not
basic. -/
lemma isAlphanum_iff_of_continuesName (h : continuesName c = true) :
    (c.isAlphanum || c == '_' || c == '$') = true ↔ (isDigit c = true → c.isDigit = true) := by
  cases hbegins : beginsName c with
  | true =>
      have hidentifier : (c.isAlphanum || c == '_' || c == '$') = true := by
        simp only [beginsName, Bool.or_eq_true] at hbegins
        simp only [Char.isAlphanum, Bool.or_eq_true]
        exact hbegins.imp_left (Or.imp_left .inl)
      simp [hidentifier, (not_isDigit_of_beginsName hbegins).1]
  | false =>
      simp only [isDigit_of_not_beginsName h hbegins, forall_const]
      simp only [beginsName, Bool.or_eq_false_iff] at hbegins
      simp [Char.isAlphanum, hbegins.1.1, hbegins.1.2, hbegins.2]

/-- A text of characters that names may hold is an identifier, or empty, just if no digit stands at
its front and all its digits are basic. -/
lemma isIdentifier_iff_of_continuesName (h : ∀ c ∈ cs, continuesName c = true) :
    (cs = [] ∨ isIdentifier cs = true) ↔
      cs.head?.any isDigit = false ∧ ∀ c ∈ cs.filter isDigit, c.isDigit = true := by
  cases cs with
  | nil => simp
  | cons c cs =>
      obtain ⟨hc, hcs⟩ := List.forall_mem_cons.mp h
      have hrest : (cs.all fun d => d.isAlphanum || d == '_' || d == '$') = true ↔
          ∀ d ∈ cs.filter isDigit, d.isDigit = true := by
        simp only [List.all_eq_true, List.mem_filter, and_imp]
        exact forall₂_congr fun d hd => isAlphanum_iff_of_continuesName (hcs d hd)
      have hbegins : beginsName c = true ↔ isDigit c = false := by
        refine ⟨fun hbegins => (not_isDigit_of_beginsName hbegins).1, fun hdigit => ?_⟩
        simpa [continuesName, hdigit] using hc
      have hsplit : isIdentifier (c :: cs) = true ↔
          isDigit c = false ∧ ∀ d ∈ cs.filter isDigit, d.isDigit = true := by
        rw [isIdentifier, ← beginsName, Bool.and_eq_true, hbegins, hrest]
      rw [or_iff_right (List.cons_ne_nil c cs), hsplit, List.head?_cons, Option.any_some]
      refine and_congr_right fun hdigit => ?_
      rw [List.filter_cons_of_neg (by simp [hdigit])]

/-- **A type name is an identifier, or empty, just if its material does not begin with a digit and
has none but the basic digits.** Whatever it is made of, a type name consists of basic letters, `_`,
`$` and decimal digits, but these may be of any script, and one of them may stand at the front. -/
theorem typeName_isIdentifier_iff (s : String) :
    (∀ c ∈ (typeName s).toList, beginsName c = true ∨ isDigit c = true) ∧
    ((typeName s = "" ∨ isIdentifier (typeName s).toList = true) ↔
      (material s.toList).head?.any isDigit = false ∧
      ∀ c ∈ material s.toList, isDigit c = true → c.isDigit = true) := by
  have hcontinues := (settled_typeNameChars s.toList).continues
  obtain ⟨hdigits, hlead⟩ := digits_typeNameChars s.toList
  have hempty : typeName s = "" ↔ typeNameChars s.toList = [] := by
    rw [typeName, ← String.toList_eq_nil_iff, String.toList_ofList]
  rw [hempty, typeName, String.toList_ofList, isIdentifier_iff_of_continuesName hcontinues, hdigits,
    hlead]
  refine ⟨fun c hc => by simpa [continuesName] using hcontinues c hc, and_congr_right fun _ => ?_⟩
  simp only [List.mem_filter, and_imp]

/-- The digit at the front of this text is lost, and the other one does not come to the front. -/
theorem typeName_isIdentifier_iff_crowded :
    typeName "1 größe_der 2te" = "GrosseDer2Te" ∧
    (beginsName '2' = true ∨ isDigit '2' = true) ∧
    material "1 größe_der 2te".toList = "grosse_der2te".toList ∧
    isIdentifier (typeName "1 größe_der 2te").toList = true := by
  have hname : typeName "1 größe_der 2te" = "GrosseDer2Te" := by decide +kernel
  have hmaterial : material "1 größe_der 2te".toList = "grosse_der2te".toList := by decide +kernel
  obtain ⟨hchars, hiff⟩ := typeName_isIdentifier_iff "1 größe_der 2te"
  have hbasic : ("grosse_der2te".toList.filter isDigit).all Char.isDigit = true := by decide
  rw [hmaterial] at hiff
  refine ⟨hname, hchars '2' (by rw [hname]; decide), hmaterial, ?_⟩
  refine (hiff.mpr ⟨by decide, fun c hc hdigit => ?_⟩).resolve_left (by rw [hname]; decide)
  exact List.all_eq_true.mp hbasic c (List.mem_filter.mpr ⟨hc, hdigit⟩)

/-- Only one digit is lost at the front of a text, and digits of other scripts are not lost at all:
the type names are no identifiers. -/
theorem typeName_keeps_digits :
    typeName "12abc" = "2Abc" ∧
    ¬ (typeName "12abc" = "" ∨ isIdentifier (typeName "12abc").toList = true) ∧
    typeName "a\u0663" = "A\u0663" ∧
    ¬ (typeName "a\u0663" = "" ∨ isIdentifier (typeName "a\u0663").toList = true) := by
  decide +kernel

/-! ### Type names of type names -/

lemma undigited_eq_iff {name : String} : undigited name = name ↔ leadsWithDigit name = false := by
  refine ⟨fun heq => ?_, undigited_of_not_leads⟩
  have hchars : withoutLeadDigit name.toList = name.toList :=
    String.toList_ofList.symm.trans (congrArg String.toList heq)
  rw [leadsWithDigit]
  cases hname : name.toList with
  | nil => rfl
  | cons c cs =>
      rw [List.head?_cons, Option.any_some]
      refine Bool.eq_false_iff.mpr fun hdigit => ?_
      rw [hname, withoutLeadDigit, if_pos hdigit] at hchars
      exact List.cons_ne_self c cs hchars.symm

/-- **A type name is its own type name just if it does not begin with a digit.** -/
theorem typeName_typeName_eq_iff (s : String) :
    typeName (typeName s) = typeName s ↔ leadsWithDigit (typeName s) = false := by
  have hsettled : Settled (typeName s).toList := by
    rw [typeName, String.toList_ofList]
    exact settled_typeNameChars s.toList
  rw [typeName_of_settled hsettled, undigited_eq_iff]

end SchemaDecl.Text
