/-
Type names, and type names of type names.

A type name is made of letters, digits, `_` and `$`, and a lower case letter in it stands after
another letter. Making a type name of such a text leaves it as it is, unless there is a digit at its
front: then that digit goes.

* `Text.Settled`: the form of type names.
* `Text.settled_typeNameChars`: type names are of this form, whatever they are made of.
* `Text.typeNameChars_of_settled`: what becomes of a text of this form.
-/
import Mathlib
import SchemaDecl.Text.TypeName

namespace SchemaDecl.Text

/-! ### Ranges -/

/-- The code point lies in one of the ranges. -/
def meets (ranges : List (Nat × Nat)) (n : Nat) : Bool :=
  ranges.any fun range => range.1 ≤ n && n ≤ range.2

/-- No range of one list meets a range of the other. -/
def apart (ranges others : List (Nat × Nat)) : Bool :=
  ranges.all fun r => others.all fun o => Nat.blt r.2 o.1 || Nat.blt o.2 r.1

lemma meets_eq_false_of_apart {ranges others : List (Nat × Nat)} (h : apart ranges others = true)
    {n : Nat} (hn : meets ranges n = true) : meets others n = false := by
  rw [meets, List.any_eq_true] at hn
  obtain ⟨r, hr, hrn⟩ := hn
  rw [apart, List.all_eq_true] at h
  have hall := List.all_eq_true.mp (h r hr)
  refine List.any_eq_false.mpr fun o ho hon => ?_
  have happ := hall o ho
  simp only [Bool.and_eq_true, Bool.or_eq_true, decide_eq_true_eq, Nat.blt_eq] at hrn hon happ
  omega

/-! ### Kinds of characters -/

lemma isUpper_iff {c : Char} : c.isUpper = true ↔ 65 ≤ c.toNat ∧ c.toNat ≤ 90 := by
  simp [Char.isUpper, UInt32.le_iff_toNat_le, ← Char.toNat_val]

lemma isLower_iff {c : Char} : c.isLower = true ↔ 97 ≤ c.toNat ∧ c.toNat ≤ 122 := by
  simp [Char.isLower, UInt32.le_iff_toNat_le, ← Char.toNat_val]

lemma isAlpha_of_isLower {c : Char} (h : c.isLower = true) : c.isAlpha = true := by
  simp [Char.isAlpha, h]

/-- What may begin a name is a letter, `_` or `$`, and so an ASCII character. -/
lemma toNat_lt_of_beginsName {c : Char} (h : beginsName c = true) : c.toNat < 0xC0 := by
  simp only [beginsName, Bool.or_eq_true, beq_iff_eq, Char.isAlpha] at h
  rcases h with ((hupper | hlower) | rfl) | rfl
  · have := isUpper_iff.mp hupper
    omega
  · have := isLower_iff.mp hlower
    omega
  · decide
  · decide

lemma continuesName_of_beginsName {c : Char} (h : beginsName c = true) :
    continuesName c = true := by
  simp [continuesName, h]

lemma beginsName_of_isAlpha {c : Char} (h : c.isAlpha = true) : beginsName c = true := by
  simp [beginsName, h]

lemma isDigit_of_not_beginsName {c : Char} (h : continuesName c = true)
    (hbegins : beginsName c = false) : isDigit c = true := by
  simpa [continuesName, hbegins] using h

/-- No letter, `_` or `$` is a digit or white space. -/
lemma not_isDigit_of_beginsName {c : Char} (h : beginsName c = true) :
    isDigit c = false ∧ isSpace c = false := by
  have hmeets : meets [(0x24, 0x24), (0x41, 0x5A), (0x5F, 0x5F), (0x61, 0x7A)] c.toNat = true := by
    simp only [beginsName, Bool.or_eq_true, beq_iff_eq, Char.isAlpha] at h
    rcases h with ((hupper | hlower) | rfl) | rfl
    · simp [meets, isUpper_iff.mp hupper]
    · simp [meets, isLower_iff.mp hlower]
    · decide
    · decide
  exact ⟨meets_eq_false_of_apart (by decide) hmeets, meets_eq_false_of_apart (by decide) hmeets⟩

lemma not_isSpace_of_continuesName {c : Char} (h : continuesName c = true) : isSpace c = false := by
  cases hbegins : beginsName c with
  | true => exact (not_isDigit_of_beginsName hbegins).2
  | false =>
      have hdigit := isDigit_of_not_beginsName h hbegins
      exact meets_eq_false_of_apart (by decide +kernel) hdigit

lemma not_isAlpha_of_isDigit {c : Char} (h : isDigit c = true) : c.isAlpha = false := by
  refine Bool.eq_false_iff.mpr fun halpha => ?_
  simp [(not_isDigit_of_beginsName (beginsName_of_isAlpha halpha)).1] at h

/-- Where nothing that begins a word stands in front, only a letter does. -/
lemma isAlpha_of_continuesName {c : Char} (h : continuesName c = true) (hdigit : isDigit c = false)
    (hdollar : c ≠ '$') (hline : c ≠ '_') : c.isAlpha = true := by
  simpa [continuesName, beginsName, hdigit, hdollar, hline] using h

/-! ### Characters of names carry no accents -/

/-- Where the letters with accents and the compatibility ideographs are found. -/
def letterRanges : List (Nat × Nat) :=
  [(0xF900, 0xFB4E), (0x2F800, 0x2FA1D), (0x1E00, 0x30FE), (0xC0, 0x626), (0x6C0, 0x6D3),
   (0x929, 0x95F), (0x9DC, 0x9DF), (0xA33, 0xA5E), (0xB5C, 0xB5D), (0xB94, 0xB94),
   (0xF43, 0x1026), (0x1B06, 0x1B12), (0x105C9, 0x105E4), (0x1109A, 0x110AB),
   (0x11383, 0x11391), (0x1D15E, 0x1D1C0)]

lemma meets_letterRanges :
    (accented.all fun family => family.2.all (meets letterRanges)) = true ∧
    (unified.all fun pair => meets letterRanges pair.1) = true := by
  decide +kernel

lemma base_of_isDigit {c : Char} (h : isDigit c = true) : base c = [c] := by
  have hmeets : meets digitRanges c.toNat = true := h
  have hletter : meets letterRanges c.toNat = false :=
    meets_eq_false_of_apart (by decide +kernel) hmeets
  have hhangul : meets [(0xAC00, 0xD7A3), (0x16D68, 0x16D6A)] c.toNat = false :=
    meets_eq_false_of_apart (by decide) hmeets
  have hfamily : accented.find? (fun family => family.2.contains c.toNat) = none := by
    rw [List.find?_eq_none]
    intro family hfamily hcontains
    have hall := List.all_eq_true.mp (List.all_eq_true.mp meets_letterRanges.1 family hfamily)
      c.toNat (List.contains_iff_mem.mp hcontains)
    simp [hletter] at hall
  have hunified : unified.lookup c.toNat = none := by
    rw [List.lookup_eq_none_iff]
    intro pair hpair
    have hall := List.all_eq_true.mp meets_letterRanges.2 pair hpair
    rw [bne_iff_ne]
    rintro heq
    simp [← heq, hletter] at hall
  simp only [meets, List.any_cons, List.any_nil, Bool.or_false, Bool.or_eq_false_iff,
    Bool.and_eq_false_iff, decide_eq_false_iff_not] at hhangul
  unfold base
  dsimp only
  rw [if_neg (show ¬(0xAC00 ≤ c.toNat ∧ c.toNat ≤ 0xD7A3) by omega),
    if_neg (show ¬c.toNat = 0x16D68 by omega), if_neg (show ¬c.toNat = 0x16D69 by omega),
    if_neg (show ¬c.toNat = 0x16D6A by omega), hfamily, hunified]
  exact ite_self _

lemma base_of_continuesName {c : Char} (h : continuesName c = true) : base c = [c] := by
  cases hbegins : beginsName c with
  | true =>
      rw [base]
      exact if_pos (toNat_lt_of_beginsName hbegins)
  | false => exact base_of_isDigit (isDigit_of_not_beginsName h hbegins)

lemma not_isMark_of_continuesName {c : Char} (h : continuesName c = true) : isMark c = false := by
  cases hbegins : beginsName c with
  | true =>
      have hlt := toNat_lt_of_beginsName hbegins
      have hmeets : meets [(0, 0xBF)] c.toNat = true := by
        simpa [meets] using Nat.le_of_lt_succ hlt
      exact meets_eq_false_of_apart (by decide +kernel) hmeets
  | false =>
      exact meets_eq_false_of_apart (by decide +kernel) (isDigit_of_not_beginsName h hbegins)

lemma foldLetter_of_continuesName {c : Char} (h : continuesName c = true) : foldLetter c = [c] := by
  unfold foldLetter
  split
  case h_17 => rfl
  -- none of the letters that are spelt otherwise may stand in a name
  all_goals exact absurd h (by decide)

lemma unaccented_of_continuesName {cs : List Char} (h : ∀ c ∈ cs, continuesName c = true) :
    unaccented cs = cs := by
  have hfilter : cs.filter (!isMark ·) = cs :=
    List.filter_eq_self.mpr fun c hc => by simp [not_isMark_of_continuesName (h c hc)]
  rw [unaccented, hfilter]
  clear hfilter
  induction cs with
  | nil => rfl
  | cons c cs ih =>
      obtain ⟨hc, hcs⟩ := List.forall_mem_cons.mp h
      rw [List.flatMap_cons, base_of_continuesName hc, List.singleton_append, List.flatMap_cons,
        foldLetter_of_continuesName hc, List.singleton_append, ih hcs]

/-! ### The form of type names -/

/-- A lower case letter stands after a letter only. -/
def Follows (a b : Char) : Prop := b.isLower = true → a.isAlpha = true

/-- The text has the form of a type name: its characters go on with names, and a lower case letter
stands after a letter. -/
structure Settled (cs : List Char) : Prop where
  continues : ∀ c ∈ cs, continuesName c = true
  chain : cs.IsChain Follows
  head : ∀ c ∈ cs.head?, c.isLower = false

/-- The character may stand in a name, or it is a blank. -/
def nameOrBlank (c : Char) : Bool := continuesName c || c == ' '

/-- Between names and blanks, a lower case letter stands after a letter or a blank. -/
def FollowsBlank (a b : Char) : Prop := b.isLower = true → a.isAlpha = true ∨ a = ' '

/-- A lower case letter does not stand after `_`. -/
def FollowsLine (a b : Char) : Prop := b.isLower = true → a ≠ '_'

lemma nameOrBlank_of_isAlpha {c : Char} (h : c.isAlpha = true) : nameOrBlank c = true := by
  simp [nameOrBlank, continuesName, beginsName, h]

lemma nameOrBlank_toUpper {c : Char} (h : c.isAlpha = true) : nameOrBlank c.toUpper = true :=
  nameOrBlank_of_isAlpha (c.isAlpha_toUpper_eq_isAlpha.trans h)

lemma nameOrBlank_blankUnlessName (c : Char) : nameOrBlank (blankUnlessName c) = true := by
  rw [blankUnlessName]
  split
  case isTrue h => simp [nameOrBlank, h]
  case isFalse => decide

lemma nameOrBlank_blankForeign (s : List Char) : ∀ c ∈ blankForeign s, nameOrBlank c = true := by
  have hrest (cs : List Char) : ∀ c ∈ cs.map blankUnlessName, nameOrBlank c = true := by
    intro c hc
    obtain ⟨b, -, rfl⟩ := List.mem_map.mp hc
    exact nameOrBlank_blankUnlessName b
  have hblank : nameOrBlank ' ' = true := by decide
  rw [blankForeign]
  split
  · split
    · simp
    · simpa using hblank
  case h_2 c cs _ =>
    by_cases hbegins : beginsName c = true
    · have hc : nameOrBlank c = true := by
        simp [nameOrBlank, continuesName_of_beginsName hbegins]
      rw [if_neg (by simp [hbegins])]
      split
      · exact List.forall_mem_cons.mpr ⟨hblank, List.forall_mem_cons.mpr ⟨hc, hrest cs⟩⟩
      · exact List.forall_mem_cons.mpr ⟨hc, hrest cs⟩
    · rw [if_pos (by simp [hbegins])]
      exact List.forall_mem_cons.mpr ⟨hblank, hrest cs⟩

lemma nameOrBlank_raiseLead {s : List Char} (h : ∀ c ∈ s, nameOrBlank c = true) :
    ∀ c ∈ raiseLead s, nameOrBlank c = true := by
  fun_cases raiseLead s with
  | case1 c cs hlower =>
      obtain ⟨hline, hrest⟩ := List.forall_mem_cons.mp h
      refine List.forall_mem_cons.mpr ⟨hline, List.forall_mem_cons.mpr ⟨?_, ?_⟩⟩
      · exact nameOrBlank_toUpper (isAlpha_of_isLower hlower)
      · exact (List.forall_mem_cons.mp hrest).2
  | case2 => exact h
  | case3 => exact h

/-- Joined at underscores, a lower case letter never stands after an underscore. The first character
stays, unless it is raised. -/
lemma joinSnake_spec {s : List Char} (h : ∀ c ∈ s, nameOrBlank c = true) :
    (∀ c ∈ joinSnake s, nameOrBlank c = true) ∧ (joinSnake s).IsChain FollowsLine ∧
      ∀ b ∈ (joinSnake s).head?, b.isLower = true → s.head? = some b := by
  fun_induction joinSnake s with
  | case1 => simp
  | case2 c => exact ⟨h, .singleton c, by simp⟩
  | case3 c d cs hjoin ih =>
      simp only [Bool.and_eq_true, beq_iff_eq] at hjoin
      have halpha := isAlpha_of_isLower hjoin.2
      obtain ⟨hname, hchain, -⟩ := ih fun x hx => h x (by simp [hx])
      refine ⟨List.forall_mem_cons.mpr ⟨nameOrBlank_toUpper halpha, hname⟩,
        List.isChain_cons.mpr ⟨fun b _ _ heq => ?_, hchain⟩, ?_⟩
      · have hline := (d.isAlpha_toUpper_eq_isAlpha).trans halpha
        rw [heq] at hline
        exact absurd hline (by decide)
      · simp
  | case4 c d cs hjoin ih =>
      obtain ⟨hc, hrest⟩ := List.forall_mem_cons.mp h
      obtain ⟨hname, hchain, hhead⟩ := ih hrest
      refine ⟨List.forall_mem_cons.mpr ⟨hc, hname⟩,
        List.isChain_cons.mpr ⟨fun b hb hlower hline => hjoin ?_, hchain⟩, by simp⟩
      have hd := hhead b hb hlower
      simp only [List.head?_cons, Option.some.injEq] at hd
      simp [hline, hd, hlower]

/-- After digits are passed, a lower case letter stands after a letter or a blank. -/
lemma raiseAfterDigit_spec {s : List Char} (h : ∀ c ∈ s, nameOrBlank c = true)
    (hchain : s.IsChain FollowsLine) (after : Bool) :
    (∀ c ∈ raiseAfterDigit after s, nameOrBlank c = true) ∧
      (raiseAfterDigit after s).IsChain FollowsBlank ∧
      ∀ b ∈ (raiseAfterDigit after s).head?, b.isLower = true →
        after = false ∧ s.head? = some b := by
  induction s generalizing after with
  | nil => simp [raiseAfterDigit]
  | cons c cs ih =>
      obtain ⟨hc, hcs⟩ := List.forall_mem_cons.mp h
      obtain ⟨hfollows, hchain'⟩ := List.isChain_cons.mp hchain
      obtain ⟨hname, hblank, hhead⟩ := ih hcs hchain' (isDigit c || c == '$')
      rw [raiseAfterDigit]
      refine ⟨List.forall_mem_cons.mpr ⟨?_, hname⟩,
        List.isChain_cons.mpr ⟨fun b hb hlower => ?_, hblank⟩, ?_⟩
      · split
        case isTrue hraise => exact nameOrBlank_toUpper (Bool.and_eq_true_iff.mp hraise).2
        case isFalse => exact hc
      · -- `b` has not been raised, so that `c` is no digit and no `$`; it is no `_` either
        obtain ⟨hafter, hb'⟩ := hhead b hb hlower
        obtain ⟨hdigit, hdollar⟩ := Bool.or_eq_false_iff.mp hafter
        have hline := hfollows b hb' hlower
        rcases Bool.or_eq_true_iff.mp hc with hcontinues | hspace
        · have halpha := isAlpha_of_continuesName hcontinues hdigit (by simpa using hdollar) hline
          left
          split
          · exact c.isAlpha_toUpper_eq_isAlpha.trans halpha
          · exact halpha
        · right
          obtain rfl := beq_iff_eq.mp hspace
          exact if_neg (by simp [show Char.isAlpha ' ' = false by decide])
      · intro b hb hlower
        rw [List.head?_cons, Option.mem_some_iff] at hb
        subst hb
        split at hlower
        · rw [Char.isLower_toUpper_eq_false] at hlower
          cases hlower
        case isFalse hraise =>
          rw [if_neg hraise]
          simpa [isAlpha_of_isLower hlower] using hraise

/-- Without blanks, a lower case letter stands after a letter. -/
lemma joinWords_spec {s : List Char} (h : ∀ c ∈ s, nameOrBlank c = true)
    (hchain : s.IsChain FollowsBlank) (after : Bool) :
    (∀ c ∈ joinWords after s, continuesName c = true) ∧ (joinWords after s).IsChain Follows ∧
      ∀ b ∈ (joinWords after s).head?, b.isLower = true → after = false ∧ s.head? = some b := by
  induction s generalizing after with
  | nil => simp [joinWords]
  | cons c cs ih =>
      obtain ⟨hc, hcs⟩ := List.forall_mem_cons.mp h
      obtain ⟨hfollows, hchain'⟩ := List.isChain_cons.mp hchain
      rw [joinWords]
      by_cases hspace : isSpace c = true
      · rw [if_pos hspace]
        obtain ⟨hname, hjoined, hhead⟩ := ih hcs hchain' true
        exact ⟨hname, hjoined, fun b hb hlower => by simpa using (hhead b hb hlower).1⟩
      · obtain ⟨hname, hjoined, hhead⟩ := ih hcs hchain' false
        have hblank : c ≠ ' ' := fun heq => hspace (by rw [heq]; decide)
        have hcontinues : continuesName c = true := by simpa [nameOrBlank, hblank] using hc
        rw [if_neg hspace]
        refine ⟨List.forall_mem_cons.mpr ⟨?_, hname⟩,
          List.isChain_cons.mpr ⟨fun b hb hlower => ?_, hjoined⟩, ?_⟩
        · split
          case isTrue hraise =>
            exact continuesName_of_beginsName
              (beginsName_of_isAlpha (c.isAlpha_toUpper_eq_isAlpha.trans
                (Bool.and_eq_true_iff.mp hraise).2))
          case isFalse => exact hcontinues
        · have halpha := (hfollows b (hhead b hb hlower).2 hlower).resolve_right hblank
          split
          · exact c.isAlpha_toUpper_eq_isAlpha.trans halpha
          · exact halpha
        · intro b hb hlower
          rw [List.head?_cons, Option.mem_some_iff] at hb
          subst hb
          split at hlower
          · rw [Char.isLower_toUpper_eq_false] at hlower
            cases hlower
          case isFalse hraise =>
            rw [if_neg hraise]
            simpa [isAlpha_of_isLower hlower] using hraise

lemma settled_raiseFirst {cs : List Char} (h : ∀ c ∈ cs, continuesName c = true)
    (hchain : cs.IsChain Follows) : Settled (raiseFirst cs) := by
  cases cs with
  | nil => exact ⟨h, hchain, by simp [raiseFirst]⟩
  | cons c cs =>
      obtain ⟨hc, hcs⟩ := List.forall_mem_cons.mp h
      obtain ⟨hfollows, hchain⟩ := List.isChain_cons.mp hchain
      refine ⟨List.forall_mem_cons.mpr ⟨?_, hcs⟩, List.isChain_cons.mpr
        ⟨fun b hb hlower => c.isAlpha_toUpper_eq_isAlpha.trans (hfollows b hb hlower), hchain⟩, ?_⟩
      · by_cases hlower : c.isLower = true
        · exact continuesName_of_beginsName
            (beginsName_of_isAlpha (c.isAlpha_toUpper_eq_isAlpha.trans (isAlpha_of_isLower hlower)))
        · rwa [Char.toUpper_eq_of_not_isLower hlower]
      · simp [raiseFirst]

/-- **Type names are settled**, whatever they are made of. -/
theorem settled_typeNameChars (s : List Char) : Settled (typeNameChars s) := by
  have hlead := nameOrBlank_raiseLead (nameOrBlank_blankForeign (unaccented s))
  obtain ⟨hsnake, hchain, -⟩ := joinSnake_spec hlead
  obtain ⟨hdigit, hchain, -⟩ := raiseAfterDigit_spec hsnake hchain false
  obtain ⟨hwords, hchain, -⟩ := joinWords_spec hdigit hchain false
  exact settled_raiseFirst hwords hchain

/-- A counter at the end leaves a text settled. -/
lemma Settled.append_counter {cs : List Char} (h : Settled cs) (k : Nat) :
    Settled (cs ++ (toString k).toList) := by
  have hdigits : ∀ c ∈ (toString k).toList, isDigit c = true ∧ c.isLower = false := by
    intro c hc
    rw [Nat.toString_eq_repr, Nat.toList_repr] at hc
    have hdecimal := Nat.isDigit_of_mem_toDigits (by decide) (by decide) hc
    have hbounds : 48 ≤ c.toNat ∧ c.toNat ≤ 57 := Char.isDigit_iff_toNat.mp hdecimal
    refine ⟨List.any_eq_true.mpr ⟨(0x30, 0x39), List.mem_cons_self, by simpa using hbounds⟩,
      Bool.eq_false_iff.mpr fun hlower => ?_⟩
    have := isLower_iff.mp hlower
    omega
  generalize (toString k).toList = digits at hdigits
  refine ⟨fun c hc => ?_, ?_, fun c hc => ?_⟩
  · rcases List.mem_append.mp hc with hc | hc
    · exact h.continues c hc
    · simp [continuesName, (hdigits c hc).1]
  · refine List.isChain_append.mpr ⟨h.chain, ?_, fun a _ b hb hlower => ?_⟩
    · refine List.Pairwise.isChain (List.pairwise_of_forall_mem_list fun a _ b hb hlower => ?_)
      simp [(hdigits b hb).2] at hlower
    · simp [(hdigits b (List.mem_of_mem_head? hb)).2] at hlower
  · rw [List.head?_append] at hc
    cases hhead : cs.head? with
    | some a => exact h.head c (by rw [hhead] at hc ⊢; exact hc)
    | none =>
        rw [hhead] at hc
        exact (hdigits c (List.mem_of_mem_head? hc)).2

/-! ### Type names of settled texts -/

lemma blankForeign_of_continuesName {c : Char} {cs : List Char}
    (h : ∀ b ∈ c :: cs, continuesName b = true) :
    blankForeign (c :: cs) = (if beginsName c then c else ' ') :: cs := by
  obtain ⟨hc, hcs⟩ := List.forall_mem_cons.mp h
  have hspace := not_isSpace_of_continuesName hc
  have hrest : cs.map blankUnlessName = cs :=
    (List.map_congr_left fun b hb => if_pos (hcs b hb)).trans (List.map_id' cs)
  rw [blankForeign, List.dropWhile_cons_of_neg (by simp [hspace])]
  dsimp only
  rw [hrest]
  by_cases hbegins : beginsName c = true
  · simp [hbegins, hspace]
  · simp [hbegins]

lemma joinSnake_of_chain {cs : List Char} (h : cs.IsChain FollowsLine) : joinSnake cs = cs := by
  fun_induction joinSnake cs with
  | case1 => rfl
  | case2 => rfl
  | case3 c d cs hjoin ih =>
      simp only [Bool.and_eq_true, beq_iff_eq] at hjoin
      exact absurd hjoin.1 ((List.isChain_cons.mp h).1 d (by simp) hjoin.2)
  | case4 c d cs hjoin ih => rw [ih (List.isChain_cons.mp h).2]

lemma raiseAfterDigit_of_chain {cs : List Char} (h : cs.IsChain Follows) {after : Bool}
    (hhead : after = true → ∀ c ∈ cs.head?, c.isLower = false) : raiseAfterDigit after cs = cs := by
  induction cs generalizing after with
  | nil => rfl
  | cons c cs ih =>
      obtain ⟨hfollows, hchain⟩ := List.isChain_cons.mp h
      have hc : (if after && c.isAlpha then c.toUpper else c) = c := by
        split
        case isTrue hraise =>
          have hlower := hhead (Bool.and_eq_true_iff.mp hraise).1 c (by simp)
          exact Char.toUpper_eq_of_not_isLower (Bool.eq_false_iff.mp hlower)
        case isFalse => rfl
      rw [raiseAfterDigit, hc, ih hchain]
      -- a lower case letter after `c` would make `c` a letter
      intro hafter b hb
      refine Bool.eq_false_iff.mpr fun hlower => ?_
      have halpha := hfollows b hb hlower
      rcases Bool.or_eq_true_iff.mp hafter with hdigit | hdollar
      · rw [not_isAlpha_of_isDigit hdigit] at halpha
        cases halpha
      · rw [beq_iff_eq.mp hdollar] at halpha
        exact absurd halpha (by decide)

lemma joinWords_of_continuesName {cs : List Char} (h : ∀ c ∈ cs, continuesName c = true)
    {after : Bool} (hhead : after = true → ∀ c ∈ cs.head?, c.isLower = false) :
    joinWords after cs = cs := by
  induction cs generalizing after with
  | nil => rfl
  | cons c cs ih =>
      obtain ⟨hc, hcs⟩ := List.forall_mem_cons.mp h
      have hraise : (if after && c.isAlpha then c.toUpper else c) = c := by
        split
        case isTrue hraise =>
          have hlower := hhead (Bool.and_eq_true_iff.mp hraise).1 c (by simp)
          exact Char.toUpper_eq_of_not_isLower (Bool.eq_false_iff.mp hlower)
        case isFalse => rfl
      rw [joinWords, if_neg (by simp [not_isSpace_of_continuesName hc]), hraise,
        ih hcs (by simp)]

lemma raiseFirst_of_head {cs : List Char} (h : ∀ c ∈ cs.head?, c.isLower = false) :
    raiseFirst cs = cs := by
  cases cs with
  | nil => rfl
  | cons c cs =>
    rw [raiseFirst, Char.toUpper_eq_of_not_isLower (Bool.eq_false_iff.mp (h c (by simp)))]

/-- The characters without a digit at their front. -/
def withoutLeadDigit : List Char → List Char
  | [] => []
  | c :: cs => if isDigit c then cs else c :: cs

/-- The text without a digit at its front. -/
def undigited (name : String) : String := String.ofList (withoutLeadDigit name.toList)

/-- The text begins with a digit. -/
def leadsWithDigit (name : String) : Bool := name.toList.head?.any isDigit

lemma undigited_of_not_leads {name : String} (h : leadsWithDigit name = false) :
    undigited name = name := by
  have hchars : withoutLeadDigit name.toList = name.toList := by
    rw [leadsWithDigit] at h
    cases hname : name.toList with
    | nil => rfl
    | cons c cs =>
        rw [hname] at h
        exact if_neg (Bool.eq_false_iff.mp h)
  rw [undigited, hchars, String.ofList_toList]

/-- In a settled text no lower case letter stands after `_`. -/
lemma Settled.followsLine {cs : List Char} (h : Settled cs) : cs.IsChain FollowsLine := by
  refine h.chain.imp fun a b hab hlower hline => ?_
  have halpha := hab hlower
  rw [hline] at halpha
  exact absurd halpha (by decide)

lemma Settled.raiseLead {cs : List Char} (h : Settled cs) : Text.raiseLead cs = cs := by
  fun_cases Text.raiseLead cs with
  | case1 c rest hlower =>
      exact absurd rfl ((List.isChain_cons.mp h.followsLine).1 c (by simp) hlower)
  | case2 => rfl
  | case3 => rfl

/-- **The type name of a settled text** is the text itself, without a digit at its front. -/
theorem typeNameChars_of_settled {cs : List Char} (h : Settled cs) :
    typeNameChars cs = withoutLeadDigit cs := by
  cases cs with
  | nil => rfl
  | cons c cs =>
      obtain ⟨hfollows, hchain⟩ := List.isChain_cons.mp h.chain
      obtain ⟨hc, hcs⟩ := List.forall_mem_cons.mp h.continues
      rw [typeNameChars, unaccented_of_continuesName h.continues,
        blankForeign_of_continuesName h.continues, withoutLeadDigit]
      cases hbegins : beginsName c with
      | true =>
          rw [(not_isDigit_of_beginsName hbegins).1, if_pos rfl, if_neg (by simp), h.raiseLead,
            joinSnake_of_chain h.followsLine, raiseAfterDigit_of_chain h.chain (by simp),
            joinWords_of_continuesName h.continues (by simp), raiseFirst_of_head h.head]
      | false =>
          -- the digit has become a blank, and what follows it is not a lower case letter
          have hdigit := isDigit_of_not_beginsName hc hbegins
          have hhead : ∀ b ∈ cs.head?, b.isLower = false := fun b hb =>
            Bool.eq_false_iff.mpr fun hlower => by
              simpa [not_isAlpha_of_isDigit hdigit] using hfollows b hb hlower
          have hline : (' ' :: cs).IsChain FollowsLine :=
            List.isChain_cons.mpr ⟨fun _ _ _ => by decide, (List.isChain_cons.mp h.followsLine).2⟩
          have hblank : joinWords false (raiseAfterDigit false (' ' :: cs)) = cs := by
            have hflag : (isDigit ' ' || ' ' == '$') = false := by decide
            rw [raiseAfterDigit, hflag, raiseAfterDigit_of_chain hchain (by simp), joinWords,
              if_pos (by decide), joinWords_of_continuesName hcs fun _ => hhead]
          rw [hdigit, if_neg (by simp), if_pos rfl, show raiseLead (' ' :: cs) = ' ' :: cs from rfl,
            joinSnake_of_chain hline, hblank, raiseFirst_of_head hhead]

lemma typeName_of_settled {name : String} (h : Settled name.toList) :
    typeName name = undigited name := by
  rw [typeName, typeNameChars_of_settled h, undigited]

end SchemaDecl.Text
