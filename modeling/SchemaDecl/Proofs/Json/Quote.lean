/-
Strings in quotes are read back.

* `Reader.exists_escape`: a character that is escaped is read back from its escape.
* `Reader.stringBytes_quoted`: the bytes between quotes are read back, run by run of characters that
  stand for themselves.
* `Reader.value_quote`: **a string in quotes is read as that string**, and nothing after it is
  touched.
-/
import Mathlib.Data.List.TakeWhile
import SchemaDecl.Json.Reader
import SchemaDecl.Json.Text
import SchemaDecl.Proofs.Text.Utf8

namespace SchemaDecl.Json

open Text

variable {c : Char} {cs : List Char}

/-! ### Characters in quotes -/

/-- A character that stands for itself in quotes. -/
def isVerbatim (c : Char) : Bool := 32 ≤ c.toNat && c != '"' && c != '\\'

lemma isVerbatim_iff : isVerbatim c = true ↔ 32 ≤ c.toNat ∧ c ≠ '"' ∧ c ≠ '\\' := by
  simp [isVerbatim, and_assoc]

lemma quoteChar_of_isVerbatim (h : isVerbatim c = true) : quoteChar c = [c] := by
  obtain ⟨hlarge, hquote, hslash⟩ := isVerbatim_iff.mp h
  have hne {d : Char} (hd : d.toNat < 32) : c ≠ d := by
    rintro rfl
    omega
  have hnot8 : c.toNat ≠ 8 := by omega
  have hnot12 : c.toNat ≠ 12 := by omega
  simp [quoteChar, hquote, hslash, hne (d := '\n') (by decide), hne (d := '\r') (by decide),
    hne (d := '\t') (by decide), hnot8, hnot12, Nat.not_lt.mpr hlarge]

/-- The bytes of characters, each as it stands in quotes. -/
def quotedBytes (cs : List Char) : List UInt8 :=
  (cs.flatMap quoteChar).flatMap String.utf8EncodeChar

lemma quotedBytes_append (cs cs' : List Char) :
    quotedBytes (cs ++ cs') = quotedBytes cs ++ quotedBytes cs' := by
  rw [quotedBytes, List.flatMap_append, List.flatMap_append, quotedBytes, quotedBytes]

lemma quotedBytes_cons (c : Char) (cs : List Char) :
    quotedBytes (c :: cs) = (quoteChar c).flatMap String.utf8EncodeChar ++ quotedBytes cs := by
  rw [quotedBytes, List.flatMap_cons, List.flatMap_append, quotedBytes]

lemma quotedBytes_of_isVerbatim (h : ∀ c ∈ cs, isVerbatim c = true) :
    quotedBytes cs = cs.flatMap String.utf8EncodeChar := by
  induction cs with
  | nil => rfl
  | cons c cs ih =>
      obtain ⟨hc, hcs⟩ := List.forall_mem_cons.mp h
      rw [quotedBytes_cons, quoteChar_of_isVerbatim hc, List.flatMap_singleton, ih hcs,
        List.flatMap_cons]

lemma utf8_quote (s : String) : utf8 (quote s) = 34 :: quotedBytes s.toList ++ [34] := by
  rw [utf8_eq_flatMap, quote, String.toList_ofList, quoteChars, List.flatMap_append,
    List.flatMap_cons, quotedBytes]
  rfl

namespace Reader

variable {l t e : List UInt8} {b m n : UInt8} {i fuel : Nat}

lemma isPlain_iff : isPlain b = true ↔ 32 ≤ b.toNat ∧ b.toNat ≠ 34 ∧ b.toNat ≠ 92 := by
  simp [isPlain, UInt8.le_iff_toNat_le, ← UInt8.toNat_inj, and_assoc]

/-- The bytes of a character that stands for itself are plain. -/
lemma isPlain_of_isVerbatim (h : isVerbatim c = true) (hb : b ∈ String.utf8EncodeChar c) :
    isPlain b = true := by
  obtain ⟨hlarge, hquote, hslash⟩ := isVerbatim_iff.mp h
  rw [isPlain_iff]
  by_cases hc : c.toNat < 128
  · rw [utf8EncodeChar_of_lt hc, List.mem_singleton] at hb
    have hcode {k : Nat} (hk : c.toNat = k) : c = Char.ofNat k := by rw [← hk, Char.ofNat_toNat]
    rw [hb, toNat_ofNat (by omega)]
    exact ⟨hlarge, fun heq => hquote (hcode heq), fun heq => hslash (hcode heq)⟩
  · have hle := le_of_mem_utf8EncodeChar (Nat.le_of_not_lt hc) hb
    omega

/-! ### Escapes -/

/-- A digit of an escape has the value that it was written for. -/
lemma hexValue?_hexDigit : ∀ n < 16, String.utf8EncodeChar (hexDigit n)
      = [UInt8.ofNat (hexDigit n).toNat] ∧ hexValue? (UInt8.ofNat (hexDigit n).toNat) = some n := by
  decide

/-- An escape by code of a character that is no surrogate. -/
lemma codeEscape_of_hexValue? {x y : Nat} (hm : hexValue? m = some x) (hn : hexValue? n = some y)
    (hlt : x * 16 + y < 0xD800) :
    codeEscape ⟨48 :: 48 :: m :: n :: t, i⟩ = .ok (Char.ofNat (x * 16 + y), ⟨t, i + 4⟩) := by
  have hhex : hexEscape ⟨48 :: 48 :: m :: n :: t, i⟩ = .ok (x * 16 + y, ⟨t, i + 4⟩) := by
    have hzero : hexValue? 48 = some 0 := rfl
    simp only [hexEscape, hzero, hm, hn, Nat.zero_mul, Nat.zero_add]
  have hlow : ¬ (0xDC00 ≤ x * 16 + y ∧ x * 16 + y < 0xE000) := by omega
  have hhigh : ¬ (0xD800 ≤ x * 16 + y ∧ x * 16 + y < 0xDC00) := by omega
  simp only [codeEscape, bind, StateT.bind, Except.bind, hhex, Bool.and_eq_true, decide_eq_true_eq,
    if_neg hlow, if_neg hhigh]
  rfl

/-- **An escape is read as the character that it stands for.** -/
lemma exists_escape (h : isVerbatim c = false) : ∃ e : List UInt8,
    (quoteChar c).flatMap String.utf8EncodeChar = 92 :: e ∧
      ∀ t i, escape ⟨e ++ t, i⟩ = .ok (c, ⟨t, i + e.length⟩) := by
  have hcode {k : Nat} (hk : c.toNat = k) : c = Char.ofNat k := by rw [← hk, Char.ofNat_toNat]
  rw [quoteChar]
  split_ifs with hquote hslash hfeed hreturn htab hback hform hcontrol
  · obtain rfl := beq_iff_eq.mp hquote
    exact ⟨[34], rfl, fun _ _ => rfl⟩
  · obtain rfl := beq_iff_eq.mp hslash
    exact ⟨[92], rfl, fun _ _ => rfl⟩
  · obtain rfl := beq_iff_eq.mp hfeed
    exact ⟨[110], rfl, fun _ _ => rfl⟩
  · obtain rfl := beq_iff_eq.mp hreturn
    exact ⟨[114], rfl, fun _ _ => rfl⟩
  · obtain rfl := beq_iff_eq.mp htab
    exact ⟨[116], rfl, fun _ _ => rfl⟩
  · obtain rfl := hcode hback
    exact ⟨[98], rfl, fun _ _ => rfl⟩
  · obtain rfl := hcode hform
    exact ⟨[102], rfl, fun _ _ => rfl⟩
  · obtain ⟨hbyte, hvalue⟩ := hexValue?_hexDigit (c.toNat / 16) (by omega)
    obtain ⟨hbyte', hvalue'⟩ := hexValue?_hexDigit (c.toNat % 16) (by omega)
    have hsum : c.toNat / 16 * 16 + c.toNat % 16 = c.toNat := by omega
    refine ⟨117 :: 48 :: 48 :: [UInt8.ofNat (hexDigit (c.toNat / 16)).toNat,
      UInt8.ofNat (hexDigit (c.toNat % 16)).toNat], ?_, fun t i => ?_⟩
    · simp only [List.flatMap_cons, List.flatMap_nil, hbyte, hbyte']
      rfl
    · have hread := codeEscape_of_hexValue? (t := t) (i := i + 1) hvalue hvalue' (by omega)
      rw [hsum, Char.ofNat_toNat] at hread
      exact hread
  · refine absurd (isVerbatim_iff.mpr ⟨Nat.le_of_not_lt hcontrol, ?_, ?_⟩) (by simp [h])
    · simpa using hquote
    · simpa using hslash

/-! ### Strings -/

lemma run_append {p : UInt8 → Bool} (hl : ∀ x ∈ l, p x = true) (hb : p b = false) :
    run p ⟨l ++ b :: t, i⟩ = .ok (l, ⟨b :: t, i + l.length⟩) := by
  have htake : (l ++ b :: t).takeWhile p = l := by
    rw [List.takeWhile_append_of_pos hl, List.takeWhile_cons_of_neg (by simp [hb]), List.append_nil]
  have hdrop : (l ++ b :: t).dropWhile p = b :: t := by
    rw [List.dropWhile_append_of_pos hl, List.dropWhile_cons_of_neg (by simp [hb])]
  rw [run]
  dsimp only
  rw [htake, hdrop]

/-- Plain bytes up to the closing quote. -/
lemma stringBytes_close (hl : ∀ x ∈ l, isPlain x = true) :
    stringBytes (fuel + 1) ⟨l ++ 34 :: t, i⟩ = .ok (l, ⟨t, i + l.length + 1⟩) := by
  rw [stringBytes]
  simp only [bind, StateT.bind, Except.bind, run_append hl (show isPlain 34 = false from rfl)]
  rfl

/-- Plain bytes up to an escape, and what comes after it. -/
lemma stringBytes_escape (hl : ∀ x ∈ l, isPlain x = true) {cursor cursor' : Cursor}
    {bytes : List UInt8} (hescape : escape ⟨t, i + l.length + 1⟩ = .ok (c, cursor))
    (hrest : stringBytes fuel cursor = .ok (bytes, cursor')) :
    stringBytes (fuel + 1) ⟨l ++ 92 :: t, i⟩
      = .ok (l ++ String.utf8EncodeChar c ++ bytes, cursor') := by
  rw [stringBytes]
  simp only [bind, StateT.bind, Except.bind, run_append hl (show isPlain 92 = false from rfl)]
  have hnext : next ⟨92 :: t, i + l.length⟩ = .ok (some 92, ⟨t, i + l.length + 1⟩) := rfl
  simp only [hnext, StateT.bind, Except.bind, bind, hescape, hrest, utf8_singleton]
  rfl

/-- **The bytes between quotes are read back.** A round takes the characters that stand for
themselves, and the escape after them. -/
lemma stringBytes_quoted (hfuel : cs.length < fuel) :
    stringBytes fuel ⟨quotedBytes cs ++ 34 :: t, i⟩
      = .ok (cs.flatMap String.utf8EncodeChar, ⟨t, i + (quotedBytes cs).length + 1⟩) := by
  induction fuel generalizing cs i with
  | zero => omega
  | succ fuel ih =>
      have hcs : cs = cs.takeWhile isVerbatim ++ cs.dropWhile isVerbatim :=
        List.takeWhile_append_dropWhile.symm
      have hverbatim : ∀ c ∈ cs.takeWhile isVerbatim, isVerbatim c = true :=
        fun c hc => List.mem_takeWhile_imp hc
      have hescaped := List.head?_dropWhile_not isVerbatim cs
      generalize cs.takeWhile isVerbatim = before at hcs hverbatim
      generalize cs.dropWhile isVerbatim = after at hcs hescaped
      subst hcs
      have hplain : ∀ b ∈ before.flatMap String.utf8EncodeChar, isPlain b = true := by
        intro b hb
        obtain ⟨c, hc, hb⟩ := List.mem_flatMap.mp hb
        exact isPlain_of_isVerbatim (hverbatim c hc) hb
      rw [quotedBytes_append, quotedBytes_of_isVerbatim hverbatim]
      cases after with
      | nil =>
          rw [List.append_nil, show quotedBytes [] = [] from rfl, List.append_nil]
          exact stringBytes_close hplain
      | cons c after =>
          have hc : isVerbatim c = false := hescaped
          obtain ⟨e, hquoted, hescape⟩ := exists_escape hc
          have hshorter : after.length < fuel := by
            rw [List.length_append, List.length_cons] at hfuel
            omega
          have hread := stringBytes_escape (i := i) hplain
            (hescape (quotedBytes after ++ 34 :: t) _) (ih hshorter)
          rw [quotedBytes_cons, hquoted]
          simp only [List.append_assoc, List.cons_append, List.flatMap_append, List.flatMap_cons,
            List.length_append, List.length_cons] at hread ⊢
          rw [hread]
          congr 3
          omega

lemma length_le_length_quotedBytes (cs : List Char) : cs.length ≤ (quotedBytes cs).length := by
  induction cs with
  | nil => exact Nat.zero_le _
  | cons c cs ih =>
      have hpos : 0 < ((quoteChar c).flatMap String.utf8EncodeChar).length := by
        cases hc : isVerbatim c with
        | true =>
            rw [quoteChar_of_isVerbatim hc, List.flatMap_singleton, String.length_utf8EncodeChar]
            exact c.utf8Size_pos
        | false =>
            obtain ⟨e, hquoted, _⟩ := exists_escape hc
            rw [hquoted]
            exact Nat.succ_pos _
      rw [quotedBytes_cons, List.length_append, List.length_cons]
      omega

/-- A string is read back after its opening quote. -/
lemma string_quoted (s : String) : string ⟨quotedBytes s.toList ++ 34 :: t, i⟩
    = .ok (s, ⟨t, i + (quotedBytes s.toList).length + 1⟩) := by
  have hfuel : s.toList.length < (quotedBytes s.toList ++ 34 :: t).length + 1 := by
    rw [List.length_append]
    have hle := length_le_length_quotedBytes s.toList
    omega
  have hbytes := stringBytes_quoted (t := t) (i := i) hfuel
  rw [← utf8_eq_flatMap] at hbytes
  have hremaining : remaining ⟨quotedBytes s.toList ++ 34 :: t, i⟩
      = .ok ((quotedBytes s.toList ++ 34 :: t).length, ⟨quotedBytes s.toList ++ 34 :: t, i⟩) := rfl
  simp only [string, bind, StateT.bind, Except.bind, hremaining, hbytes, decodeUtf8_utf8]
  rw [String.ofList_toList]
  rfl

/-- A value that opens with a quote is a string, however many containers may open. -/
lemma valueWith_quoted (inner : Option (Reader Json)) (s : String) :
    valueWith inner ⟨34 :: (quotedBytes s.toList ++ 34 :: t), i⟩
      = .ok (.string s, ⟨t, i + 1 + (quotedBytes s.toList).length + 1⟩) := by
  have hpeek : peekPart ⟨34 :: (quotedBytes s.toList ++ 34 :: t), i⟩
      = .ok (some 34, ⟨34 :: (quotedBytes s.toList ++ 34 :: t), i⟩) := rfl
  have hskip : skip ⟨34 :: (quotedBytes s.toList ++ 34 :: t), i⟩
      = .ok ((), ⟨quotedBytes s.toList ++ 34 :: t, i + 1⟩) := rfl
  simp only [valueWith, bind, StateT.bind, Except.bind, hpeek, hskip, string_quoted]
  rfl

/-- **A string in quotes is read as that string**, and nothing after it is touched. -/
theorem value_quote (depth : Nat) (s : String) (rest : List UInt8) (i : Nat) :
    value depth ⟨utf8 (quote s) ++ rest, i⟩
      = .ok (.string s, ⟨rest, i + (utf8 (quote s)).length⟩) := by
  have hlength : (utf8 (quote s)).length = 1 + (quotedBytes s.toList).length + 1 := by
    rw [utf8_quote, List.length_append, List.length_cons, List.length_singleton]
    omega
  rw [hlength, utf8_quote, List.append_assoc, List.cons_append, List.singleton_append,
    ← Nat.add_assoc, ← Nat.add_assoc]
  cases depth with
  | zero => exact valueWith_quoted none s
  | succ depth => exact valueWith_quoted (some (value depth)) s

end Reader

end SchemaDecl.Json
