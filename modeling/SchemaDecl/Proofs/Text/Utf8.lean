/-
The bytes of a text and the characters of bytes.

A character takes one to four bytes. The first of them says how many there are, so that characters
can be read one after the other, whatever follows.

* `Text.utf8_eq_flatMap`: the bytes of a text are those of its characters.
* `Text.decodeUtf8From_append`: the bytes of a character are decoded to that character.
* `Text.decodeUtf8_utf8`: the bytes of a text are decoded to its characters, and so tell texts apart
  (`Text.utf8_injective`).
-/
import Mathlib.Tactic.Common
import SchemaDecl.Text.Utf8

namespace SchemaDecl.Text

lemma toList_loop (bs : ByteArray) (i : Nat) (r : List UInt8) :
    ByteArray.toList.loop bs i r = r.reverse ++ bs.data.toList.drop i := by
  fun_induction ByteArray.toList.loop bs i r with
  | case1 i r h ih =>
      have hlt : i < bs.data.toList.length := h
      have hget : bs.get! i = bs.data.toList[i] := by
        rw [Array.getElem_toList]
        exact getElem!_pos bs.data i h
      rw [ih, List.drop_eq_getElem_cons hlt, List.reverse_cons, List.append_assoc, hget,
        List.singleton_append]
  | case2 i r h => rw [List.drop_eq_nil_of_le (Nat.le_of_not_lt h), List.append_nil]

/-- The bytes of a text are those of its characters. -/
lemma utf8_eq_flatMap (s : String) : utf8 s = s.toList.flatMap String.utf8EncodeChar := by
  have hbytes (bs : ByteArray) : bs.toList = bs.data.toList := toList_loop bs 0 []
  have hencoded : s.toByteArray = s.toList.utf8Encode := s.utf8Encode_toList.symm
  rw [utf8, String.toUTF8, hbytes, hencoded, List.utf8Encode, List.data_toByteArray]

lemma utf8_singleton (c : Char) : utf8 (String.singleton c) = String.utf8EncodeChar c := by
  rw [utf8_eq_flatMap, String.toList_singleton, List.flatMap_singleton]

/-! ### One character -/

section Sequence

variable {index : Nat} {rest : List UInt8} {a b c d : UInt8}

lemma decodeUtf8From_one (ha : a.toNat < 0x80) : decodeUtf8From index (a :: rest)
    = (Char.ofNat a.toNat :: ·) <$> decodeUtf8From (index + 1) rest := by
  rw [decodeUtf8From.eq_def]
  exact if_pos ha

lemma decodeUtf8From_two (ha : 0xC2 ≤ a.toNat) (ha' : a.toNat < 0xE0)
    (hb : isContinuation b = true) : decodeUtf8From index (a :: b :: rest)
      = (Char.ofNat (a.toNat % 32 * 64 + low b) :: ·) <$> decodeUtf8From (index + 2) rest := by
  have hlarge : ¬ a.toNat < 0x80 := by omega
  rw [decodeUtf8From.eq_def]
  simp [UInt8.le_iff_toNat_le, UInt8.lt_iff_toNat_lt, hlarge, hb, ha, ha']

lemma decodeUtf8From_three (ha : 0xE0 ≤ a.toNat) (ha' : a.toNat < 0xF0)
    (hb : isContinuation b = true) (hc : isContinuation c = true) {n : Nat}
    (hn : (a.toNat % 16 * 64 + low b) * 64 + low c = n) (hrange : 0x800 ≤ n)
    (hchar : n < 0xD800 ∨ 0xE000 ≤ n) : decodeUtf8From index (a :: b :: c :: rest)
      = (Char.ofNat n :: ·) <$> decodeUtf8From (index + 3) rest := by
  have hlarge : ¬ a.toNat < 0x80 := by omega
  have hlarger : ¬ a.toNat < 0xE0 := by omega
  have hallowed : ¬ (n < 0x800 ∨ 0xD800 ≤ n ∧ n < 0xE000) := by omega
  rw [decodeUtf8From.eq_def]
  simp [UInt8.le_iff_toNat_le, UInt8.lt_iff_toNat_lt, hlarge, hlarger, hb, hc, ha, ha', hn,
    hallowed]

lemma decodeUtf8From_four (ha : 0xF0 ≤ a.toNat) (ha' : a.toNat < 0xF5)
    (hb : isContinuation b = true) (hc : isContinuation c = true) (hd : isContinuation d = true)
    {n : Nat} (hn : ((a.toNat % 8 * 64 + low b) * 64 + low c) * 64 + low d = n)
    (hrange : 0x10000 ≤ n) (hchar : n < 0x110000) :
    decodeUtf8From index (a :: b :: c :: d :: rest)
      = (Char.ofNat n :: ·) <$> decodeUtf8From (index + 4) rest := by
  have hlarge : ¬ a.toNat < 0x80 := by omega
  have hlarger : ¬ a.toNat < 0xE0 := by omega
  have hlargest : ¬ a.toNat < 0xF0 := by omega
  rw [decodeUtf8From.eq_def]
  simp [UInt8.le_iff_toNat_le, UInt8.lt_iff_toNat_lt, hlarge, hlarger, hlargest, hb, hc, hd, ha,
    ha', hn, hrange, hchar]

end Sequence

lemma toNat_ofNat {n : Nat} (h : n < 256) : (UInt8.ofNat n).toNat = n :=
  UInt8.toNat_ofNat_of_lt h

/-- A byte that continues a sequence, and its low bits. -/
lemma continues_ofNat {n : Nat} (h : n < 64) :
    isContinuation (UInt8.ofNat (n + 128)) = true ∧ low (UInt8.ofNat (n + 128)) = n := by
  have hbyte : (UInt8.ofNat (n + 128)).toNat = n + 128 := toNat_ofNat (by omega)
  rw [isContinuation, low, Bool.and_eq_true, decide_eq_true_iff, decide_eq_true_iff,
    UInt8.le_iff_toNat_le, UInt8.lt_iff_toNat_lt, hbyte]
  exact ⟨⟨Nat.le_add_left 128 n, (by omega : n + 128 < 192)⟩, by omega⟩

/-- **The bytes of a character are decoded to that character**, whatever follows them. -/
lemma decodeUtf8From_append (index : Nat) (c : Char) (rest : List UInt8) :
    decodeUtf8From index (String.utf8EncodeChar c ++ rest)
      = (c :: ·) <$> decodeUtf8From (index + (String.utf8EncodeChar c).length) rest := by
  have hchar : Char.ofNat c.val.toNat = c := Char.ofNat_toNat c
  have hvalid : c.val.toNat < 0xD800 ∨ 0xDFFF < c.val.toNat ∧ c.val.toNat < 0x110000 := c.valid
  rw [String.utf8EncodeChar]
  generalize c.val.toNat = v at hchar hvalid ⊢
  subst hchar
  split_ifs with hone htwo hthree
  · have hfirst : (UInt8.ofNat v).toNat = v := toNat_ofNat (by omega)
    have hone' : (UInt8.ofNat v).toNat < 0x80 := by omega
    rw [List.singleton_append, decodeUtf8From_one hone', hfirst]
    rfl
  · have hfirst : (UInt8.ofNat (v / 64 % 32 + 192)).toNat = v / 64 % 32 + 192 :=
      toNat_ofNat (by omega)
    obtain ⟨hb, hlow⟩ := continues_ofNat (n := v % 64) (by omega)
    have hread : (v / 64 % 32 + 192) % 32 * 64 + v % 64 = v := by omega
    rw [List.cons_append, List.singleton_append, decodeUtf8From_two (by omega) (by omega) hb,
      hfirst, hlow, hread]
    rfl
  · have hfirst : (UInt8.ofNat (v / 4096 % 16 + 224)).toNat = v / 4096 % 16 + 224 :=
      toNat_ofNat (by omega)
    obtain ⟨hb, hlow⟩ := continues_ofNat (n := v / 64 % 64) (by omega)
    obtain ⟨hc, hlow'⟩ := continues_ofNat (n := v % 64) (by omega)
    exact decodeUtf8From_three (by omega) (by omega) hb hc (by rw [hfirst, hlow, hlow']; omega)
      (by omega) (by omega)
  · have hfirst : (UInt8.ofNat (v / 262144 % 8 + 240)).toNat = v / 262144 % 8 + 240 :=
      toNat_ofNat (by omega)
    obtain ⟨hb, hlow⟩ := continues_ofNat (n := v / 4096 % 64) (by omega)
    obtain ⟨hc, hlow'⟩ := continues_ofNat (n := v / 64 % 64) (by omega)
    obtain ⟨hd, hlow''⟩ := continues_ofNat (n := v % 64) (by omega)
    exact decodeUtf8From_four (by omega) (by omega) hb hc hd
      (by rw [hfirst, hlow, hlow', hlow'']; omega) (by omega) (by omega)

lemma utf8EncodeChar_of_lt {c : Char} (h : c.toNat < 128) :
    String.utf8EncodeChar c = [UInt8.ofNat c.toNat] := by
  rw [String.utf8EncodeChar]
  exact if_pos (Nat.le_of_lt_succ h)

/-- A character beyond the first 128 has no byte among the first 128. -/
lemma le_of_mem_utf8EncodeChar {c : Char} {b : UInt8} (h : 128 ≤ c.toNat)
    (hb : b ∈ String.utf8EncodeChar c) : 128 ≤ b.toNat := by
  have hcode : c.toNat = c.val.toNat := rfl
  rw [String.utf8EncodeChar] at hb
  generalize c.val.toNat = v at hb hcode
  split_ifs at hb with hone htwo hthree
  · omega
  all_goals
    simp only [List.mem_cons, List.not_mem_nil, or_false] at hb
    rcases hb with rfl | rfl | rfl | rfl <;> rw [toNat_ofNat (by omega)] <;> omega

/-! ### Texts -/

lemma decodeUtf8From_flatMap (index : Nat) (cs : List Char) :
    decodeUtf8From index (cs.flatMap String.utf8EncodeChar) = .ok cs := by
  induction cs generalizing index with
  | nil => rw [List.flatMap_nil, decodeUtf8From]
  | cons c cs ih =>
      rw [List.flatMap_cons, decodeUtf8From_append, ih]
      rfl

/-- **The bytes of a text are decoded to its characters.** -/
lemma decodeUtf8_utf8 (s : String) : decodeUtf8 (utf8 s) = .ok s.toList := by
  rw [utf8_eq_flatMap, decodeUtf8, decodeUtf8From_flatMap]

/-- Different texts have different bytes. -/
lemma utf8_injective : Function.Injective utf8 := by
  intro s t h
  have hchars := decodeUtf8_utf8 s
  rw [h, decodeUtf8_utf8] at hchars
  exact String.toList_injective (Except.ok.inj hchars).symm

end SchemaDecl.Text
