/-
Property keys are written faithfully.

* `IsWord`, `isIdentifier_iff`: the keys that stand in a record without quotes.
* `readKey`, `readKey_fieldKey`: the key behind a written key; its first character tells how to read
  it.
* `fieldKey_faithful`: **different keys are written differently, and every key but the index key is
  written as a bare word or as JSON text that is read as the key.**
-/
import SchemaDecl.Declaration.Key
import SchemaDecl.Proofs.Json.Quote
import SchemaDecl.Proofs.Text.TypeName

namespace SchemaDecl

open Text (utf8)

variable {key : String}

/-! ### Bare words -/

/-- A text of ASCII letters, digits, `_` and `$` that is not empty and begins with no digit. -/
@[mk_iff]
structure IsWord (s : String) : Prop where
  ne_empty : s ≠ ""
  chars : ∀ c ∈ s.toList, c.isAlpha = true ∨ c.isDigit = true ∨ c = '_' ∨ c = '$'
  lead : ∀ c ∈ s.toList.head?, c.isDigit = false

lemma isDigit_eq_false_of_isAlpha {c : Char} (h : c.isAlpha = true) : c.isDigit = false := by
  have hdigit : c.isDigit = true ↔ 48 ≤ c.toNat ∧ c.toNat ≤ 57 := by
    simp [Char.isDigit, UInt32.le_iff_toNat_le, ← Char.toNat_val]
  rw [Char.isAlpha, Bool.or_eq_true, Text.isUpper_iff, Text.isLower_iff] at h
  rw [← Bool.not_eq_true, hdigit]
  omega

/-- A character may begin a bare word just if it may stand in one and is no digit. -/
lemma begins_iff (c : Char) : (c.isAlpha || c == '_' || c == '$') = true ↔
    (c.isAlpha = true ∨ c.isDigit = true ∨ c = '_' ∨ c = '$') ∧ c.isDigit = false := by
  simp only [Bool.or_eq_true, beq_iff_eq]
  constructor
  · rintro ((halpha | rfl) | rfl)
    · exact ⟨.inl halpha, isDigit_eq_false_of_isAlpha halpha⟩
    · exact ⟨.inr (.inr (.inl rfl)), rfl⟩
    · exact ⟨.inr (.inr (.inr rfl)), rfl⟩
  · rintro ⟨halpha | hdigit | hunder | hdollar, hlead⟩
    · exact .inl (.inl halpha)
    · rw [hlead] at hdigit
      cases hdigit
    · exact .inl (.inr hunder)
    · exact .inr hdollar

lemma isIdentifier_iff : isIdentifier key.toList = true ↔ IsWord key := by
  rw [isWord_iff, Ne, ← String.toList_eq_nil_iff]
  cases key.toList with
  | nil => simp [isIdentifier]
  | cons c cs =>
      have hrest : (cs.all fun d => d.isAlphanum || d == '_' || d == '$') = true ↔
          ∀ d ∈ cs, d.isAlpha = true ∨ d.isDigit = true ∨ d = '_' ∨ d = '$' := by
        simp [Char.isAlphanum, or_assoc]
      rw [isIdentifier, Bool.and_eq_true, begins_iff, hrest, List.forall_mem_cons]
      simp [and_right_comm]

/-- A bare word does not begin with a quote. -/
lemma IsWord.head?_ne_quote (h : IsWord key) : key.toList.head? ≠ some '"' := by
  intro hquote
  obtain hc := h.chars '"' (List.mem_of_mem_head? hquote)
  revert hc
  decide

lemma fieldKey_of_isWord (h : IsWord key) : fieldKey key = key := by
  rw [fieldKey, isIdentifier_iff.mpr h, Bool.or_true, if_pos rfl]

lemma fieldKey_indexKey : fieldKey indexKey = indexKey := by
  rw [fieldKey, beq_self_eq_true, Bool.true_or, if_pos rfl]

lemma fieldKey_of_not_isWord (hindex : key ≠ indexKey) (h : ¬ IsWord key) :
    fieldKey key = Json.quote key := by
  rw [fieldKey, if_neg]
  rw [Bool.or_eq_true, beq_iff_eq, isIdentifier_iff]
  exact not_or.mpr ⟨hindex, h⟩

/-! ### Reading keys back -/

/-- A quoted text is read as one JSON value to its end. -/
lemma value_quote_all (s : String) :
    Json.Reader.value Json.Reader.depthLimit ⟨utf8 (Json.quote s), 0⟩
      = .ok (.string s, ⟨[], (utf8 (Json.quote s)).length⟩) := by
  have hread := Json.Reader.value_quote Json.Reader.depthLimit s [] 0
  rwa [List.append_nil, Nat.zero_add] at hread

/-- The key that a text stands for: the string that it quotes if it begins with a quote, and the
text itself otherwise. -/
def readKey (text : String) : Option String :=
  if text.toList.head? = some '"' then
    match Json.parse (utf8 text) with
    | .ok (.scalar (.string key)) => some key
    | _ => none
  else some text

lemma readKey_quote (s : String) : readKey (Json.quote s) = some s := by
  have hhead : (Json.quote s).toList.head? = some '"' := by
    rw [Json.quote, String.toList_ofList]
    rfl
  have hparse : Json.parse (utf8 (Json.quote s)) = .ok (.string s) := by
    rw [Json.parse, value_quote_all]
    rfl
  rw [readKey, if_pos hhead, hparse]
  rfl

/-- **A written key is read back.** -/
lemma readKey_fieldKey (key : String) : readKey (fieldKey key) = some key := by
  by_cases hindex : key = indexKey
  · rw [hindex, fieldKey_indexKey]
    decide
  by_cases hword : IsWord key
  · rw [fieldKey_of_isWord hword, readKey, if_neg hword.head?_ne_quote]
  · rw [fieldKey_of_not_isWord hindex hword, readKey_quote]

lemma fieldKey_injective : Function.Injective fieldKey := by
  intro key key' heq
  have hread := readKey_fieldKey key
  rw [heq, readKey_fieldKey] at hread
  exact (Option.some.inj hread).symm

/-- **Property keys are written faithfully.** Different keys have different texts. A key other than
the index key is written as it is just if it is a bare word, and otherwise as a text between quotes,
which is read to its end as a JSON string and gives the key. -/
theorem fieldKey_faithful : Function.Injective fieldKey ∧ ∀ key : String, key ≠ indexKey →
    (IsWord key ∧ fieldKey key = key) ∨
    (¬ IsWord key ∧ (∃ body, (fieldKey key).toList = '"' :: body ++ ['"']) ∧
      Json.Reader.value Json.Reader.depthLimit ⟨utf8 (fieldKey key), 0⟩
        = .ok (.string key, ⟨[], (utf8 (fieldKey key)).length⟩)) := by
  refine ⟨fieldKey_injective, fun key hindex => ?_⟩
  by_cases hword : IsWord key
  · exact .inl ⟨hword, fieldKey_of_isWord hword⟩
  · rw [fieldKey_of_not_isWord hindex hword]
    refine .inr ⟨hword, ⟨key.toList.flatMap Json.quoteChar, ?_⟩, value_quote_all key⟩
    rw [Json.quote, String.toList_ofList, Json.quoteChars]

/-- One key that is written bare, and one with all that has to be escaped. -/
theorem fieldKey_faithful_tangled :
    (IsWord "$ref_1" ∧ fieldKey "$ref_1" = "$ref_1") ∧
    (¬ IsWord "é \"\\\n\x01" ∧ fieldKey "é \"\\\n\x01" = "\"é \\\"\\\\\\n\\u0001\"" ∧
      Json.Reader.value Json.Reader.depthLimit ⟨utf8 (fieldKey "é \"\\\n\x01"), 0⟩
        = .ok (.string "é \"\\\n\x01", ⟨[], 17⟩)) ∧
    fieldKey "1" ≠ fieldKey "\"1\"" := by
  obtain ⟨hinjective, hwritten⟩ := fieldKey_faithful
  have hword : IsWord "$ref_1" := isIdentifier_iff.mp (by decide)
  have htangled : ¬ IsWord "é \"\\\n\x01" := fun h => absurd (isIdentifier_iff.mpr h) (by decide)
  have htext : fieldKey "é \"\\\n\x01" = "\"é \\\"\\\\\\n\\u0001\"" := by decide +kernel
  refine ⟨?_, ⟨htangled, htext, ?_⟩, fun heq => absurd (hinjective heq) (by decide)⟩
  · rcases hwritten "$ref_1" (by decide) with hbare | ⟨hnot, _⟩
    · exact hbare
    · exact absurd hword hnot
  · rcases hwritten "é \"\\\n\x01" (by decide) with ⟨hbare, _⟩ | ⟨_, _, hread⟩
    · exact absurd hbare htangled
    · have hlength : (utf8 (fieldKey "é \"\\\n\x01")).length = 17 := by
        rw [htext]
        decide +kernel
      rw [hread, hlength]

end SchemaDecl
