/-
Entries under keys: what is there after a change.

* `Keyed.get?_insert_self`, `Keyed.get?_insert_of_ne`, `Keyed.get?_erase_of_ne`,
  `Keyed.get?_rename_of_ne`, `Keyed.get?_filter`: looking up after a change.
* `Keyed.mem_insert`, `Keyed.mem_erase`, `Keyed.mem_rename`: where the entries come from.
* `Keyed.Distinct`: no key stands twice. Changes leave it so, and then every entry is found
  (`Keyed.Distinct.get?_of_mem`), and nothing is left under a key that has been taken out or renamed
  (`Keyed.Distinct.get?_erase`, `Keyed.Distinct.get?_rename`).
-/
import Mathlib.Tactic.Common
import SchemaDecl.Keyed

namespace SchemaDecl.Keyed

variable {α : Type} {m : Keyed α} {key k : String} {a : α} {e : String × α}

lemma mem_of_get? (h : get? m key = some a) : (key, a) ∈ m := by
  obtain ⟨l₁, l₂, hm, -⟩ := List.lookup_eq_some_iff.mp h
  rw [hm]
  exact List.mem_append_right _ List.mem_cons_self

lemma get?_insert_self : get? (insert m key a) key = some a := by
  fun_induction insert m key a with
  | case1 => simp [get?]
  | case2 k b rest key a hk => simp [get?, beq_iff_eq.mp hk]
  | case3 k b rest key a hk ih =>
      have hne : (key == k) = false := by
        rw [Bool.beq_comm]
        exact Bool.eq_false_iff.mpr hk
      rw [get?, List.lookup_cons, hne]
      exact ih

lemma mem_insert (h : e ∈ insert m key a) : e ∈ m ∨ e.2 = a := by
  fun_induction insert m key a with
  | case1 => exact Or.inr (by rw [List.mem_singleton.mp h])
  | case2 k b rest key a hk =>
      rcases List.mem_cons.mp h with rfl | h
      · exact Or.inr rfl
      · exact Or.inl (List.mem_cons_of_mem _ h)
  | case3 k b rest key a hk ih =>
      rcases List.mem_cons.mp h with rfl | h
      · exact Or.inl List.mem_cons_self
      · exact (ih h).imp_left (List.mem_cons_of_mem _)

lemma mem_erase (h : e ∈ erase m key) : e ∈ m := by
  fun_induction erase m key with
  | case1 => cases h
  | case2 k b rest key hk => exact List.mem_cons_of_mem _ h
  | case3 k b rest key hk ih =>
      rcases List.mem_cons.mp h with rfl | h
      · exact List.mem_cons_self
      · exact List.mem_cons_of_mem _ (ih h)

lemma mem_rename {source target : String} (h : e ∈ rename m source target) :
    ∃ e' ∈ m, e'.2 = e.2 := by
  fun_induction rename m source target with
  | case1 => cases h
  | case2 k b rest source target hk =>
      rcases List.mem_cons.mp h with rfl | h
      · exact ⟨(k, b), List.mem_cons_self, rfl⟩
      · exact ⟨e, List.mem_cons_of_mem _ h, rfl⟩
  | case3 k b rest source target hk ih =>
      rcases List.mem_cons.mp h with rfl | h
      · exact ⟨(k, b), List.mem_cons_self, rfl⟩
      · obtain ⟨e', he', heq⟩ := ih h
        exact ⟨e', List.mem_cons_of_mem _ he', heq⟩

lemma get?_erase_of_ne (h : k ≠ key) : get? (erase m key) k = get? m k := by
  fun_induction erase m key with
  | case1 => rfl
  | case2 k' b rest key hk =>
      have hne : (k == k') = false := beq_false_of_ne (beq_iff_eq.mp hk ▸ h)
      rw [get?, get?, List.lookup_cons, hne]
  | case3 k' b rest key hk ih =>
      rw [get?, get?, List.lookup_cons, List.lookup_cons]
      cases k == k'
      · exact ih h
      · rfl

lemma get?_insert_of_ne (h : k ≠ key) : get? (insert m key a) k = get? m k := by
  fun_induction insert m key a with
  | case1 =>
      rw [get?, get?, List.lookup_cons, beq_false_of_ne h]
  | case2 k' b rest key a hk =>
      have hne : (k == k') = false := beq_false_of_ne (beq_iff_eq.mp hk ▸ h)
      rw [get?, get?, List.lookup_cons, List.lookup_cons, hne]
  | case3 k' b rest key a hk ih =>
      rw [get?, get?, List.lookup_cons, List.lookup_cons]
      cases k == k'
      · exact ih h
      · rfl

lemma get?_rename_of_ne {source target : String} (hs : k ≠ source) (ht : k ≠ target) :
    get? (rename m source target) k = get? m k := by
  fun_induction rename m source target with
  | case1 => rfl
  | case2 k' b rest source target hk =>
      have hne : (k == k') = false := beq_false_of_ne (beq_iff_eq.mp hk ▸ hs)
      rw [get?, get?, List.lookup_cons, List.lookup_cons, hne, beq_false_of_ne ht]
  | case3 k' b rest source target hk ih =>
      rw [get?, get?, List.lookup_cons, List.lookup_cons]
      cases k == k'
      · exact ih hs ht
      · rfl

lemma get?_filter {p : String × α → Bool} (h : ∀ a, p (key, a) = true) :
    get? (m.filter p) key = get? m key := by
  induction m with
  | nil => rfl
  | cons e rest ih =>
      obtain ⟨k, b⟩ := e
      by_cases hk : key = k
      · subst hk
        rw [List.filter_cons, if_pos (h b), get?, get?, List.lookup_cons_self,
          List.lookup_cons_self]
      · have hne : (key == k) = false := beq_false_of_ne hk
        rw [List.filter_cons]
        split
        · rw [get?, get?, List.lookup_cons, List.lookup_cons, hne]
          exact ih
        · rw [ih, get?, get?, List.lookup_cons, hne]

/-! ### Keys that stand once -/

/-- No key stands twice. -/
def Distinct (m : Keyed α) : Prop := (m.map Prod.fst).Nodup

instance (m : Keyed α) : Decidable m.Distinct := inferInstanceAs (Decidable (List.Nodup _))

lemma get?_eq_none_iff : get? m key = none ↔ key ∉ m.map Prod.fst := by
  rw [get?, List.lookup_eq_none_iff]
  simp only [List.mem_map, not_exists, not_and, bne_iff_ne, ne_eq]
  exact ⟨fun h e he heq => h e he heq.symm, fun h e he heq => h e he heq.symm⟩

lemma has_iff : has m key = true ↔ key ∈ m.map Prod.fst := by
  rw [has, Option.isSome_iff_ne_none, ne_eq, get?_eq_none_iff, not_not]

lemma mem_keys_insert (h : k ∈ (insert m key a).map Prod.fst) : k ∈ m.map Prod.fst ∨ k = key := by
  fun_induction insert m key a with
  | case1 => exact Or.inr (List.mem_singleton.mp h)
  | case2 => exact Or.inl h
  | case3 k' b rest key a hk ih =>
      rcases List.mem_cons.mp h with rfl | h
      · exact Or.inl List.mem_cons_self
      · exact (ih h).imp_left (List.mem_cons_of_mem _)

lemma mem_keys_rename {source target : String} (h : k ∈ (rename m source target).map Prod.fst) :
    k ∈ m.map Prod.fst ∨ k = target := by
  fun_induction rename m source target with
  | case1 => cases h
  | case2 k' b rest source target hk =>
      rcases List.mem_cons.mp h with rfl | h
      · exact Or.inr rfl
      · exact Or.inl (List.mem_cons_of_mem _ h)
  | case3 k' b rest source target hk ih =>
      rcases List.mem_cons.mp h with rfl | h
      · exact Or.inl List.mem_cons_self
      · exact (ih h).imp_left (List.mem_cons_of_mem _)

lemma erase_of_get?_eq_none (h : get? m key = none) : erase m key = m := by
  induction m with
  | nil => rfl
  | cons e rest ih =>
      rw [get?, List.lookup_cons] at h
      split at h
      case h_1 => cases h
      case h_2 hne =>
        have hne' : (e.1 == key) = false := by
          rw [← hne]
          exact Bool.beq_comm
        rw [erase, if_neg (by rw [hne']; exact Bool.false_ne_true), ih h]

namespace Distinct

lemma insert (h : Distinct m) : Distinct (insert m key a) := by
  fun_induction Keyed.insert m key a with
  | case1 => exact List.pairwise_singleton _ _
  | case2 => exact h
  | case3 k b rest key a hk ih =>
      obtain ⟨hnew, hrest⟩ := List.nodup_cons.mp h
      refine List.nodup_cons.mpr ⟨fun hmem => ?_, ih hrest⟩
      rcases mem_keys_insert hmem with hmem | rfl
      · exact hnew hmem
      · exact hk (beq_self_eq_true _)

lemma erase (h : Distinct m) : Distinct (erase m key) := by
  fun_induction Keyed.erase m key with
  | case1 => exact h
  | case2 => exact (List.nodup_cons.mp h).2
  | case3 k b rest key hk ih =>
      obtain ⟨hnew, hrest⟩ := List.nodup_cons.mp h
      refine List.nodup_cons.mpr ⟨fun hmem => hnew ?_, ih hrest⟩
      obtain ⟨e, he, heq⟩ := List.mem_map.mp hmem
      exact List.mem_map.mpr ⟨e, mem_erase he, heq⟩

lemma rename {source target : String} (h : Distinct m) (htarget : get? m target = none) :
    Distinct (rename m source target) := by
  rw [get?_eq_none_iff] at htarget
  fun_induction Keyed.rename m source target with
  | case1 => exact h
  | case2 k b rest source target hk =>
      obtain ⟨-, hrest⟩ := List.nodup_cons.mp h
      exact List.nodup_cons.mpr ⟨fun hmem => htarget (List.mem_cons_of_mem _ hmem), hrest⟩
  | case3 k b rest source target hk ih =>
      obtain ⟨hnew, hrest⟩ := List.nodup_cons.mp h
      refine List.nodup_cons.mpr
        ⟨fun hmem => ?_, ih hrest fun hmem => htarget (List.mem_cons_of_mem _ hmem)⟩
      rcases mem_keys_rename hmem with hmem | rfl
      · exact hnew hmem
      · exact htarget List.mem_cons_self

/-- An entry under a key that stands once is the one that is found. -/
lemma get?_of_mem (h : Distinct m) (he : e ∈ m) : get? m e.1 = some e.2 := by
  induction m with
  | nil => cases he
  | cons first rest ih =>
      obtain ⟨hnew, hrest⟩ := List.nodup_cons.mp h
      rcases List.mem_cons.mp he with rfl | he
      · rw [get?, List.lookup_cons_self]
      · have hne : (e.1 == first.1) = false :=
          beq_false_of_ne fun heq => hnew (heq ▸ List.mem_map_of_mem he)
        rw [get?, List.lookup_cons, hne]
        exact ih hrest he

/-- Nothing is left under a key that has been taken out. -/
lemma get?_erase (h : Distinct m) : get? (Keyed.erase m key) key = none := by
  fun_induction Keyed.erase m key with
  | case1 => rfl
  | case2 k b rest key hk =>
      obtain rfl := beq_iff_eq.mp hk
      exact get?_eq_none_iff.mpr (List.nodup_cons.mp h).1
  | case3 k b rest key hk ih =>
      have hne : (key == k) = false := beq_false_of_ne fun heq => hk (by rw [heq, beq_self_eq_true])
      rw [get?, List.lookup_cons, hne]
      exact ih (List.nodup_cons.mp h).2

/-- An entry that is put under another key is found there, and no longer under its own. -/
lemma get?_rename {source target : String} (h : Distinct m) (hne : source ≠ target)
    (htarget : get? m target = none) :
    get? (Keyed.rename m source target) target = get? m source ∧
      get? (Keyed.rename m source target) source = none := by
  fun_induction Keyed.rename m source target with
  | case1 => exact ⟨rfl, rfl⟩
  | case2 k b rest source target hk =>
      obtain rfl := beq_iff_eq.mp hk
      have hfirst : (k == target) = false := beq_false_of_ne hne
      refine ⟨by rw [get?, get?, List.lookup_cons_self, List.lookup_cons_self], ?_⟩
      rw [get?, List.lookup_cons, hfirst]
      exact get?_eq_none_iff.mpr (List.nodup_cons.mp h).1
  | case3 k b rest source target hk ih =>
      have hother : (source == k) = false :=
        beq_false_of_ne fun heq => hk (by rw [heq, beq_self_eq_true])
      have hk' : (target == k) = false := by
        cases hbeq : target == k with
        | false => rfl
        | true => simp [get?, List.lookup_cons, hbeq] at htarget
      rw [get?, List.lookup_cons, hk'] at htarget
      have hrest := ih (List.nodup_cons.mp h).2 hne htarget
      rw [get?, get?, get?, List.lookup_cons, List.lookup_cons, List.lookup_cons, hother, hk']
      exact hrest

end Distinct

end SchemaDecl.Keyed

/-! ### Other values under the same keys -/

namespace SchemaDecl.Keyed

variable {α β : Type} (f : α → β) (m : Keyed α) (key : String)

lemma get?_map : get? (m.map fun e => (e.1, f e.2)) key = (get? m key).map f := by
  induction m with
  | nil => rfl
  | cons e m ih =>
      obtain ⟨k, b⟩ := e
      rw [get?] at ih
      simp only [get?, List.map_cons, List.lookup_cons]
      cases key == k
      · exact ih
      · rfl

lemma map_insert (a : α) : (insert m key a).map (fun e => (e.1, f e.2))
    = insert (m.map fun e => (e.1, f e.2)) key (f a) := by
  induction m with
  | nil => rfl
  | cons e m ih =>
      obtain ⟨k, b⟩ := e
      simp only [insert, List.map_cons]
      split
      · rfl
      · rw [List.map_cons, ih]

lemma map_erase : (erase m key).map (fun e => (e.1, f e.2))
    = erase (m.map fun e => (e.1, f e.2)) key := by
  induction m with
  | nil => rfl
  | cons e m ih =>
      obtain ⟨k, b⟩ := e
      simp only [erase, List.map_cons]
      split
      · rfl
      · rw [List.map_cons, ih]

lemma map_rename (target : String) : (rename m key target).map (fun e => (e.1, f e.2))
    = rename (m.map fun e => (e.1, f e.2)) key target := by
  induction m with
  | nil => rfl
  | cons e m ih =>
      obtain ⟨k, b⟩ := e
      simp only [rename, List.map_cons]
      split
      · rfl
      · rw [List.map_cons, ih]

section Filter

variable {m : Keyed α} {key : String} {p : String → Bool}

lemma filter_insert_of_pos (h : p key = true) (a : α) :
    (insert m key a).filter (fun e => p e.1) = insert (m.filter fun e => p e.1) key a := by
  induction m with
  | nil => simp [insert, h]
  | cons e m ih =>
      obtain ⟨k, b⟩ := e
      by_cases hk : k = key
      · subst hk
        simp [insert, h]
      · cases hp : p k <;> simp [insert, hk, hp, ih]

lemma filter_insert_of_neg (h : p key = false) (a : α) :
    (insert m key a).filter (fun e => p e.1) = m.filter fun e => p e.1 := by
  induction m with
  | nil => simp [insert, h]
  | cons e m ih =>
      obtain ⟨k, b⟩ := e
      by_cases hk : k = key
      · subst hk
        simp [insert, h]
      · cases hp : p k <;> simp [insert, hk, hp, ih]

lemma filter_erase_of_pos (h : p key = true) :
    (erase m key).filter (fun e => p e.1) = erase (m.filter fun e => p e.1) key := by
  induction m with
  | nil => rfl
  | cons e m ih =>
      obtain ⟨k, b⟩ := e
      by_cases hk : k = key
      · subst hk
        simp [erase, h]
      · cases hp : p k <;> simp [erase, hk, hp, ih]

lemma filter_erase_of_neg (h : p key = false) :
    (erase m key).filter (fun e => p e.1) = m.filter fun e => p e.1 := by
  induction m with
  | nil => rfl
  | cons e m ih =>
      obtain ⟨k, b⟩ := e
      by_cases hk : k = key
      · subst hk
        simp [erase, h]
      · cases hp : p k <;> simp [erase, hk, hp, ih]

lemma filter_rename {target : String} (h : p key = true) (htarget : p target = true) :
    (rename m key target).filter (fun e => p e.1)
      = rename (m.filter fun e => p e.1) key target := by
  induction m with
  | nil => rfl
  | cons e m ih =>
      obtain ⟨k, b⟩ := e
      by_cases hk : k = key
      · subst hk
        simp [rename, h, htarget]
      · cases hp : p k <;> simp [rename, hk, hp, ih]

end Filter

lemma get?_append_of_ne {key k : String} (h : key ≠ k) (a : α) :
    get? (m ++ [(k, a)]) key = get? m key := by
  induction m with
  | nil => simp [get?, List.lookup_cons, beq_eq_false_iff_ne.mpr h]
  | cons e m ih =>
      obtain ⟨k', b⟩ := e
      rw [get?] at ih
      simp only [get?, List.cons_append, List.lookup_cons]
      cases key == k'
      · exact ih
      · rfl

lemma get?_append_of_get?_eq_none {k : String} (h : get? m k = none) (a : α) :
    get? (m ++ [(k, a)]) k = some a := by
  rw [get?] at h
  simp [get?, List.lookup_append, h]

lemma get?_append_cons_self {m m' : Keyed α} {k : String} {a : α} (h : k ∉ m.map Prod.fst) :
    get? (m ++ (k, a) :: m') k = some a := by
  have hnone : List.lookup k m = none := get?_eq_none_iff.mpr h
  simp [get?, List.lookup_append, hnone]

lemma has_eq_of_keys_eq {m : Keyed α} {m' : Keyed β} {key : String}
    (h : m.map Prod.fst = m'.map Prod.fst) : has m key = has m' key := by
  rw [Bool.eq_iff_iff, has_iff, has_iff, h]

lemma mem_or_eq_of_mem_insert {key : String} {a : α} {e : String × α} (h : e ∈ insert m key a) :
    e ∈ m ∨ e = (key, a) := by
  induction m with
  | nil => exact .inr (List.mem_singleton.mp h)
  | cons e' m ih =>
      obtain ⟨k, b⟩ := e'
      rw [insert] at h
      split at h
      case isTrue hk =>
        rcases List.mem_cons.mp h with rfl | h
        · exact .inr (by rw [beq_iff_eq.mp hk])
        · exact .inl (List.mem_cons_of_mem _ h)
      case isFalse =>
        rcases List.mem_cons.mp h with rfl | h
        · exact .inl List.mem_cons_self
        · exact (ih h).imp_left (List.mem_cons_of_mem _)

/-- What is renamed is the entry that is read under its key. -/
lemma mem_or_get?_of_mem_rename {source target : String} {e : String × α}
    (h : e ∈ rename m source target) :
    e ∈ m ∨ e.1 = target ∧ get? m source = some e.2 := by
  induction m with
  | nil => cases h
  | cons e' m ih =>
      obtain ⟨k, b⟩ := e'
      rw [rename] at h
      split at h
      case isTrue hk =>
        rcases List.mem_cons.mp h with rfl | h
        · exact .inr ⟨rfl, by simp [get?, beq_iff_eq.mp hk]⟩
        · exact .inl (List.mem_cons_of_mem _ h)
      case isFalse hk =>
        rcases List.mem_cons.mp h with rfl | h
        · exact .inl List.mem_cons_self
        · refine (ih h).imp (List.mem_cons_of_mem _) fun hfound => ⟨hfound.1, ?_⟩
          rw [get?, List.lookup_cons]
          have hne : (source == k) = false := by
            rw [beq_eq_false_iff_ne]
            exact fun heq => hk (by simp [heq])
          rw [hne]
          exact hfound.2

end SchemaDecl.Keyed
