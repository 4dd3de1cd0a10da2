/-
The sequences that arrays and tuples admit.

* `TupleArms.Admits`: the sequences that tuples of growing length admit, with what may follow the
  longest of them.
* `admits_tupleArms_replicate`: where all positions have the same type, the sequences of that type
  with a length between the bounds are admitted, and no others.
* `exists_admits_gt_iff`: when a sequence is admitted that is longer than the greatest bound.
* `tupleArms_admits_bounded`: **the lengths that are admitted, and the type at each position.**
* `Shape.Admits`, `Shape.AdmitsOnly`: the same for the types of arrays and tuples.
-/
import Mathlib.Data.List.Range
import Mathlib.Tactic.Common
import SchemaDecl.Declaration.Tuple
import SchemaDecl.Types.Basic

namespace SchemaDecl

section Arms

variable {α : Type}

/-- The sequence is one of the tuples, or the longest with further items. -/
def TupleArms.Admits (t : TupleArms α) (xs : List α) : Prop :=
  xs ∈ t.arms ∨ ∃ arm rest count, t.arms.getLast? = some arm ∧ t.rest = some rest ∧
    xs = arm ++ List.replicate count rest

variable {x top : α} {xs : List α} {least most : Nat}

/-- Tuples without a rest admit the lengths from the least to the greatest. -/
lemma admits_replicate_of_most (h : least ≤ most) :
    (tupleArms (List.replicate most x) least (some most) none top).Admits xs ↔
      (∀ y ∈ xs, y = x) ∧ least ≤ xs.length ∧ xs.length ≤ most := by
  have harms : tupleArms (List.replicate most x) least (some most) none top
      = ⟨(List.range' least (most + 1 - least)).map (List.replicate · x), none⟩ := by
    simp only [tupleArms, List.length_replicate, Nat.sub_self, List.replicate_zero, List.append_nil]
    split
    case isTrue =>
      refine congrArg (TupleArms.mk · none) (List.map_congr_left fun count hcount => ?_)
      rw [List.mem_range'_1] at hcount
      rw [List.take_replicate, Nat.min_eq_left (by omega)]
    case isFalse =>
      obtain rfl : least = most := by omega
      rw [Nat.add_sub_cancel_left, List.range'_one, List.map_singleton]
  rw [harms, TupleArms.Admits]
  simp only [reduceCtorEq, false_and, and_false, exists_false, or_false, List.mem_map,
    List.mem_range'_1]
  constructor
  · rintro ⟨count, hcount, rfl⟩
    rw [List.length_replicate]
    exact ⟨fun y hy => List.eq_of_mem_replicate hy, by omega, by omega⟩
  · rintro ⟨hall, hleast, hmost⟩
    exact ⟨xs.length, by omega, (List.eq_replicate_iff.mpr ⟨rfl, hall⟩).symm⟩

/-- One tuple with a rest admits all lengths from its own. -/
lemma admits_replicate_of_rest :
    (tupleArms (List.replicate least x) least none (some x) top).Admits xs ↔
      (∀ y ∈ xs, y = x) ∧ least ≤ xs.length := by
  have harms : tupleArms (List.replicate least x) least none (some x) top
      = ⟨[List.replicate least x], some x⟩ := by
    simp only [tupleArms, List.length_replicate, Nat.lt_irrefl, if_false]
  rw [harms, TupleArms.Admits]
  simp only [List.mem_singleton, List.getLast?_singleton, Option.some.injEq]
  constructor
  · rintro (rfl | ⟨arm, rest, count, rfl, rfl, rfl⟩)
    · exact ⟨fun y hy => List.eq_of_mem_replicate hy, Nat.le_of_eq List.length_replicate.symm⟩
    · rw [List.replicate_append_replicate, List.length_replicate]
      exact ⟨fun y hy => List.eq_of_mem_replicate hy, Nat.le_add_right _ _⟩
  · rintro ⟨hall, hleast⟩
    refine Or.inr ⟨_, x, xs.length - least, rfl, rfl, ?_⟩
    rw [List.replicate_append_replicate, Nat.add_sub_cancel' hleast]
    exact List.eq_replicate_iff.mpr ⟨rfl, hall⟩

/-- **Sequences of one type have exactly the lengths between the bounds**, if there are as many
positions as the greatest bound asks for. -/
lemma admits_tupleArms_replicate {most : Option Nat} (h : ∀ n, most = some n → least ≤ n) :
    (tupleArms (List.replicate (max (most.getD 0) least) x) least most
      (if most.isNone then some x else none) top).Admits xs ↔
      (∀ y ∈ xs, y = x) ∧ least ≤ xs.length ∧ ∀ n, most = some n → xs.length ≤ n := by
  cases most with
  | none =>
      rw [Option.getD_none, Nat.zero_max]
      simpa using admits_replicate_of_rest
  | some n =>
      rw [Option.getD_some, Nat.max_eq_left (h n rfl)]
      simpa using admits_replicate_of_most (h n rfl)

/-! ### Sequences that are too long -/

/-- The tuples of growing length up to the given one, which is the longest. -/
def growingTuples (longest : List α) (least : Nat) : List (List α) :=
  if least < longest.length then
    (List.range' least (longest.length + 1 - least)).map longest.take
  else [longest]

lemma length_le_of_mem_growingTuples {longest arm : List α}
    (h : arm ∈ growingTuples longest least) : arm.length ≤ longest.length := by
  rw [growingTuples] at h
  split at h
  · obtain ⟨count, -, rfl⟩ := List.mem_map.mp h
    exact List.length_take_le' _ _
  · rw [List.mem_singleton.mp h]

lemma getLast?_growingTuples (longest : List α) (least : Nat) :
    (growingTuples longest least).getLast? = some longest := by
  rw [growingTuples]
  split
  case isTrue hless =>
    obtain ⟨count, hcount⟩ := Nat.exists_eq_add_of_lt hless
    have hlast : longest.length + 1 - least = (count + 1) + 1 := by omega
    rw [hlast, List.range'_concat, List.map_append, List.map_singleton, List.getLast?_concat,
      List.take_of_length_le (by omega)]
  case isFalse => rfl

lemma tupleArms_of_rest (elements : List α) (least : Nat) (most : Option Nat) (r top : α) :
    tupleArms elements least most (some r) top = ⟨growingTuples elements least, some r⟩ := by
  cases most <;> (simp only [growingTuples, tupleArms]; split <;> rfl)

lemma tupleArms_of_most (elements : List α) (least most : Nat) (top : α) :
    tupleArms elements least (some most) none top = ⟨growingTuples
      (elements ++ List.replicate (most - elements.length) top) least, none⟩ := by
  rw [growingTuples, tupleArms]
  split <;> rfl

lemma tupleArms_of_none (elements : List α) (least : Nat) (top : α) :
    tupleArms elements least none none top = ⟨growingTuples elements least,
      if elements.length < least then some top else none⟩ := by
  simp only [growingTuples, tupleArms]
  split <;> rfl

/-- **Tuples with a greatest length admit a longer sequence** just if further items have a type of
their own, or there are too many positions to begin with. -/
lemma exists_admits_gt_iff {elements : List α} {rest : Option α} :
    (∃ xs, (tupleArms elements least (some most) rest top).Admits xs ∧ most < xs.length) ↔
      rest.isSome = true ∨ most < elements.length := by
  cases rest with
  | none =>
      set longest := elements ++ List.replicate (most - elements.length) top with hlongest
      have hlength : longest.length = elements.length + (most - elements.length) := by
        rw [hlongest, List.length_append, List.length_replicate]
      rw [tupleArms_of_most, ← hlongest]
      constructor
      · rintro ⟨xs, hxs | ⟨arm, rest, count, -, hrest, -⟩, hlt⟩
        · have hle := length_le_of_mem_growingTuples hxs
          exact .inr (by omega)
        · cases hrest
      · rintro (hrest | hlt)
        · cases hrest
        · exact ⟨longest, .inl (List.mem_of_getLast? (getLast?_growingTuples longest least)),
            by omega⟩
  | some r =>
      rw [tupleArms_of_rest]
      refine ⟨fun _ => .inl rfl, fun _ => ⟨elements ++ List.replicate (most + 1) r, .inr
        ⟨elements, r, most + 1, getLast?_growingTuples elements least, rfl, rfl⟩, ?_⟩⟩
      rw [List.length_append, List.length_replicate]
      omega

/-! ### Lengths and positions -/

/-- Tuples of growing length have each length once, in order. -/
lemma map_length_growingTuples {longest : List α} (h : least ≤ longest.length) :
    (growingTuples longest least).map List.length
      = List.range' least (longest.length + 1 - least) := by
  rw [growingTuples]
  split
  case isTrue =>
    rw [List.map_map]
    refine (List.map_congr_left fun count hcount => ?_).trans (List.map_id _)
    rw [List.mem_range'_1] at hcount
    exact List.length_take_of_le (by omega)
  case isFalse hless =>
    obtain rfl : least = longest.length := by omega
    rw [Nat.add_sub_cancel_left, List.range'_one, List.map_singleton]

lemma isPrefix_of_mem_growingTuples {longest arm : List α} (h : arm ∈ growingTuples longest least) :
    arm <+: longest := by
  rw [growingTuples] at h
  split at h
  · obtain ⟨count, -, rfl⟩ := List.mem_map.mp h
    exact List.take_prefix _ _
  · obtain rfl := List.mem_singleton.mp h
    exact List.prefix_rfl

/-- Tuples follow the longest one, and the rest comes after that. -/
lemma isPrefix_or_of_admits {longest : List α} {r : Option α}
    (h : (TupleArms.mk (growingTuples longest least) r).Admits xs) :
    xs <+: longest ∨ ∃ x count, r = some x ∧ xs = longest ++ List.replicate count x := by
  rcases h with harm | ⟨arm, x, count, harm, hx, rfl⟩
  · exact .inl (isPrefix_of_mem_growingTuples harm)
  · rw [getLast?_growingTuples] at harm
    exact .inr ⟨x, count, hx, by rw [Option.some.inj harm]⟩

/-- A sequence that is admitted follows the positions, and after those it repeats one type. -/
lemma exists_isPrefix_of_admits {elements : List α} {most : Option Nat} {rest : Option α}
    (h : (tupleArms elements least most rest top).Admits xs) :
    ∃ count, xs <+: elements ++ List.replicate count (rest.getD top) := by
  have hshort (hxs : xs <+: elements) :
      ∃ count, xs <+: elements ++ List.replicate count (rest.getD top) :=
    ⟨0, hxs.trans (List.prefix_append _ _)⟩
  cases rest with
  | some r =>
      rw [tupleArms_of_rest] at h
      rcases isPrefix_or_of_admits h with hxs | ⟨x, count, hx, rfl⟩
      · exact hshort hxs
      · obtain rfl := Option.some.inj hx
        exact ⟨count, List.prefix_rfl⟩
  | none =>
      cases most with
      | some most =>
          rw [tupleArms_of_most] at h
          rcases isPrefix_or_of_admits h with hxs | ⟨x, count, hx, -⟩
          · exact ⟨_, hxs⟩
          · cases hx
      | none =>
          rw [tupleArms_of_none] at h
          rcases isPrefix_or_of_admits h with hxs | ⟨x, count, hx, rfl⟩
          · exact hshort hxs
          · split at hx
            · obtain rfl := Option.some.inj hx
              exact ⟨count, List.prefix_rfl⟩
            · cases hx

/-- A sequence that is admitted has the type of a position there, and else the one type. -/
lemma getElem_of_admits {elements : List α} {most : Option Nat} {rest : Option α}
    (h : (tupleArms elements least most rest top).Admits xs) (i : Nat) (hi : i < xs.length) :
    xs[i] = elements[i]?.getD (rest.getD top) := by
  obtain ⟨count, hfollows⟩ := exists_isPrefix_of_admits h
  rw [hfollows.getElem hi, List.getElem_append]
  split
  case isTrue hlt => rw [List.getElem?_eq_getElem hlt, Option.getD_some]
  case isFalse hge =>
    rw [List.getElem_replicate, List.getElem?_eq_none (Nat.le_of_not_lt hge), Option.getD_none]

/-- With a type of further items, all lengths from the least are admitted. -/
lemma exists_admits_length_iff {elements : List α} {most : Option Nat} {r : α}
    (h : least ≤ elements.length) (n : Nat) :
    (∃ xs, (tupleArms elements least most (some r) top).Admits xs ∧ xs.length = n) ↔ least ≤ n := by
  rw [tupleArms_of_rest]
  have hlengths := map_length_growingTuples h
  constructor
  · rintro ⟨xs, hxs | ⟨arm, x, count, harm, -, rfl⟩, rfl⟩
    · have hmem := List.mem_map_of_mem (f := List.length) hxs
      rw [hlengths, List.mem_range'_1] at hmem
      exact hmem.1
    · rw [getLast?_growingTuples] at harm
      rw [← Option.some.inj harm, List.length_append]
      omega
  · intro hn
    rcases Nat.lt_or_ge elements.length n with hlong | hshort
    · refine ⟨elements ++ List.replicate (n - elements.length) r,
        .inr ⟨elements, r, _, getLast?_growingTuples elements least, rfl, rfl⟩, ?_⟩
      rw [List.length_append, List.length_replicate]
      omega
    · have hmem : n ∈ (growingTuples elements least).map List.length := by
        rw [hlengths, List.mem_range'_1]
        omega
      obtain ⟨arm, harm, hlength⟩ := List.mem_map.mp hmem
      exact ⟨arm, .inl harm, hlength⟩

/-- **Tuples admit exactly the lengths between the bounds**, and each position has its own type. -/
theorem tupleArms_admits_bounded (elements : List α) (least : Nat) (most : Option Nat)
    (rest : Option α) (top : α) (hbounds : ∀ n, most = some n → least ≤ n) :
    (∀ n, rest = none → most = some n → elements.length ≤ n →
      (tupleArms elements least most rest top).arms.map List.length
        = List.range' least (n + 1 - least) ∧
      (tupleArms elements least most rest top).rest = none) ∧
    (rest = none → most = none → least ≤ elements.length →
      (tupleArms elements least most rest top).arms.map List.length
        = List.range' least (elements.length + 1 - least) ∧
      (tupleArms elements least most rest top).rest = none) ∧
    (rest.isSome = true → least ≤ elements.length → ∀ n,
      (∃ xs, (tupleArms elements least most rest top).Admits xs ∧ xs.length = n) ↔ least ≤ n) ∧
    ∀ xs, (tupleArms elements least most rest top).Admits xs → ∀ i (hi : i < xs.length),
      xs[i] = elements[i]?.getD (rest.getD top) := by
  refine ⟨?_, ?_, ?_, fun xs hxs i hi => getElem_of_admits hxs i hi⟩
  · rintro n rfl rfl hlength
    have hleast := hbounds n rfl
    have hlongest : (elements ++ List.replicate (n - elements.length) top).length = n := by
      rw [List.length_append, List.length_replicate]
      omega
    rw [tupleArms_of_most]
    refine ⟨?_, rfl⟩
    dsimp only
    rw [map_length_growingTuples (hlongest.symm ▸ hleast), hlongest]
  · rintro rfl rfl hlength
    rw [tupleArms_of_none, if_neg (Nat.not_lt.mpr hlength)]
    exact ⟨map_length_growingTuples hlength, rfl⟩
  · intro hrest hlength
    obtain ⟨r, rfl⟩ := Option.isSome_iff_exists.mp hrest
    exact exists_admits_length_iff hlength

/-- One position under bounds from one to three, and two positions with a rest. -/
theorem tupleArms_admits_bounded_filled :
    (tupleArms ["A"] 1 (some 3) none "unknown").arms.map List.length = [1, 2, 3] ∧
    (∀ xs, (tupleArms ["A"] 1 (some 3) none "unknown").Admits xs → ∀ i (hi : i < xs.length),
      xs[i] = if i = 0 then "A" else "unknown") ∧
    ∀ n, (∃ xs, (tupleArms ["A", "B"] 1 none (some "C") "unknown").Admits xs ∧ xs.length = n) ↔
      1 ≤ n := by
  have hmost := tupleArms_admits_bounded ["A"] 1 (some 3) none "unknown" (by simp)
  have hrest := tupleArms_admits_bounded ["A", "B"] 1 none (some "C") "unknown" (by simp)
  refine ⟨(hmost.1 3 rfl rfl (by decide)).1, fun xs hxs i hi => ?_, hrest.2.2.1 rfl (by decide)⟩
  rw [hmost.2.2.2 xs hxs i hi]
  cases i <;> rfl

end Arms

/-- The arms of a tuple; a position that nothing describes has no type. -/
def TupleType.arms (t : TupleType) : TupleArms (Option TypeId) :=
  tupleArms (t.params.map some) t.least t.most (t.rest.map some) none

lemma TupleType.exists_admits_gt_iff {t : TupleType} {most : Nat} (h : t.most = some most) :
    (∃ xs, t.arms.Admits xs ∧ most < xs.length) ↔ t.rest.isSome = true ∨
    most < t.params.length := by
  rw [arms, h, SchemaDecl.exists_admits_gt_iff, Option.isSome_map, List.length_map]

/-- The sequences of types that a type admits: an array those of its element, of any length, and a
tuple those of its arms. -/
def Shape.Admits : Shape → List (Option TypeId) → Prop
  | .array element, xs => ∀ x ∈ xs, x = some element
  | .tuple t, xs => t.arms.Admits xs
  | _, _ => False

/-- The sequences that are admitted are those of one type with a length between bounds. -/
def Shape.AdmitsOnly (shape : Shape) (e : TypeId) (least : Nat) (most : Option Nat) : Prop :=
  ∀ xs, shape.Admits xs ↔
    (∀ x ∈ xs, x = some e) ∧ least ≤ xs.length ∧ ∀ n, most = some n → xs.length ≤ n

namespace Shape

variable {e : TypeId} {least : Nat} {most : Option Nat} {shape : Shape}

lemma admitsOnly_array : (Shape.array e).AdmitsOnly e 0 none := by
  intro xs
  simp [Admits]

lemma admitsOnly_tuple (h : ∀ n, most = some n → least ≤ n) :
    (Shape.tuple ⟨List.replicate (max (most.getD 0) least) e, least, most,
      if most.isNone then some e else none⟩).AdmitsOnly e least most := by
  intro xs
  have harms : (TupleType.mk (List.replicate (max (most.getD 0) least) e) least most
      (if most.isNone then some e else none)).arms
      = tupleArms (List.replicate (max (most.getD 0) least) (some e)) least most
        (if most.isNone then some (some e) else none) none := by
    rw [TupleType.arms, List.map_replicate]
    cases most <;> rfl
  rw [Admits, harms]
  exact admits_tupleArms_replicate h

/-- The lengths of the sequences are those between the bounds. -/
lemma AdmitsOnly.exists_length_iff (h : shape.AdmitsOnly e least most) (n : Nat) :
    (∃ xs, shape.Admits xs ∧ xs.length = n) ↔ least ≤ n ∧ ∀ m, most = some m → n ≤ m := by
  constructor
  · rintro ⟨xs, hxs, rfl⟩
    exact ((h xs).mp hxs).2
  · intro hn
    refine ⟨List.replicate n (some e), (h _).mpr ⟨fun x hx => List.eq_of_mem_replicate hx, ?_⟩,
      List.length_replicate⟩
    rw [List.length_replicate]
    exact hn

end Shape

end SchemaDecl
