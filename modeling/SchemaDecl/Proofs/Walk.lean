/-
Coverage of walks.

A walk enters exactly the nodes that can be reached from where it starts, each of them once, and
leaves each of them once. The fuel that a walk is given is enough for that, however the edges run in
circles.

* `Walk.Reaches`: a node can be reached from another along edges.
* `Walk.Covers`: what a stretch of a walk does on top of the steps before it: it enters new nodes
  only, leaves what it enters, comes to all its targets, and misses no edge of a node it enters.
* `Walk.exists_covers_visit`: going on with a walk along an edge is such a stretch.
* `Walk.enter_mem_record_iff`, `Walk.leave_mem_record_iff`, `Walk.nodup_record`: a whole walk.
* `Walk.mem_before_of_reaches`: where nothing leads back to itself, a walk leaves inner nodes first.
-/
import Mathlib.Data.Finset.Card
import Mathlib.Logic.Relation
import SchemaDecl.Walk

namespace SchemaDecl.Walk

variable {κ : Type} (next : Nat → List (κ × Nat))

/-- There is an edge from `a` to `b`. -/
def Edge (a b : Nat) : Prop := ∃ label, (label, b) ∈ next a

/-- `b` can be reached from `a` along edges. -/
def Reaches : Nat → Nat → Prop := Relation.ReflTransGen (Edge next)

/-! ### What a log has entered and left -/

/-- The nodes that the steps enter. -/
def entries (log : List (Step κ)) : List Nat := (log.filterMap Step.entered?).map (·.2)

/-- The nodes that the steps leave. -/
def exits (log : List (Step κ)) : List Nat := log.filterMap Step.left?

@[simp] lemma entries_nil : entries ([] : List (Step κ)) = [] := rfl

@[simp] lemma entries_enter (label : κ) (id : Nat) (log : List (Step κ)) :
    entries (.enter label id :: log) = id :: entries log := rfl

@[simp] lemma entries_leave (id : Nat) (log : List (Step κ)) :
    entries (.leave id :: log) = entries log := rfl

@[simp] lemma entries_append (new log : List (Step κ)) :
    entries (new ++ log) = entries new ++ entries log := by
  simp [entries]

@[simp] lemma exits_nil : exits ([] : List (Step κ)) = [] := rfl

@[simp] lemma exits_enter (label : κ) (id : Nat) (log : List (Step κ)) :
    exits (.enter label id :: log) = exits log := rfl

@[simp] lemma exits_leave (id : Nat) (log : List (Step κ)) :
    exits (.leave id :: log) = id :: exits log := rfl

@[simp] lemma exits_append (new log : List (Step κ)) :
    exits (new ++ log) = exits new ++ exits log := by
  simp [exits]

lemma mem_entries {log : List (Step κ)} {id : Nat} :
    id ∈ entries log ↔ ∃ label, Step.enter label id ∈ log := by
  induction log with
  | nil => simp
  | cons step log ih => cases step <;> simp [ih, exists_or, eq_comm]

lemma mem_exits {log : List (Step κ)} {id : Nat} : id ∈ exits log ↔ Step.leave id ∈ log := by
  induction log with
  | nil => simp
  | cons step log ih => cases step <;> simp [ih]

/-- The test that a walk makes before it enters a node. -/
lemma any_enters_iff {log : List (Step κ)} {id : Nat} :
    log.any (Step.enters id) = true ↔ id ∈ entries log := by
  induction log with
  | nil => simp
  | cons step log ih =>
      rw [List.any_cons, Bool.or_eq_true, ih]
      cases step with
      | enter label i => rw [Step.enters, beq_iff_eq, entries_enter, List.mem_cons, eq_comm]
      | leave i => simp [Step.enters]

/-- Steps that enter no node twice and leave no node twice are all different. -/
lemma nodup_of_entries_exits {log : List (Step κ)} (hin : (entries log).Nodup)
    (hout : (exits log).Nodup) : log.Nodup := by
  induction log with
  | nil => exact List.nodup_nil
  | cons step log ih =>
      cases step with
      | enter label id =>
          rw [entries_enter, List.nodup_cons] at hin
          exact List.nodup_cons.mpr
            ⟨fun h => hin.1 (mem_entries.mpr ⟨label, h⟩), ih hin.2 hout⟩
      | leave id =>
          rw [exits_leave, List.nodup_cons] at hout
          exact List.nodup_cons.mpr ⟨fun h => hout.1 (mem_exits.mpr h), ih hin hout.2⟩

/-! ### Stretches of a walk -/

/-- The steps `new`, made on top of `log`, follow everything that `targets` lead to: they enter new
nodes only, leave what they enter, and afterwards every target and every neighbour of a new node has
been entered. -/
structure Covers (log new : List (Step κ)) (targets : List Nat) : Prop where
  nodup : (entries new).Nodup
  fresh : ∀ id ∈ entries new, id ∉ entries log
  perm : (exits new).Perm (entries new)
  reached : ∀ id ∈ entries new, ∃ t ∈ targets, Reaches next t id
  hit : ∀ t ∈ targets, t ∈ entries (new ++ log)
  closed : ∀ a ∈ entries new, ∀ b, Edge next a b → b ∈ entries (new ++ log)

variable {next}

lemma Covers.nil {log : List (Step κ)} {targets : List Nat} (h : ∀ t ∈ targets, t ∈ entries log) :
    Covers next log [] targets where
  nodup := List.nodup_nil
  fresh := by simp
  perm := .refl _
  reached := by simp
  hit := h
  closed := by simp

/-- One stretch after another. -/
lemma Covers.append {log new new' : List (Step κ)} {ts ts' : List Nat}
    (h : Covers next log new ts) (h' : Covers next (new ++ log) new' ts') :
    Covers next log (new' ++ new) (ts ++ ts') where
  nodup := by
    rw [entries_append]
    refine List.nodup_append'.mpr ⟨h'.nodup, h.nodup, fun id hid hid' => h'.fresh id hid ?_⟩
    rw [entries_append]
    exact List.mem_append_left _ hid'
  fresh := by
    intro id hid hlog
    rw [entries_append, List.mem_append] at hid
    rcases hid with hid | hid
    · exact h'.fresh id hid (by rw [entries_append]; exact List.mem_append_right _ hlog)
    · exact h.fresh id hid hlog
  perm := by
    rw [entries_append, exits_append]
    exact h'.perm.append h.perm
  reached := by
    intro id hid
    rw [entries_append, List.mem_append] at hid
    rcases hid with hid | hid
    · obtain ⟨t, ht, hr⟩ := h'.reached id hid
      exact ⟨t, List.mem_append_right _ ht, hr⟩
    · obtain ⟨t, ht, hr⟩ := h.reached id hid
      exact ⟨t, List.mem_append_left _ ht, hr⟩
  hit := by
    intro t ht
    rw [List.append_assoc, entries_append, List.mem_append]
    rcases List.mem_append.mp ht with ht | ht
    · exact Or.inr (h.hit t ht)
    · have := h'.hit t ht
      rwa [entries_append, List.mem_append] at this
  closed := by
    intro a ha b hab
    rw [entries_append, List.mem_append] at ha
    rw [List.append_assoc, entries_append, List.mem_append]
    rcases ha with ha | ha
    · have := h'.closed a ha b hab
      rwa [entries_append, List.mem_append] at this
    · exact Or.inr (h.closed a ha b hab)

/-- Entering a node, following its edges, and leaving it. -/
lemma Covers.around {log new : List (Step κ)} {label : κ} {id : Nat} (hid : id ∉ entries log)
    (h : Covers next (.enter label id :: log) new ((next id).map (·.2))) :
    Covers next log (.leave id :: (new ++ [.enter label id])) [id] where
  nodup := by
    rw [entries_leave, entries_append]
    refine List.nodup_append'.mpr ⟨h.nodup, by simp, fun x hx hx' => h.fresh x hx ?_⟩
    simpa using Or.inl (by simpa using hx')
  fresh := by
    intro x hx hlog
    rw [entries_leave, entries_append, List.mem_append] at hx
    rcases hx with hx | hx
    · exact h.fresh x hx (List.mem_cons_of_mem _ hlog)
    · rw [entries_enter, entries_nil, List.mem_singleton] at hx
      exact hid (hx ▸ hlog)
  perm := by
    simp only [exits_leave, exits_append, exits_enter, exits_nil, List.append_nil, entries_leave,
      entries_append, entries_enter, entries_nil]
    exact (h.perm.cons id).trans (List.perm_append_singleton id _).symm
  reached := by
    intro x hx
    refine ⟨id, List.mem_singleton_self id, ?_⟩
    rw [entries_leave, entries_append, List.mem_append] at hx
    rcases hx with hx | hx
    · obtain ⟨t, ht, hr⟩ := h.reached x hx
      obtain ⟨⟨l, t'⟩, hl, rfl⟩ := List.mem_map.mp ht
      exact Relation.ReflTransGen.head ⟨l, hl⟩ hr
    · rw [entries_enter, entries_nil, List.mem_singleton] at hx
      exact hx ▸ Relation.ReflTransGen.refl
  hit := by simp
  closed := by
    intro a ha b hab
    rw [entries_leave, entries_append, List.mem_append] at ha
    rw [List.cons_append, entries_leave, List.append_assoc]
    rcases ha with ha | ha
    · exact h.closed a ha b hab
    · rw [entries_enter, entries_nil, List.mem_singleton] at ha
      obtain ⟨l, hl⟩ := hab
      exact h.hit b (List.mem_map.mpr ⟨(l, b), ha ▸ hl, rfl⟩)

/-! ### Enough fuel -/

/-- How many of the nodes below `size` have not been entered. -/
def unseen (size : Nat) (log : List (Step κ)) : Nat :=
  ((Finset.range size).filter (· ∉ entries log)).card

lemma unseen_le (size : Nat) (log : List (Step κ)) : unseen size log ≤ size := by
  calc unseen size log ≤ (Finset.range size).card := Finset.card_filter_le _ _
    _ = size := Finset.card_range size

lemma unseen_append_le (size : Nat) (new log : List (Step κ)) :
    unseen size (new ++ log) ≤ unseen size log := by
  refine Finset.card_le_card fun id hid => ?_
  rw [Finset.mem_filter] at hid ⊢
  refine ⟨hid.1, fun h => hid.2 ?_⟩
  rw [entries_append]
  exact List.mem_append_right _ h

lemma unseen_enter_lt {size : Nat} {log : List (Step κ)} (label : κ) {id : Nat} (hlt : id < size)
    (hid : id ∉ entries log) : unseen size (.enter label id :: log) < unseen size log := by
  refine Finset.card_lt_card (Finset.ssubset_iff_of_subset ?_ |>.mpr ⟨id, ?_, ?_⟩)
  · intro x hx
    rw [Finset.mem_filter] at hx ⊢
    exact ⟨hx.1, fun h => hx.2 (List.mem_cons_of_mem _ h)⟩
  · exact Finset.mem_filter.mpr ⟨Finset.mem_range.mpr hlt, hid⟩
  · simp

/-- Following a list of edges, one after the other, if following one of them is a stretch. -/
lemma exists_covers_foldl {size fuel : Nat}
    (ih : ∀ (log : List (Step κ)) (e : κ × Nat), unseen size log < fuel →
      ∃ new, visit next fuel log e = new ++ log ∧ Covers next log new [e.2])
    (es : List (κ × Nat)) (log : List (Step κ)) (hfuel : unseen size log < fuel) :
    ∃ new, es.foldl (visit next fuel) log = new ++ log ∧ Covers next log new (es.map (·.2)) := by
  induction es generalizing log with
  | nil => exact ⟨[], rfl, .nil (by simp)⟩
  | cons e es ihes =>
      obtain ⟨new, hnew, hcov⟩ := ih log e hfuel
      obtain ⟨new', hnew', hcov'⟩ :=
        ihes (new ++ log) (lt_of_le_of_lt (unseen_append_le size new log) hfuel)
      refine ⟨new' ++ new, ?_, hcov.append hcov'⟩
      rw [List.foldl_cons, hnew, hnew', List.append_assoc]

/-- Going on with a walk along an edge, with more fuel than there are nodes left to enter. -/
theorem exists_covers_visit {size : Nat} (hsize : ∀ id, size ≤ id → next id = []) (fuel : Nat)
    (log : List (Step κ)) (e : κ × Nat) (hfuel : unseen size log < fuel) :
    ∃ new, visit next fuel log e = new ++ log ∧ Covers next log new [e.2] := by
  induction fuel generalizing log e with
  | zero => exact absurd hfuel (Nat.not_lt_zero _)
  | succ fuel ih =>
      obtain ⟨label, id⟩ := e
      by_cases hid : id ∈ entries log
      · refine ⟨[], ?_, .nil (by simpa using hid)⟩
        rw [visit, if_pos (any_enters_iff.mpr hid), List.nil_append]
      · rw [visit, if_neg (fun h => hid (any_enters_iff.mp h))]
        -- a node without edges needs no fuel below it; any other one uses up a node not yet seen
        obtain ⟨new, hnew, hcov⟩ : ∃ new,
            (next id).foldl (visit next fuel) (.enter label id :: log)
              = new ++ .enter label id :: log
            ∧ Covers next (.enter label id :: log) new ((next id).map (·.2)) := by
          by_cases hlt : id < size
          · refine exists_covers_foldl ih _ _ ?_
            have := unseen_enter_lt label hlt hid
            omega
          · rw [hsize id (by omega)]
            exact ⟨[], rfl, .nil (by simp)⟩
        exact ⟨.leave id :: (new ++ [.enter label id]), by simp [hnew], hcov.around hid⟩

/-! ### Whole walks -/

section Record

variable {size : Nat} (hsize : ∀ id, size ≤ id → next id = []) (start : κ × Nat)
include hsize

/-- A whole walk covers what can be reached from its start. -/
lemma covers_record : Covers next [] (record next size start).reverse [start.2] := by
  obtain ⟨new, hnew, hcov⟩ := exists_covers_visit hsize (size + 1) [] start
    (Nat.lt_succ_of_le (unseen_le size []))
  rw [record, List.reverse_reverse, hnew, List.append_nil]
  exact hcov

/-- A walk enters exactly what can be reached. -/
theorem enter_mem_record_iff (id : Nat) :
    (∃ label, Step.enter label id ∈ record next size start) ↔ Reaches next start.2 id := by
  have hcov := covers_record hsize start
  have hmem : (∃ label, Step.enter label id ∈ record next size start)
      ↔ id ∈ entries (record next size start).reverse := by
    simp [mem_entries]
  rw [hmem]
  clear hmem
  constructor
  · intro h
    obtain ⟨t, ht, hr⟩ := hcov.reached id h
    rwa [List.mem_singleton.mp ht] at hr
  · intro h
    -- the set of entered nodes holds the start and is closed under edges
    induction h with
    | refl => simpa using hcov.hit start.2 (List.mem_singleton_self _)
    | tail _ hab ih => simpa using hcov.closed _ ih _ hab

/-- A walk leaves exactly what can be reached. -/
theorem leave_mem_record_iff (id : Nat) :
    Step.leave id ∈ record next size start ↔ Reaches next start.2 id := by
  have hperm := (covers_record hsize start).perm
  rw [← enter_mem_record_iff hsize start id, ← List.mem_reverse, ← mem_exits, hperm.mem_iff,
    mem_entries]
  simp

/-- A walk makes no step twice. -/
theorem nodup_record : (record next size start).Nodup := by
  have hcov := covers_record hsize start
  exact List.nodup_reverse.mp
    (nodup_of_entries_exits hcov.nodup (hcov.perm.nodup_iff.mpr hcov.nodup))

/-- The nodes that a walk leaves are the nodes that can be reached. -/
theorem mem_left_iff (id : Nat) : id ∈ left next size start ↔ Reaches next start.2 id := by
  rw [← leave_mem_record_iff hsize start id]
  exact mem_exits

/-- A walk leaves no node twice. -/
theorem nodup_left : (left next size start).Nodup := by
  have hcov := covers_record hsize start
  have hleft : left next size start = (exits (record next size start).reverse).reverse := by
    simp [left, exits, List.filterMap_reverse]
  rw [hleft]
  exact List.nodup_reverse.mpr (hcov.perm.nodup_iff.mpr hcov.nodup)

/-- The nodes that a walk enters are the nodes that can be reached. -/
theorem mem_entered_iff (id : Nat) :
    id ∈ (entered next size start).map (·.2) ↔ Reaches next start.2 id := by
  rw [← enter_mem_record_iff hsize start id]
  exact mem_entries

/-- A walk enters no node twice. -/
theorem nodup_entered : ((entered next size start).map (·.2)).Nodup := by
  have hcov := (covers_record hsize start).nodup
  have : (entered next size start).map (·.2)
      = (entries (record next size start).reverse).reverse := by
    simp [entered, entries, List.filterMap_reverse]
  rw [this]
  exact List.nodup_reverse.mpr hcov

end Record

/-! ### The edges of a walk -/

/-- A walk enters nodes along its edges. -/
lemma entered_visit {next : Nat → List (κ × Nat)} {P : κ × Nat → Prop}
    (hnext : ∀ id, ∀ e ∈ next id, P e) (fuel : Nat) {log : List (Step κ)}
    (hlog : ∀ e ∈ log.filterMap Step.entered?, P e) {e : κ × Nat} (he : P e) :
    ∀ e' ∈ (visit next fuel log e).filterMap Step.entered?, P e' := by
  induction fuel generalizing log e with
  | zero => exact hlog
  | succ fuel ih =>
      obtain ⟨label, id⟩ := e
      rw [visit]
      split
      · exact hlog
      · have hfold (es : List (κ × Nat)) (hes : ∀ e ∈ es, P e) {log : List (Step κ)}
            (hlog : ∀ e ∈ log.filterMap Step.entered?, P e) :
            ∀ e ∈ (es.foldl (visit next fuel) log).filterMap Step.entered?, P e := by
          induction es generalizing log with
          | nil => exact hlog
          | cons e es ihes =>
              obtain ⟨he, hes⟩ := List.forall_mem_cons.mp hes
              exact ihes hes (ih hlog he)
        exact hfold (next id) (hnext id) (List.forall_mem_cons.mpr ⟨he, hlog⟩)

lemma eq_start_or_mem_next {next : Nat → List (κ × Nat)} {size : Nat} {start e : κ × Nat}
    (h : e ∈ entered next size start) : e = start ∨ ∃ id, e ∈ next id := by
  rw [entered, record, List.filterMap_reverse, List.mem_reverse] at h
  exact entered_visit (P := fun e => e = start ∨ ∃ id, e ∈ next id)
    (fun id e he => Or.inr ⟨id, he⟩) (size + 1) (by simp) (Or.inl rfl) e h

/-! ### The order of leaving -/

/-- Whatever the steps leave, they have left its neighbours before. The latest step comes first. -/
def InnerFirst (next : Nat → List (κ × Nat)) : List (Step κ) → Prop
  | [] => True
  | .enter _ _ :: log => InnerFirst next log
  | .leave id :: log => (∀ b, Edge next id b → b ∈ exits log) ∧ InnerFirst next log

section Acyclic

open Relation

variable {next : Nat → List (κ × Nat)} {size : Nat}

/-- All neighbours of a node stand further down among the exits. -/
lemma InnerFirst.mem_of_edge {log : List (Step κ)} (h : InnerFirst next log)
    {later earlier : List Nat} {a c : Nat} (hlog : exits log = later ++ a :: earlier)
    (hac : Edge next a c) : c ∈ earlier := by
  induction log generalizing later with
  | nil => simp at hlog
  | cons step log ih =>
      cases step with
      | enter label i => exact ih h hlog
      | leave i =>
          rw [exits_leave] at hlog
          cases later with
          | nil =>
              obtain ⟨rfl, rfl⟩ := List.cons.inj hlog
              exact h.1 c hac
          | cons i' later => exact ih h.2 (List.cons.inj hlog).2

/-- Following a list of edges leaves neighbours first, if following one of them does. All nodes that
have been entered and not left lead on to the ends of the edges. -/
lemma innerFirst_foldl (hsize : ∀ id, size ≤ id → next id = []) {fuel : Nat}
    (ih : ∀ (log : List (Step κ)) (e : κ × Nat), unseen size log < fuel → InnerFirst next log →
      (∀ a ∈ entries log, a ∉ exits log → TransGen (Edge next) a e.2) →
      (∀ x, Reaches next e.2 x → ¬ TransGen (Edge next) x x) →
      InnerFirst next (visit next fuel log e))
    (es : List (κ × Nat)) (log : List (Step κ)) (hfuel : unseen size log < fuel)
    (hlog : InnerFirst next log)
    (hopen : ∀ e ∈ es, ∀ a ∈ entries log, a ∉ exits log → TransGen (Edge next) a e.2)
    (hacyclic : ∀ e ∈ es, ∀ x, Reaches next e.2 x → ¬ TransGen (Edge next) x x) :
    InnerFirst next (es.foldl (visit next fuel) log) := by
  induction es generalizing log with
  | nil => exact hlog
  | cons e es ihes =>
      obtain ⟨hopen, hopen'⟩ := List.forall_mem_cons.mp hopen
      obtain ⟨hacyclic, hacyclic'⟩ := List.forall_mem_cons.mp hacyclic
      have hvisit := ih log e hfuel hlog hopen hacyclic
      obtain ⟨new, hnew, hcov⟩ := exists_covers_visit hsize fuel log e hfuel
      rw [List.foldl_cons]
      rw [hnew] at hvisit ⊢
      refine ihes (new ++ log) (lt_of_le_of_lt (unseen_append_le size new log) hfuel) hvisit
        (fun e' he' a ha hexit => ?_) hacyclic'
      -- what the stretch enters it leaves as well
      rw [exits_append, List.mem_append, not_or] at hexit
      rw [entries_append, List.mem_append] at ha
      exact hopen' e' he' a (ha.resolve_left fun h => hexit.1 (hcov.perm.mem_iff.mpr h)) hexit.2

/-- Where nothing leads back to itself, a walk leaves neighbours first. -/
lemma innerFirst_visit (hsize : ∀ id, size ≤ id → next id = []) (fuel : Nat)
    (log : List (Step κ)) (e : κ × Nat) (hfuel : unseen size log < fuel)
    (hlog : InnerFirst next log)
    (hopen : ∀ a ∈ entries log, a ∉ exits log → TransGen (Edge next) a e.2)
    (hacyclic : ∀ x, Reaches next e.2 x → ¬ TransGen (Edge next) x x) :
    InnerFirst next (visit next fuel log e) := by
  induction fuel generalizing log e with
  | zero => exact absurd hfuel (Nat.not_lt_zero _)
  | succ fuel ih =>
      obtain ⟨label, id⟩ := e
      rw [visit]
      by_cases hid : id ∈ entries log
      · rw [if_pos (any_enters_iff.mpr hid)]
        exact hlog
      · rw [if_neg (fun h => hid (any_enters_iff.mp h))]
        by_cases hlt : id < size
        · have hfuel' : unseen size (.enter label id :: log) < fuel := by
            have := unseen_enter_lt label hlt hid
            omega
          have hedge {e : κ × Nat} (he : e ∈ next id) : Edge next id e.2 := ⟨e.1, he⟩
          have hopen' : ∀ a ∈ entries (.enter label id :: log),
              a ∉ exits (.enter label id :: log) → a = id ∨ TransGen (Edge next) a id := by
            intro a ha hexit
            rw [entries_enter] at ha
            exact (List.mem_cons.mp ha).imp_right fun ha => hopen a ha hexit
          have hfold := innerFirst_foldl hsize ih (next id) (.enter label id :: log) hfuel' hlog
            (fun e he a ha hexit => (hopen' a ha hexit).elim (fun heq => heq ▸ .single (hedge he))
              fun h => h.tail (hedge he))
            fun e he x hx => hacyclic x (.head (hedge he) hx)
          obtain ⟨new, hnew, hcov⟩ := exists_covers_foldl
            (fun log e h => exists_covers_visit hsize fuel log e h) (next id) _ hfuel'
          rw [hnew] at hfold ⊢
          refine ⟨fun b hb => ?_, hfold⟩
          -- a neighbour that has not been left is the node itself, or leads on to it
          obtain ⟨l, hl⟩ := hb
          have hmem := hcov.hit b (List.mem_map.mpr ⟨(l, b), hl, rfl⟩)
          by_contra hexit
          rw [exits_append, List.mem_append, not_or] at hexit
          rw [entries_append, List.mem_append] at hmem
          have hentry := hmem.resolve_left fun h => hexit.1 (hcov.perm.mem_iff.mpr h)
          refine hacyclic b (.single ⟨l, hl⟩) ?_
          rcases hopen' b hentry hexit.2 with rfl | hback
          · exact .single ⟨l, hl⟩
          · exact hback.tail ⟨l, hl⟩
        · rw [hsize id (Nat.le_of_not_lt hlt)]
          refine ⟨fun b hb => ?_, hlog⟩
          obtain ⟨l, hl⟩ := hb
          rw [hsize id (Nat.le_of_not_lt hlt)] at hl
          cases hl

/-- **Where nothing leads back to itself, a walk leaves all that a node leads to before it leaves
the node.** -/
theorem mem_before_of_reaches (hsize : ∀ id, size ≤ id → next id = []) {start : κ × Nat}
    (hacyclic : ∀ x, Reaches next start.2 x → ¬ TransGen (Edge next) x x) {before after : List Nat}
    {id b : Nat} (hleft : left next size start = before ++ id :: after)
    (hb : TransGen (Edge next) id b) : b ∈ before := by
  have hinner := innerFirst_visit hsize (size + 1) [] start (Nat.lt_succ_of_le (unseen_le size []))
    trivial (by simp) hacyclic
  have hexits : exits (visit next (size + 1) [] start) = after.reverse ++ id :: before.reverse := by
    have hreverse := congrArg List.reverse hleft
    simpa [left, record, exits, List.filterMap_reverse] using hreverse
  generalize visit next (size + 1) [] start = log at hinner hexits
  have hbelow : ∃ later earlier, exits log = later ++ b :: earlier ∧
      (b :: earlier) ⊆ before.reverse := by
    induction hb with
    | single hstep =>
        obtain ⟨l₁, l₂, hsplit⟩ := List.append_of_mem (hinner.mem_of_edge hexits hstep)
        refine ⟨after.reverse ++ id :: l₁, l₂, ?_, ?_⟩
        · rw [hexits, hsplit, List.append_assoc, List.cons_append]
        · rw [hsplit]
          exact List.subset_append_right _ _
    | @tail a c _ hstep ih =>
        obtain ⟨later, earlier, hlog, hsub⟩ := ih
        obtain ⟨l₁, l₂, hsplit⟩ := List.append_of_mem (hinner.mem_of_edge hlog hstep)
        refine ⟨later ++ a :: l₁, l₂, ?_, fun x hx => hsub ?_⟩
        · rw [hlog, hsplit, List.append_assoc, List.cons_append]
        · rw [hsplit]
          exact List.mem_cons_of_mem _ (List.mem_append_right _ hx)
  obtain ⟨later, earlier, -, hsub⟩ := hbelow
  exact List.mem_reverse.mp (hsub List.mem_cons_self)

end Acyclic

end SchemaDecl.Walk
