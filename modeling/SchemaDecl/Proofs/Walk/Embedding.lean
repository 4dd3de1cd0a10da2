/-
Walks over a graph that holds another one with its nodes renumbered.

The larger graph may have nodes of its own, to which edges lead from everywhere, but from which no
edge leads back. A walk enters the nodes of the smaller graph in the same order in both, whatever
it enters between them.

* `Walk.Goes`: walking along a list of edges, as a relation between what was logged before and
  after; `goes_foldl` and `Goes.unique` say that it is what `Walk.visit` does, whatever the fuel.
* `Walk.Grown`, `Walk.grown_entered`: every node is entered from one that was entered before it.
* `Walk.Embeds`: the two graphs.
* `Walk.Embeds.entered`: the nodes that are entered in the larger graph, the spare ones left out.
* `Walk.entered_congr`: edges that are not reached do not count.
-/
import SchemaDecl.Proofs.Walk

namespace SchemaDecl.Walk

variable {κ : Type}

/-- A walk along some edges goes from one log to another. -/
inductive Goes (next : Nat → List (κ × Nat)) :
    List (Step κ) → List (κ × Nat) → List (Step κ) → Prop
  | done (log : List (Step κ)) : Goes next log [] log
  | seen {log out : List (Step κ)} {label : κ} {id : Nat} {es : List (κ × Nat)}
      (hid : id ∈ entries log) (hrest : Goes next log es out) :
      Goes next log ((label, id) :: es) out
  | fresh {log mid out : List (Step κ)} {label : κ} {id : Nat} {es : List (κ × Nat)}
      (hid : id ∉ entries log) (hinside : Goes next (.enter label id :: log) (next id) mid)
      (hrest : Goes next (.leave id :: mid) es out) : Goes next log ((label, id) :: es) out

section Goes

variable {next : Nat → List (κ × Nat)}

/-- A walk goes to one log only. -/
lemma Goes.unique {log out out' : List (Step κ)} {es : List (κ × Nat)} (h : Goes next log es out)
    (h' : Goes next log es out') : out = out' := by
  induction h generalizing out' with
  | done log => cases h'; rfl
  | seen hid _ ih =>
      cases h' with
      | seen _ hrest => exact ih hrest
      | fresh hid' _ _ => exact absurd hid hid'
  | fresh hid _ _ ihinside ihrest =>
      cases h' with
      | seen hid' _ => exact absurd hid' hid
      | fresh _ hinside hrest =>
          obtain rfl := ihinside hinside
          exact ihrest hrest

/-- With enough fuel, visiting goes along the edges. -/
lemma goes_foldl {size : Nat} (hsize : ∀ id, size ≤ id → next id = []) (fuel : Nat)
    (es : List (κ × Nat)) (log : List (Step κ)) (hfuel : unseen size log < fuel) :
    Goes next log es (es.foldl (visit next fuel) log) := by
  induction fuel generalizing es log with
  | zero => exact absurd hfuel (Nat.not_lt_zero _)
  | succ fuel ih =>
      induction es generalizing log with
      | nil => exact .done log
      | cons e es ihes =>
          obtain ⟨label, id⟩ := e
          have hrest : Goes next (visit next (fuel + 1) log (label, id)) es
              (es.foldl (visit next (fuel + 1)) (visit next (fuel + 1) log (label, id))) := by
            obtain ⟨new, hnew, -⟩ := exists_covers_visit hsize (fuel + 1) log (label, id) hfuel
            rw [hnew]
            exact ihes _ (lt_of_le_of_lt (unseen_append_le size new log) hfuel)
          rw [List.foldl_cons]
          by_cases hid : id ∈ entries log
          · rw [visit, if_pos (any_enters_iff.mpr hid)] at hrest ⊢
            exact .seen hid hrest
          · rw [visit, if_neg (fun h => hid (any_enters_iff.mp h))] at hrest ⊢
            refine .fresh hid ?_ hrest
            by_cases hlt : id < size
            · have := unseen_enter_lt label hlt hid
              exact ih (next id) _ (by omega)
            · rw [hsize id (Nat.le_of_not_lt hlt)]
              exact .done _

/-- What a walk logs is where it goes. -/
lemma goes_record {size : Nat} (hsize : ∀ id, size ≤ id → next id = []) (start : κ × Nat) :
    Goes next [] [start] (record next size start).reverse := by
  rw [record, List.reverse_reverse]
  exact goes_foldl hsize (size + 1) [start] [] (Nat.lt_succ_of_le (unseen_le size []))

/-- A walk adds to what was entered, and leaves only what it has entered. -/
lemma Goes.exits_subset {log out : List (Step κ)} {es : List (κ × Nat)} (h : Goes next log es out)
    (hlog : exits log ⊆ entries log) : exits out ⊆ entries out ∧ entries log ⊆ entries out := by
  induction h with
  | done log => exact ⟨hlog, List.Subset.refl _⟩
  | seen _ _ ih => exact ih hlog
  | @fresh log mid out label id es _ _ _ ihinside ihrest =>
      have hsub : entries log ⊆ entries (.enter label id :: log) := List.subset_cons_self ..
      obtain ⟨hmid, hmidsub⟩ := ihinside (List.Subset.trans hlog hsub)
      have hid : id ∈ entries mid := hmidsub (by simp)
      obtain ⟨hout, houtsub⟩ := ihrest (List.cons_subset.mpr ⟨hid, hmid⟩)
      exact ⟨hout, List.Subset.trans (List.Subset.trans hsub hmidsub) houtsub⟩

/-- The edges lead from nodes that have been entered, the one that starts the walk apart. -/
def Sourced (next : Nat → List (κ × Nat)) (start : κ × Nat) (log : List (Step κ))
    (es : List (κ × Nat)) : Prop :=
  ∀ e ∈ es, e = start ∨ ∃ p ∈ entries log, e ∈ next p

lemma Sourced.mono {start : κ × Nat} {log log' : List (Step κ)} {es : List (κ × Nat)}
    (h : Sourced next start log es) (hsub : entries log ⊆ entries log') :
    Sourced next start log' es :=
  fun e he => (h e he).imp_right fun ⟨p, hp, hmem⟩ => ⟨p, hsub hp, hmem⟩

/-- Every node is entered from one that was entered before it, the one that starts the walk apart.
The latest comes first. -/
def Grown (next : Nat → List (κ × Nat)) (start : κ × Nat) : List (κ × Nat) → Prop
  | [] => True
  | e :: es => (e = start ∨ ∃ p ∈ es.map Prod.snd, e ∈ next p) ∧ Grown next start es

/-- What comes before counts for a node, and not what comes later. -/
lemma Grown.of_append {start e : κ × Nat} {later before : List (κ × Nat)}
    (h : Grown next start (later ++ e :: before)) :
    e = start ∨ ∃ p ∈ before.map Prod.snd, e ∈ next p := by
  induction later with
  | nil => exact h.1
  | cons _ later ih => exact ih h.2

lemma Grown.eq_start_or_exists {start e : κ × Nat} {es : List (κ × Nat)} (h : Grown next start es)
    (he : e ∈ es) : e = start ∨ ∃ p ∈ es.map Prod.snd, e ∈ next p := by
  obtain ⟨later, before, rfl⟩ := List.append_of_mem he
  refine h.of_append.imp_right fun ⟨p, hp, hedge⟩ => ⟨p, ?_, hedge⟩
  rw [List.map_append, List.map_cons]
  exact List.mem_append_right _ (List.mem_cons_of_mem _ hp)

/-- A walk goes only along edges from nodes that it has entered. -/
lemma Goes.grown {start : κ × Nat} {log out : List (Step κ)} {es : List (κ × Nat)}
    (h : Goes next log es out) (hlog : Grown next start (log.filterMap Step.entered?))
    (hes : Sourced next start log es) :
    Grown next start (out.filterMap Step.entered?) ∧ entries log ⊆ entries out := by
  induction h with
  | done log => exact ⟨hlog, List.Subset.refl _⟩
  | seen _ _ ih => exact ih hlog (List.forall_mem_cons.mp hes).2
  | @fresh log mid out label id es _ _ _ ihinside ihrest =>
      obtain ⟨he, hes⟩ := List.forall_mem_cons.mp hes
      have hsub : entries log ⊆ entries (.enter label id :: log) := List.subset_cons_self ..
      obtain ⟨hmid, hmidsub⟩ := ihinside ⟨he, hlog⟩ fun e he => .inr ⟨id, by simp, he⟩
      have hrestsub : entries log ⊆ entries (.leave id :: mid) := List.Subset.trans hsub hmidsub
      obtain ⟨hout, houtsub⟩ := ihrest hmid (Sourced.mono hes hrestsub)
      exact ⟨hout, List.Subset.trans hrestsub houtsub⟩

/-- **Every node is entered from one that was entered before it**, the first one apart. -/
lemma grown_entered {size : Nat} (hsize : ∀ id, size ≤ id → next id = []) (start : κ × Nat) :
    Grown next start (entered next size start).reverse := by
  rw [entered, ← List.filterMap_reverse]
  exact ((goes_record hsize start).grown trivial fun e he => .inl (List.mem_singleton.mp he)).1

/-- A node is entered from one that is entered too, the first one apart. -/
lemma eq_start_or_exists_mem_next {size : Nat} (hsize : ∀ id, size ≤ id → next id = [])
    {start e : κ × Nat} (he : e ∈ entered next size start) :
    e = start ∨ ∃ p ∈ (entered next size start).map Prod.snd, e ∈ next p := by
  have hgrown := (grown_entered hsize start).eq_start_or_exists (List.mem_reverse.mpr he)
  simpa only [List.map_reverse, List.mem_reverse] using hgrown

end Goes

/-! ### Two graphs -/

/-- The node of a step. -/
def Step.node : Step κ → Nat
  | .enter _ id => id
  | .leave id => id

/-- A step with its label and its node changed. -/
def Step.map (g : κ → κ) (f : Nat → Nat) : Step κ → Step κ
  | .enter label id => .enter (g label) (f id)
  | .leave id => .leave (f id)

/-- The steps at nodes that are not spare. -/
def kept (spare : Nat → Bool) (log : List (Step κ)) : List (Step κ) :=
  log.filter fun step => !spare step.node

/-- The edges to nodes that are not spare. -/
def keptEdges (spare : Nat → Bool) (es : List (κ × Nat)) : List (κ × Nat) :=
  es.filter fun e => !spare e.2

section Kept

variable (spare : Nat → Bool)

@[simp] lemma kept_enter (label : κ) (id : Nat) (log : List (Step κ)) :
    kept spare (.enter label id :: log)
      = if spare id then kept spare log else .enter label id :: kept spare log := by
  cases hid : spare id <;> simp [kept, Step.node, hid]

@[simp] lemma kept_leave (id : Nat) (log : List (Step κ)) :
    kept spare (.leave id :: log)
      = if spare id then kept spare log else .leave id :: kept spare log := by
  cases hid : spare id <;> simp [kept, Step.node, hid]

@[simp] lemma keptEdges_cons (label : κ) (id : Nat) (es : List (κ × Nat)) :
    keptEdges spare ((label, id) :: es)
      = if spare id then keptEdges spare es else (label, id) :: keptEdges spare es := by
  cases hid : spare id <;> simp [keptEdges, hid]

lemma keptEdges_append (es es' : List (κ × Nat)) :
    keptEdges spare (es ++ es') = keptEdges spare es ++ keptEdges spare es' := List.filter_append ..

lemma keptEdges_flatMap {α : Type} (l : List α) (g : α → List (κ × Nat)) :
    keptEdges spare (l.flatMap g) = l.flatMap fun a => keptEdges spare (g a) :=
  List.filter_flatMap ..

/-- What a log says was entered, the spare nodes left out. -/
lemma filterMap_kept (log : List (Step κ)) :
    (kept spare log).filterMap Step.entered? = keptEdges spare (log.filterMap Step.entered?) := by
  induction log with
  | nil => rfl
  | cons step log ih =>
      cases step with
      | enter label id => cases hid : spare id <;> simp [hid, Step.entered?, ih]
      | leave id => cases hid : spare id <;> simp [hid, List.filterMap_cons, Step.entered?, ih]

lemma mem_entries_kept {log : List (Step κ)} {id : Nat} (hid : spare id = false) :
    id ∈ entries (kept spare log) ↔ id ∈ entries log := by
  rw [entries, filterMap_kept, entries, List.mem_map, List.mem_map]
  constructor
  · rintro ⟨e, he, rfl⟩
    exact ⟨e, (List.mem_filter.mp he).1, rfl⟩
  · rintro ⟨e, he, rfl⟩
    exact ⟨e, List.mem_filter.mpr ⟨he, by simp [hid]⟩, rfl⟩

end Kept

/-- `next'` is `next` with its nodes renumbered by `f` and its labels changed by `g`, and with spare
nodes from which nothing leads back. Only the nodes of `dom` count. -/
structure Embeds (next next' : Nat → List (κ × Nat)) (dom : Nat → Prop) (f : Nat → Nat) (g : κ → κ)
    (spare : Nat → Bool) : Prop where
  inj : ∀ a, dom a → ∀ b, dom b → f a = f b → a = b
  keeps : ∀ a, dom a → spare (f a) = false
  next_eq : ∀ a, dom a → keptEdges spare (next' (f a)) = (next a).map fun e => (g e.1, f e.2)
  dom_next : ∀ a, dom a → ∀ e ∈ next a, dom e.2
  spare_next : ∀ x, spare x = true → ∀ e ∈ next' x, spare e.2 = true

namespace Embeds

variable {next next' : Nat → List (κ × Nat)} {dom : Nat → Prop} {f : Nat → Nat} {g : κ → κ}
  {spare : Nat → Bool}

lemma entries_map (log : List (Step κ)) :
    entries (log.map (Step.map g f)) = (entries log).map f := by
  induction log with
  | nil => rfl
  | cons step log ih => cases step <;> simp [Step.map, ih]

/-- A node has been entered in one graph if it has been in the other. -/
lemma mem_entries_iff (h : Embeds next next' dom f g spare) {log log' : List (Step κ)} {id : Nat}
    (hid : dom id) (hdom : ∀ a ∈ entries log, dom a)
    (hlog : kept spare log' = log.map (Step.map g f)) :
    f id ∈ entries log' ↔ id ∈ entries log := by
  have hkept : f id ∈ entries log' ↔ f id ∈ (entries log).map f := by
    rw [← mem_entries_kept spare (h.keeps id hid), hlog, entries_map]
  rw [hkept, List.mem_map]
  constructor
  · rintro ⟨a, ha, heq⟩
    exact h.inj a (hdom a ha) id hid heq ▸ ha
  · exact fun hmem => ⟨id, hmem, rfl⟩

/-- A walk over the larger graph is, the spare nodes left out, a walk over the smaller one. -/
lemma goes (h : Embeds next next' dom f g spare) {log' out' : List (Step κ)} {es' : List (κ × Nat)}
    (hgoes : Goes next' log' es' out') (log : List (Step κ)) (es : List (κ × Nat))
    (hdom : ∀ a ∈ entries log, dom a) (hes : ∀ e ∈ es, dom e.2)
    (hlog : kept spare log' = log.map (Step.map g f))
    (hedges : keptEdges spare es' = es.map fun e => (g e.1, f e.2)) :
    ∃ out, Goes next log es out ∧ (∀ a ∈ entries out, dom a) ∧
      kept spare out' = out.map (Step.map g f) := by
  induction hgoes generalizing log es with
  | done log' =>
      obtain rfl : es = [] := by simpa [keptEdges] using hedges.symm
      exact ⟨log, .done log, hdom, hlog⟩
  | @seen log' out' label' x es' hx _ ih =>
      cases hspare : spare x with
      | true => exact ih log es hdom hes hlog (by simpa [hspare] using hedges)
      | false =>
          cases es with
          | nil => simp [hspare] at hedges
          | cons e es =>
              obtain ⟨⟨rfl, rfl⟩, htail⟩ : (label' = g e.1 ∧ x = f e.2) ∧
                  keptEdges spare es' = es.map fun e => (g e.1, f e.2) := by
                simpa [hspare] using hedges
              obtain ⟨he, hes⟩ := List.forall_mem_cons.mp hes
              obtain ⟨out, hout⟩ := ih log es hdom hes hlog htail
              exact ⟨out, .seen ((h.mem_entries_iff he hdom hlog).mp hx) hout.1, hout.2⟩
  | @fresh log' mid' out' label' x es' hx _ _ ihinside ihrest =>
      cases hspare : spare x with
      | true =>
          -- nothing below a spare node counts, so that the smaller walk stands still
          have hinside : keptEdges spare (next' x) = [] := by
            rw [keptEdges, List.filter_eq_nil_iff]
            intro e he
            simp [h.spare_next x hspare e he]
          obtain ⟨mid, hmid, hdom, hlog⟩ := ihinside log [] hdom (by simp)
            (by simpa [hspare] using hlog) hinside
          cases hmid
          exact ihrest log es hdom hes (by simpa [hspare] using hlog)
            (by simpa [hspare] using hedges)
      | false =>
          cases es with
          | nil => simp [hspare] at hedges
          | cons e es =>
              obtain ⟨⟨rfl, rfl⟩, htail⟩ : (label' = g e.1 ∧ x = f e.2) ∧
                  keptEdges spare es' = es.map fun e => (g e.1, f e.2) := by
                simpa [hspare] using hedges
              obtain ⟨he, hes⟩ := List.forall_mem_cons.mp hes
              obtain ⟨mid, hmid, hdommid, hlogmid⟩ := ihinside (.enter e.1 e.2 :: log) (next e.2)
                (by simpa using ⟨he, hdom⟩) (h.dom_next e.2 he)
                (by simpa [Step.map, hspare] using hlog) (h.next_eq e.2 he)
              obtain ⟨out, hout⟩ := ihrest (.leave e.2 :: mid) es (by simpa using hdommid) hes
                (by simpa [Step.map, hspare] using hlogmid) htail
              exact ⟨out, .fresh (fun hid => hx ((h.mem_entries_iff he hdom hlog).mpr hid)) hmid
                hout.1, hout.2⟩

/-- **The spare nodes left out, both graphs are entered in the same order.** -/
theorem entered (h : Embeds next next' dom f g spare) {size size' : Nat}
    (hsize : ∀ id, size ≤ id → next id = []) (hsize' : ∀ id, size' ≤ id → next' id = [])
    (start : κ × Nat) (hstart : dom start.2) :
    keptEdges spare (Walk.entered next' size' (g start.1, f start.2))
      = (Walk.entered next size start).map fun e => (g e.1, f e.2) := by
  obtain ⟨out, hout, -, hkept⟩ := h.goes (goes_record hsize' (g start.1, f start.2)) [] [start]
    (by simp) (by simpa using hstart) rfl (by simp [keptEdges, h.keeps start.2 hstart])
  rw [hout.unique (goes_record hsize start)] at hkept
  have hreverse : kept spare (record next' size' (g start.1, f start.2))
      = (record next size start).map (Step.map g f) := by
    have := congrArg List.reverse hkept
    rwa [kept, List.filter_reverse, List.reverse_reverse, ← List.map_reverse,
      List.reverse_reverse] at this
  rw [Walk.entered, ← filterMap_kept spare, hreverse, Walk.entered, List.filterMap_map,
    List.map_filterMap]
  congr 1
  funext step
  cases step <;> rfl

end Embeds

/-- Edges that are not reached do not count, and neither does the number of nodes. -/
lemma entered_congr {next next' : Nat → List (κ × Nat)} (dom : Nat → Prop)
    (heq : ∀ a, dom a → next' a = next a) (hdom : ∀ a, dom a → ∀ e ∈ next a, dom e.2)
    {size size' : Nat} (hsize : ∀ id, size ≤ id → next id = [])
    (hsize' : ∀ id, size' ≤ id → next' id = []) (start : κ × Nat) (hstart : dom start.2) :
    entered next' size' start = entered next size start := by
  have hembeds : Embeds next next' dom id id (fun _ => false) := {
    inj := fun _ _ _ _ h => h
    keeps := fun _ _ => rfl
    next_eq := fun a ha => by simp [keptEdges, heq a ha]
    dom_next := hdom
    spare_next := by simp }
  simpa [keptEdges] using hembeds.entered hsize hsize' start hstart

end SchemaDecl.Walk
