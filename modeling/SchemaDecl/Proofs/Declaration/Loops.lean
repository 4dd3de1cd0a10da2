/-
Loops of types without names.

A type without a name that is met again while it is written is cut off, and what is on record then
depends on where writing began. Types below which there are no such loops read the same wherever
they are written.

* `TypeGraph.Shows`, `TypeGraph.Loops`: a type is spelled out in the text of another, and in its
  own.
* `TypeGraph.Steady`: all loops below a type go through sets with a single member, which add nothing
  to the text.
* `TypeGraph.settled`: the text of a type with loops cut off at once, said without any ink.
* `Render.runs_rawWith_fresh`: with whatever ink, a steady type reads as settled.
* `Render.runs_rawWith_whole`: once a type has been written, whatever it shows is on record, and a
  type on a loop is on record as cut off.
-/
import Mathlib.Data.Finset.Card
import Mathlib.Logic.Relation
import SchemaDecl.Proofs.Declaration.Ink
import SchemaDecl.Proofs.Types.Pool

namespace SchemaDecl

open Relation

namespace TypeGraph

/-! ### Loops -/

/-- The type `b` is spelled out in the text of `a`: it stands in a slot and has no name. -/
def Shows (g : TypeGraph) (a b : TypeId) : Prop :=
  b ∈ (g.shape a).slots ∧ (g.node b).declared? = none

/-- The type is spelled out in its own text. -/
def Loops (g : TypeGraph) (id : TypeId) : Prop := TransGen g.Shows id id

/-- All loops below the type go through sets with a single member. -/
def Steady (g : TypeGraph) (id : TypeId) : Prop :=
  ∀ x, ReflTransGen g.Shows id x → g.Loops x → (g.shape x).isWrapper = true

variable {s : Settings} {g : TypeGraph}

lemma Steady.of_shows {a b : TypeId} (h : g.Steady a) (hab : g.Shows a b) : g.Steady b :=
  fun x hbx => h x (.head hab hbx)

/-- A number without a type has no slots. -/
lemma lt_size_of_mem_slots {id c : TypeId} (h : c ∈ (g.shape id).slots) : id < g.size := by
  refine lt_size_of_shape_ne fun hpending => ?_
  simp [hpending, Shape.slots] at h

/-- The next type on a loop is on a loop. -/
lemma Loops.of_slots_eq {id c : TypeId} (h : g.Loops id) (hslots : (g.shape id).slots = [c]) :
    g.Shows id c ∧ g.Loops c := by
  obtain ⟨c', hstep, hback⟩ := TransGen.head'_iff.mp h
  have hc : c' = c := by
    have hmem := hstep.1
    rw [hslots] at hmem
    exact List.mem_singleton.mp hmem
  subst hc
  exact ⟨hstep, TransGen.tail' hback hstep⟩

/-- A type on a loop has no name. -/
lemma Loops.declared?_eq_none {id : TypeId} (h : g.Loops id) : (g.node id).declared? = none := by
  obtain ⟨_, -, hstep⟩ := TransGen.tail'_iff.mp h
  exact hstep.2

/-! ### The settled text -/

open Classical in
/-- How many types lie below a type. -/
noncomputable def countBelow (g : TypeGraph) (id : TypeId) : Nat :=
  ((Finset.range g.size).filter fun x => ReflTransGen g.Shows id x).card

/-- Fewer types lie below what is spelled out in a type that is not on a loop. -/
lemma countBelow_lt {id c : TypeId} (h : ¬ g.Loops id) (hc : g.Shows id c) :
    g.countBelow c < g.countBelow id := by
  classical
  refine Finset.card_lt_card (Finset.ssubset_iff_of_subset ?_ |>.mpr ⟨id, ?_, ?_⟩)
  · intro x hx
    rw [Finset.mem_filter] at hx ⊢
    exact ⟨hx.1, .head hc hx.2⟩
  · rw [Finset.mem_filter, Finset.mem_range]
    exact ⟨lt_size_of_mem_slots hc.1, .refl⟩
  · intro hid
    exact h (.head' hc (Finset.mem_filter.mp hid).2)

open Classical in
/-- The text of a type without its name, where every type on a loop is cut off at once. -/
noncomputable def settled (s : Settings) (g : TypeGraph) (id : TypeId) : String :=
  if _ : g.Loops id then s.top
  else (g.shape id).layout s g ((g.shape id).slots.attach.map fun c =>
    match _ : (g.node c.1).declared? with
    | some name => Text.typeName name
    | none => settled s g c.1)
termination_by g.countBelow id
decreasing_by exact countBelow_lt ‹_› ⟨c.2, ‹_›⟩

/-- The text of a type where it is used: its name, or else the settled text. -/
noncomputable def shown (s : Settings) (g : TypeGraph) (id : TypeId) : String :=
  match (g.node id).declared? with
  | some name => Text.typeName name
  | none => settled s g id

lemma shown_of_named {id : TypeId} {name : String} (h : (g.node id).declared? = some name) :
    g.shown s id = Text.typeName name := by
  rw [shown, h]

lemma shown_of_unnamed {id : TypeId} (h : (g.node id).declared? = none) :
    g.shown s id = g.settled s id := by
  rw [shown, h]

lemma settled_of_loops {id : TypeId} (h : g.Loops id) : g.settled s id = s.top := by
  rw [settled, dif_pos h]

/-- Off loops, the settled text is laid out from what is shown in the slots. -/
lemma settled_of_not_loops {id : TypeId} (h : ¬ g.Loops id) :
    g.settled s id = (g.shape id).layout s g ((g.shape id).slots.map (g.shown s)) := by
  have hshown (c : TypeId) : (match _ : (g.node c).declared? with
      | some name => Text.typeName name
      | none => settled s g c) = g.shown s c := by
    rw [shown]
    cases (g.node c).declared? <;> rfl
  rw [settled, dif_neg h]
  simp only [hshown]
  rw [List.attach_map_val]

/-- The type reads the same wherever it is used: it has a name, or is steady. -/
def Fixed (g : TypeGraph) (id : TypeId) : Prop := (g.node id).declared? ≠ none ∨ g.Steady id

lemma Steady.fixed_of_mem_slots {id c : TypeId} (h : g.Steady id) (hc : c ∈ (g.shape id).slots) :
    g.Fixed c := by
  by_cases hname : (g.node c).declared? = none
  · exact Or.inr (h.of_shows ⟨hc, hname⟩)
  · exact Or.inl hname

lemma eq_map_shown {ids : List TypeId} {texts : List String} (hfixed : ∀ c ∈ ids, g.Fixed c)
    (h : List.Forall₂ (fun c text => g.Fixed c → text = g.shown s c) ids texts) :
    texts = ids.map (g.shown s) := by
  induction h with
  | nil => rfl
  | cons hc _ ih =>
      obtain ⟨hfixed, hrest⟩ := List.forall_mem_cons.mp hfixed
      rw [List.map_cons, hc hfixed, ih hrest]

/-- A steady type that is laid out from what its slots show has the settled text, on a loop too:
there it repeats its only member. -/
lemma layout_eq_settled {id : TypeId} (h : g.Steady id) {texts : List String}
    (htexts :
      List.Forall₂ (fun c text => g.Fixed c → text = g.shown s c) (g.shape id).slots texts) :
    (g.shape id).layout s g texts = g.settled s id := by
  have heq : texts = (g.shape id).slots.map (g.shown s) :=
    eq_map_shown (fun c hc => h.fixed_of_mem_slots hc) htexts
  by_cases hloop : g.Loops id
  · obtain ⟨c, hslots, hlayout⟩ := Shape.exists_slots_of_isWrapper (h id .refl hloop) s g
    obtain ⟨hstep, hloop'⟩ := hloop.of_slots_eq hslots
    rw [heq, hslots, List.map_singleton, hlayout, shown_of_unnamed hstep.2,
      settled_of_loops hloop, settled_of_loops hloop']
  · rw [heq, settled_of_not_loops hloop]

end TypeGraph

namespace Ink

/-- Types that read the same everywhere are on record as they read. -/
def Fresh (s : Settings) (g : TypeGraph) (ink : Ink) : Prop :=
  ∀ id text, ink.text? id = some text → g.Fixed id → text = g.shown s id

/-- The course in which the record stays fresh and the same types are being written. -/
def fresh (s : Settings) (g : TypeGraph) (active : List TypeId) : Course Ink where
  inv ink := ink.Fresh s g ∧ ink.active = active
  le _ _ := True
  refl _ := trivial
  trans _ _ := trivial

/-- Enough fuel is left: no more types than that can be opened. -/
structure Fuelled (g : TypeGraph) (fuel : Nat) (active : List TypeId) : Prop where
  nodup : active.Nodup
  lt_size : ∀ a ∈ active, a < g.size
  size_lt : g.size < fuel + active.length

variable {s : Settings} {g : TypeGraph} {fuel : Nat} {active : List TypeId}

lemma fuelled_nil : Fuelled g (g.size + 1) [] := ⟨List.nodup_nil, by simp, by simp⟩

/-- Fuel does not run out, as the types being written are all different. -/
lemma Fuelled.ne_zero (h : Fuelled g fuel active) : fuel ≠ 0 := by
  have hsub : active ⊆ List.range g.size := fun a ha => List.mem_range.mpr (h.lt_size a ha)
  have hlen := (h.nodup.subperm hsub).length_le
  have hsize := h.size_lt
  rw [List.length_range] at hlen
  omega

lemma Fuelled.opened {id : TypeId} (h : Fuelled g (fuel + 1) active) (hid : id ∉ active)
    (hlt : id < g.size) : Fuelled g fuel (id :: active) where
  nodup := List.nodup_cons.mpr ⟨hid, h.nodup⟩
  lt_size := List.forall_mem_cons.mpr ⟨hlt, h.lt_size⟩
  size_lt := by
    have hsize := h.size_lt
    rw [List.length_cons]
    omega

lemma Fresh.kept {ink : Ink} (h : ink.Fresh s g) {id : TypeId} {text : String}
    (htext : g.Fixed id → text = g.shown s id) : (ink.kept id text).Fresh s g := by
  intro x t hx
  by_cases hxid : x = id
  · subst hxid
    rw [text?_kept_self] at hx
    exact Option.some.inj hx ▸ htext
  · rw [text?_kept_of_ne _ _ _ hxid] at hx
    exact h x t hx

end Ink

namespace Render

variable {s : Settings} {g : TypeGraph} {active : List TypeId}

/-- A type that reads the same everywhere is written as it reads. -/
lemma runs_inlineWith_fresh {raw : TypeId → Render String} {id : TypeId} {ink : Ink}
    (hink : (Ink.fresh s g active).inv ink)
    (hraw : (g.node id).declared? = none → (Ink.fresh s g active).Runs ink (raw id) (raw id)
      fun text _ => g.Steady id → text = g.settled s id) :
    (Ink.fresh s g active).Runs ink (inlineWith g raw id) (inlineWith g raw id)
      fun text _ => g.Fixed id → text = g.shown s id := by
  cases htext : ink.text? id with
  | some text =>
      refine ⟨rfl, ?_, trivial, ?_⟩ <;> rw [inlineWith_run_kept htext]
      · exact hink
      · exact hink.1 id text htext
  | none =>
      cases hname : (g.node id).declared? with
      | some name =>
          have hshown : g.Fixed id → Text.typeName name = g.shown s id :=
            fun _ => (TypeGraph.shown_of_named hname).symm
          refine ⟨rfl, ?_, trivial, ?_⟩ <;> rw [inlineWith_run_named htext hname]
          · exact ⟨hink.1.kept hshown, hink.2⟩
          · exact hshown
      | none =>
          obtain ⟨-, hinv, -, hresult⟩ := hraw hname
          have hshown : g.Fixed id → ((raw id).run ink).1 = g.shown s id := by
            rintro (hnamed | hsteady)
            · exact absurd hname hnamed
            · rw [TypeGraph.shown_of_unnamed hname, hresult hsteady]
          refine ⟨rfl, ?_, trivial, ?_⟩ <;> rw [inlineWith_run_unnamed htext hname]
          · exact ⟨hinv.1.kept hshown, hinv.2⟩
          · exact hshown

/-- **Steady types read as settled**, whatever is on record and whatever is being written, as long
as the types being written all lead to the one at hand. -/
lemma runs_rawWith_fresh {fuel : Nat} (hfuel : Ink.Fuelled g fuel active) {id : TypeId}
    (htrail : ∀ a ∈ active, TransGen g.Shows a id) {ink : Ink}
    (hink : (Ink.fresh s g active).inv ink) :
    (Ink.fresh s g active).Runs ink (rawWith s g fuel id) (rawWith s g fuel id)
      fun text _ => g.Steady id → text = g.settled s id := by
  induction fuel generalizing active id ink with
  | zero => exact absurd rfl hfuel.ne_zero
  | succ fuel ih =>
      by_cases hid : id ∈ active
      · -- Every type on the trail leads to `id`, so that `id` leads to itself.
        have hrun := rawWith_run (s := s) (g := g) fuel id ink
        rw [if_pos (hink.2 ▸ hid)] at hrun
        refine ⟨rfl, ?_, trivial, ?_⟩ <;> rw [hrun]
        · exact hink
        · exact fun _ => (TypeGraph.settled_of_loops (htrail id hid)).symm
      · have hslots : (Ink.fresh s g (id :: active)).Runs (ink.opened id)
            ((g.shape id).slots.mapM (inlineWith g (rawWith s g fuel)))
            ((g.shape id).slots.mapM (inlineWith g (rawWith s g fuel)))
            fun texts _ => List.Forall₂ (fun c text => g.Fixed c → text = g.shown s c)
              (g.shape id).slots texts := by
          refine .mapM (fun _ _ _ _ _ _ h => h) _ ⟨hink.1, congrArg (id :: ·) hink.2⟩
            fun c hc ink' hink' _ => runs_inlineWith_fresh hink' fun hname => ?_
          have hstep : g.Shows id c := ⟨hc, hname⟩
          exact ih (hfuel.opened hid (TypeGraph.lt_size_of_mem_slots hc))
            (List.forall_mem_cons.mpr ⟨.single hstep, fun a ha => (htrail a ha).tail hstep⟩) hink'
        have hrun := rawWith_run (s := s) (g := g) fuel id ink
        rw [if_neg (hink.2 ▸ hid)] at hrun
        refine ⟨rfl, ?_, trivial, ?_⟩ <;> rw [hrun]
        · refine ⟨hslots.inv.1, ?_⟩
          have hactive : (writeSlots (s := s) (g := g) fuel id ink).2.active = id :: active :=
            hslots.inv.2
          rw [Ink.active_closed, hactive, List.erase_cons_head]
        · exact fun hsteady => TypeGraph.layout_eq_settled hsteady hslots.result

end Render

/-! ### Loops on record -/

namespace Ink

/-- A type being written can only be on record as cut off, and what has been written has whatever it
shows on record. -/
structure Whole (s : Settings) (g : TypeGraph) (ink : Ink) : Prop where
  top : ∀ a ∈ ink.active, (g.node a).declared? = none → ∀ text, ink.text? a = some text →
    text = s.top
  slots : ∀ id ∉ ink.active, (g.node id).declared? = none → (ink.text? id).isSome →
    ∀ c ∈ (g.shape id).slots, (ink.text? c).isSome

/-- The course in which the record stays whole and only grows. -/
def whole (s : Settings) (g : TypeGraph) (active : List TypeId) : Course Ink where
  inv ink := ink.Whole s g ∧ ink.active = active
  le ink ink' := ∀ id, (ink.text? id).isSome → (ink'.text? id).isSome
  refl _ _ h := h
  trans h₁ h₂ id h := h₂ id (h₁ id h)

variable {s : Settings} {g : TypeGraph} {ink : Ink}

lemma isSome_text?_kept (id : TypeId) (text : String) (x : TypeId) :
    ((ink.kept id text).text? x).isSome ↔ x = id ∨ (ink.text? x).isSome := by
  by_cases hx : x = id
  · simp [hx]
  · simp [hx, text?_kept_of_ne]

lemma Whole.kept (h : ink.Whole s g) {id : TypeId} {text : String}
    (htop : id ∈ ink.active → (g.node id).declared? = none → text = s.top)
    (hslots : id ∉ ink.active → (g.node id).declared? = none →
      ∀ c ∈ (g.shape id).slots, (ink.text? c).isSome) :
    (ink.kept id text).Whole s g where
  top := by
    intro a ha hname t ht
    by_cases hid : a = id
    · subst hid
      rw [text?_kept_self] at ht
      exact Option.some.inj ht ▸ htop ha hname
    · rw [text?_kept_of_ne _ _ _ hid] at ht
      exact h.top a ha hname t ht
  slots := by
    intro x hx hname hsome c hc
    rw [isSome_text?_kept] at hsome ⊢
    rcases hsome with rfl | hsome
    · exact Or.inr (hslots hx hname c hc)
    · exact Or.inr (h.slots x hx hname hsome c hc)

lemma Whole.opened (h : ink.Whole s g) {id : TypeId} (hid : ink.text? id = none) :
    (ink.opened id).Whole s g where
  top := by
    intro a ha hname t ht
    rcases List.mem_cons.mp ha with rfl | ha
    · rw [text?_opened, hid] at ht
      cases ht
    · exact h.top a ha hname t ht
  slots x hx := h.slots x fun hmem => hx (List.mem_cons_of_mem _ hmem)

/-- A type has been written when its slots are on record. -/
lemma whole_closed {id : TypeId} {active : List TypeId} (h : (whole s g (id :: active)).inv ink)
    (hslots : ∀ c ∈ (g.shape id).slots, (ink.text? c).isSome) :
    (whole s g active).inv (ink.closed id) := by
  obtain ⟨hwhole, hactive⟩ := h
  have hclosed : (ink.closed id).active = active := by
    rw [active_closed, hactive, List.erase_cons_head]
  refine ⟨⟨fun a ha => hwhole.top a ?_, fun x hx hname hsome => ?_⟩, hclosed⟩
  · rw [hclosed] at ha
    rw [hactive]
    exact List.mem_cons_of_mem _ ha
  · rw [hclosed] at hx
    by_cases hxid : x = id
    · exact hxid ▸ hslots
    · refine hwhole.slots x ?_ hname hsome
      rw [hactive]
      exact List.not_mem_cons_of_ne_of_not_mem hxid hx

end Ink

namespace Render

variable {s : Settings} {g : TypeGraph} {active : List TypeId}

/-- What has been used is on record. -/
lemma runs_inlineWith_whole {raw : TypeId → Render String} {id : TypeId} {ink : Ink}
    (hink : (Ink.whole s g active).inv ink)
    (hraw : ink.text? id = none → (Ink.whole s g active).Runs ink (raw id) (raw id)
      fun text ink' => (id ∈ active → text = s.top) ∧
        (id ∉ active → ∀ c ∈ (g.shape id).slots, (ink'.text? c).isSome)) :
    (Ink.whole s g active).Runs ink (inlineWith g raw id) (inlineWith g raw id)
      fun _ ink' => (ink'.text? id).isSome := by
  cases htext : ink.text? id with
  | some text =>
      refine ⟨rfl, ?_, ?_, ?_⟩ <;> rw [inlineWith_run_kept htext]
      · exact hink
      · exact (Ink.whole s g active).refl ink
      · exact Option.isSome_of_eq_some htext
  | none =>
      have hgrows (ink' : Ink) (text : String) :
          (Ink.whole s g active).le ink' (ink'.kept id text) :=
        fun x hx => (Ink.isSome_text?_kept id text x).mpr (Or.inr hx)
      cases hname : (g.node id).declared? with
      | some name =>
          refine ⟨rfl, ?_, ?_, ?_⟩ <;> rw [inlineWith_run_named htext hname]
          · exact ⟨hink.1.kept (by simp [hname]) (by simp [hname]), hink.2⟩
          · exact hgrows ink _
          · exact (Ink.isSome_text?_kept _ _ _).mpr (Or.inl rfl)
      | none =>
          obtain ⟨-, hinv, hle, htop, hslots⟩ := hraw htext
          rw [← hinv.2] at htop hslots
          refine ⟨rfl, ?_, ?_, ?_⟩ <;> rw [inlineWith_run_unnamed htext hname]
          · exact ⟨hinv.1.kept (fun h _ => htop h) (fun h _ => hslots h), hinv.2⟩
          · exact (Ink.whole s g active).trans hle (hgrows _ _)
          · exact (Ink.isSome_text?_kept _ _ _).mpr (Or.inl rfl)

/-- What has been written has its slots on record, and itself only if it was cut off meanwhile. -/
lemma runs_rawWith_whole {fuel : Nat} (hfuel : Ink.Fuelled g fuel active) {id : TypeId} {ink : Ink}
    (hink : (Ink.whole s g active).inv ink) (hid : ink.text? id = none) :
    (Ink.whole s g active).Runs ink (rawWith s g fuel id) (rawWith s g fuel id)
      fun text ink' => (id ∈ active → text = s.top) ∧
        (id ∉ active → (∀ c ∈ (g.shape id).slots, (ink'.text? c).isSome) ∧
          ((g.node id).declared? = none → ∀ t, ink'.text? id = some t → t = s.top)) := by
  induction fuel generalizing active id ink with
  | zero => exact absurd rfl hfuel.ne_zero
  | succ fuel ih =>
      by_cases hmem : id ∈ active
      · have hrun := rawWith_run (s := s) (g := g) fuel id ink
        rw [if_pos (hink.2 ▸ hmem)] at hrun
        refine ⟨rfl, ?_, ?_, ?_⟩ <;> rw [hrun]
        · exact ⟨⟨hink.1.top, hink.1.slots⟩, hink.2⟩
        · exact fun _ h => h
        · exact ⟨fun _ => rfl, fun h => absurd hmem h⟩
      · have hopened : (Ink.whole s g (id :: active)).inv (ink.opened id) :=
          ⟨hink.1.opened hid, congrArg (id :: ·) hink.2⟩
        have hslots : (Ink.whole s g (id :: active)).Runs (ink.opened id)
            ((g.shape id).slots.mapM (inlineWith g (rawWith s g fuel)))
            ((g.shape id).slots.mapM (inlineWith g (rawWith s g fuel)))
            fun texts ink' => List.Forall₂ (fun c _ => (ink'.text? c).isSome)
              (g.shape id).slots texts := by
          refine .mapM (c := Ink.whole s g (id :: active)) (fun c _ _ _ _ hle => hle c) _ hopened
            fun c hc ink' hink' _ => runs_inlineWith_whole hink' fun hnone => ?_
          refine (ih (hfuel.opened hmem (TypeGraph.lt_size_of_mem_slots hc)) hink' hnone).imp ?_
          exact fun _ _ h => ⟨h.1, fun hc => (h.2 hc).1⟩
        have hrun := rawWith_run (s := s) (g := g) fuel id ink
        rw [if_neg (hink.2 ▸ hmem)] at hrun
        obtain ⟨-, hinv, hle, htexts⟩ := hslots
        have hrecord := ((List.forall₂_and_left (R := fun _ _ => True) _ _).mp
          (htexts.imp fun _ _ h => ⟨h, trivial⟩)).1
        refine ⟨rfl, ?_, ?_, ?_⟩ <;> rw [hrun]
        · exact Ink.whole_closed hinv hrecord
        · exact hle
        · refine ⟨fun h => absurd h hmem, fun _ => ⟨hrecord, hinv.1.top id ?_⟩⟩
          rw [hinv.2]
          exact List.mem_cons_self

/-- **A type on a loop stays on record as cut off**, once it has been written for itself. -/
lemma text?_raw_of_loops {id : TypeId} (h : g.Loops id) :
    ((raw s g id).run {}).2.text? id = some s.top := by
  have hempty : (Ink.whole s g []).inv {} :=
    ⟨⟨fun a ha => absurd ha List.not_mem_nil, fun x _ _ hx => by simp [Ink.text?] at hx⟩, rfl⟩
  obtain ⟨-, ⟨hwhole, hactive⟩, -, -, hresult⟩ :=
    runs_rawWith_whole Ink.fuelled_nil hempty (show Ink.text? {} id = none from rfl)
  obtain ⟨hslots, htop⟩ := hresult List.not_mem_nil
  -- All that is spelled out in `id`, step after step, is on record, and so is `id` in the end.
  have hrecord {x : TypeId} (hx : TransGen g.Shows id x) :
      (((raw s g id).run {}).2.text? x).isSome := by
    induction hx with
    | single hstep => exact hslots _ hstep.1
    | tail hbefore hstep ih =>
        obtain ⟨_, -, hlast⟩ := TransGen.tail'_iff.mp hbefore
        refine hwhole.slots _ ?_ hlast.2 ih _ hstep.1
        rw [hactive]
        exact List.not_mem_nil
  obtain ⟨text, htext⟩ := Option.isSome_iff_exists.mp (hrecord h)
  exact htext.trans (congrArg some (htop h.declared?_eq_none text htext))

end Render

end SchemaDecl
