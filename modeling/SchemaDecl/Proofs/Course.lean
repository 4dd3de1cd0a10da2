/-
Courses: how computations with a state run.

Writing and lowering pass a state along. What is proved about them has one form: an invariant of the
state is kept, the state moves along an order, and the result has some property in the state that is
reached. Two computations are looked at side by side, so that it can also be said that they do the
same.

* `Course`: an invariant of states, and an order along which they move.
* `Course.Runs`: two computations run in a course from a state.
* `Course.Runs.bind`, `Course.Runs.mapM`, `Course.Runs.mapM_all`: one run after another.
-/
import Mathlib.Data.List.Forall2

namespace SchemaDecl

/-- An invariant of states, and an order along which they move. -/
structure Course (σ : Type) where
  inv : σ → Prop
  le : σ → σ → Prop
  refl : ∀ st, le st st
  trans : ∀ {st₁ st₂ st₃}, le st₁ st₂ → le st₂ st₃ → le st₁ st₃

namespace Course

variable {σ α β : Type}

/-- The course that says nothing about states. -/
def free : Course σ := ⟨fun _ => True, fun _ _ => True, fun _ => trivial, fun _ _ => trivial⟩

variable (c : Course σ)

/-- From the state `st` two computations do the same. They keep the invariant, move the state
upwards, and give a result that has the property `Q` in the state they reach. -/
structure Runs (st : σ) (m m' : StateM σ α) (Q : α → σ → Prop) : Prop where
  same : m.run st = m'.run st
  inv : c.inv (m.run st).2
  le : c.le st (m.run st).2
  result : Q (m.run st).1 (m.run st).2

variable {c} {st : σ} {m m' : StateM σ α} {P Q : α → σ → Prop}

namespace Runs

lemma pure {a : α} (hst : c.inv st) (ha : Q a st) : c.Runs st (pure a) (pure a) Q :=
  ⟨rfl, hst, c.refl st, ha⟩

/-- A computation that only changes the state. -/
lemma modify {f : σ → σ} {Q : Unit → σ → Prop} (hst : c.inv (f st)) (hle : c.le st (f st))
    (hQ : Q () (f st)) : c.Runs st (modify f) (modify f) Q :=
  ⟨rfl, hst, hle, hQ⟩

lemma imp (h : c.Runs st m m' P) (hPQ : ∀ a st', P a st' → Q a st') : c.Runs st m m' Q :=
  ⟨h.same, h.inv, h.le, hPQ _ _ h.result⟩

/-- What follows may also be seen from how the state has moved. -/
lemma imp_of_le (h : c.Runs st m m' P) (hPQ : ∀ a st', c.le st st' → P a st' → Q a st') :
    c.Runs st m m' Q := ⟨h.same, h.inv, h.le, hPQ _ _ h.le h.result⟩

/-- One computation after another. -/
lemma bind {f f' : α → StateM σ β} {Q : β → σ → Prop} (h : c.Runs st m m' P)
    (hf : ∀ a st', c.inv st' → c.le st st' → P a st' → c.Runs st' (f a) (f' a) Q) :
    c.Runs st (m >>= f) (m' >>= f') Q := by
  have hrun := hf _ _ h.inv h.le h.result
  have hbind : (m >>= f).run st = (f (m.run st).1).run (m.run st).2 := rfl
  have hbind' : (m' >>= f').run st = (f' (m'.run st).1).run (m'.run st).2 := rfl
  refine ⟨?_, ?_, ?_, ?_⟩
  · rw [hbind, hbind', ← h.same]
    exact hrun.same
  · rw [hbind]
    exact hrun.inv
  · rw [hbind]
    exact c.trans h.le hrun.le
  · rw [hbind]
    exact hrun.result

lemma map {f : α → β} {Q : β → σ → Prop} (h : c.Runs st m m' P)
    (hf : ∀ a st', P a st' → Q (f a) st') : c.Runs st (f <$> m) (f <$> m') Q :=
  h.bind fun a st' hst' _ ha => .pure hst' (hf a st' ha)

/-- The computations of the items of a list, one after the other. What holds of a result must still
hold when the later items have been gone through. -/
lemma mapM {f f' : α → StateM σ β} {Q : α → β → σ → Prop}
    (hQ : ∀ a b st₁ st₂, c.inv st₁ → c.le st₁ st₂ → Q a b st₁ → Q a b st₂) (l : List α)
    (hst : c.inv st) (h : ∀ a ∈ l, ∀ st', c.inv st' → c.le st st' → c.Runs st' (f a) (f' a) (Q a)) :
    c.Runs st (l.mapM f) (l.mapM f') (fun bs st' => List.Forall₂ (Q · · st') l bs) := by
  induction l generalizing st with
  | nil => exact .pure hst .nil
  | cons a l ih =>
      rw [List.mapM_cons, List.mapM_cons]
      refine .bind (h a List.mem_cons_self st hst (c.refl st)) fun b st₁ hst₁ hle₁ hb => ?_
      have hrest := ih hst₁ fun a' ha' st' hst' hle' =>
        h a' (List.mem_cons_of_mem _ ha') st' hst' (c.trans hle₁ hle')
      refine .bind hrest fun bs st₂ hst₂ hle₂ hbs => ?_
      exact .pure hst₂ (.cons (hQ a b st₁ st₂ hst₁ hle₂ hb) hbs)

/-- What holds of the result of every item holds of all results. -/
lemma mapM_all {f f' : α → StateM σ β} {Q : β → σ → Prop}
    (hQ : ∀ b st₁ st₂, c.le st₁ st₂ → Q b st₁ → Q b st₂) (l : List α) (hst : c.inv st)
    (h : ∀ a ∈ l, ∀ st', c.inv st' → c.le st st' → c.Runs st' (f a) (f' a) Q) :
    c.Runs st (l.mapM f) (l.mapM f') (fun bs st' => ∀ b ∈ bs, Q b st') := by
  refine (Runs.mapM (Q := fun _ => Q) (fun _ b st₁ st₂ _ => hQ b st₁ st₂) l hst h).imp
    fun bs st' hall => ?_
  clear h
  induction hall with
  | nil => exact fun _ hb => absurd hb List.not_mem_nil
  | cons hb _ ih => exact List.forall_mem_cons.mpr ⟨hb, ih⟩

end Runs

end Course

end SchemaDecl
