/-
Where comments on types end.

The comment on a type is the description of its schema, and notes come after it. Descriptions are
brought into a form that ends no comment, where schemas stand; notes quote the keys of patterns and
definitions as they are. So a comment ends too early only because of such a key, or of a description
that was not looked at.

* `Document.IsQuoted`: the keys that are quoted.
* `Lowering.Says.staysOpen`: a comment does not end itself if nothing that it is made of ends it.
* `Lowering.ofDocument_comment_closes`: when the block of a comment ends at its end.
* `Lowering.quotedDocument_breaks_out`: a key that ends the comment.
-/
import SchemaDecl.Proofs.Document.Form
import SchemaDecl.Proofs.Types.Narrowing
import SchemaDecl.Proofs.Types.Provenance

namespace SchemaDecl

open Text

/-! ### Descriptions and notes -/

/-- The key of the entry is quoted in the comment on the type of its value. -/
def Document.IsQuoted (d : Document) (s : Settings) (x : NodeId) (e : String × NodeId) : Prop :=
  e ∈ d.membersAt x "patternProperties" ∨
    s.unreachableDefinitions = true ∧ e ∈ d.membersAt x "$defs"

namespace Lowering

open Document Lower

variable {s : Settings} {d d₀ : Document} {root x : NodeId} {st : Lowering} {t : TypeId}
  {text key : String} {owner : Option String}

/-- There are no stars in names that are handed out. -/
lemma HandedOut.not_mem_ownerText (h : HandedOut owner) : '*' ∉ (ownerText owner).toList := by
  obtain ⟨names, hints, howner⟩ := h
  cases owner with
  | none => decide
  | some name =>
      have hname : name ∈ names.issued hints := howner ▸ List.mem_singleton_self name
      intro hstar
      have hmem : '*' ∈ name.toList := by simpa [ownerText] using hstar
      exact absurd ((Names.settled_of_mem_issued hname).continues _ hmem) (by decide)

/-- A note ends a comment just if the key that it quotes does. -/
lemma HandedOut.staysOpen_note_iff (h : HandedOut owner) {middle : String}
    (hmiddle : '*' ∉ middle.toList) :
    StaysOpen ("This interface was referenced by " ++ ownerText owner ++ middle ++ key ++
      "\".").toList ↔ StaysOpen key.toList := by
  simp only [String.toList_append]
  have hfront : '*' ∉ "This interface was referenced by ".toList ++ (ownerText owner).toList
      ++ middle.toList := by
    simp only [List.mem_append, not_or]
    exact ⟨⟨by decide, h.not_mem_ownerText⟩, hmiddle⟩
  rw [staysOpen_append (.inr (by decide)),
    staysOpen_append (.inl fun hlast => hfront (List.mem_of_getLast? hlast))]
  exact ⟨fun h => h.1.2, fun h => ⟨⟨staysOpen_of_not_mem hfront, h⟩, by decide⟩⟩

lemma Note.staysOpen (h : st.Note s t text)
    (hkeys : ∀ x e, st.OnRecord x → st.document.IsQuoted s x e → ⟨e.2, t⟩ ∈ st.answers →
      StaysOpen e.1.toList) : StaysOpen text.toList := by
  cases h with
  | pattern hx hentry hvalue howner =>
      exact (howner.staysOpen_note_iff (by decide)).mpr (hkeys _ _ hx (.inl hentry) hvalue)
  | definition hwanted hx hentry hvalue howner =>
      exact (howner.staysOpen_note_iff (by decide)).mpr
        (hkeys _ _ hx (.inr ⟨hwanted, hentry⟩) hvalue)

/-- **A comment does not end itself** if no description and no key that it is made of ends a
comment. -/
lemma Says.staysOpen (h : st.Says s t text)
    (hkeys : ∀ x e, st.OnRecord x → st.document.IsQuoted s x e → ⟨e.2, t⟩ ∈ st.answers →
      StaysOpen e.1.toList)
    (hdescriptions : ∀ aspect text, st.made.lookup aspect = some t →
      st.document.string? aspect.1 "description" = some text → StaysOpen text.toList) :
    StaysOpen text.toList := by
  induction h with
  | description hmade htext => exact hdescriptions _ _ hmade htext
  | note h => exact h.staysOpen hkeys
  | more _ h' ih =>
      rw [String.toList_append, String.toList_append, staysOpen_append (.inl (by simp)),
        staysOpen_append (.inr (by decide))]
      exact ⟨⟨ih, by decide⟩, h'.staysOpen hkeys⟩

/-- **The comment block on a type ends at its end**, unless a key that is quoted in it ends a
comment, or the type is that of a schema which is not found where schemas stand and whose
description ends one. -/
theorem ofDocument_comment_closes (s : Settings) (d : Document) (root : NodeId)
    (name : Option String) (hd : d.Closed) (hdistinct : d.Distinct) (hroot : root < d.size)
    (st : Lowering) (hst : st = (ofDocument s (d.normalize s root name) root).2) (top t : TypeId)
    (remark : String)
    (hremark : ((st.types.simplify s top).node t).remark? = some remark)
    (hkeys : ∀ o x e, (d.normalize s root name).Stems st.document o x → st.OnRecord x →
      (d.normalize s root name).IsQuoted s o e → ⟨e.2, t⟩ ∈ st.answers → StaysOpen e.1.toList)
    (hstray : ∀ o ∉ (d.respelled root).schemaIds root, ∀ category text,
      st.made.lookup (o, category) = some t → d.string? o "description" = some text →
        StaysOpen text.toList) :
    ClosesAtEnd (commentBlock remark).toList := by
  obtain ⟨hthins, hroot', htraced⟩ := traced_normalize s name hd hdistinct hroot
  rw [← hst] at htraced
  have hextends := htraced.document.base
  rw [(TypeGraph.narrows_simplify s st.types top).node t] at hremark
  have hcomment : (st.types.node t).comment = some remark :=
    (Option.filter_eq_some_iff.mp hremark).1
  refine (closesAtEnd_commentBlock_iff remark).mpr
    ((htraced.comments t remark hcomment).staysOpen (fun x e hx hquoted hvalue => ?_)
      fun aspect text hmade htext => ?_)
  · have ⟨_, _, t', ht'⟩ := hx
    obtain ⟨o, hstems⟩ := htraced.exists_stems hthins.distinct hroot' ht'
    refine hkeys o x e hstems hx ?_ hvalue
    rw [IsQuoted, hstems.membersAt_eq_base hextends hthins.closed (by decide),
      hstems.membersAt_eq_base hextends hthins.closed (by decide)] at hquoted
    exact hquoted
  · obtain ⟨o, hstems⟩ := htraced.exists_stems hthins.distinct hroot' hmade
    have hobject := (hthins.isObject_eq o).symm.trans (htraced.isObject_of_stems hmade hstems)
    obtain ⟨x, category⟩ := aspect
    -- A schema with a description is no copy.
    obtain ⟨c, hget⟩ := exists_get?_of_string? htext
    obtain rfl : x = o := hstems.eq_of_get? (by simp) hget
    rw [hextends.string?_eq hthins.closed hstems.1] at htext
    by_cases hfound : x ∈ (d.respelled root).schemaIds root
    · rw [string?_description_normalize hd hdistinct name hfound] at htext
      obtain ⟨text, -, rfl⟩ := Option.map_eq_some_iff.mp htext
      exact staysOpen_escapedText text
    · refine hstray x hfound category text hmade ?_
      have hsame : (d.normalize s root name).get? x "description" = d.get? x "description" :=
        get?_normalize_of_not_mem s name (lt_size_of_isObject hobject) hfound (by decide)
      rwa [(alters_normalize s d root name).string?_eq hd hsame] at htext

/-- A record with one pattern, whose schema has a description that ends comments. -/
def describedDocument : Document :=
  ⟨#[⟨.object [("title", 1), ("type", 2), ("patternProperties", 3)], .root⟩,
    ⟨.leaf (.string "R"), .under 0⟩, ⟨.leaf (.string "object"), .under 0⟩,
    ⟨.object [("k", 4)], .under 0⟩, ⟨.object [("type", 5), ("description", 6)], .under 3⟩,
    ⟨.leaf (.string "string"), .under 4⟩, ⟨.leaf (.string "*/"), .under 4⟩]⟩

/-- The description is parted, and a note that quotes a harmless key follows it. -/
theorem ofDocument_comment_closes_described :
    describedDocument.Closed ∧ describedDocument.Distinct ∧
    ∃ remark,
      (((ofDocument {} (describedDocument.normalize {} 0 none) 0).2.types.simplify {} 0).node
        1).remark? = some remark ∧
      ClosesAtEnd (commentBlock remark).toList := by
  have hclosed : describedDocument.Closed := by decide
  have hdistinct : describedDocument.Distinct := by decide
  have hremark :
      (((ofDocument {} (describedDocument.normalize {} 0 none) 0).2.types.simplify {} 0).node
      1).remark? = some ("* /\n\nThis interface was referenced by `R`'s JSON-Schema definition\n" ++
        "via the `patternProperty` \"k\".") := by decide +kernel
  have hkeys : ∀ o < (describedDocument.normalize {} 0 none).size,
      ∀ e ∈ (describedDocument.normalize {} 0 none).membersAt o "patternProperties",
        StaysOpen e.1.toList := by decide +kernel
  have hfound : ∀ o < describedDocument.size, o ∉ (describedDocument.respelled 0).schemaIds 0 →
      describedDocument.string? o "description" = none := by decide +kernel
  refine ⟨hclosed, hdistinct, _, hremark,
    ofDocument_comment_closes {} describedDocument 0 none hclosed hdistinct (by decide) _ rfl 0 1 _
      hremark (fun o x e hstems _ hquoted _ => ?_) fun o ho category text _ htext => ?_⟩
  · rcases hquoted with hentry | ⟨hwanted, -⟩
    · exact hkeys o hstems.1 e hentry
    · cases hwanted
  · obtain ⟨c, hget⟩ := exists_get?_of_string? htext
    have hlt := lt_size_of_isObject (isObject_of_get? hget)
    cases (hfound o hlt ho).symm.trans htext

/-- A record with one pattern that ends comments. -/
def quotedDocument : Document :=
  ⟨#[⟨.object [("title", 1), ("type", 2), ("patternProperties", 3)], .root⟩,
    ⟨.leaf (.string "R"), .under 0⟩, ⟨.leaf (.string "object"), .under 0⟩,
    ⟨.object [("^a*/b$", 4)], .under 0⟩, ⟨.object [("type", 5)], .under 3⟩,
    ⟨.leaf (.string "string"), .under 4⟩]⟩

/-- The note quotes the pattern as it is, and the comment ends in the middle of it. -/
theorem quotedDocument_breaks_out :
    quotedDocument.Closed ∧ quotedDocument.Distinct ∧
    (∃ remark, (((ofDocument {} (quotedDocument.normalize {} 0 none) 0).2.types.simplify {} 0).node
        1).remark? = some remark ∧
      ¬ ClosesAtEnd (commentBlock remark).toList) ∧
    (compileDocument {} quotedDocument 0 none).result.toOption
      = some ("export interface R \x7b\n/**\n * This interface was referenced by " ++
        "`R`'s JSON-Schema definition\n * via the `patternProperty` \"^a*/b$\".\n */\n" ++
        "[k: string]: string\n\x7d\n") := by
  have hremark :
      (((ofDocument {} (quotedDocument.normalize {} 0 none) 0).2.types.simplify {} 0).node
      1).remark? = some ("This interface was referenced by `R`'s JSON-Schema definition\n" ++
        "via the `patternProperty` \"^a*/b$\".") := by decide +kernel
  refine ⟨by decide, by decide, ⟨_, hremark, ?_⟩, by decide +kernel⟩
  rw [closesAtEnd_commentBlock_iff]
  decide +kernel

end Lowering

end SchemaDecl
