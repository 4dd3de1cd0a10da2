/-
Definitions that nothing refers to.

A spare definition is appended to the definitions of a value whose references all lead below other
definitions. Its key stands nowhere in the value, and it holds nothing that refers or defines. Then
the declarations are the same with it and without it, apart from two cases: under the key `$ref` a
string that begins with a hash sign makes a reference of the map of definitions, and the key
`additionalItems` may be given to a definition when schemas are brought to normal form.

* `Spare`: a definition that nothing refers to.
* `compile_withDefinition`: **it does not count.**
* `compile_withDefinition_counts`: the two cases in which it does.
-/
import SchemaDecl.Proofs.Document.Violations
import SchemaDecl.Proofs.Spare.Lowering
import SchemaDecl.Proofs.Spare.Normal

namespace SchemaDecl

open Document

variable {members defs : Keyed Json} {k : String} {spare : Json}

/-- The entry under a key, between those before and after it. -/
lemma Keyed.exists_append_of_get? {α : Type} {m : Keyed α} {key : String} {a : α}
    (h : get? m key = some a) : ∃ pre post, m = pre ++ (key, a) :: post ∧ key ∉ pre.map Prod.fst ∧
      ∀ b, insert m key b = pre ++ (key, b) :: post := by
  induction m with
  | nil => cases h
  | cons e m ih =>
      obtain ⟨key', a'⟩ := e
      by_cases hkey : key' = key
      · subst hkey
        rw [get?, List.lookup_cons_self] at h
        obtain rfl := Option.some.inj h
        exact ⟨[], m, rfl, by simp, fun b => by rw [insert, if_pos (beq_self_eq_true _)]; rfl⟩
      · rw [get?, List.lookup_cons, beq_false_of_ne (Ne.symm hkey)] at h
        obtain ⟨pre, post, rfl, hpre, hinsert⟩ := ih h
        refine ⟨(key', a') :: pre, post, rfl, fun hmem => ?_, fun b => ?_⟩
        · exact (List.mem_cons.mp hmem).elim (Ne.symm hkey) hpre
        · rw [insert, if_neg (by simpa using hkey), hinsert]
          rfl

/-! ### Spare definitions -/

/-- What an object refers to within its document. -/
def localReference? (members : Keyed Json) : Option String :=
  match Keyed.get? members "$ref" with
  | some (.scalar (.string pointer)) =>
    if pointer.toList.head? = some '#' then some pointer else none
  | _ => none

lemma localReference?_eq_some {pointer : String}
    (h : Keyed.get? members "$ref" = some (.string pointer))
    (hhash : pointer.toList.head? = some '#') :
    localReference? members = some pointer := by
  rw [localReference?, h]
  exact if_pos hhash

instance (defs : Keyed Json) (pointer : String) : Decidable (PointsBelow defs pointer) :=
  decidable_of_iff
    ((Pointer.steps? pointer.toList).bind List.head? = some "$defs".toList ∧
      (((Pointer.steps? pointer.toList).bind fun steps => steps[1]?).any
        fun name => Keyed.has defs (String.ofList name)) = true) (by
    constructor
    · rintro ⟨hfirst, hsecond⟩
      cases hsteps : Pointer.steps? pointer.toList with
      | none => simp [hsteps] at hfirst
      | some steps =>
          rw [hsteps] at hfirst hsecond
          match steps with
          | [] => cases hfirst
          | [_] => cases hsecond
          | first :: name :: rest =>
              obtain rfl := Option.some.inj hfirst
              exact ⟨name, rest, hsteps, hsecond⟩
    · rintro ⟨name, rest, hsteps, hname⟩
      rw [hsteps]
      exact ⟨rfl, hname⟩)

/-- The value with one more definition. -/
def withDefinition (members defs : Keyed Json) (k : String) (spare : Json) : Json :=
  .object (Keyed.insert members "$defs" (.object (defs ++ [(k, spare)])))

/-- A definition that nothing refers to: all references of the value lead below other definitions,
the key stands nowhere in it, and nothing in the definition refers or defines. -/
structure Spare (members defs : Keyed Json) (k : String) (spare : Json) : Prop where
  definitions : Keyed.get? members "$defs" = some (.object defs)
  points : ∀ o ∈ (Json.object members).objects, ∀ pointer ∈ localReference? o,
    PointsBelow defs pointer
  fresh : ∀ o ∈ (Json.object members).objects, k ∉ o.map Prod.fst
  plain : ∀ o ∈ spare.objects, ∀ entry ∈ o, entry.1 ∉ referringKeys

/-! ### The same declarations -/

/-- The documents of the two values are twins when they have been brought to normal form. -/
lemma Spare.exists_twin (h : Spare members defs k spare) (hitems : k ≠ "additionalItems")
    (href : localReference? [(k, spare)] = none) (s : Settings) (name : Option String) :
    ∃ m extra f, Twin k m extra f
        ((linked (.object members)).normalize s (inserted (.object members)).1 name)
        ((linked (withDefinition members defs k spare)).normalize s
          (inserted (withDefinition members defs k spare)).1 name) ∧
      f (inserted (.object members)).1 = (inserted (withDefinition members defs k spare)).1 ∧
      (inserted (.object members)).1 ≠ m ∧
      (inserted (.object members)).1
        < ((linked (.object members)).normalize s (inserted (.object members)).1 name).size := by
  obtain ⟨pre, post, rfl, hpre, hinsert⟩ := Keyed.exists_append_of_get? h.definitions
  have hright : withDefinition (pre ++ ("$defs", .object defs) :: post) defs k spare
      = valueWith pre (defs ++ [(k, spare)]) post := by
    rw [withDefinition, hinsert, valueWith]
  have hplain : k = "$ref" → ∀ text, spare = .string text → text.toList.head? ≠ some '#' := by
    rintro rfl text rfl hhash
    rw [localReference?_eq_some List.lookup_cons_self hhash] at href
    cases href
  obtain ⟨m, extra, f, htwin, hroot, o⟩ := exists_origin hpre h.fresh
    (fun o ho pointer hget hhash => h.points o ho pointer (localReference?_eq_some hget hhash))
    h.plain hplain
  have hlt := (sprouts_insert (valueWith pre defs post) {}).2.2.1
  have hm := Nat.ne_of_gt (o.parts _ m (mem_children_of_get? o.definitions))
  have hk : k ≠ "$defs" := by
    rintro rfl
    refine h.fresh _ (List.mem_cons_self) ?_
    simp
  have hlinked := (htwin.resolveReferences o hlt).linkFrom (by rwa [size_resolveReferences]) hm
    fun i => by rw [link_resolveReferences, o.free]
  have hlt' : (inserted (valueWith pre defs post)).1
      < (((inserted (valueWith pre defs post)).2.resolveReferences
        (inserted (valueWith pre defs post)).1).linkFrom (inserted (valueWith pre defs post)).1
          .root).size := by
    rwa [size_linkFrom, size_resolveReferences]
  obtain ⟨f₁, hlater, hnormal⟩ := hlinked.normalize hk hitems s hlt' hm name
  rw [hroot] at hnormal
  rw [hright, linked, linked]
  exact ⟨m, extra, f₁, hnormal, (hlater.agree _ hlt').trans hroot, hm,
    Nat.lt_of_lt_of_le hlt' hlater.size_le⟩

/-- **A definition that nothing refers to does not count.** If a value and the value with a spare
definition both follow the rules, and definitions that cannot be reached are not asked for, they
have the same declarations; with valid settings there are some. The key of the definition is not
`additionalItems`, and the definition is no string that makes a reference of the definitions. -/
theorem compile_withDefinition (s : Settings) (name : Option String) (members defs : Keyed Json)
    (k : String) (spare : Json) (hs : s.unreachableDefinitions = false)
    (h : Spare members defs k spare) (hitems : k ≠ "additionalItems")
    (href : localReference? [(k, spare)] = none)
    (hvalid : checkValue (.object members) (name.getD inlineSource) = [])
    (hvalid' : checkValue (withDefinition members defs k spare) (name.getD inlineSource) = []) :
    (compile s (withDefinition members defs k spare) name).result
        = (compile s (.object members) name).result ∧
      (s.isValid = true → ∃ text, (compile s (.object members) name).result = .ok text) := by
  cases hsettings : s.isValid with
  | false =>
      have herror (value : Json) :
          (compile s value name).result = .error (.settings s.maxItems) := by
        rw [compile]
        dsimp only
        rw [compileDocument, hsettings, Bool.not_false, if_pos rfl]
      exact ⟨by rw [herror, herror], fun htrue => by cases htrue⟩
  | true =>
      obtain ⟨m, extra, f, htwin, hroot, hm, hlt⟩ := h.exists_twin hitems href s name
      have htypes := TypeGraph.ofDocument_eq_of_twin hs htwin hlt hm
      rw [hroot] at htypes
      rw [result_compile hvalid hsettings, result_compile hvalid' hsettings]
      refine ⟨?_, fun _ => exists_result_declare s _ _ name⟩
      rw [declare, declare, htypes]

/-- A record with a field whose type is defined. -/
def definedField : Keyed Json :=
  [("properties", .object [("p", .object [("$ref", .string "#/$defs/A")])]),
    ("$defs", .object [("A", .object [("type", .string "string")])])]

theorem compile_withDefinition_definedField :
    Spare definedField [("A", .object [("type", .string "string")])] "B"
        (.object [("type", .string "number")]) ∧
      (compile {} (withDefinition definedField [("A", .object [("type", .string "string")])] "B"
          (.object [("type", .string "number")])) (some "R")).result
        = (compile {} (.object definedField) (some "R")).result ∧
      ∃ text, (compile {} (.object definedField) (some "R")).result = .ok text := by
  have hspare : Spare definedField [("A", .object [("type", .string "string")])] "B"
      (.object [("type", .string "number")]) :=
    ⟨rfl, by decide +kernel, by decide +kernel, by decide +kernel⟩
  obtain ⟨hsame, htext⟩ := compile_withDefinition {} (some "R") _ _ _ _ rfl hspare (by decide)
    (by decide) (by decide +kernel) (by decide +kernel)
  exact ⟨hspare, hsame, htext (by decide)⟩

/-- A list of strings without definitions. -/
def bareList : Keyed Json :=
  [("items", .object [("type", .string "string")]), ("$defs", .object [])]

/-- The definitions of the definition `A`, which describe a list. -/
def listedDefinitions : Json :=
  .object [("$defs",
    .object [("items", .object [("type", .string "string")]), ("minItems", .int 1)])]

/-- A record with a field that refers to these definitions as to a schema. -/
def nestedList : Keyed Json :=
  [("properties", .object [("p", .object [("$ref", .string "#/$defs/A/$defs")])]),
    ("$defs", .object [("A", listedDefinitions)])]

/-- The two cases in which a spare definition counts: it makes a reference of the definitions, or it
takes the name that another definition is given when schemas are brought to normal form. -/
theorem compile_withDefinition_counts :
    (Spare bareList [] "$ref" (.string "#") ∧
      checkValue (.object bareList) inlineSource = [] ∧
      checkValue (withDefinition bareList [] "$ref" (.string "#")) inlineSource = [] ∧
      (compile {} (withDefinition bareList [] "$ref" (.string "#")) none).result
        ≠ (compile {} (.object bareList) none).result) ∧
    (Spare nestedList [("A", listedDefinitions)] "additionalItems" (.int 1) ∧
      checkValue (.object nestedList) "R" = [] ∧
      checkValue (withDefinition nestedList [("A", listedDefinitions)] "additionalItems" (.int 1))
        "R" = [] ∧
      (compile {} (withDefinition nestedList [("A", listedDefinitions)] "additionalItems" (.int 1))
          (some "R")).result
        ≠ (compile {} (.object nestedList) (some "R")).result) := by
  refine ⟨⟨⟨rfl, by decide +kernel, by decide +kernel, by decide +kernel⟩, by decide +kernel,
    by decide +kernel, fun heq => ?_⟩,
    ⟨rfl, by decide +kernel, by decide +kernel, by decide +kernel⟩,
    by decide +kernel, by decide +kernel, fun heq => ?_⟩
  · exact absurd (congrArg Except.toOption heq) (by decide +kernel)
  · exact absurd (congrArg Except.toOption heq) (by decide +kernel)

end SchemaDecl
