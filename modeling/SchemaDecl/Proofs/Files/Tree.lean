/-
Trees of files that are written to.

A path that leads somewhere still leads there when directories are made and files are written,
because directories stay where they are. So a file keeps its content until a path that leads to the
same location is written.

* `Files.entry?_put_self`, `Files.entry?_put_of_ne`: what stands where after an entry has been put.
* `Files.Extends`, `Files.Upholds`: all entries stay; all directories do.
* `Files.Upholds.locate`: paths lead where they led.
* `Files.extends_makeDirectories`: making directories leaves the rest alone.
* `Files.read_write_self`, `Files.read_write_of_ne`: **what is written can be read**, and other
  files can be read as before.
* `Files.WellFormed`, `Files.WellFormed.exists_stem?`: in a tree whose entries stand in directories,
  what can be read has a stem.
-/
import SchemaDecl.Files.Basic
import SchemaDecl.Proofs.Files.Path

namespace SchemaDecl.Files

variable {f f' f'' : Files} {loc loc' : Location} {path path' : String} {entry : Entry}
  {content content' : List UInt8}

/-! ### Entries -/

lemma lookup_put_of_ne {entries : List (Location × Entry)} (h : loc' ≠ loc) :
    (entries.filter (fun e => e.1 != loc) ++ [(loc, entry)]).lookup loc' = entries.lookup loc' := by
  have hne : (loc' == loc) = false := beq_eq_false_iff_ne.mpr h
  induction entries with
  | nil => rw [List.filter_nil, List.nil_append, List.lookup_cons, hne]
  | cons e entries ih =>
      obtain ⟨at', kind⟩ := e
      by_cases heq : at' = loc
      · subst heq
        rw [List.filter_cons_of_neg (by simp), ih, List.lookup_cons, hne]
      · rw [List.filter_cons_of_pos (by simpa using heq), List.cons_append, List.lookup_cons, ih,
          List.lookup_cons]

lemma lookup_put_self {entries : List (Location × Entry)} :
    (entries.filter (fun e => e.1 != loc) ++ [(loc, entry)]).lookup loc = some entry := by
  induction entries with
  | nil => simp
  | cons e entries ih =>
      obtain ⟨at', kind⟩ := e
      by_cases heq : at' = loc
      · rw [List.filter_cons_of_neg (by simpa using heq), ih]
      · have hne : (loc == at') = false := beq_eq_false_iff_ne.mpr (Ne.symm heq)
        rw [List.filter_cons_of_pos (by simpa using heq), List.cons_append, List.lookup_cons, hne,
          ih]

lemma entry?_put_of_ne (h : loc' ≠ loc) : entry? (f.put loc entry) loc' = f.entry? loc' := by
  rw [ entry?, put, lookup_put_of_ne h, entry?]

/-- An entry may be put where there is no directory. -/
lemma entry?_put_self (h : f.entry? loc ≠ some .directory) :
    entry? (f.put loc entry) loc = some entry := by
  rw [ entry?] at h
  split at h
  · exact absurd rfl h
  case isFalse habove => rw [ entry?, put, if_neg habove, lookup_put_self]

/-! ### Trees that keep what they have -/

/-- All entries stay. -/
structure Extends (f f' : Files) : Prop where
  here_eq : f'.here = f.here
  entry?_eq : ∀ loc entry, f.entry? loc = some entry → f'.entry? loc = some entry

/-- All directories stay. -/
structure Upholds (f f' : Files) : Prop where
  here_eq : f'.here = f.here
  directory : ∀ loc, f.entry? loc = some .directory → f'.entry? loc = some .directory

lemma Extends.refl (f : Files) : f.Extends f := ⟨rfl, fun _ _ h => h⟩

lemma Extends.trans (h : f.Extends f') (h' : f'.Extends f'') : f.Extends f'' :=
  ⟨h'.here_eq.trans h.here_eq, fun loc entry he =>
    h'.entry?_eq loc entry (h.entry?_eq loc entry he)⟩

lemma Extends.upholds (h : f.Extends f') : f.Upholds f' := ⟨h.here_eq, fun loc => h.entry?_eq loc _⟩

lemma extends_put (h : f.entry? loc = none) : f.Extends (f.put loc entry) := by
  refine ⟨rfl, fun loc' entry' he => ?_⟩
  by_cases heq : loc' = loc
  · rw [heq, h] at he
    cases he
  · rwa [entry?_put_of_ne heq]

lemma upholds_put (h : f.entry? loc ≠ some .directory) : f.Upholds (f.put loc entry) := by
  refine ⟨rfl, fun loc' he => ?_⟩
  by_cases heq : loc' = loc
  · exact absurd (heq ▸ he) h
  · rwa [entry?_put_of_ne heq]

/-! ### Where paths lead -/

lemma bind_eq_ok {ε α β : Type} {x : Except ε α} {g : α → Except ε β} {b : β} :
    (x >>= g) = .ok b ↔ ∃ a, x = .ok a ∧ g a = .ok b := by
  cases x <;> simp [bind, Except.bind]

/-- A piece leads somewhere from a directory only. -/
lemma step_eq_ok {piece : String} (h : f.step loc piece = .ok loc') :
    f.entry? loc = some .directory ∧
      ((Path.isIdle piece = true ∧ loc' = loc) ∨ (piece = ".." ∧ loc' = loc.dropLast) ∨
        loc' = loc ++ [piece] ∧ Path.isIdle piece = false ∧ piece ≠ "..") := by
  rw [step] at h
  cases hentry : f.entry? loc with
  | none => simp [hentry] at h
  | some entry =>
      cases entry with
      | file content => simp [hentry] at h
      | directory =>
          rw [hentry] at h
          dsimp only at h
          refine ⟨rfl, ?_⟩
          split_ifs at h with hidle hup
          · exact .inl ⟨hidle, (Except.ok.inj h).symm⟩
          · exact .inr (.inl ⟨beq_iff_eq.mp hup, (Except.ok.inj h).symm⟩)
          · exact .inr (.inr ⟨(Except.ok.inj h).symm, by simpa using hidle, by simpa using hup⟩)

lemma Upholds.step (h : f.Upholds f') {piece : String} (hstep : f.step loc piece = .ok loc') :
    f'.step loc piece = .ok loc' := by
  have hentry := (step_eq_ok hstep).1
  rw [Files.step, hentry] at hstep
  rw [Files.step, h.directory loc hentry]
  exact hstep

lemma Upholds.foldlM_step (h : f.Upholds f') {pieces : List String}
    (hsteps : pieces.foldlM f.step loc = .ok loc') : pieces.foldlM f'.step loc = .ok loc' := by
  induction pieces generalizing loc with
  | nil => exact hsteps
  | cons piece pieces ih =>
      rw [List.foldlM_cons] at hsteps ⊢
      obtain ⟨mid, hstep, hrest⟩ := bind_eq_ok.mp hsteps
      exact bind_eq_ok.mpr ⟨mid, h.step hstep, ih hrest⟩

/-- **A path leads where it led** as long as directories stay. -/
lemma Upholds.locate (h : f.Upholds f') (hloc : f.locate path = .ok loc) :
    f'.locate path = .ok loc := by
  have hstart : f'.start path = f.start path := by rw [start, start, h.here_eq]
  rw [Files.locate] at hloc ⊢
  split_ifs at hloc ⊢ with hempty hlong
  rw [hstart]
  exact h.foldlM_step hloc

/-- The last step of a path. -/
lemma exists_step_of_locate {above : List String} {last : String}
    (hpieces : Path.pieces path = above ++ [last]) (h : f.locate path = .ok loc) :
    ∃ mid, f.step mid last = .ok loc := by
  rw [locate] at h
  split_ifs at h with hempty hlong
  rw [hpieces, List.foldlM_append] at h
  obtain ⟨mid, -, hlast⟩ := bind_eq_ok.mp h
  obtain ⟨loc', hstep, hloc⟩ := bind_eq_ok.mp hlast
  exact ⟨mid, hstep.trans hloc⟩

/-- A path that ends with a name leads to a location of that name. -/
lemma getLast?_of_locate {above : List String} {name : String}
    (hpieces : Path.pieces path = above ++ [name]) (hidle : Path.isIdle name = false)
    (hup : name ≠ "..") (h : f.locate path = .ok loc) : loc.getLast? = some name := by
  obtain ⟨mid, hstep⟩ := exists_step_of_locate hpieces h
  rcases (step_eq_ok hstep).2 with ⟨hidle', -⟩ | ⟨hup', -⟩ | ⟨rfl, -⟩
  · rw [hidle] at hidle'
    cases hidle'
  · exact absurd hup' hup
  · exact List.getLast?_concat

/-! ### Making directories -/

lemma extends_makeDirectory (h : f.makeDirectory path = .ok f') : f.Extends f' := by
  rw [makeDirectory] at h
  split at h
  case isTrue => cases h
  case isFalse =>
    dsimp only at h
    split at h
    case h_1 => cases h
    case h_2 last _ =>
      obtain ⟨above, -, h⟩ := bind_eq_ok.mp h
      obtain ⟨loc, -, h⟩ := bind_eq_ok.mp h
      split at h
      case isTrue => cases h
      case isFalse hthere =>
        obtain rfl := Except.ok.inj h
        simp only [Bool.or_eq_true, not_or, Bool.not_eq_true, Option.isSome_eq_false_iff,
          Option.isNone_iff_eq_none] at hthere
        exact extends_put hthere.2

lemma extends_makeNested {paths : List String} (h : f.makeNested paths = .ok f') :
    f.Extends f' := by
  induction paths generalizing f' with
  | nil => exact Except.ok.inj h ▸ .refl f
  | cons path above ih =>
      rw [makeNested] at h
      cases hmade : f.makeDirectory path with
      | ok made =>
          rw [hmade] at h
          exact Except.ok.inj h ▸ extends_makeDirectory hmade
      | error e =>
          rw [hmade] at h
          split at h
          case h_1 heq => cases heq
          case h_2 =>
            -- the directories above are made first
            cases habove : f.makeNested above with
            | error e => simp [habove] at h
            | ok f₁ =>
                rw [habove] at h
                dsimp only at h
                refine (ih habove).trans ?_
                cases hmade' : f₁.makeDirectory path with
                | ok made =>
                    rw [hmade'] at h
                    exact Except.ok.inj h ▸ extends_makeDirectory hmade'
                | error e =>
                    rw [hmade'] at h
                    dsimp only at h
                    split_ifs at h
                    exact Except.ok.inj h ▸ .refl f₁
          case h_3 =>
            split_ifs at h
            exact Except.ok.inj h ▸ .refl f

/-- **Making directories leaves the rest alone.** -/
lemma extends_makeDirectories (h : f.makeDirectories path = .ok f') : f.Extends f' :=
  extends_makeNested h

/-! ### Reading and writing -/

lemma read_eq_ok_iff : f.read path = .ok content ↔
    ∃ loc, f.locate path = .ok loc ∧ f.entry? loc = some (.file content) := by
  refine bind_eq_ok.trans (exists_congr fun loc => and_congr_right fun _ => ?_)
  cases hentry : f.entry? loc with
  | none => exact ⟨(fun h => by cases h), fun h => by cases h⟩
  | some entry =>
      cases entry with
      | directory => exact ⟨(fun h => by cases h), fun h => by cases h⟩
      | file content => simp [pure, Except.pure]

lemma Extends.read (h : f.Extends f') (hread : f.read path = .ok content) :
    f'.read path = .ok content := by
  obtain ⟨loc, hloc, hentry⟩ := read_eq_ok_iff.mp hread
  exact read_eq_ok_iff.mpr ⟨loc, h.upholds.locate hloc, h.entry?_eq loc _ hentry⟩

/-- A file is put where the path leads, if that is no directory. -/
lemma write_eq_ok (h : f.write path content = .ok f') : ∃ loc, f.locate path = .ok loc ∧
    f.entry? loc ≠ some .directory ∧ f' = f.put loc (.file content) := by
  obtain ⟨loc, hloc, h⟩ := bind_eq_ok.mp h
  refine ⟨loc, hloc, ?_⟩
  split at h
  case h_1 => cases h
  case h_2 hentry => exact ⟨hentry, (Except.ok.inj h).symm⟩

/-- **What is written can be read.** -/
lemma read_write_self (h : f.write path content = .ok f') : f'.read path = .ok content := by
  obtain ⟨loc, hloc, hentry, rfl⟩ := write_eq_ok h
  exact read_eq_ok_iff.mpr ⟨loc, (upholds_put hentry).locate hloc, entry?_put_self hentry⟩

/-- Files can be read as before when another one is written. -/
lemma read_write_of_ne (h : f.write path content = .ok f') (hread : f.read path' = .ok content')
    (hne : ∀ loc, f.locate path = .ok loc → f.locate path' ≠ .ok loc) :
    f'.read path' = .ok content' := by
  obtain ⟨loc, hloc, hentry, rfl⟩ := write_eq_ok h
  obtain ⟨loc', hloc', hentry'⟩ := read_eq_ok_iff.mp hread
  refine read_eq_ok_iff.mpr ⟨loc', (upholds_put hentry).locate hloc', ?_⟩
  rwa [entry?_put_of_ne]
  rintro rfl
  exact hne loc' hloc hloc'

/-! ### Well-formed trees -/

/-- Every entry stands in a directory. -/
def WellFormed (f : Files) : Prop := ∀ e ∈ f.entries, f.entry? e.1.dropLast = some .directory

instance (f : Files) : Decidable f.WellFormed :=
  inferInstanceAs (Decidable (∀ e ∈ f.entries, f.entry? e.1.dropLast = some .directory))

lemma WellFormed.above (h : f.WellFormed) (hentry : f.entry? loc = some entry) :
    f.entry? loc.dropLast = some .directory := by
  rw [ entry?] at hentry
  split at hentry
  case isTrue habove =>
    have hfront : loc.dropLast <+: f.here :=
      (List.dropLast_prefix loc).trans (List.isPrefixOf_iff_prefix.mp habove)
    rw [ entry?, if_pos (List.isPrefixOf_iff_prefix.mpr hfront)]
  case isFalse =>
    obtain ⟨front, back, hentries, -⟩ := List.lookup_eq_some_iff.mp hentry
    exact h (loc, entry) (by simp [hentries])

/-- **What can be read has a stem**: a path that ends on the way up, or stays where it is, leads to
a directory. -/
lemma WellFormed.exists_stem? (h : f.WellFormed) (hread : f.read path = .ok content) :
    ∃ stem, Path.stem? path = some stem := by
  obtain ⟨loc, hloc, hentry⟩ := read_eq_ok_iff.mp hread
  obtain ⟨last, hlast⟩ :=
    Option.isSome_iff_exists.mp (List.getLast?_isSome.mpr (Path.pieces_ne_nil path))
  obtain ⟨above, hpieces⟩ := List.getLast?_eq_some_iff.mp hlast
  obtain ⟨mid, hstep⟩ := exists_step_of_locate hpieces hloc
  obtain ⟨hmid, hwhere⟩ := step_eq_ok hstep
  rcases hwhere with ⟨-, rfl⟩ | ⟨-, rfl⟩ | ⟨-, hidle, hup⟩
  · rw [hmid] at hentry
    cases hentry
  · rw [h.above hmid] at hentry
    cases hentry
  · refine ⟨Path.withoutExtension last, ?_⟩
    rw [Path.stem?, Path.name?_eq, hpieces, List.filter_append,
      List.filter_cons_of_pos (by simp [hidle])]
    simp [Option.filter, hup]

end SchemaDecl.Files
