/-
Files that a compilation leaves behind.

The declarations of each input are written to a file that has the name of the input, without its
directories and its extension. Inputs of one name share a file, and what is written later replaces
what was there: the file holds the declarations of the last such input that was compiled.

* `Run.Ensures`: what a command comes to, if it ends well and if it does not.
* `CompileArguments.lastOf`: the declarations of the last input with a stem.
* `CompileArguments.Delivered`: they can be read.
* `CompileArguments.ensures_finish`, `CompileArguments.ensures_mapM`: finishing one input, and all
  of them, keeps it so.
* `CompileArguments.run_leaves_last`: **the file of an input holds the declarations of the last
  input of its stem.**
* `CompileArguments.run_overwrites`: so declarations can be lost.
-/
import SchemaDecl.Command.Run
import SchemaDecl.Proofs.Files.Tree
import SchemaDecl.Proofs.Text.Utf8

namespace SchemaDecl

/-! ### What commands come to -/

namespace Run

variable {α β : Type} {p : Progress} {m : Run α} {E : CommandError → Progress → Prop}

/-- A command that ends well has a result with the property `Q`; an error that ends it has the
property `E`. -/
structure Ensures (m : Run α) (p : Progress) (Q : α → Progress → Prop)
    (E : CommandError → Progress → Prop) : Prop where
  ok : ∀ a q, m.run p = (.ok a, q) → Q a q
  error : ∀ e q, m.run p = (.error e, q) → E e q

lemma run_bind_of_ok {f : α → Run β} {a : α} {q : Progress} (h : m.run p = (.ok a, q)) :
    (m >>= f).run p = (f a).run q := by
  rw [ExceptT.run_bind]
  simp only [bind, StateT.bind]
  rw [show m.run p = _ from h]

lemma run_bind_of_error {f : α → Run β} {e : CommandError} {q : Progress}
    (h : m.run p = (.error e, q)) : (m >>= f).run p = (.error e, q) := by
  rw [ExceptT.run_bind]
  simp only [bind, StateT.bind]
  rw [show m.run p = _ from h]
  rfl

namespace Ensures

variable {P Q : α → Progress → Prop}

lemma pure {a : α} (h : Q a p) : Ensures (Pure.pure a : Run α) p Q E where
  ok := by
    rintro _ _ ⟨⟩
    exact h
  error := by rintro _ _ ⟨⟩

lemma throw {e : CommandError} (h : E e p) :
    Ensures (MonadExcept.throw e : Run α) p Q E where
  ok := by rintro _ _ ⟨⟩
  error := by
    rintro _ _ ⟨⟩
    exact h

lemma imp {E' : CommandError → Progress → Prop} (h : Ensures m p Q E)
    (hE : ∀ e q, E e q → E' e q) : Ensures m p Q E' :=
  ⟨h.ok, fun e q he => hE e q (h.error e q he)⟩

/-- One command after another. -/
lemma bind {f : α → Run β} {Q : β → Progress → Prop} (h : Ensures m p P E)
    (hf : ∀ a q, P a q → Ensures (f a) q Q E) : Ensures (m >>= f) p Q E := by
  obtain ⟨result, q, hrun⟩ : ∃ result q, m.run p = (result, q) := ⟨_, _, rfl⟩
  cases result with
  | ok a =>
      have hafter := hf a q (h.ok a q hrun)
      have hbind : (m >>= f).run p = (f a).run q := run_bind_of_ok hrun
      exact ⟨fun b r hb => hafter.ok b r (hbind.symm.trans hb),
        fun e r he => hafter.error e r (hbind.symm.trans he)⟩
  | error e =>
      have hbind : (m >>= f).run p = (.error e, q) := run_bind_of_error hrun
      refine ⟨fun b r hb => ?_, fun e' r he => ?_⟩
      · cases hbind.symm.trans hb
      · cases hbind.symm.trans he
        exact h.error e q hrun

end Ensures

/-- A command that looks at what has been done. -/
lemma ensures_get_bind {g : Progress → Run β} {Q : β → Progress → Prop} (h : Ensures (g p) p Q E) :
    Ensures (get >>= g) p Q E := by
  have hget : Ensures (get : Run Progress) p (fun st q => st = p ∧ q = p) E :=
    ⟨by rintro _ _ ⟨⟩; exact ⟨rfl, rfl⟩, by rintro _ _ ⟨⟩⟩
  refine hget.bind fun st q hq => ?_
  rwa [hq.1, hq.2]

/-- Nothing follows an error. -/
lemma ensures_throw_bind {e : CommandError} {g : α → Run β} {Q : β → Progress → Prop} (h : E e p) :
    Ensures (throw e >>= g) p Q E :=
  Ensures.bind (.throw (Q := fun _ _ => False) h) fun _ _ hfalse => hfalse.elim

variable {Q : Unit → Progress → Prop}

lemma ensures_report {lines : List Report} (h : Q () { p with report := p.report ++ lines }) :
    Ensures (report lines) p Q E where
  ok := by
    rintro _ _ ⟨⟩
    exact h
  error := by rintro _ _ ⟨⟩

/-- The files are changed, or the change is refused. -/
lemma ensures_change {failed : FileError → CommandError} {g : Files → Except FileError Files}
    (hok : ∀ files, g p.files = .ok files → Q () { p with files })
    (herror : ∀ e, g p.files = .error e → E (failed e) p) : Ensures (change failed g) p Q E := by
  have hget : (get : Run Progress).run p = (.ok p, p) := rfl
  cases hg : g p.files with
  | ok files =>
      have hrun : (change failed g).run p = (.ok (), { p with files }) := by
        rw [change, run_bind_of_ok hget, hg]
        rfl
      refine ⟨fun a q ha => ?_, fun e q he => ?_⟩
      · cases hrun.symm.trans ha
        exact hok files hg
      · cases hrun.symm.trans he
  | error e =>
      have hrun : (change failed g).run p = (.error (failed e), p) := by
        rw [change, run_bind_of_ok hget, hg]
        rfl
      refine ⟨fun a q ha => ?_, fun e' q he => ?_⟩
      · cases hrun.symm.trans ha
      · cases hrun.symm.trans he
        exact herror e hg

end Run

namespace CompileArguments

open Run

variable {a : CompileArguments} {s : Settings} {dir path stem text : String}
  {result : String → Except CompileError String} {paths done : List String} {p q : Progress}
  {f f' : Files}

/-! ### The last input with a stem -/

/-- The declarations of the last input with a stem that was compiled. -/
def lastOf (result : String → Except CompileError String) (paths : List String) (stem : String) :
    Option String :=
  ((paths.filter fun path => Path.stem? path == some stem).filterMap
    fun path => (result path).toOption).getLast?

lemma lastOf_concat_of_ok (hstem : Path.stem? path = some stem) (h : result path = .ok text) :
    lastOf result (done ++ [path]) stem = some text := by
  simp [lastOf, hstem, h, Except.toOption]

lemma lastOf_concat_of_ne (hstem : Path.stem? path ≠ some stem) :
    lastOf result (done ++ [path]) stem = lastOf result done stem := by
  simp [lastOf, hstem]

lemma lastOf_concat_of_error {e : CompileError} (h : result path = .error e) :
    lastOf result (done ++ [path]) stem = lastOf result done stem := by
  rw [lastOf, List.filter_append, List.filterMap_append, lastOf]
  by_cases hstem : Path.stem? path = some stem <;> simp [hstem, h, Except.toOption]

/-- An input that was compiled has a last one of its stem. -/
lemma exists_lastOf (hpath : path ∈ paths) (hstem : Path.stem? path = some stem)
    (h : result path = .ok text) : ∃ last, lastOf result paths stem = some last := by
  refine Option.isSome_iff_exists.mp (List.getLast?_isSome.mpr (List.ne_nil_of_mem (a := text) ?_))
  refine List.mem_filterMap.mpr ⟨path, List.mem_filter.mpr ⟨hpath, by simp [hstem]⟩, ?_⟩
  rw [h]
  rfl

/-- The last input with a stem has it. -/
lemma exists_stem?_of_lastOf (h : lastOf result paths stem = some text) :
    ∃ path, Path.stem? path = some stem := by
  obtain ⟨path, hpath, -⟩ := List.mem_filterMap.mp (List.mem_of_getLast? h)
  exact ⟨path, beq_iff_eq.mp (List.mem_filter.mp hpath).2⟩

/-! ### Files of stems -/

/-- The file of a stem. -/
def fileOf (dir stem : String) : String := Path.join dir (stem ++ ".d.ts")

lemma outputPath_of_stem? (h : Path.stem? path = some stem) :
    outputPath dir path = fileOf dir stem := by
  rw [outputPath, h]
  rfl

/-- **Different stems have different files.** -/
lemma stem_eq_of_locate {stem' : String} {loc : Location} (h : '/' ∉ stem.toList)
    (h' : '/' ∉ stem'.toList) (hloc : f.locate (fileOf dir stem) = .ok loc)
    (hloc' : f.locate (fileOf dir stem') = .ok loc) : stem = stem' := by
  have hname {stem : String} (h : '/' ∉ stem.toList)
      (hloc : f.locate (fileOf dir stem) = .ok loc) : loc.getLast? = some (stem ++ ".d.ts") := by
    obtain ⟨above, hpieces⟩ : ∃ above,
        Path.pieces (fileOf dir stem) = above ++ [stem ++ ".d.ts"] :=
      Path.exists_pieces_join dir (by simpa using h)
    have hlong (short : String) (hshort : short.length < 5) : stem ++ ".d.ts" ≠ short := by
      rintro rfl
      rw [String.length_append] at hshort
      have : ".d.ts".length = 5 := rfl
      omega
    refine Files.getLast?_of_locate hpieces ?_ (hlong ".." (by decide)) hloc
    rw [Path.isIdle, Bool.or_eq_false_iff, beq_eq_false_iff_ne, beq_eq_false_iff_ne]
    exact ⟨hlong "" (by decide), hlong "." (by decide)⟩
  have heq := Option.some.inj ((hname h hloc).symm.trans (hname h' hloc'))
  rw [← String.toList_inj, String.toList_append, String.toList_append] at heq
  exact String.toList_inj.mp (List.append_cancel_right heq)

/-- The file of each stem holds the declarations of the last input with that stem. -/
def Delivered (result : String → Except CompileError String) (dir : String) (paths : List String)
    (f : Files) : Prop :=
  ∀ stem text, lastOf result paths stem = some text →
    f.read (fileOf dir stem) = .ok (Text.utf8 text)

lemma delivered_nil : Delivered result dir [] f := fun _ _ htext => by cases htext

lemma Delivered.of_extends (h : Delivered result dir done f) (hextends : f.Extends f') :
    Delivered result dir done f' := fun stem text htext => hextends.read (h stem text htext)

/-- Writing the file of one more input. -/
lemma Delivered.write (h : Delivered result dir done f) (hstem : Path.stem? path = some stem)
    (htext : result path = .ok text)
    (hwrite : f.write (fileOf dir stem) (Text.utf8 text) = .ok f') :
    Delivered result dir (done ++ [path]) f' := by
  intro other last hlast
  by_cases heq : other = stem
  · subst heq
    rw [lastOf_concat_of_ok hstem htext] at hlast
    obtain rfl := Option.some.inj hlast
    exact Files.read_write_self hwrite
  · rw [lastOf_concat_of_ne (by simpa [hstem] using Ne.symm heq)] at hlast
    obtain ⟨path', hstem'⟩ := exists_stem?_of_lastOf hlast
    refine Files.read_write_of_ne hwrite (h other last hlast) fun loc hloc hloc' => heq ?_
    exact stem_eq_of_locate (Path.not_mem_of_stem? hstem') (Path.not_mem_of_stem? hstem) hloc' hloc

/-! ### The run -/

/-- An error of a tree of files. -/
def IsFileFault (e : CommandError) : Prop :=
  (∃ path cause, e = .create path cause) ∨ ∃ path cause, e = .write path cause

section Steps

variable (hdir : a.outDir = some dir)
include hdir

/-- **Finishing an input** leaves its declarations in the file of its stem. -/
lemma ensures_finish (hstem : ∀ text, result path = .ok text → ∃ stem, Path.stem? path = some stem)
    (h : Delivered result dir done p.files) : Ensures (a.finish path (result path)) p
      (fun _ q => Delivered result dir (done ++ [path]) q.files) fun e _ => IsFileFault e := by
  cases hresult : result path with
  | error e =>
      refine Ensures.bind (ensures_report (Q := fun _ q => q.files = p.files) rfl) fun _ q hq => ?_
      refine .pure fun stem text htext => ?_
      rw [lastOf_concat_of_error hresult] at htext
      exact hq ▸ h stem text htext
  | ok text =>
      obtain ⟨stem, hstem⟩ := hstem text hresult
      rw [finish, deliver, hdir]
      dsimp only
      rw [outputPath_of_stem? hstem]
      refine Ensures.bind (P := fun _ q => Delivered result dir (done ++ [path]) q.files) ?_
        fun _ _ hq => .pure hq
      -- the directory is made, the file is written, and that is reported
      refine Ensures.bind (ensures_change (Q := fun _ q => Delivered result dir done q.files)
        (fun files hmade => h.of_extends (Files.extends_makeDirectories hmade))
        fun e _ => .inl ⟨_, _, rfl⟩) fun _ q hq => ?_
      refine Ensures.bind (ensures_change
        (Q := fun _ q => Delivered result dir (done ++ [path]) q.files)
        (fun files hwritten => hq.write hstem hresult hwritten)
        fun e _ => .inr ⟨_, _, rfl⟩) fun _ q hq => ?_
      exact ensures_report hq

/-- **Finishing inputs one after the other.** -/
lemma ensures_mapM (compiled : String → Compilation)
    (hstem : ∀ path ∈ paths, ∀ text, (compiled path).result = .ok text →
      ∃ stem, Path.stem? path = some stem)
    (h : Delivered (fun path => (compiled path).result) dir done p.files) :
    Ensures ((paths.map fun path => (path, compiled path)).mapM fun e => a.finish e.1 e.2.result) p
      (fun _ q => Delivered (fun path => (compiled path).result) dir (done ++ paths) q.files)
      fun e _ => IsFileFault e := by
  induction paths generalizing done p with
  | nil =>
      rw [List.append_nil]
      exact .pure h
  | cons path paths ih =>
      obtain ⟨hfirst, hrest⟩ := List.forall_mem_cons.mp hstem
      rw [List.map_cons, List.mapM_cons]
      refine (ensures_finish hdir hfirst h).bind fun _ q hq => ?_
      refine (ih hrest hq).bind fun _ r hr => .pure ?_
      rwa [List.append_assoc, List.singleton_append] at hr

end Steps

lemma exists_read_of_compileOne (h : (a.compileOne s f path).result = .ok text) :
    ∃ content, f.read path = .ok content := by
  have hvalue {name : Option String}
      (h : (compileRead s (readValue f path) name).result = .ok text) :
      ∃ content, f.read path = .ok content := by
    cases hread : f.read path with
    | ok content => exact ⟨content, rfl⟩
    | error e =>
        rw [readValue, hread] at h
        cases h
  rw [compileOne] at h
  split at h <;> exact hvalue h

lemma settings_eq (a : CompileArguments) (f : Files) :
    (∃ s, a.settings f = pure s) ∨ ∃ path e, a.settings f = throw (.config path e) := by
  rw [settings]
  split
  · exact .inl ⟨_, rfl⟩
  · split
    · exact .inl ⟨_, rfl⟩
    · exact .inr ⟨_, _, rfl⟩

lemma allInputPaths_eq (f : Files) (inputs : List String) :
    (∃ paths, allInputPaths f inputs = pure paths) ∨
      ∃ e, allInputPaths f inputs = throw (.inputs e) := by
  rw [allInputPaths]
  split
  · exact .inl ⟨_, rfl⟩
  · exact .inr ⟨_, rfl⟩

/-- **The run.** Errors of the tree of files apart, all declarations are delivered. -/
lemma ensures_run (hdir : a.outDir = some dir) (hfiles : p.files.WellFormed)
    (hsettings : a.settings p.files = pure s)
    (hpaths : allInputPaths p.files a.inputs = pure paths) : Ensures a.run p
      (fun _ q => Delivered (fun path => (a.compileOne s p.files path).result) dir paths q.files)
      fun e q => IsFileFault e ∨
        Delivered (fun path => (a.compileOne s p.files path).result) dir paths q.files := by
  have hstem : ∀ path ∈ paths, ∀ text, (a.compileOne s p.files path).result = .ok text →
      ∃ stem, Path.stem? path = some stem := by
    intro path _ text htext
    obtain ⟨content, hread⟩ := exists_read_of_compileOne htext
    exact hfiles.exists_stem? hread
  rw [run]
  refine ensures_get_bind ?_
  dsimp only
  rw [hsettings, pure_bind, hpaths, pure_bind]
  refine Ensures.bind (ensures_report (Q := fun _ _ => True) trivial) fun _ q _ => ?_
  refine ((ensures_mapM hdir (a.compileOne s p.files) hstem delivered_nil).imp fun e _ => .inl).bind
    fun failed r hr => ?_
  split
  · exact .throw (.inr hr)
  · exact .pure hr

/-- The run has come to its end, with all inputs compiled or some of them in vain. -/
def Finished (r : Except CommandError Unit) : Prop :=
  r = .ok () ∨ ∃ failed total, r = .error (.notCompiled failed total)

/-- A run that comes to its end has found settings and inputs. -/
lemma exists_settings_paths {r : Except CommandError Unit} (hrun : a.run.run p = (r, q))
    (hfinished : Finished r) : ∃ s paths,
      a.settings p.files = pure s ∧ allInputPaths p.files a.inputs = pure paths := by
  have hnever (h : Ensures a.run p (fun _ _ => False)
      fun e _ => ∀ failed total, e ≠ .notCompiled failed total) : False := by
    rcases hfinished with rfl | ⟨failed, total, rfl⟩
    · exact h.ok () q hrun
    · exact h.error _ q hrun failed total rfl
  rcases settings_eq a p.files with ⟨s, hsettings⟩ | ⟨path, e, hsettings⟩
  · rcases allInputPaths_eq p.files a.inputs with ⟨paths, hpaths⟩ | ⟨e, hpaths⟩
    · exact ⟨s, paths, hsettings, hpaths⟩
    · refine (hnever (ensures_get_bind ?_)).elim
      dsimp only
      rw [hsettings, pure_bind, hpaths]
      exact ensures_throw_bind (by simp)
  · refine (hnever (ensures_get_bind ?_)).elim
    dsimp only
    rw [hsettings]
    exact ensures_throw_bind (by simp)

/-- **The file of an input holds the declarations of the last input of its stem.** When a run with
an output directory has come to its end, every input that was compiled has a file there, whatever
became of the others. This file holds the declarations of the input itself just if those of the last
input with the same stem are the same. -/
theorem run_leaves_last (hdir : a.outDir = some dir) (hfiles : p.files.WellFormed)
    {r : Except CommandError Unit} (hrun : a.run.run p = (r, q)) (hfinished : Finished r) :
    ∃ s paths, a.settings p.files = pure s ∧ allInputPaths p.files a.inputs = pure paths ∧
      ∀ path ∈ paths, ∀ text, (a.compileOne s p.files path).result = .ok text →
        ∃ stem last, Path.stem? path = some stem ∧
          lastOf (fun path => (a.compileOne s p.files path).result) paths stem = some last ∧
          q.files.read (outputPath dir path) = .ok (Text.utf8 last) ∧
          (q.files.read (outputPath dir path) = .ok (Text.utf8 text) ↔ last = text) := by
  obtain ⟨s, paths, hsettings, hpaths⟩ := exists_settings_paths hrun hfinished
  have hensures := ensures_run hdir hfiles hsettings hpaths
  have hdelivered :
      Delivered (fun path => (a.compileOne s p.files path).result) dir paths q.files := by
    rcases hfinished with rfl | ⟨failed, total, rfl⟩
    · exact hensures.ok () q hrun
    · refine (hensures.error _ q hrun).resolve_left ?_
      rintro (⟨path, cause, heq⟩ | ⟨path, cause, heq⟩) <;> cases heq
  refine ⟨s, paths, hsettings, hpaths, fun path hpath text htext => ?_⟩
  obtain ⟨content, hread⟩ := exists_read_of_compileOne htext
  obtain ⟨stem, hstem⟩ := hfiles.exists_stem? hread
  obtain ⟨last, hlast⟩ : ∃ last,
      lastOf (fun path => (a.compileOne s p.files path).result) paths stem = some last :=
    exists_lastOf hpath hstem htext
  have hfile := hdelivered stem last hlast
  rw [← outputPath_of_stem? hstem] at hfile
  refine ⟨stem, last, hstem, hlast, hfile, ?_⟩
  rw [hfile, Except.ok.injEq, Text.utf8_injective.eq_iff]

/-- Two inputs of one name, in two directories. -/
def namesakes : Files where
  entries :=
    [(["a"], .directory), (["a", "x.json"], .file (Text.utf8 "\x7b\x7d")), (["b"], .directory),
    (["b", "x.json"], .file (Text.utf8 "\x7b\"type\": \"null\"\x7d"))]

/-- Both are compiled into one directory. -/
def compileNamesakes : CompileArguments where
  inputs := ["a/x.json", "b/x.json"]
  outDir := some "o"

lemma eq_ok_of_toOption {ε α : Type} {x : Except ε α} {y : α} (h : x.toOption = some y) :
    x = .ok y := by
  cases x with
  | error e => cases h
  | ok z => exact congrArg Except.ok (Option.some.inj h)

lemma eq_of_pure_eq {α : Type} {x y : α} (h : (pure x : Run α) = pure y) : x = y := by
  have hrun : (pure x : Run α).run ⟨{}, "", []⟩ = (pure y : Run α).run ⟨{}, "", []⟩ := by rw [h]
  exact Except.ok.inj (Prod.mk.inj hrun).1

lemma run_namesakes : compileNamesakes.run.run ⟨namesakes, "", []⟩
    = (.ok (), (compileNamesakes.run.run ⟨namesakes, "", []⟩).2) :=
  Prod.ext (eq_ok_of_toOption (by decide +kernel)) rfl

lemma settings_namesakes :
    compileNamesakes.settings namesakes = pure (compileNamesakes.apply {}) := rfl

lemma allInputPaths_namesakes :
    allInputPaths namesakes compileNamesakes.inputs = pure ["a/x.json", "b/x.json"] := rfl

lemma compileOne_namesakes :
    (compileNamesakes.compileOne (compileNamesakes.apply {}) namesakes "a/x.json").result
      = .ok "export interface X \x7b\n[k: string]: unknown\n\x7d\n" :=
  eq_ok_of_toOption (by decide +kernel)

/-- The file of the first holds what the second was compiled into. -/
theorem run_leaves_last_namesakes : namesakes.WellFormed ∧
    ∃ q, compileNamesakes.run.run ⟨namesakes, "", []⟩ = (.ok (), q) ∧
      q.files.read (outputPath "o" "a/x.json") = .ok (Text.utf8 "export type X = null\n") := by
  have hfiles : namesakes.WellFormed := by decide
  obtain ⟨s, paths, hsettings, hpaths, hkept⟩ := run_leaves_last rfl hfiles run_namesakes (.inl rfl)
  obtain rfl := eq_of_pure_eq (settings_namesakes.symm.trans hsettings)
  obtain rfl := eq_of_pure_eq (allInputPaths_namesakes.symm.trans hpaths)
  obtain ⟨stem, last, hstem, hlast, hread, -⟩ := hkept "a/x.json" (by simp) _ compileOne_namesakes
  have hx : Path.stem? "a/x.json" = some "x" := by decide +kernel
  have hsecond : lastOf (fun path =>
      (compileNamesakes.compileOne (compileNamesakes.apply {}) namesakes path).result)
      ["a/x.json", "b/x.json"] "x" = some "export type X = null\n" := by decide +kernel
  obtain rfl := Option.some.inj (hx.symm.trans hstem)
  obtain rfl := Option.some.inj (hsecond.symm.trans hlast)
  exact ⟨hfiles, _, run_namesakes, hread⟩

/-- **Declarations can be lost**: those of the first input are in no file. -/
theorem run_overwrites : ∃ q s paths text,
    compileNamesakes.run.run ⟨namesakes, "", []⟩ = (.ok (), q) ∧
      compileNamesakes.settings namesakes = pure s ∧
      allInputPaths namesakes compileNamesakes.inputs = pure paths ∧ "a/x.json" ∈ paths ∧
      (compileNamesakes.compileOne s namesakes "a/x.json").result = .ok text ∧
      ∀ e ∈ q.files.entries, e.2 ≠ .file (Text.utf8 text) := by
  exact ⟨_, _, _, _, run_namesakes, settings_namesakes, allInputPaths_namesakes, by simp,
    compileOne_namesakes, by decide +kernel⟩

end CompileArguments

end SchemaDecl
