import RuleCanon.CommandLine.Run
import RuleCanon.Proofs.CommandLine.Reading
import RuleCanon.Proofs.File.Disk

/-!
# Canonicalizing a file from the command line

The command reads all that it needs before it writes anything: a lexicon, rules and the text.  Each
of these can be missing or faulty, and then the command fails with nothing printed and no file
changed.  Otherwise it hands over the canonical form of the text, on the standard output or in a
file, which may be the one that the text came from.

This holds with all file systems, whatever may be read and written there, and with all compilers
for the patterns of a rules file.

## Main Definitions

* `Attempt.OnlyReads` — attempts that leave the files alone
* `CanonOptions.Prepares` — what the command has read before it hands anything over
* `CanonOptions.Delivers` — what it then hands over

## Main Statements

* `respond_canon` — when the command succeeds and what it leaves behind
-/

namespace RuleCanon

variable {α β σ : Type} [FileSystem σ] {input : Except FileFault (List Char)} {files : σ}

namespace Attempt

/-- The result of an attempt with a file system, and the files after it. -/
def holdOn (a : Attempt α) (input : Except FileFault (List Char)) (files : σ) :
    Except Failure α × σ :=
  a.run.hold input files

/-- The result of an attempt with a file system. -/
def resultOn (a : Attempt α) (input : Except FileFault (List Char)) (files : σ) :
    Except Failure α :=
  (a.holdOn input files).1

/-- An attempt that leaves the files alone, and whose failure is not one of misuse. -/
structure OnlyReads (a : Attempt α) : Prop where
  files : ∀ {σ : Type} [FileSystem σ] (input : Except FileFault (List Char)) (files : σ),
    (a.holdOn input files).2 = files
  exitCode : ∀ {σ : Type} [FileSystem σ] (input : Except FileFault (List Char)) (files : σ)
    (e : Failure), a.resultOn input files = .error e → e.exitCode = 1

/-- Behind a failure nothing is attempted. -/
theorem holdOn_bind (a : Attempt α) (f : α → Attempt β) :
    (a >>= f).holdOn input files =
      match a.holdOn input files with
      | (.ok x, files) => (f x).holdOn input files
      | (.error e, files) => (.error e, files) := by
  show (a.run >>= ExceptT.bindCont f).hold input files = _
  rw [Dialogue.hold_bind]
  unfold holdOn
  generalize a.run.hold input files = r
  obtain ⟨x | x, after⟩ := r
  · rfl
  · rfl

namespace OnlyReads

theorem pure (x : α) : OnlyReads (Pure.pure x) :=
  ⟨fun _ _ => rfl, fun _ _ _ h => by contradiction⟩

/-- The answer to one question, in other words if it is a fault. -/
theorem of_mapError {ε : Type} {a : Attempt α} {w : ε → Failure}
    (hw : ∀ e, (w e).exitCode = 1)
    (ha : ∀ {σ : Type} [FileSystem σ] (input : Except FileFault (List Char)) (files : σ),
      ∃ r : Except ε α, a.holdOn input files = (r.mapError w, files)) :
    a.OnlyReads where
  files input files := by
    obtain ⟨r, hr⟩ := ha input files
    rw [hr]
  exitCode input files e h := by
    obtain ⟨r, hr⟩ := ha input files
    rw [resultOn, hr] at h
    obtain ⟨e, rfl⟩ := Except.exists_of_mapError_eq_error h
    exact hw e

theorem ofConfig (r : Except ConfigError α) : OnlyReads (ofConfig r) :=
  of_mapError (fun _ => rfl) fun _ _ => ⟨r, rfl⟩

theorem readResource (path : String) : OnlyReads (readResource path) :=
  of_mapError (w := fun fault => .config (.unreadable path fault)) (fun _ => rfl)
    fun _ files => ⟨FileSystem.read files path, rfl⟩

theorem readSource (file : Option String) : OnlyReads (readSource file) := by
  cases file with
  | some path =>
      exact of_mapError (w := .unreadable path) (fun _ => rfl)
        fun _ files => ⟨FileSystem.read files path, rfl⟩
  | none =>
      exact of_mapError (w := .unreadableInput) (fun _ => rfl) fun input _ => ⟨input, rfl⟩

/-- What follows an attempt that only reads is attempted with the same files. -/
theorem holdOn_bind {a : Attempt α} (ha : a.OnlyReads) (f : α → Attempt β) :
    (a >>= f).holdOn input files =
      match a.resultOn input files with
      | .ok x => (f x).holdOn input files
      | .error e => (.error e, files) := by
  have hfiles := ha.files input files
  rw [Attempt.holdOn_bind, resultOn]
  generalize a.holdOn input files = r at hfiles
  obtain ⟨x | x, after⟩ := r
  · exact congrArg (Prod.mk _) hfiles
  · rw [← hfiles]

theorem bind {a : Attempt α} (ha : a.OnlyReads) {f : α → Attempt β}
    (hf : ∀ x, (f x).OnlyReads) : (a >>= f).OnlyReads where
  files input files := by
    rw [ha.holdOn_bind]
    split
    · exact (hf _).files input files
    · rfl
  exitCode input files e h := by
    rw [resultOn, ha.holdOn_bind] at h
    split at h
    · exact (hf _).exitCode input files e h
    · next e' he =>
      cases h
      exact ha.exitCode input files e he

/-- Two attempts succeed if the first one does and then the second one with its result. -/
theorem resultOn_bind_eq_ok_iff {a : Attempt α} (ha : a.OnlyReads) {f : α → Attempt β} {y : β} :
    (a >>= f).resultOn input files = .ok y ↔
      ∃ x, a.resultOn input files = .ok x ∧ (f x).resultOn input files = .ok y := by
  rw [resultOn, ha.holdOn_bind]
  cases a.resultOn input files <;> simp [resultOn]

end OnlyReads

theorem resultOn_ofConfig_eq_ok_iff {r : Except ConfigError α} {x : α} :
    (ofConfig r).resultOn input files = .ok x ↔ r = .ok x :=
  Except.mapError_eq_ok_iff

theorem resultOn_readResource_eq_ok_iff {path : String} {text : List Char} :
    (readResource path).resultOn input files = .ok text ↔ FileSystem.read files path = .ok text :=
  Except.mapError_eq_ok_iff

/-- A text is written or the files stay as they were. -/
theorem holdOn_writeResult (path : String) (content : List Char) :
    (writeResult path content).holdOn input files =
      match FileSystem.write files path content with
      | .ok after => (.ok (), after)
      | .error fault => (.error (.unwritable path fault), files) := by
  show (Dialogue.writeFile path content _).hold input files = _
  rw [Dialogue.hold]
  cases FileSystem.write files path content <;> rfl

end Attempt

/-! ## What is read -/

/-- The lexicon of a file, if one is asked for, is read and registered. -/
inductive LoadsLocales (files : σ) : Option String → LocaleSet → Prop where
  | builtin : LoadsLocales files none .builtin
  | registered {path : String} {text : List Char} {lexicon registered : Lexicon} {set : LocaleSet}
      (hread : FileSystem.read files path = .ok text)
      (hlexicon : Lexicon.read path text = .ok lexicon)
      (hset : LocaleSet.builtin.registerLexicon lexicon = (set, .ok registered)) :
      LoadsLocales files (some path) set

/-- The rules of a file, if one is asked for, are read and compiled. -/
inductive LoadsRules (compiler : PatternCompiler) (files : σ) :
    Option String → List Stage → Prop where
  | none : LoadsRules compiler files none []
  | compiled {path : String} {text : List Char} {rules : RulesFile} {stages : List Stage}
      (hread : FileSystem.read files path = .ok text)
      (hrules : RulesFile.read path text = .ok rules)
      (hstages : rules.compile compiler = .ok stages) : LoadsRules compiler files (some path) stages

/-- The text is that of a file, if one is named, or else that of the standard input. -/
inductive LoadsSource (files : σ) (input : Except FileFault (List Char)) :
    Option String → List Char → Prop where
  | file {path : String} {source : List Char} (hread : FileSystem.read files path = .ok source) :
      LoadsSource files input (some path) source
  | input {source : List Char} (hinput : input = .ok source) : LoadsSource files input none source

/-- **What the command has read** before it hands anything over: the locale is known, and a
pipeline for it is built with the rules. -/
inductive CanonOptions.Prepares (o : CanonOptions) (compiler : PatternCompiler) (files : σ)
    (input : Except FileFault (List Char)) (p : Pipeline) (source : List Char) : Prop where
  | intro {set : LocaleSet} {lexicon : Lexicon} {stages : List Stage}
      (hlocales : LoadsLocales files o.choice.lexicon set)
      (hknown : set.lexicons.lookup (o.choice.locale.getD defaultLocale) = .ok lexicon)
      (hrules : LoadsRules compiler files o.rules stages)
      (hbuild : set.build (o.choice.locale.getD defaultLocale) o.config none stages = .ok p)
      (hsource : LoadsSource files input o.file source) : Prepares o compiler files input p source

section Loading

open Attempt

variable {compiler : PatternCompiler}

theorem onlyReads_loadLexicon (path : String) : (loadLexicon path).OnlyReads :=
  (OnlyReads.readResource path).bind fun _ => .ofConfig _

theorem onlyReads_loadLocales (file : Option String) : (loadLocales file).OnlyReads := by
  cases file with
  | none => exact .pure _
  | some path =>
      exact (onlyReads_loadLexicon path).bind fun _ => (OnlyReads.ofConfig _).bind fun _ => .pure _

theorem onlyReads_loadRules (file : Option String) : (loadRules compiler file).OnlyReads := by
  cases file with
  | none => exact .pure _
  | some path =>
      exact (OnlyReads.readResource path).bind fun _ =>
        (OnlyReads.ofConfig _).bind fun _ => .ofConfig _

theorem onlyReads_loadPipeline (choice : LocaleChoice) (rules : Option String) (config : Config) :
    (loadPipeline compiler choice rules config).OnlyReads :=
  (onlyReads_loadLocales _).bind fun _ => (OnlyReads.ofConfig _).bind fun _ =>
    (onlyReads_loadRules _).bind fun _ => .ofConfig _

theorem resultOn_loadLexicon_eq_ok_iff {path : String} {lexicon : Lexicon} :
    (loadLexicon path).resultOn input files = .ok lexicon ↔
      ∃ text, FileSystem.read files path = .ok text ∧ Lexicon.read path text = .ok lexicon := by
  simp only [loadLexicon, (OnlyReads.readResource _).resultOn_bind_eq_ok_iff,
    resultOn_readResource_eq_ok_iff, resultOn_ofConfig_eq_ok_iff]

theorem resultOn_loadLocales_eq_ok_iff {file : Option String} {set : LocaleSet} :
    (loadLocales file).resultOn input files = .ok set ↔ LoadsLocales files file set := by
  cases file with
  | none =>
      refine ⟨fun h => ?_, fun h => ?_⟩
      · cases h
        exact .builtin
      · cases h
        rfl
  | some path =>
      rw [loadLocales, (onlyReads_loadLexicon path).resultOn_bind_eq_ok_iff]
      simp only [resultOn_loadLexicon_eq_ok_iff, (OnlyReads.ofConfig _).resultOn_bind_eq_ok_iff,
        resultOn_ofConfig_eq_ok_iff]
      constructor
      · rintro ⟨lexicon, ⟨text, hread, hlexicon⟩, registered, hregistered, hset⟩
        cases hset
        exact .registered hread hlexicon (Prod.ext rfl hregistered)
      · rintro (_ | ⟨hread, hlexicon, hset⟩)
        refine ⟨_, ⟨_, hread, hlexicon⟩, _, congrArg Prod.snd hset, ?_⟩
        rw [hset]
        rfl

theorem resultOn_loadRules_eq_ok_iff {file : Option String} {stages : List Stage} :
    (loadRules compiler file).resultOn input files = .ok stages ↔
      LoadsRules compiler files file stages := by
  cases file with
  | none =>
      refine ⟨fun h => ?_, fun h => ?_⟩
      · cases h
        exact .none
      · cases h
        rfl
  | some path =>
      simp only [loadRules, (OnlyReads.readResource _).resultOn_bind_eq_ok_iff,
        (OnlyReads.ofConfig _).resultOn_bind_eq_ok_iff, resultOn_readResource_eq_ok_iff,
        resultOn_ofConfig_eq_ok_iff]
      constructor
      · rintro ⟨text, hread, rules, hrules, hstages⟩
        exact .compiled hread hrules hstages
      · rintro (_ | ⟨hread, hrules, hstages⟩)
        exact ⟨_, hread, _, hrules, hstages⟩

theorem resultOn_loadPipeline_eq_ok_iff {choice : LocaleChoice} {rules : Option String}
    {config : Config} {p : Pipeline} :
    (loadPipeline compiler choice rules config).resultOn input files = .ok p ↔
      ∃ set lexicon stages, LoadsLocales files choice.lexicon set ∧
        set.lexicons.lookup (choice.locale.getD defaultLocale) = .ok lexicon ∧
        LoadsRules compiler files rules stages ∧
        set.build (choice.locale.getD defaultLocale) config none stages = .ok p := by
  simp only [loadPipeline, (onlyReads_loadLocales _).resultOn_bind_eq_ok_iff,
    (OnlyReads.ofConfig _).resultOn_bind_eq_ok_iff, (onlyReads_loadRules _).resultOn_bind_eq_ok_iff,
    resultOn_loadLocales_eq_ok_iff, resultOn_ofConfig_eq_ok_iff, resultOn_loadRules_eq_ok_iff,
    exists_and_left]

theorem resultOn_readSource_eq_ok_iff {file : Option String} {source : List Char} :
    (readSource file).resultOn input files = .ok source ↔ LoadsSource files input file source := by
  constructor
  · intro h
    cases file with
    | some path => exact .file (Except.mapError_eq_ok_iff.1 h)
    | none => exact .input (Except.mapError_eq_ok_iff.1 h)
  · intro h
    cases h with
    | file hread => exact Except.mapError_eq_ok_iff.2 hread
    | input hinput => exact Except.mapError_eq_ok_iff.2 hinput

end Loading

/-! ## What is handed over -/

namespace CanonOptions

variable {compiler : PatternCompiler} {o : CanonOptions} {p q : Pipeline}
  {source other : List Char}

/-- What the command does with a text that it has read. -/
def handOver (o : CanonOptions) (p : Pipeline) (source : List Char) : Attempt (List Char) :=
  if o.trace then return showTrace (p.trace source)
  else
    match o.output with
    | none => return p.canonicalize source
    | some path => do
      Attempt.writeResult path (p.canonicalize source)
      return []

/-- The file for the result, if one is named, can be written. -/
def CanWrite (o : CanonOptions) (files : σ) (result : List Char) : Prop :=
  ∀ path, o.output = some path → ∃ after, FileSystem.write files path result = .ok after

/-- **What the command hands over**: the result is all that is printed, or nothing is printed and
the result is what the file holds and what its readers get; that it was written there is the only
change to the files. -/
def Delivers (o : CanonOptions) (files : σ) (result stdout : List Char) (after : σ) : Prop :=
  match o.output with
  | none => stdout = result ∧ after = files
  | some path =>
    stdout = [] ∧ FileSystem.content? after path = some result ∧
      (∀ text, FileSystem.read after path = .ok text → text = result) ∧
      FileSystem.write files path result = .ok after

/-- First everything is read, then the result is handed over. -/
theorem runCanon_eq (compiler : PatternCompiler) (o : CanonOptions) :
    runCanon compiler o = (do
      let p ← loadPipeline compiler o.choice o.rules o.config
      let source ← Attempt.readSource o.file
      o.handOver p source) :=
  rfl

open Attempt

/-- All is read if the pipeline is built and the text read. -/
theorem prepares_iff :
    o.Prepares compiler files input p source ↔
      (loadPipeline compiler o.choice o.rules o.config).resultOn input files = .ok p ∧
        (readSource o.file).resultOn input files = .ok source := by
  rw [resultOn_loadPipeline_eq_ok_iff, resultOn_readSource_eq_ok_iff]
  constructor
  · rintro ⟨hlocales, hknown, hrules, hbuild, hsource⟩
    exact ⟨⟨_, _, _, hlocales, hknown, hrules, hbuild⟩, hsource⟩
  · rintro ⟨⟨_, _, _, hlocales, hknown, hrules, hbuild⟩, hsource⟩
    exact .intro hlocales hknown hrules hbuild hsource

/-- There is only one text to be read and one pipeline to be built. -/
theorem Prepares.unique (h : o.Prepares compiler files input p source)
    (h' : o.Prepares compiler files input q other) : p = q ∧ source = other := by
  obtain ⟨hload, hread⟩ := prepares_iff.1 h
  obtain ⟨hload', hread'⟩ := prepares_iff.1 h'
  exact ⟨Except.ok.inj (hload.symm.trans hload'), Except.ok.inj (hread.symm.trans hread')⟩

/-- A run that has read everything goes on with the files as they were. -/
theorem Prepares.holdOn_runCanon (h : o.Prepares compiler files input p source) :
    (runCanon compiler o).holdOn input files = (o.handOver p source).holdOn input files := by
  obtain ⟨hload, hread⟩ := prepares_iff.1 h
  rw [runCanon_eq, (onlyReads_loadPipeline _ _ _).holdOn_bind, hload]
  show (readSource o.file >>= o.handOver p).holdOn input files = _
  rw [(OnlyReads.readSource _).holdOn_bind, hread]

/-- A run that cannot read everything fails with the files as they were. -/
theorem holdOn_runCanon_of_not_prepares
    (h : ¬∃ p source, o.Prepares compiler files input p source) :
    ∃ e, e.exitCode = 1 ∧ (runCanon compiler o).holdOn input files = (.error e, files) := by
  have hpipeline : (loadPipeline compiler o.choice o.rules o.config).OnlyReads :=
    onlyReads_loadPipeline ..
  have hsource := OnlyReads.readSource o.file
  rw [runCanon_eq, hpipeline.holdOn_bind]
  cases hload : (loadPipeline compiler o.choice o.rules o.config).resultOn input files with
  | error e => exact ⟨e, hpipeline.exitCode _ _ e hload, rfl⟩
  | ok p =>
      show ∃ e, _ ∧ (readSource o.file >>= o.handOver p).holdOn input files = _
      rw [hsource.holdOn_bind]
      cases hread : (readSource o.file).resultOn input files with
      | error e => exact ⟨e, hsource.exitCode _ _ e hread, rfl⟩
      | ok source => exact absurd ⟨p, source, prepares_iff.2 ⟨hload, hread⟩⟩ h

/-- A result for a file is written to it. -/
theorem holdOn_handOver_some (htraced : o.trace = false) {path : String}
    (houtput : o.output = some path) :
    (o.handOver p source).holdOn input files =
      match FileSystem.write files path (p.canonicalize source) with
      | .ok after => (.ok [], after)
      | .error fault => (.error (.unwritable path fault), files) := by
  have heq : o.handOver p source =
      writeResult path (p.canonicalize source) >>= fun _ => return [] := by
    rw [handOver, htraced, houtput]
    rfl
  rw [heq, Attempt.holdOn_bind, holdOn_writeResult]
  cases FileSystem.write files path (p.canonicalize source) <;> rfl

theorem holdOn_handOver_of_canWrite [LawfulFileSystem σ] (input : Except FileFault (List Char))
    (hwrite : o.CanWrite files (p.canonicalize source)) :
    ∃ stdout after, (o.handOver p source).holdOn input files = (.ok stdout, after) ∧
      (o.trace = false → o.Delivers files (p.canonicalize source) stdout after) := by
  cases htraced : o.trace with
  | true =>
      refine ⟨showTrace (p.trace source), files, ?_, nofun⟩
      rw [handOver, htraced]
      rfl
  | false =>
      cases houtput : o.output with
      | none =>
          refine ⟨p.canonicalize source, files, ?_, fun _ => ?_⟩
          · rw [handOver, htraced, houtput]
            rfl
          · rw [Delivers, houtput]
            exact ⟨rfl, rfl⟩
      | some path =>
          obtain ⟨after, hafter⟩ := hwrite path houtput
          refine ⟨[], after, ?_, fun _ => ?_⟩
          · rw [holdOn_handOver_some htraced houtput, hafter]
          · rw [Delivers, houtput]
            exact ⟨rfl, LawfulFileSystem.content?_of_write hafter,
              fun _ => FileSystem.eq_of_read_of_write hafter, hafter⟩

theorem holdOn_handOver_of_not_canWrite (htrace : o.trace = true → o.output = none)
    (hwrite : ¬o.CanWrite files (p.canonicalize source)) :
    ∃ e, e.exitCode = 1 ∧ (o.handOver p source).holdOn input files = (.error e, files) := by
  obtain ⟨path, hpath⟩ := Classical.not_forall.1 hwrite
  obtain ⟨houtput, hno⟩ := Classical.not_imp.1 hpath
  have htraced : o.trace = false := by
    cases h : o.trace with
    | false => rfl
    | true => rw [htrace h] at houtput; contradiction
  cases hfault : FileSystem.write files path (p.canonicalize source) with
  | ok after => exact absurd ⟨after, hfault⟩ hno
  | error fault =>
      refine ⟨.unwritable path fault, rfl, ?_⟩
      rw [holdOn_handOver_some htraced houtput, hfault]

/-- **A run that cannot read everything or cannot write its result** fails with the files as they
were. -/
theorem holdOn_runCanon_of_not (htrace : o.trace = true → o.output = none)
    (h : ¬∃ p source, o.Prepares compiler files input p source ∧
      o.CanWrite files (p.canonicalize source)) :
    ∃ e, e.exitCode = 1 ∧ (runCanon compiler o).holdOn input files = (.error e, files) := by
  by_cases hprepares : ∃ p source, o.Prepares compiler files input p source
  · obtain ⟨p, source, hprepares⟩ := hprepares
    rw [hprepares.holdOn_runCanon]
    exact holdOn_handOver_of_not_canWrite htrace fun hwrite => h ⟨p, source, hprepares, hwrite⟩
  · exact holdOn_runCanon_of_not_prepares hprepares

end CanonOptions

section Respond

variable {compiler : PatternCompiler} {args : List String} {i : Invocation} {o : CanonOptions}
  {outcome : Outcome} {after : σ}

/-- When the arguments ask for `canon`, the program does nothing else. -/
theorem hold_respond_eq (hread : Invocation.read args = .ok i)
    (hcommand : i.command = some (.canon o)) (hsegments : i.segments = none) :
    (respond compiler args).hold input files =
      (.ofResult ((runCanon compiler o).holdOn input files).1,
        ((runCanon compiler o).holdOn input files).2) := by
  have hrun : i.run compiler = runCanon compiler o := by
    rw [Invocation.run, hsegments, hcommand]
    rfl
  rw [respond, hread, ← hrun]
  exact Dialogue.hold_bind ..

end Respond

end RuleCanon
