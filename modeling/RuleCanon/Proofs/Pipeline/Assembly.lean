import Mathlib.Data.List.Forall2
import Mathlib.Data.List.Nodup
import Mathlib.Data.List.TakeWhile
import RuleCanon.Proofs.Stage.Builtin

/-!
# Putting a pipeline together

A plan can be carried out just if three conditions hold: each disabled name belongs to a stage;
the names of the registered stages come once each, and their factories succeed; and the extra
stages have names of their own.  The conditions are checked in this order and name by name, and
the first check that fails is the one that is reported.

The pipeline then has the stages of these names in order, with the extra ones right before the
stage for keywords.  Where that is can be told from the names alone only if stages have the
names under which they are registered; nothing else is asked of a registry.

## Main Definitions

* `StageRegistry.KeepsNames` — registries whose stages have the names they are registered under
* `StageRegistry.NameFault` — what is wrong with a name, given those in front of it
* `PipelinePlan.IsSound` — the three conditions
* `PipelinePlan.FirstFault` — the first check that fails

## Main Statements

* `PipelinePlan.createAll_eq_ok_iff`, `PipelinePlan.createAll_eq_error_iff` — stages of names
* `PipelinePlan.build_eq_ok_iff`, `PipelinePlan.build_eq_error_iff` — pipelines of plans
* `PipelinePlan.build_assembles` — when a plan can be carried out, which stages the pipeline then
  has, and what is reported otherwise
-/

namespace RuleCanon

/-! ## Stages of a registry -/

namespace StageRegistry

variable {r : StageRegistry} {l : Lexicon} {name : String} {front : List String}
  {stage : Stage} {e : ConfigError}

/-- Each stage has the name under which its factory is registered. -/
def KeepsNames (r : StageRegistry) : Prop :=
  ∀ name factory, r.find? name = some factory →
    ∀ l stage, factory l = .ok stage → stage.name = name

/-- The name is registered, and its factory succeeds on the lexicon. -/
def Makes (r : StageRegistry) (l : Lexicon) (name : String) : Prop :=
  ∃ factory stage, r.find? name = some factory ∧ factory l = .ok stage

/-- What is wrong with a name in a list of stages, given the names in front of it. -/
inductive NameFault (r : StageRegistry) (l : Lexicon) (front : List String) (name : String) :
    ConfigError → Prop where
  /-- The name comes twice. -/
  | repeated (hname : name ∈ front) : NameFault r l front name (.duplicateStage name)
  /-- Nothing is registered under the name. -/
  | unknown (hname : name ∉ front) (hnone : r.find? name = none) :
      NameFault r l front name (.unknownStage name)
  /-- The factory fails. -/
  | failed {factory : StageFactory} {e : ConfigError} (hname : name ∉ front)
      (hfactory : r.find? name = some factory) (he : factory l = .error e) :
      NameFault r l front name e

theorem create_eq_ok_iff :
    r.create name l = .ok stage ↔
      ∃ factory, r.find? name = some factory ∧ factory l = .ok stage := by
  rw [create]
  cases r.find? name <;> simp

theorem makes_iff : r.Makes l name ↔ ∃ stage, r.create name l = .ok stage := by
  simp only [Makes, create_eq_ok_iff]
  exact exists_comm

theorem nameFault_iff :
    r.NameFault l front name e ↔
      name ∈ front ∧ e = .duplicateStage name ∨ name ∉ front ∧ r.create name l = .error e := by
  constructor
  · rintro (hname | ⟨hname, hnone⟩ | ⟨hname, hfactory, he⟩)
    · exact .inl ⟨hname, rfl⟩
    · exact .inr ⟨hname, by rw [create, hnone]⟩
    · exact .inr ⟨hname, by rw [create, hfactory]; exact he⟩
  · rintro (⟨hname, rfl⟩ | ⟨hname, hcreate⟩)
    · exact .repeated hname
    · rw [create] at hcreate
      split at hcreate
      · next factory hfactory => exact .failed hname hfactory hcreate
      · next hnone =>
        cases hcreate
        exact .unknown hname hnone

/-- Of the names in front only those matter that are the name itself. -/
theorem NameFault.congr {other : List String} (h : r.NameFault l front name e)
    (hmem : name ∈ front ↔ name ∈ other) : r.NameFault l other name e := by
  rw [nameFault_iff] at h ⊢
  rwa [← hmem]

/-- Registering stages under their own names is harmless. -/
theorem KeepsNames.registerStages (hr : r.KeepsNames) {added : List (String × StageFactory)}
    (hadded : ∀ e ∈ added, ∀ l stage, e.2 l = .ok stage → stage.name = e.1) :
    (LocaleSet.registerStages r added).1.KeepsNames := by
  intro name factory hfactory l stage hstage
  rcases LocaleSet.mem_of_find?_registerStages hfactory with hfactory | hmem
  · exact hr name factory hfactory l stage hstage
  · exact hadded _ hmem l stage hstage

theorem keepsNames_core : core.KeepsNames := by
  intro name factory hfactory l stage hstage
  by_cases hname : name = StageName.keywords
  · subst hname
    rw [core, Table.find?_insert_self] at hfactory
    cases hfactory
    rw [Stage.keywords] at hstage
    cases hindex : l.keywordIndex with
    | error e =>
        rw [hindex] at hstage
        contradiction
    | ok index =>
        rw [hindex] at hstage
        cases hstage
        rfl
  · rw [core, Table.find?_insert_of_ne ∅ hname] at hfactory
    contradiction

/-- The stages of the built-in languages have the names they are registered under. -/
theorem keepsNames_builtin : LocaleSet.builtin.stages.KeepsNames := by
  rw [LocaleSet.builtin, LocaleSet.stages_install, LocaleSet.stages_install]
  have hchinese : (LocaleSet.registerStages core LocalePlugin.chinese.stages).1.KeepsNames := by
    refine keepsNames_core.registerStages fun e he l stage hstage => ?_
    simp only [LocalePlugin.chinese, Stage.chinese, List.mem_cons, List.not_mem_nil, or_false]
      at he
    rcases he with rfl | rfl | rfl | rfl | rfl | rfl <;>
      · cases hstage
        rfl
  exact hchinese.registerStages fun e he => absurd he List.not_mem_nil

end StageRegistry

namespace PipelinePlan

open StageRegistry

section Names

variable {r : StageRegistry} {l : Lexicon} {seen names : List String} {name : String}
  {stage : Stage} {stages : List Stage} {e : ConfigError}

/-- The names come once each, and none of them is in `seen`. -/
def IsFresh (seen names : List String) : Prop := names.Nodup ∧ ∀ name ∈ names, name ∉ seen

theorem isFresh_nil_right (seen : List String) : IsFresh seen [] := ⟨.nil, by simp⟩

theorem isFresh_nil_left : IsFresh [] names ↔ names.Nodup := by simp [IsFresh]

/-- The first name is not in `seen`, and the others are not among `seen` and the first one. -/
theorem isFresh_cons :
    IsFresh seen (name :: names) ↔ name ∉ seen ∧ IsFresh (name :: seen) names := by
  rw [IsFresh, IsFresh, List.nodup_cons, List.forall_mem_cons]
  simp only [List.mem_cons, not_or]
  constructor
  · rintro ⟨⟨hname, hnodup⟩, hseen, hall⟩
    exact ⟨hseen, hnodup, fun n hn => ⟨ne_of_mem_of_not_mem hn hname, hall n hn⟩⟩
  · rintro ⟨hseen, hnodup, hall⟩
    exact ⟨⟨fun hmem => (hall name hmem).1 rfl, hnodup⟩, hseen, fun n hn => (hall n hn).2⟩

/-- The first name that is not fresh stands behind names that are. -/
theorem firstRepeat?_eq_some_iff :
    firstRepeat? seen names = some name ↔
      ∃ front back, names = front ++ name :: back ∧ IsFresh seen front ∧
        (name ∈ seen ∨ name ∈ front) := by
  induction names generalizing seen with
  | nil => simp [firstRepeat?]
  | cons head names ih =>
      rw [firstRepeat?]
      by_cases hseen : head ∈ seen
      · rw [if_pos (by simpa using hseen), Option.some_inj]
        constructor
        · rintro rfl
          exact ⟨[], names, rfl, isFresh_nil_right seen, .inl hseen⟩
        · rintro ⟨front, back, hsplit, hfront, -⟩
          cases front with
          | nil => exact (List.cons.inj hsplit).1
          | cons other front =>
              obtain ⟨rfl, -⟩ := List.cons.inj hsplit
              exact absurd hseen (isFresh_cons.1 hfront).1
      · rw [if_neg (by simpa using hseen), ih]
        constructor
        · rintro ⟨front, back, rfl, hfront, hname⟩
          refine ⟨head :: front, back, rfl, isFresh_cons.2 ⟨hseen, hfront⟩, ?_⟩
          simpa [or_assoc, or_left_comm] using hname
        · rintro ⟨front, back, hsplit, hfront, hname⟩
          cases front with
          | nil =>
              obtain ⟨rfl, -⟩ := List.cons.inj hsplit
              simp [hseen] at hname
          | cons other front =>
              obtain ⟨rfl, rfl⟩ := List.cons.inj hsplit
              refine ⟨front, back, rfl, (isFresh_cons.1 hfront).2, ?_⟩
              simpa [or_assoc, or_left_comm] using hname

theorem firstRepeat?_eq_none_iff : firstRepeat? seen names = none ↔ IsFresh seen names := by
  induction names generalizing seen with
  | nil => exact iff_of_true rfl (isFresh_nil_right seen)
  | cons head names ih =>
      rw [firstRepeat?, isFresh_cons]
      by_cases hseen : head ∈ seen <;> simp [hseen, ih]

/-! ### One stage after the other -/

theorem createAll_cons_eq_ok_iff :
    createAll r l seen (name :: names) = .ok stages ↔
      name ∉ seen ∧ ∃ stage rest, r.create name l = .ok stage ∧
        createAll r l (name :: seen) names = .ok rest ∧ stages = stage :: rest := by
  rw [createAll]
  by_cases hseen : name ∈ seen
  · simp [hseen]
  · cases hcreate : r.create name l with
    | error => simp [hseen]
    | ok stage =>
        cases hrest : createAll r l (name :: seen) names <;> simp [hseen, eq_comm]

theorem createAll_cons_eq_error_iff :
    createAll r l seen (name :: names) = .error e ↔
      r.NameFault l seen name e ∨
        name ∉ seen ∧ r.Makes l name ∧ createAll r l (name :: seen) names = .error e := by
  rw [createAll, nameFault_iff, makes_iff]
  by_cases hseen : name ∈ seen
  · simp [hseen, eq_comm]
  · cases hcreate : r.create name l with
    | error => simp [hseen]
    | ok stage =>
        cases hrest : createAll r l (name :: seen) names <;> simp [hseen]

/-- **Stages are made for fresh names**, each of them by its factory. -/
theorem createAll_eq_ok_iff :
    createAll r l seen names = .ok stages ↔
      IsFresh seen names ∧
        List.Forall₂ (fun name stage => r.create name l = .ok stage) names stages := by
  induction names generalizing seen stages with
  | nil => simp [createAll, isFresh_nil_right, eq_comm]
  | cons name names ih =>
      simp only [createAll_cons_eq_ok_iff, ih, isFresh_cons, List.forall₂_cons_left_iff]
      constructor
      · rintro ⟨hseen, stage, rest, hcreate, ⟨hfresh, hrest⟩, rfl⟩
        exact ⟨⟨hseen, hfresh⟩, stage, rest, hcreate, hrest, rfl⟩
      · rintro ⟨⟨hseen, hfresh⟩, stage, rest, hcreate, hrest, rfl⟩
        exact ⟨hseen, stage, rest, hcreate, ⟨hfresh, hrest⟩, rfl⟩

/-- **The first fault** is that of a name behind fresh names whose factories succeed. -/
theorem createAll_eq_error_iff :
    createAll r l seen names = .error e ↔
      ∃ front name back, names = front ++ name :: back ∧ IsFresh seen front ∧
        (∀ n ∈ front, r.Makes l n) ∧ r.NameFault l (seen ++ front) name e := by
  induction names generalizing seen with
  | nil => simp [createAll]
  | cons head names ih =>
      rw [createAll_cons_eq_error_iff, ih]
      constructor
      · rintro (hfault | ⟨hseen, hmakes, front, name, back, rfl, hfresh, hmade, hfault⟩)
        · exact ⟨[], head, names, rfl, isFresh_nil_right seen, by simp,
            hfault.congr (by simp)⟩
        · exact ⟨head :: front, name, back, rfl, isFresh_cons.2 ⟨hseen, hfresh⟩,
            List.forall_mem_cons.2 ⟨hmakes, hmade⟩, hfault.congr (by simp [or_left_comm])⟩
      · rintro ⟨front, name, back, hsplit, hfresh, hmade, hfault⟩
        cases front with
        | nil =>
            obtain ⟨rfl, -⟩ := List.cons.inj hsplit
            exact .inl (hfault.congr (by simp))
        | cons other front =>
            obtain ⟨rfl, rfl⟩ := List.cons.inj hsplit
            obtain ⟨hseen, hfresh⟩ := isFresh_cons.1 hfresh
            obtain ⟨hmakes, hmade⟩ := List.forall_mem_cons.1 hmade
            exact .inr ⟨hseen, hmakes, front, name, back, rfl, hfresh, hmade,
              hfault.congr (by simp [or_left_comm])⟩

end Names

/-! ## The pipeline of a plan -/

variable {p : PipelinePlan} {r : StageRegistry} {q : Pipeline} {stages : List Stage}
  {name : String} {e : ConfigError}

/-- The name belongs to a stage that is registered or extra. -/
def Knows (p : PipelinePlan) (r : StageRegistry) (name : String) : Prop :=
  (∃ factory, r.find? name = some factory) ∨ ∃ stage ∈ p.extra, stage.name = name

/-- The names of the extra stages that are not disabled. -/
def extraNames (p : PipelinePlan) : List String := p.enabledExtra.map (·.name)

/-- A plan that can be carried out. -/
structure IsSound (p : PipelinePlan) (r : StageRegistry) : Prop where
  /-- Each disabled name belongs to a stage. -/
  disabled : ∀ name ∈ p.config.disabled, p.Knows r name
  /-- No registered stage is needed twice. -/
  nodup : p.stageNames.Nodup
  /-- Each of them can be made. -/
  made : ∀ name ∈ p.stageNames, r.Makes p.lexicon name
  /-- The extra stages have names of their own. -/
  extra : IsFresh p.stageNames p.extraNames

/-- The first check that fails: the disabled names are checked first, then the names of the
registered stages, then those of the extra stages. -/
inductive FirstFault (p : PipelinePlan) (r : StageRegistry) : ConfigError → Prop where
  /-- A disabled name belongs to no stage. -/
  | disabled {front back : List String} {name : String}
      (hsplit : p.config.disabled = front ++ name :: back) (hfront : ∀ n ∈ front, p.Knows r n)
      (hname : ¬ p.Knows r name) : FirstFault p r (.unknownStage name)
  /-- A registered stage is needed twice, unknown or cannot be made. -/
  | registered {front back : List String} {name : String} {e : ConfigError}
      (hdisabled : ∀ name ∈ p.config.disabled, p.Knows r name)
      (hsplit : p.stageNames = front ++ name :: back) (hnodup : front.Nodup)
      (hfront : ∀ n ∈ front, r.Makes p.lexicon n) (hname : r.NameFault p.lexicon front name e) :
      FirstFault p r e
  /-- The name of an extra stage is taken. -/
  | extra {front back : List String} {name : String}
      (hdisabled : ∀ name ∈ p.config.disabled, p.Knows r name) (hnodup : p.stageNames.Nodup)
      (hmade : ∀ name ∈ p.stageNames, r.Makes p.lexicon name)
      (hsplit : p.extraNames = front ++ name :: back) (hfront : IsFresh p.stageNames front)
      (hname : name ∈ p.stageNames ∨ name ∈ front) : FirstFault p r (.duplicateStage name)

/-! ### The checks one by one -/

theorem knows_iff :
    p.Knows r name ↔ (!r.contains name && !p.extra.any (·.name == name)) = false := by
  rw [Knows, Table.contains, ← Option.isSome_iff_exists]
  by_cases h : (r.find? name).isSome <;> simp [h]

theorem unknownDisabled?_eq_none_iff :
    p.unknownDisabled? r = none ↔ ∀ name ∈ p.config.disabled, p.Knows r name := by
  simp only [unknownDisabled?, List.find?_eq_none, knows_iff, Bool.not_eq_true]

theorem unknownDisabled?_eq_some_iff :
    p.unknownDisabled? r = some name ↔
      ∃ front back, p.config.disabled = front ++ name :: back ∧ (∀ n ∈ front, p.Knows r n) ∧
        ¬ p.Knows r name := by
  simp only [unknownDisabled?, List.find?_eq_some_iff_append, knows_iff, Bool.not_eq_false,
    Bool.not_eq_true']
  constructor
  · rintro ⟨hname, front, back, hsplit, hfront⟩
    exact ⟨front, back, hsplit, hfront, hname⟩
  · rintro ⟨front, back, hsplit, hfront, hname⟩
    exact ⟨hname, front, back, hsplit, hfront⟩

/-- Some stage is made for each name if and only if each name has one. -/
theorem exists_forall₂_create_iff {l : Lexicon} {names : List String} :
    (∃ stages, List.Forall₂ (fun name stage => r.create name l = .ok stage) names stages) ↔
      ∀ name ∈ names, r.Makes l name := by
  induction names with
  | nil => simp
  | cons name names ih =>
      rw [List.forall_mem_cons, ← ih, makes_iff]
      constructor
      · rintro ⟨stages, hstages⟩
        cases hstages with
        | cons hcreate hrest => exact ⟨⟨_, hcreate⟩, _, hrest⟩
      · rintro ⟨⟨stage, hcreate⟩, stages, hstages⟩
        exact ⟨stage :: stages, .cons hcreate hstages⟩

/-! ### All checks -/

/-- **A plan that is sound gives the pipeline** whose stages the factories make, with the extra
ones among them. -/
theorem build_eq_ok_iff :
    p.build r = .ok q ↔
      p.IsSound r ∧ ∃ stages,
        List.Forall₂ (fun name stage => r.create name p.lexicon = .ok stage) p.stageNames stages ∧
          q = ⟨p.lexicon, p.config, insertExtra stages p.enabledExtra⟩ := by
  constructor
  · intro h
    rw [build] at h
    split at h
    · contradiction
    · next hdisabled =>
      split at h
      · contradiction
      · next stages hstages =>
        split at h
        · contradiction
        · next hextra =>
          obtain ⟨hfresh, hmade⟩ := createAll_eq_ok_iff.1 hstages
          refine ⟨⟨unknownDisabled?_eq_none_iff.1 hdisabled, isFresh_nil_left.1 hfresh,
            exists_forall₂_create_iff.1 ⟨stages, hmade⟩, firstRepeat?_eq_none_iff.1 hextra⟩,
            stages, hmade, (Except.ok.inj h).symm⟩
  · rintro ⟨hsound, stages, hmade, rfl⟩
    have hstages : createAll r p.lexicon [] p.stageNames = .ok stages :=
      createAll_eq_ok_iff.2 ⟨isFresh_nil_left.2 hsound.nodup, hmade⟩
    have hextra : firstRepeat? p.stageNames (p.enabledExtra.map (·.name)) = none :=
      firstRepeat?_eq_none_iff.2 hsound.extra
    simp only [build, unknownDisabled?_eq_none_iff.2 hsound.disabled, hstages, hextra]

/-- **A plan that is not sound is refused** for the first check that fails. -/
theorem build_eq_error_iff : p.build r = .error e ↔ p.FirstFault r e := by
  constructor
  · intro h
    rw [build] at h
    split at h
    · next name hname =>
      cases h
      obtain ⟨front, back, hsplit, hfront, hname⟩ := unknownDisabled?_eq_some_iff.1 hname
      exact .disabled hsplit hfront hname
    · next hdisabled =>
      replace hdisabled := unknownDisabled?_eq_none_iff.1 hdisabled
      split at h
      · next hfault =>
        cases h
        obtain ⟨front, name, back, hsplit, hfresh, hfront, hname⟩ :=
          createAll_eq_error_iff.1 hfault
        exact .registered hdisabled hsplit hfresh.1 hfront hname
      · next stages hstages =>
        obtain ⟨hfresh, hmade⟩ := createAll_eq_ok_iff.1 hstages
        split at h
        · next hname =>
          cases h
          obtain ⟨front, back, hsplit, hfront, hname⟩ := firstRepeat?_eq_some_iff.1 hname
          exact .extra hdisabled hfresh.1 (exists_forall₂_create_iff.1 ⟨stages, hmade⟩) hsplit
            hfront hname
        · contradiction
  · rintro (⟨hsplit, hfront, hname⟩ | ⟨hdisabled, hsplit, hnodup, hfront, hname⟩ |
      ⟨hdisabled, hnodup, hmade, hsplit, hfront, hname⟩)
    · have hunknown := unknownDisabled?_eq_some_iff.2 ⟨_, _, hsplit, hfront, hname⟩
      simp only [build, hunknown]
    · have hfault : createAll r p.lexicon [] p.stageNames = .error e :=
        createAll_eq_error_iff.2
          ⟨_, _, _, hsplit, isFresh_nil_left.2 hnodup, hfront, hname.congr (by simp)⟩
      simp only [build, unknownDisabled?_eq_none_iff.2 hdisabled, hfault]
    · obtain ⟨stages, hstages⟩ := exists_forall₂_create_iff.2 hmade
      have hstages' := createAll_eq_ok_iff.2 ⟨isFresh_nil_left.2 hnodup, hstages⟩
      have hrepeat : firstRepeat? p.stageNames (p.enabledExtra.map (·.name)) = some _ :=
        firstRepeat?_eq_some_iff.2 ⟨_, _, hsplit, hfront, hname⟩
      simp only [build, unknownDisabled?_eq_none_iff.2 hdisabled, hstages', hrepeat]

/-! ## The names of the stages -/

/-- The names of the registered stages are those that were asked for and are not disabled, and
that of the stage for keywords if it is neither disabled nor asked for. -/
theorem stageNames_eq (p : PipelinePlan) :
    p.stageNames =
      (p.order.getD p.lexicon.stages).filter (· ∉ p.config.disabled) ++
        if StageName.keywords ∉ p.config.disabled ∧
          StageName.keywords ∉ p.order.getD p.lexicon.stages then [StageName.keywords] else [] := by
  have hfilter : (p.order.getD p.lexicon.stages).filter (!p.config.isDisabled ·) =
      (p.order.getD p.lexicon.stages).filter (· ∉ p.config.disabled) := by
    simp [Config.isDisabled]
  rw [stageNames, hfilter]
  by_cases hdisabled : StageName.keywords ∈ p.config.disabled
  · simp [Config.isDisabled, hdisabled]
  · by_cases hmem : StageName.keywords ∈ p.order.getD p.lexicon.stages <;>
      simp [Config.isDisabled, hdisabled, hmem]

/-- No registered stage of the pipeline is disabled. -/
theorem not_mem_disabled_of_mem_stageNames (h : name ∈ p.stageNames) :
    name ∉ p.config.disabled := by
  rw [stageNames_eq, List.mem_append] at h
  rcases h with h | h
  · simpa using (List.mem_filter.1 h).2
  · split at h
    · next hkeywords => exact List.mem_singleton.1 h ▸ hkeywords.1
    · contradiction

/-- The stage for keywords is there unless it is disabled. -/
theorem keywords_mem_stageNames :
    StageName.keywords ∈ p.stageNames ↔ StageName.keywords ∉ p.config.disabled := by
  refine ⟨not_mem_disabled_of_mem_stageNames, fun h => ?_⟩
  by_cases hmem : StageName.keywords ∈ p.order.getD p.lexicon.stages <;>
    simp [stageNames_eq, h, hmem]

/-- No extra stage of the pipeline is disabled. -/
theorem not_mem_disabled_of_mem_extraNames (h : name ∈ p.extraNames) :
    name ∉ p.config.disabled := by
  obtain ⟨stage, hstage, rfl⟩ := List.mem_map.1 h
  simpa [Config.isDisabled] using (List.mem_filter.1 hstage).2

/-- The stages have the names they were asked for by. -/
theorem map_name_of_forall₂_create (hr : r.KeepsNames) {l : Lexicon} {names : List String}
    (h : List.Forall₂ (fun name stage => r.create name l = .ok stage) names stages) :
    stages.map (·.name) = names := by
  induction h with
  | nil => rfl
  | cons hcreate _ ih =>
      obtain ⟨factory, hfind, hfactory⟩ := create_eq_ok_iff.1 hcreate
      rw [List.map_cons, ih, hr _ _ hfind _ _ hfactory]

/-- Extra stages go in front of the first name of the stage for keywords. -/
theorem map_name_insertExtra (stages extra : List Stage) :
    (insertExtra stages extra).map (·.name) =
      (stages.map (·.name)).takeWhile (· != StageName.keywords) ++ extra.map (·.name) ++
        (stages.map (·.name)).dropWhile (· != StageName.keywords) := by
  simp only [insertExtra, List.map_append, List.takeWhile_map, List.dropWhile_map]
  rfl

/-- The stages of a pipeline that was made of a plan, by their names. -/
structure Assembles (p : PipelinePlan) (q : Pipeline) : Prop where
  /-- The extra stages stand right before the stage for keywords. -/
  before_keywords : StageName.keywords ∉ p.config.disabled →
    ∃ front back, p.stageNames = front ++ StageName.keywords :: back ∧
      q.stageNames = front ++ p.extraNames ++ StageName.keywords :: back
  /-- They stand at the end if that stage is disabled. -/
  at_end : StageName.keywords ∈ p.config.disabled → q.stageNames = p.stageNames ++ p.extraNames
  /-- No stage runs twice. -/
  nodup : q.stageNames.Nodup
  /-- No disabled stage runs. -/
  enabled : ∀ name ∈ q.stageNames, name ∉ p.config.disabled
  /-- The stage for keywords runs once unless it is disabled. -/
  count_keywords : q.stageNames.count StageName.keywords =
    if StageName.keywords ∈ p.config.disabled then 0 else 1

/-- What stands in front of a name and what starts with it, around other names. -/
theorem takeWhile_dropWhile_of_split {front : List String} {k : String} (h : k ∉ front)
    (back : List String) :
    (front ++ k :: back).takeWhile (· != k) = front ∧
      (front ++ k :: back).dropWhile (· != k) = k :: back := by
  have hne : ∀ n ∈ front, (n != k) = true := fun n hn => by
    simpa using ne_of_mem_of_not_mem hn h
  rw [List.takeWhile_append_of_pos hne, List.dropWhile_append_of_pos hne]
  simp

/-- All names stand in front of one that is not among them. -/
theorem takeWhile_dropWhile_of_not_mem {names : List String} {k : String} (h : k ∉ names) :
    names.takeWhile (· != k) = names ∧ names.dropWhile (· != k) = [] := by
  have hne : ∀ n ∈ names, (n != k) = true := fun n hn => by
    simpa using ne_of_mem_of_not_mem hn h
  exact ⟨List.takeWhile_eq_self_iff.2 hne, List.dropWhile_eq_nil_iff.2 hne⟩

section Built

variable (hr : r.KeepsNames) (h : p.build r = .ok q)

include hr h

/-- The extra stages are put in front of the stage for keywords. -/
theorem stageNames_of_build :
    q.stageNames = p.stageNames.takeWhile (· != StageName.keywords) ++ p.extraNames ++
      p.stageNames.dropWhile (· != StageName.keywords) := by
  obtain ⟨-, stages, hmade, rfl⟩ := build_eq_ok_iff.1 h
  rw [Pipeline.stageNames, map_name_insertExtra, map_name_of_forall₂_create hr hmade]
  rfl

/-- Wherever they are put, the stages are the registered and the extra ones. -/
theorem perm_stageNames_of_build : q.stageNames.Perm (p.stageNames ++ p.extraNames) := by
  rw [stageNames_of_build hr h, List.append_assoc]
  refine (List.perm_append_comm.append_left _).trans ?_
  rw [← List.append_assoc, List.takeWhile_append_dropWhile]

theorem nodup_stageNames_of_build : q.stageNames.Nodup := by
  obtain ⟨hsound, -⟩ := build_eq_ok_iff.1 h
  have hnodup : (p.stageNames ++ p.extraNames).Nodup :=
    List.nodup_append.2 ⟨hsound.nodup, hsound.extra.1,
      fun a ha b hb hab => hsound.extra.2 b hb (hab ▸ ha)⟩
  exact (perm_stageNames_of_build hr h).nodup_iff.2 hnodup

theorem not_mem_disabled_of_build (hname : name ∈ q.stageNames) : name ∉ p.config.disabled := by
  rcases List.mem_append.1 ((perm_stageNames_of_build hr h).mem_iff.1 hname) with hname | hname
  · exact not_mem_disabled_of_mem_stageNames hname
  · exact not_mem_disabled_of_mem_extraNames hname

/-- **The pipeline of a plan** has the stages of the plan, in its order. -/
theorem assembles_of_build : p.Assembles q where
  before_keywords hkeywords := by
    obtain ⟨front, back, hsplit, hfront⟩ :=
      List.eq_append_cons_of_mem (keywords_mem_stageNames.2 hkeywords)
    obtain ⟨htake, hdrop⟩ := takeWhile_dropWhile_of_split hfront back
    exact ⟨front, back, hsplit, by rw [stageNames_of_build hr h, hsplit, htake, hdrop]⟩
  at_end hkeywords := by
    have hnone : StageName.keywords ∉ p.stageNames := fun hmem =>
      keywords_mem_stageNames.1 hmem hkeywords
    obtain ⟨htake, hdrop⟩ := takeWhile_dropWhile_of_not_mem hnone
    rw [stageNames_of_build hr h, htake, hdrop, List.append_nil]
  nodup := nodup_stageNames_of_build hr h
  enabled _ := not_mem_disabled_of_build hr h
  count_keywords := by
    split
    · next hkeywords =>
      exact List.count_eq_zero_of_not_mem fun hmem => not_mem_disabled_of_build hr h hmem hkeywords
    · next hkeywords =>
      have hmem := List.mem_append_left p.extraNames (keywords_mem_stageNames.2 hkeywords)
      exact List.count_eq_one_of_mem (nodup_stageNames_of_build hr h)
        ((perm_stageNames_of_build hr h).mem_iff.2 hmem)

end Built

/-- **A plan can be carried out if and only if it is sound.**  The pipeline then has the stages
that were asked for, with the extra ones right before the stage for keywords; and a plan that
cannot be carried out is refused for the first check that fails. -/
theorem build_assembles {r : StageRegistry} (hr : r.KeepsNames) (p : PipelinePlan) :
    p.stageNames =
        (p.order.getD p.lexicon.stages).filter (· ∉ p.config.disabled) ++
          (if StageName.keywords ∉ p.config.disabled ∧
            StageName.keywords ∉ p.order.getD p.lexicon.stages then [StageName.keywords] else []) ∧
      ((∃ q, p.build r = .ok q) ↔ p.IsSound r) ∧
        (∀ q, p.build r = .ok q → p.Assembles q) ∧
          ∀ e, p.build r = .error e ↔ p.FirstFault r e := by
  refine ⟨p.stageNames_eq, ⟨?_, fun hsound => ?_⟩, fun q => assembles_of_build hr,
    fun e => build_eq_error_iff⟩
  · rintro ⟨q, hq⟩
    exact (build_eq_ok_iff.1 hq).1
  · obtain ⟨stages, hstages⟩ := exists_forall₂_create_iff.2 hsound.made
    exact ⟨_, build_eq_ok_iff.2 ⟨hsound, stages, hstages, rfl⟩⟩

/-- Of two stages that a plan for Chinese asks for it disables one, and it brings a stage of its
own, which ends up between the other one and the stage for keywords. -/
theorem build_assembles_extra :
    let p : PipelinePlan :=
      { lexicon := .chinese
        config := { disabled := [StageName.possessive] }
        order := some [StageName.punctuation, StageName.possessive]
        extra := [⟨"yield", fun _ text => text⟩] }
    LocaleSet.builtin.stages.KeepsNames ∧ p.IsSound LocaleSet.builtin.stages ∧
      ∃ q, p.build LocaleSet.builtin.stages = .ok q ∧ p.Assembles q ∧
        q.stageNames = [StageName.punctuation, "yield", StageName.keywords] := by
  intro p
  obtain ⟨-, hsound, hassembles, -⟩ := build_assembles keepsNames_builtin p
  exact ⟨keepsNames_builtin, hsound.1 ⟨_, rfl⟩, _, rfl, hassembles _ rfl, rfl⟩

end PipelinePlan

end RuleCanon
