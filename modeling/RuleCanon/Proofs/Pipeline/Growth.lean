import RuleCanon.Proofs.Pipeline.Assembly

/-!
# Sets of locales that grow

A set of locales grows by plugins and by single lexicons.  A plugin that fails may leave stages
behind, so the set after a step is not the one before it even if the step has failed.  What was
there stays there all the same: names that are taken are never given to anything else.  So a
plan that can be carried out can be carried out ever after, and gives the same pipeline.

## Main Definitions

* `LocaleSet.Growth`, `LocaleSet.grow`, `LocaleSet.growAll` — the steps, and runs of them
* `LocaleSet.Extends` — what was available still is
* `LocaleSet.HasOwnIds` — lexicons stand under their own ids

## Main Statements

* `LocaleSet.lexicons_grow_cases`, `LocaleSet.stages_grow` — what a step does
* `LocaleSet.extends_growAll` — a run takes nothing away
* `LocaleSet.Extends.build` — the pipelines of a set are those of any larger one
* `LocaleSet.growAll_conservative` — all of it, for the runs that start with nothing or with the
  built-in languages
-/

namespace RuleCanon

/-! ## Registries -/

namespace Table

variable {α : Type} {t : Table α} {key k : String} {value v : α}

theorem contains_eq_false_iff : t.contains key = false ↔ t.find? key = none := by
  rw [contains, Option.isSome_eq_false_iff, Option.isNone_iff_eq_none]

theorem mem_insertEntry {l : List (String × α)} {e : String × α}
    (h : e ∈ insertEntry key value l) : e = (key, value) ∨ e ∈ l := by
  fun_induction insertEntry key value l with
  | case1 => exact .inl (List.mem_singleton.1 h)
  | case2 k v rest hlt => exact List.mem_cons.1 h
  | case3 v rest hlt => exact (List.mem_cons.1 h).imp_right (List.mem_cons_of_mem _)
  | case4 k v rest hlt hne ih =>
      rcases List.mem_cons.1 h with rfl | h
      · exact .inr List.mem_cons_self
      · exact (ih h).imp_right (List.mem_cons_of_mem _)

/-- An entry with a new key leaves the others as they are. -/
theorem find?_insert_of_find? (hkey : t.find? key = none) (h : t.find? k = some v) :
    (t.insert key value).find? k = some v := by
  have hne : k ≠ key := by
    rintro rfl
    rw [hkey] at h
    contradiction
  rw [find?_insert_of_ne t hne, h]

/-- The keys of a table are sorted. -/
theorem pairwise_keys (t : Table α) : t.keys.Pairwise (· < ·) := List.pairwise_map.2 t.ascending

end Table

namespace LocaleSet

variable {s t u : LocaleSet}

/-- **Registering stages replaces none**, also if it stops before the last one. -/
theorem find?_registerStages {r : StageRegistry} {added : List (String × StageFactory)}
    {name : String} {factory : StageFactory} (h : r.find? name = some factory) :
    (registerStages r added).1.find? name = some factory := by
  induction added generalizing r with
  | nil => exact h
  | cons e added ih =>
      rw [registerStages, StageRegistry.register]
      cases hcontains : r.contains e.1 with
      | true => exact h
      | false => exact ih (Table.find?_insert_of_find? (Table.contains_eq_false_iff.1 hcontains) h)

/-! ## Steps -/

/-- A step that adds to a set of locales. -/
inductive Growth where
  /-- A plugin is installed. -/
  | install (p : LocalePlugin)
  /-- A lexicon is registered by itself. -/
  | register (l : Lexicon)

/-- The stages that a step brings. -/
def Growth.stages : Growth → List (String × StageFactory)
  | install p => p.stages
  | register _ => []

/-- The set after a step, and the lexicon that was added or why there is none. -/
def grow (s : LocaleSet) : Growth → LocaleSet × Except ConfigError Lexicon
  | .install p => s.install p
  | .register l => s.registerLexicon l

/-- The set after a run of steps, whether they succeed or not. -/
def growAll (s : LocaleSet) (steps : List Growth) : LocaleSet :=
  steps.foldl (fun s g => (s.grow g).1) s

theorem growAll_append (s : LocaleSet) (earlier later : List Growth) :
    s.growAll (earlier ++ later) = (s.growAll earlier).growAll later :=
  List.foldl_append

theorem registerLexicon_cases (s : LocaleSet) (l : Lexicon) :
    (s.lexicons.find? l.id = none ∧
        s.registerLexicon l = ({ s with lexicons := s.lexicons.insert l.id l }, .ok l)) ∨
      s.registerLexicon l = (s, .error (.duplicateLocale l.id)) := by
  rw [registerLexicon, LexiconRegistry.register]
  cases hcontains : s.lexicons.contains l.id with
  | true => exact .inr rfl
  | false => exact .inl ⟨Table.contains_eq_false_iff.1 hcontains, rfl⟩

/-- **A step adds a lexicon under its own, new id, or it fails** and leaves the lexicons as they
are. -/
theorem lexicons_grow_cases (s : LocaleSet) (g : Growth) :
    (∃ l, (s.grow g).2 = .ok l ∧ s.lexicons.find? l.id = none ∧
        (s.grow g).1.lexicons = s.lexicons.insert l.id l) ∨
      ∃ e, (s.grow g).2 = .error e ∧ (s.grow g).1.lexicons = s.lexicons := by
  have hregister (s : LocaleSet) (l : Lexicon) :
      (∃ k, (s.registerLexicon l).2 = .ok k ∧ s.lexicons.find? k.id = none ∧
          (s.registerLexicon l).1.lexicons = s.lexicons.insert k.id k) ∨
        ∃ e, (s.registerLexicon l).2 = .error e ∧
          (s.registerLexicon l).1.lexicons = s.lexicons := by
    rcases registerLexicon_cases s l with ⟨hid, h⟩ | h <;> rw [h]
    · exact .inl ⟨l, rfl, hid, rfl⟩
    · exact .inr ⟨_, rfl, rfl⟩
  cases g with
  | register l => exact hregister s l
  | install p =>
      rw [grow, install]
      split
      · exact .inr ⟨_, rfl, rfl⟩
      · split
        · exact .inr ⟨_, rfl, rfl⟩
        · exact hregister { s with stages := _ } _

/-- The stages of a step are registered up to the first one whose name is taken. -/
theorem stages_grow (s : LocaleSet) (g : Growth) :
    (s.grow g).1.stages = (registerStages s.stages g.stages).1 := by
  cases g with
  | install p => exact stages_install s p
  | register l => rcases registerLexicon_cases s l with ⟨-, h⟩ | h <;> rw [grow, h] <;> rfl

/-! ## What a run preserves -/

/-- Each lexicon stands under its own id. -/
def HasOwnIds (s : LocaleSet) : Prop := ∀ e ∈ s.lexicons.entries, e.1 = e.2.id

theorem HasOwnIds.grow (hs : s.HasOwnIds) (g : Growth) : (s.grow g).1.HasOwnIds := by
  rcases lexicons_grow_cases s g with ⟨l, -, -, hl⟩ | ⟨e, -, hl⟩ <;> rw [HasOwnIds, hl]
  · intro e he
    rcases Table.mem_insertEntry he with rfl | he
    · rfl
    · exact hs e he
  · exact hs

theorem HasOwnIds.growAll (hs : s.HasOwnIds) (steps : List Growth) :
    (s.growAll steps).HasOwnIds := by
  induction steps generalizing s with
  | nil => exact hs
  | cons g steps ih => exact ih (hs.grow g)

/-- What is available in a set is available in another one, under the same names. -/
structure Extends (s t : LocaleSet) : Prop where
  /-- Each id belongs to the same lexicon. -/
  lexicons : ∀ id l, s.lexicons.find? id = some l → t.lexicons.find? id = some l
  /-- Each name belongs to the same stages. -/
  stages : ∀ name factory, s.stages.find? name = some factory →
    t.stages.find? name = some factory

theorem Extends.refl (s : LocaleSet) : s.Extends s := ⟨fun _ _ h => h, fun _ _ h => h⟩

theorem Extends.trans (hst : s.Extends t) (htu : t.Extends u) : s.Extends u :=
  ⟨fun _ _ h => htu.lexicons _ _ (hst.lexicons _ _ h),
    fun _ _ h => htu.stages _ _ (hst.stages _ _ h)⟩

/-- A step takes nothing away. -/
theorem extends_grow (s : LocaleSet) (g : Growth) : s.Extends (s.grow g).1 where
  lexicons id l h := by
    rcases lexicons_grow_cases s g with ⟨k, -, hid, hl⟩ | ⟨e, -, hl⟩ <;> rw [hl]
    · exact Table.find?_insert_of_find? hid h
    · exact h
  stages name factory h := by
    rw [stages_grow]
    exact find?_registerStages h

/-- **A run takes nothing away**, however long it is and whichever of its steps fail. -/
theorem extends_growAll (s : LocaleSet) (steps : List Growth) : s.Extends (s.growAll steps) := by
  induction steps generalizing s with
  | nil => exact .refl s
  | cons g steps ih => exact (extends_grow s g).trans (ih _)

end LocaleSet

/-! ## Pipelines of a larger set -/

/-- A stage that is made is made alike by every registry that has its factory. -/
theorem StageRegistry.create_of_find? {r r' : StageRegistry}
    (hr : ∀ name factory, r.find? name = some factory → r'.find? name = some factory)
    {name : String} {l : Lexicon} {stage : Stage} (h : r.create name l = .ok stage) :
    r'.create name l = .ok stage := by
  obtain ⟨factory, hfind, hfactory⟩ := create_eq_ok_iff.1 h
  exact create_eq_ok_iff.2 ⟨factory, hr name factory hfind, hfactory⟩

namespace PipelinePlan

variable {p : PipelinePlan} {q : Pipeline} {r r' : StageRegistry}

theorem IsSound.of_find? (h : p.IsSound r)
    (hr : ∀ name factory, r.find? name = some factory → r'.find? name = some factory) :
    p.IsSound r' where
  disabled name hname := (h.disabled name hname).imp_left fun ⟨factory, hfind⟩ =>
    ⟨factory, hr name factory hfind⟩
  nodup := h.nodup
  made name hname :=
    have ⟨factory, stage, hfind, hfactory⟩ := h.made name hname
    ⟨factory, stage, hr name factory hfind, hfactory⟩
  extra := h.extra

/-- **A plan gives the same pipeline** with every registry that has the stages. -/
theorem build_of_find? (h : p.build r = .ok q)
    (hr : ∀ name factory, r.find? name = some factory → r'.find? name = some factory) :
    p.build r' = .ok q := by
  obtain ⟨hsound, stages, hstages, hq⟩ := build_eq_ok_iff.1 h
  exact build_eq_ok_iff.2 ⟨hsound.of_find? hr, stages,
    hstages.imp fun _ _ h => StageRegistry.create_of_find? hr h, hq⟩

end PipelinePlan

namespace LocaleSet

variable {s t : LocaleSet}

/-- **The pipelines of a set are pipelines of every larger one**, with the same stages. -/
theorem Extends.build (h : s.Extends t) {locale : String} {config : Config}
    {order : Option (List String)} {extra : List Stage} {p : Pipeline}
    (hp : s.build locale config order extra = .ok p) :
    t.build locale config order extra = .ok p := by
  rw [LocaleSet.build, LexiconRegistry.lookup] at hp ⊢
  cases hlexicon : s.lexicons.find? locale with
  | none =>
      rw [hlexicon] at hp
      contradiction
  | some l =>
      rw [hlexicon] at hp
      rw [h.lexicons locale l hlexicon]
      exact PipelinePlan.build_of_find? hp h.stages

theorem hasOwnIds_empty : empty.HasOwnIds := fun _ he => absurd he List.not_mem_nil

theorem hasOwnIds_builtin : builtin.HasOwnIds :=
  (hasOwnIds_empty.grow (.install .chinese)).grow (.install .english)

/-- **Growing a set of locales disturbs nothing.**  After any run from the empty set or from the
built-in one, lexicons stand under their own ids and in the order of these; what was available
earlier in the run still is, under the same names; each pipeline that could be built earlier is
built again, with the same stages; and a step that fails leaves the lexicons alone. -/
theorem growAll_conservative {start : LocaleSet} (hstart : start = .empty ∨ start = .builtin)
    (earlier later : List Growth) :
    let s := start.growAll earlier
    let t := start.growAll (earlier ++ later)
    t.HasOwnIds ∧ t.lexicons.keys.Pairwise (· < ·) ∧ s.Extends t ∧
      (∀ locale config order extra p, s.build locale config order extra = .ok p →
        t.build locale config order extra = .ok p) ∧
      ∀ g e, (t.grow g).2 = .error e → (t.grow g).1.lexicons = t.lexicons := by
  intro s t
  have hown : start.HasOwnIds := by
    rcases hstart with rfl | rfl
    · exact hasOwnIds_empty
    · exact hasOwnIds_builtin
  have hextends : s.Extends t := by
    rw [show t = s.growAll later from growAll_append ..]
    exact extends_growAll s later
  refine ⟨hown.growAll _, t.lexicons.pairwise_keys, hextends,
    fun _ _ _ _ _ hp => hextends.build hp, fun g e he => ?_⟩
  rcases lexicons_grow_cases t g with ⟨l, hok, -⟩ | ⟨-, -, hl⟩
  · rw [hok] at he
    contradiction
  · exact hl

/-- A plugin brings a new stage and then one whose name is taken.  It fails with the new stage
registered, and the pipeline for Chinese is built as before. -/
theorem growAll_conservative_halfway :
    let plugin : LocalePlugin :=
      { stages := [("yield", fun _ => .ok ⟨"yield", fun _ text => text⟩),
          (StageName.punctuation, fun _ => .ok ⟨StageName.punctuation, fun _ text => text⟩)]
        lexicon := .ok .english }
    (builtin.grow (.install plugin)).2 = .error (.duplicateStage StageName.punctuation) ∧
      (builtin.growAll [.install plugin]).stages.contains "yield" = true ∧
      (builtin.growAll [.install plugin]).lexicons = builtin.lexicons ∧
      ∃ p, builtin.build "zh-CN" {} none [] = .ok p ∧
        (builtin.growAll [.install plugin]).build "zh-CN" {} none [] = .ok p := by
  intro plugin
  have hfails : (builtin.grow (.install plugin)).2 =
      .error (.duplicateStage StageName.punctuation) := rfl
  obtain ⟨-, -, -, hbuild, -⟩ := growAll_conservative (.inr rfl) [] [.install plugin]
  obtain ⟨-, -, -, -, hlexicons⟩ := growAll_conservative (.inr rfl) [] []
  exact ⟨hfails, rfl, hlexicons _ _ hfails, _, rfl, hbuild _ _ _ _ _ rfl⟩

end LocaleSet

end RuleCanon
