import RuleCanon.Pipeline.Basic

/-!
# Traces of pipelines

A pipeline can be run for its result or for a record of its steps, and the two ways of running it
are written apart: only one of them passes the step for quotes in any case, and only the other one
looks at the options before it does so.  Both are set against the same list of steps, in which the
step for quotes is a stage like any other.

## Main Definitions

* `Pipeline.steps` — the stages of a pipeline, and the step for quotes if it is done
* `Records` — a record with one entry for each of several steps

## Main Statements

* `Pipeline.records_trace` — the trace is a record of the steps
* `Pipeline.foldl_steps` — the canonical form is what the steps make of the text
* `Pipeline.trace_agrees` — what the entries of a trace are, and that the last one holds the
  canonical form
-/

namespace RuleCanon

/-- A record of steps that are taken one after the other: each entry has the name of its step, and
the text that the step makes of what the one before it has left. -/
inductive Records (s : Segmenter) : List Char → List Stage → List TraceEntry → Prop where
  | nil (text : List Char) : Records s text [] []
  | cons {text : List Char} {step : Stage} {rest : List Stage} {entries : List TraceEntry}
      (hrest : Records s (step.apply s text) rest entries) :
      Records s text (step :: rest) (⟨step.name, step.apply s text⟩ :: entries)

namespace Records

variable {s : Segmenter} {text : List Char} {steps : List Stage} {entries : List TraceEntry}

theorem map_step (h : Records s text steps entries) :
    entries.map (·.step) = steps.map (·.name) := by
  induction h with
  | nil => rfl
  | cons _ ih => rw [List.map_cons, List.map_cons, ih]

/-- Each entry holds what its step makes of the text before it. -/
theorem output_eq (h : Records s text steps entries) {i : Nat} {step : Stage} {entry : TraceEntry}
    (hstep : steps[i]? = some step) (hentry : entries[i]? = some entry) :
    (text :: entries.map (·.output))[i]?.map (step.apply s) = some entry.output := by
  induction h generalizing i with
  | nil => contradiction
  | cons _ ih =>
      cases i with
      | zero =>
          cases hstep
          cases hentry
          rfl
      | succ i => exact ih hstep hentry

/-- The last text of a record is what all steps together make of the first one. -/
theorem getLast?_output (h : Records s text steps entries) :
    (text :: entries.map (·.output)).getLast? =
      some (steps.foldl (fun text step => step.apply s text) text) := by
  induction h with
  | nil => rfl
  | cons _ ih => rw [List.map_cons, List.getLast?_cons_cons, ih, List.foldl_cons]

end Records

namespace Pipeline

/-- The step for quotes as a stage. -/
def quotes : Stage := ⟨quotesStep, fun s => s.canonicalizeQuotes .ascii⟩

/-- The steps that the options add to those of the stages. -/
def lastSteps (p : Pipeline) : List Stage := if p.config.normalizeQuotes then [quotes] else []

/-- All steps of a pipeline in the order in which they are taken. -/
def steps (p : Pipeline) : List Stage := p.stages ++ p.lastSteps

theorem records_traceFrom (p : Pipeline) (text : List Char) (stages : List Stage) :
    Records p.segmenter text (stages ++ p.lastSteps) (p.traceFrom text stages) := by
  induction stages generalizing text with
  | nil =>
      rw [List.nil_append, lastSteps, traceFrom, finish]
      split
      · exact .cons (.nil _)
      · exact .nil text
  | cons stage rest ih => exact .cons (ih (stage.apply p.segmenter text))

/-- **The trace is a record of the steps.** -/
theorem records_trace (p : Pipeline) (text : List Char) :
    Records p.segmenter text p.steps (p.trace text) :=
  p.records_traceFrom text p.stages

/-- **The canonical form is what the steps make of the text.** -/
theorem foldl_steps (p : Pipeline) (text : List Char) :
    p.steps.foldl (fun text step => step.apply p.segmenter text) text = p.canonicalize text := by
  rw [steps, List.foldl_append, canonicalize, lastSteps, finish]
  split <;> rfl

/-- **A trace shows how the canonical form comes about.**  It has an entry for each stage, in their
order, and one more for quotes just if the options ask for uniform ones; each entry holds what its
step makes of the text in the entry before it, the first one what it makes of the text itself; and
the last one holds the canonical form.  It is empty only if there is nothing to do, and then every
text is canonical. -/
theorem trace_agrees (p : Pipeline) (text : List Char) :
    (p.trace text).map (·.step) =
        p.stageNames ++ (if p.config.normalizeQuotes then [quotesStep] else []) ∧
      (∀ (i : Nat) (step : Stage) (entry : TraceEntry),
        p.steps[i]? = some step → (p.trace text)[i]? = some entry →
        (text :: (p.trace text).map (·.output))[i]?.map (step.apply p.segmenter) =
          some entry.output) ∧
      (∀ entry, (p.trace text).getLast? = some entry → entry.output = p.canonicalize text) ∧
      (p.trace text = [] ↔ p.stages = [] ∧ p.config.normalizeQuotes = false) ∧
      (p.trace text = [] → ∀ other, p.canonicalize other = other) := by
  have hrecords := p.records_trace text
  have hempty : p.trace text = [] ↔ p.stages = [] ∧ p.config.normalizeQuotes = false := by
    rw [← List.map_eq_nil_iff, hrecords.map_step, List.map_eq_nil_iff, steps,
      List.append_eq_nil_iff, lastSteps]
    simp
  refine ⟨?_, fun i step entry => hrecords.output_eq, fun entry hlast => ?_, hempty, ?_⟩
  · rw [hrecords.map_step, steps, List.map_append, stageNames, lastSteps]
    split <;> rfl
  · have hout := hrecords.getLast?_output
    rw [List.getLast?_cons, List.getLast?_map, hlast, foldl_steps] at hout
    exact Option.some.inj hout
  · intro htrace other
    obtain ⟨hstages, hquotes⟩ := hempty.1 htrace
    rw [canonicalize, finish, hstages, hquotes, List.foldl_nil]
    rfl

end Pipeline

end RuleCanon
