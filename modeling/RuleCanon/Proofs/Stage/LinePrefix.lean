import RuleCanon.Proofs.Literal.TextLines
import RuleCanon.Proofs.Stage.Idempotent

/-!
# Assignments and results are read line by line

The openings of assignments and results hold no mark of a literal.  So each of the two stages is a
function of the line: a line that starts in code gets the new opening, if it has the old one, and
everything else stays.  A line has at most one of the two openings, and neither of the new ones is
an old one, so the stages can change places.

## Main Statements

* `setTo_apply_eq`, `resultIs_apply_eq` — the stages, line by line
* `openLine_openAssignment?_openResult?` — on a line the stages can change places
* `linePrefix_stages` — what both stages do, in either order
-/

namespace RuleCanon

open Lexicon Pattern Segmenter

/-! ## The stages -/

theorem replacesOpenings_assignment :
    chinese.segmenter.ReplacesOpenings assignmentPattern assignmentReplacement
      openAssignment? where
  sealed := isSealed_assignmentPattern
  tame := isTame_assignmentReplacement
  ne_nil := assignmentReplacement_ne_nil
  lines := rewritesLines_assignmentPattern
  opens := opens_assignmentPattern

theorem replacesOpenings_result :
    chinese.segmenter.ReplacesOpenings resultPattern resultReplacement openResult? where
  sealed := isSealed_resultPattern
  tame := isTame_resultReplacement
  ne_nil := resultReplacement_ne_nil
  lines := rewritesLines_resultPattern
  opens := opens_resultPattern

/-- **Assignments, line by line.** -/
theorem setTo_apply_eq (text : List Char) :
    Stage.setTo.apply chinese.segmenter text =
      mapLines (fun start line => if chinese.segmenter.InCode text start then
        match assignmentAt? line with
        | some a => a.opening ++ a.rest
        | none => line
      else line) text := by
  have hlines := opens_assignmentPattern.replaceOutside_eq_mapLines_of_avoids
    keepsToLine_assignmentPattern isSealed_assignmentPattern isLinewise_assignmentReplacement
    (by decide +kernel) text
  refine hlines.trans (mapLines_congr fun e _ => ?_)
  rw [openAssignment?, openLine_openBy_eq]
  cases assignmentAt? e.2 <;> rfl

/-- **Results, line by line.** -/
theorem resultIs_apply_eq (text : List Char) :
    Stage.resultIs.apply chinese.segmenter text =
      mapLines (fun start line => if chinese.segmenter.InCode text start then
        match resultAt? line with
        | some a => a.opening ++ a.rest
        | none => line
      else line) text := by
  have hlines := opens_resultPattern.replaceOutside_eq_mapLines_of_avoids keepsToLine_resultPattern
    isSealed_resultPattern isLinewise_resultReplacement (by decide) text
  refine hlines.trans (mapLines_congr fun e _ => ?_)
  rw [openResult?, openLine_openBy_eq]
  cases resultAt? e.2 <;> rfl

/-! ## One stage after the other -/

/-- **On a line the stages can change places.** -/
theorem openLine_openAssignment?_openResult? (line : List Char) :
    openLine openAssignment? (openLine openResult? line) =
      openLine openResult? (openLine openAssignment? line) :=
  openLine_openBy_comm assignmentAt?_eq_none Assignment.startOf?_opening resultAt?_eq_none
    Result.startOf?_opening (by decide) (by decide) (by decide) line

/-- **The stages for assignments and results change the openings of lines and nothing else**, and
they can change places. -/
theorem linePrefix_stages (text : List Char) :
    let s := chinese.segmenter
    (∀ line a, assignmentAt? line = some a ↔ a.IsOpeningOf line) ∧
      (∀ line a, resultAt? line = some a ↔ a.IsOpeningOf line) ∧
      Stage.setTo.apply s text =
        mapLines (fun start line => if s.InCode text start then
          match assignmentAt? line with
          | some a => a.opening ++ a.rest
          | none => line
        else line) text ∧
      Stage.resultIs.apply s text =
        mapLines (fun start line => if s.InCode text start then
          match resultAt? line with
          | some a => a.opening ++ a.rest
          | none => line
        else line) text ∧
      Stage.setTo.apply s (Stage.resultIs.apply s text) =
        Stage.resultIs.apply s (Stage.setTo.apply s text) := by
  intro s
  exact ⟨fun _ _ => assignmentAt?_eq_some_iff, fun _ _ => resultAt?_eq_some_iff,
    setTo_apply_eq text, resultIs_apply_eq text,
    replacesOpenings_assignment.replaceOutside_comm replacesOpenings_result isSingle_chinese
      newline_not_mem_fences openLine_openAssignment?_openResult? text⟩

/-- A line that starts in a literal stays. -/
example :
    Stage.setTo.apply chinese.segmenter "将 x 设为 「将\n将 y 设为 z」\n  将 y 设为 1".toList =
      "Let x be 「将\n将 y 设为 z」\n  Let y be 1".toList := by
  decide +kernel

end RuleCanon
