import RuleCanon.Proofs.Idiom.RuleHeading
import RuleCanon.Proofs.Literal.TextLines

/-!
# Headings of rules are read line by line

A heading can hold marks of literals, in its parameter list.  If a literal opens there the heading
stays, whatever the literal holds.  A literal that opens behind the parameter list opens behind the
whole heading, because the closing parenthesis and the blanks behind it are no marks.  So the stage
is a function of the line, of where it starts, and of where the literals are.

## Main Definitions

* `listEnd` — where the first parameter list of a line is closed
* `rewriteHeading` — a line with its heading in the canonical form

## Main Statements

* `Heading.IsOpeningOf.exists_split` — what stands before and behind the closing parenthesis
* `isApart_heading_iff` — when no literal has a part of a heading
* `functionSyntax_apply_eq` — the stage, line by line
-/

namespace RuleCanon

open Lexicon Pattern Segmenter

variable {text line w : List Char} {q : Nat} {h : Heading}

/-! ## Where a heading ends -/

/-- The number of characters before the first parenthesis of a line that closes a list. -/
def listEnd (line : List Char) : Nat := (line.takeWhile (!listClosing.mem ·)).length

theorem listClosing_of_inlineBlank : CharSet.inlineBlank.Disjoint listClosing :=
  (CharSet.disjoint_oneOf (by decide)).symm

theorem listClosing_of_listOpening : listOpening.Disjoint listClosing :=
  CharSet.disjoint_oneOf (by decide)

theorem listClosing_of_name (hw : IsName w) : ∀ c ∈ w, listClosing.mem c = false := by
  obtain ⟨c, v, rfl, hc, hv⟩ := hw
  have hstart : CharSet.nameStart.Disjoint listClosing :=
    (CharSet.disjoint_oneOf (by decide +kernel)).symm
  have hrest : CharSet.nameRest.Disjoint listClosing :=
    (CharSet.disjoint_oneOf (by decide +kernel)).symm
  exact List.forall_mem_cons.2 ⟨hstart c hc, fun a ha => hrest a (hv a ha)⟩

/-- **The first closing parenthesis of the line is that of the heading**, and behind it there are
blanks up to the end of the heading. -/
theorem Heading.IsOpeningOf.exists_split (hopens : h.IsOpeningOf line) :
    ∃ front closing gap, line = front ++ (closing :: gap ++ h.rest) ∧
      (∀ c ∈ front, listClosing.mem c = false) ∧ listClosing.mem closing = true ∧
      ∀ c ∈ gap, CharSet.inlineBlank.mem c = true := by
  obtain ⟨word, gap, gap', list, hword, hgap, hgap', hlist, rfl⟩ := hopens.split
  obtain ⟨opening, closing, gap'', hopening, hclosing, hgap'', rfl⟩ := hlist.split
  have hword : ∀ c ∈ word, listClosing.mem c = false := by
    have hwords : ["规则".toList, "Rule".toList].all (·.all (!listClosing.mem ·)) = true := by
      decide
    simpa using List.all_eq_true.1 hwords word hword
  refine ⟨h.indentation ++ (word ++ (gap ++ (h.name ++ (gap' ++ opening :: h.parameters)))),
    closing, gap'', by simp, ?_, hclosing, hgap''⟩
  simp only [List.forall_mem_append, List.forall_mem_cons]
  exact ⟨fun c hc => listClosing_of_inlineBlank c (hopens.indentation c hc), hword,
    fun c hc => listClosing_of_inlineBlank c (hgap.2 c hc), listClosing_of_name hopens.name,
    fun c hc => listClosing_of_inlineBlank c (hgap' c hc),
    listClosing_of_listOpening opening hopening,
    fun c hc => listInside_of_listClosing.symm c (hlist.inside c hc)⟩

/-! ## The stage -/

/-- **No literal has a part of a heading** just if the line starts in code and no literal opens
before the closing parenthesis. -/
theorem isApart_heading_iff (hat : IsLineAt text q line) (hopens : h.IsOpeningOf line) :
    (∀ l ∈ chinese.segmenter.literalSpans text,
        Span.IsApart ⟨q, q + (line.length - h.rest.length)⟩ l) ↔
      chinese.segmenter.InCode text q ∧ ∀ l ∈ chinese.segmenter.literalSpans text,
        ¬ (q ≤ l.start ∧ l.start < q + listEnd line) := by
  obtain ⟨front, closing, gap, hline, hfront, hclosing, hgap⟩ := hopens.exists_split
  have hlistEnd : listEnd line = front.length := by
    have hall : ∀ c ∈ front, (!listClosing.mem c) = true := by simpa using hfront
    rw [listEnd, hline, List.takeWhile_append_of_pos hall, List.cons_append,
      List.takeWhile_cons_of_neg (by simp [hclosing]), List.append_nil]
  have hlength : line.length - h.rest.length = front.length + (closing :: gap).length := by
    rw [hline, List.length_append, List.length_append]
    omega
  -- what stands behind the parameters is no mark
  have hclear : ∀ o ∈ closing :: gap, o ∉ chinese.segmenter.marks := by
    have hmarks : chinese.segmenter.marks.all
        (fun o => !listClosing.mem o && !CharSet.inlineBlank.mem o) = true := by decide
    intro o ho hmark
    have hnone := List.all_eq_true.1 hmarks o hmark
    rcases List.mem_cons.1 ho with rfl | ho
    · simp [hclosing] at hnone
    · simp [hgap o ho] at hnone
  rw [hline] at hat
  have hpos : 0 < front.length + (closing :: gap).length := by
    rw [List.length_cons]
    omega
  rw [hlength, hlistEnd]
  exact hat.isApart_iff hpos hclear

/-- The line that starts at a position with its heading in the canonical form, if it has one, the
line starts in code, and no literal opens before the closing parenthesis of the heading. -/
def rewriteHeading (s : Segmenter) (text : List Char) (start : Nat) (line : List Char) :
    List Char :=
  match headingAt? line with
  | some h =>
    if s.InCode text start ∧
        ∀ l ∈ s.literalSpans text, ¬ (start ≤ l.start ∧ l.start < start + listEnd line) then
      h.opening ++ h.rest
    else line
  | none => line

/-- **The stage for headings changes the headings of lines and nothing else.** -/
theorem functionSyntax_apply_eq (text : List Char) :
    Stage.functionSyntax.apply chinese.segmenter text =
        mapLines (rewriteHeading chinese.segmenter text) text ∧
      ∀ line h, headingAt? line = some h ↔ h.IsOpeningOf line := by
  refine ⟨?_, fun line h => headingAt?_eq_some_iff⟩
  have hlines := opens_headingPattern.replaceOutside_eq_mapLines keepsToLine_headingPattern
    isSealed_headingPattern isLinewise_headingReplacement text
  refine hlines.trans (mapLines_congr fun e he => ?_)
  rw [rewriteHeading]
  cases hread : headingAt? e.2 with
  | none => exact openLine_openingOutside?_of_none (openBy_of_none hread) text e.1
  | some h =>
      exact openLine_openingOutside?_of_some (openBy_of_some hread)
        (isApart_heading_iff (isLineAt_of_mem_placedLines he) (headingAt?_eq_some_iff.1 hread))

/-- A literal that opens in the parameter list keeps a heading as it is, even if the list seems to
be closed in the literal; one behind the heading does not. -/
example :
    Stage.functionSyntax.apply chinese.segmenter
        "规则 f(a, 「b) c」)：\n  规则 g （ b ）「c)」".toList =
      "规则 f(a, 「b) c」)：\n  Rule g given b 「c)」".toList := by
  decide +kernel

end RuleCanon
