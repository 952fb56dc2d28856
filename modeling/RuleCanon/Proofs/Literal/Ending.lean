import RuleCanon.Proofs.Literal.Escape
import RuleCanon.Proofs.Literal.Segmentation

/-!
# Where rewritten literals end

Literals that get new marks are written one after the other, each with the new marks around its
escaped body.  A scan for the new closing mark that starts behind the new opening one has to stop
where the literal was written to end.  Whether it does depends on the body and the marks alone, for
what stands behind a closing mark is never looked at.

## Main Definitions

* `closerEnd?` — where the scan of a body finds the closing mark
* `Delimiters.Holds` — marks from which the body does not break out
* `Segmenter.EndsAsWritten` — literals with new marks that end where they were written to end

## Main Statements

* `Segmenter.closerEnd?_canonicalizeQuotes_iff` — when one literal ends as written
* `Segmenter.endsAsWritten_iff` — when the literals of a text do
* `Segmenter.not_endsAsWritten_threefold` — a text where one does not
-/

namespace RuleCanon

/-! ## The end of a scan -/

/-- Where the scan of a body that starts at a position finds the closing mark: the place just past
the mark, if there is one. -/
def closerEnd? (closing text : List Char) (start : Nat) : Option Nat :=
  (splitBody closing (text.drop start)).2.map (text.length - ·.length)

/-- The scan stops at a closing mark just if the body is what stands before that mark. -/
theorem closerEnd?_eq_some_iff (front body closing rest : List Char) :
    closerEnd? closing (front ++ (body ++ (closing ++ rest))) front.length =
        some (front.length + body.length + closing.length) ↔
      splitBody closing (body ++ (closing ++ rest)) = (body, some rest) := by
  rw [closerEnd?, List.drop_left]
  constructor
  · intro h
    obtain ⟨after, hafter, hend⟩ := Option.map_eq_some_iff.1 h
    obtain ⟨found, hsplit⟩ :
        ∃ found, splitBody closing (body ++ (closing ++ rest)) = (found, some after) :=
      ⟨_, Prod.ext rfl hafter⟩
    have htext := eq_append_of_splitBody hsplit
    have hle := congrArg List.length htext
    simp only [List.length_append] at hle hend
    rw [← List.append_assoc] at htext
    obtain ⟨hbody, rfl⟩ := List.append_inj' htext (by omega)
    rw [hsplit, ← List.append_cancel_right hbody]
  · intro h
    rw [h, Option.map_some]
    simp only [List.length_append]
    congr 1
    omega

/-- Marks hold a body if the literal that is written with them ends where it should. -/
def Delimiters.Holds (m : Delimiters) (body : List Char) : Bool → Prop
  | true => m.closing.head? ≠ some '\\' ∧ ¬ Emerges m.closing body m.closing
  | false => ¬ Emerges m.closing body []

/-! ## Literals with new marks -/

namespace Segmenter

open Segment

variable {s : Segmenter} {marks d : Delimiters} {text body : List Char}
  {before after : List Segment} {terminated : Bool}

/-- The length of segments with new marks. -/
def writtenLength (marks : Delimiters) (gs : List Segment) : Nat :=
  (textOf (gs.map (·.requote marks))).length

/-- **Each literal that gets new marks ends as written**: a scan for the new closing mark, from
just behind the new opening mark on, stops at the end of the literal, and finds no closing mark if
the literal was written without one. -/
def EndsAsWritten (s : Segmenter) (marks : Delimiters) (text : List Char) : Prop :=
  ∀ before d body terminated after,
    s.segments text = before ++ .literal d body terminated :: after → d ≠ marks →
      closerEnd? marks.closing (s.canonicalizeQuotes marks text)
          (writtenLength marks before + marks.opening.length) =
        if terminated then some (writtenLength marks (before ++ [.literal d body terminated]))
        else none

/-- The text with new marks around a literal that gets them. -/
theorem canonicalizeQuotes_eq_append
    (h : s.segments text = before ++ .literal d body terminated :: after) (hd : d ≠ marks) :
    s.canonicalizeQuotes marks text =
      (textOf (before.map (·.requote marks)) ++ marks.opening) ++
        (escapeBody marks.closing body ++
          ((if terminated then marks.closing else []) ++
            textOf (after.map (·.requote marks)))) := by
  rw [canonicalizeQuotes, h, List.map_append, List.map_cons, textOf_append, textOf_cons, requote,
    if_neg hd, Segment.text]
  simp only [List.append_assoc]

theorem writtenLength_concat (hd : d ≠ marks) (before : List Segment) (body : List Char)
    (terminated : Bool) :
    writtenLength marks (before ++ [.literal d body terminated]) =
      (textOf (before.map (·.requote marks)) ++ marks.opening).length +
        (escapeBody marks.closing body).length +
          (if terminated then marks.closing else []).length := by
  rw [writtenLength, List.map_append, textOf_append, List.map_singleton, textOf_cons, textOf_nil,
    requote, if_neg hd, Segment.text]
  simp only [List.length_append, List.length_nil]
  omega

/-- **A literal ends as written** just if the new marks hold its body. -/
theorem closerEnd?_canonicalizeQuotes_iff (hne : marks.closing ≠ [])
    (h : s.segments text = before ++ .literal d body terminated :: after) (hd : d ≠ marks) :
    closerEnd? marks.closing (s.canonicalizeQuotes marks text)
          (writtenLength marks before + marks.opening.length) =
        (if terminated then some (writtenLength marks (before ++ [.literal d body terminated]))
        else none) ↔
      marks.Holds body terminated := by
  obtain ⟨-, hsplit, hlast⟩ := splitBody_of_segments (segments_textOf_of_append h)
  rw [canonicalizeQuotes_eq_append h hd, writtenLength, ← List.length_append]
  cases terminated with
  | true =>
      have hwhole : isWhole body = true := isWhole_of_splitBody hsplit
      rw [if_pos rfl, if_pos rfl, writtenLength_concat hd, if_pos rfl, closerEnd?_eq_some_iff,
        splitBody_escapeBody_iff hne hwhole]
      rfl
  | false =>
      obtain rfl := hlast rfl
      rw [closerEnd?, List.drop_left, if_neg Bool.false_ne_true, if_neg Bool.false_ne_true,
        Option.map_eq_none_iff, List.map_nil, textOf_nil, List.append_nil, List.append_nil,
        splitBody_escapeBody_open_iff hne]
      rfl

/-- The literals of a text end as written just if the new marks hold their bodies. -/
theorem endsAsWritten_iff_holds (hne : marks.closing ≠ []) (s : Segmenter) (text : List Char) :
    s.EndsAsWritten marks text ↔
      ∀ d body terminated, .literal d body terminated ∈ s.segments text → d ≠ marks →
        marks.Holds body terminated := by
  constructor
  · intro h d body terminated hmem hd
    obtain ⟨before, after, hsegments⟩ := List.append_of_mem hmem
    exact (closerEnd?_canonicalizeQuotes_iff hne hsegments hd).1 (h _ _ _ _ _ hsegments hd)
  · intro h before d body terminated after hsegments hd
    exact (closerEnd?_canonicalizeQuotes_iff hne hsegments hd).2
      (h d body terminated (by simp [hsegments]) hd)

/-- **When the literals of a text end as written.**  Each of them does just if the new marks hold
its body.  For a closing mark without backslashes this says that the mark does not overlap with a
body that it is to close, and if no end of the mark starts the mark, it never does. -/
theorem endsAsWritten_iff (hmarks : marks.Proper) (s : Segmenter) (text : List Char) :
    (s.EndsAsWritten marks text ↔
        ∀ d body terminated, .literal d body terminated ∈ s.segments text → d ≠ marks →
          marks.Holds body terminated) ∧
      ('\\' ∉ marks.closing →
        (s.EndsAsWritten marks text ↔
          ∀ d body, .literal d body true ∈ s.segments text → d ≠ marks →
            ¬ Overlaps marks.closing body) ∧
        ((∀ k < marks.closing.length, 0 < k → ¬ marks.closing.drop k <+: marks.closing) →
          s.EndsAsWritten marks text)) := by
  obtain ⟨-, hne⟩ := hmarks
  have hholds := endsAsWritten_iff_holds hne s text
  refine ⟨hholds, fun hfree => ?_⟩
  have hoverlaps : s.EndsAsWritten marks text ↔
      ∀ d body, .literal d body true ∈ s.segments text → d ≠ marks →
        ¬ Overlaps marks.closing body := by
    rw [hholds]
    constructor
    · intro h d body hmem hd
      rw [← emerges_iff_overlaps hne hfree]
      exact (h d body true hmem hd).2
    · intro h d body terminated hmem hd
      cases terminated with
      | true => exact ⟨head?_ne_of_not_mem hfree,
          (emerges_iff_overlaps hne hfree).not.2 (h d body hmem hd)⟩
      | false => exact not_emerges_open hne hfree
  refine ⟨hoverlaps, fun hmark => hoverlaps.2 fun d body _ _ hoverlap => ?_⟩
  obtain ⟨k, hpos, hlt, hprefix⟩ := hoverlap.exists_border
  exact hmark k hlt hpos hprefix

/-- A body that holds the new closing mark, and one that is not closed. -/
theorem endsAsWritten_iff_comment :
    (⟨"<!".toList, "!>".toList⟩ : Delimiters).Proper ∧
      (ofList [⟨"「".toList, "」".toList⟩]).EndsAsWritten ⟨"<!".toList, "!>".toList⟩
        "「甲!>乙!」丙「丁!".toList :=
  ⟨by decide, ((endsAsWritten_iff (by decide) _ _).2 (by decide)).2 (by decide)⟩

/-- Three straight double quotes on both sides. -/
def threefold : Delimiters := ⟨['"', '"', '"'], ['"', '"', '"']⟩

/-- The segmenter that knows threefold quotes, single ones and corner brackets. -/
def quotesAndBrackets : Segmenter := ofList [threefold, .ascii, ⟨['「'], ['」']⟩]

/-- A body that ends in a quote, with threefold quotes around it.  That quote and the first two of
the closing mark are taken for the mark; the last one is left over, and opens a literal. -/
theorem not_endsAsWritten_threefold :
    threefold.Proper ∧
      quotesAndBrackets.canonicalizeQuotes threefold "「a\"」b".toList =
        "\"\"\"a\"\"\"\"b".toList ∧
      closerEnd? threefold.closing "\"\"\"a\"\"\"\"b".toList 3 = some 7 ∧
      quotesAndBrackets.segments "\"\"\"a\"\"\"\"b".toList =
        [.literal threefold ['a'] true, .literal .ascii ['b'] false] ∧
      ¬ quotesAndBrackets.EndsAsWritten threefold "「a\"」b".toList := by
  refine ⟨by decide, by decide +kernel, by decide +kernel, by decide +kernel, fun h => ?_⟩
  have hliteral := h [] ⟨['「'], ['」']⟩ ['a', '"'] true [.code ['b']] (by decide +kernel)
    (by decide)
  exact absurd hliteral (by decide +kernel)

end Segmenter

end RuleCanon
