import Mathlib.Data.List.Forall2
import RuleCanon.Proofs.Literal.Cut
import RuleCanon.Proofs.Literal.Escape

/-!
# Uniform marks keep the reading of a text

Giving all literals straight double quotes must not move the border between code and literals,
and each literal must stand for the same text as before.  Both are judged by a reader that
knows the new marks.  It need not know the marks the text had: `IsCut.requote` carries the
conditions of a cut from the segmenter that made the change over to any segmenter that reads
straight double quotes as such and finds no literal in the code.

## Main Definitions

* `Segment.ReadsAs` — the same code, or literals that stand for the same text

## Main Statements

* `Segmenter.segments_canonicalizeQuotes` — the cut of a text with straight double quotes
* `Segmenter.readsAs_canonicalizeQuotes` — a reader that knows the straight double quote alone
  reads what was there
-/

namespace RuleCanon

namespace Segment

/-- One segment reads as another: code as the same code, a literal as a literal whose body
stands for the same text and that is closed if the first one is. -/
inductive ReadsAs : Segment → Segment → Prop where
  | code (t : List Char) : ReadsAs (.code t) (.code t)
  | literal {d e : Delimiters} {body other : List Char} (terminated : Bool)
      (hbody : unescape other = unescape body) :
      ReadsAs (.literal d body terminated) (.literal e other terminated)

/-- Every segment reads the same with other marks. -/
theorem readsAs_requote (marks : Delimiters) (g : Segment) : g.ReadsAs (g.requote marks) := by
  cases g with
  | code t => exact .code t
  | literal d body terminated =>
      rw [requote]
      split
      · exact .literal terminated rfl
      · exact .literal terminated unescape_escapeBody

/-- A literal has the marks it was given. -/
theorem exists_requote_eq (marks d : Delimiters) (body : List Char) (terminated : Bool) :
    ∃ other, (literal d body terminated).requote marks = literal marks other terminated := by
  rw [requote]
  split
  · next h => exact ⟨body, by rw [h]⟩
  · exact ⟨_, rfl⟩

/-- New marks make no code out of literals and no literal out of code. -/
theorem tidy_map_requote (marks : Delimiters) (gs : List Segment) :
    tidy (gs.map (·.requote marks)) = (tidy gs).map (·.requote marks) := by
  refine tidy_map (fun _ => rfl) (fun d body terminated => ?_) gs
  obtain ⟨other, hother⟩ := exists_requote_eq marks d body terminated
  rw [hother]
  rfl

end Segment

namespace Segmenter

open Segment

/-- A body that was closed by its own mark, with straight double quotes closed by those. -/
theorem splitBody_requote {d : Delimiters} {body : List Char}
    (hbody : ∀ rest, splitBody d.closing (body ++ d.closing ++ rest) = (body, some rest))
    (rest : List Char) :
    splitBody ['"'] (escapeBody ['"'] body ++ ['"'] ++ rest) =
      (escapeBody ['"'] body, some rest) := by
  have hwhole : isWhole body = true := isWhole_of_splitBody (hbody rest)
  rw [List.append_assoc]
  exact splitBody_escapeBody (by decide) hwhole rest

/-- **Straight double quotes keep the conditions of a cut**, for any segmenter that takes them
for its own marks and whose code is plain wherever the code of the first one is. -/
theorem IsCut.requote {s r : Segmenter} (hplain : ∀ {t}, s.IsPlain t → r.IsPlain t)
    (hascii : r.opening? ['"'] = some .ascii) {gs : List Segment} (h : s.IsCut gs) :
    r.IsCut (gs.map (·.requote .ascii)) := by
  induction h with
  | nil => exact .nil
  | code hcode _ ih => exact .code (hplain hcode) ih
  | @closed d body gs hopens hbody _ ih =>
      rw [List.map_cons, Segment.requote]
      split
      · next hd =>
        subst hd
        exact .closed hascii hbody ih
      · exact .closed hascii (splitBody_requote hbody) ih
  | @opened d body hopens hbody =>
      rw [List.map_singleton, Segment.requote]
      split
      · next hd =>
        subst hd
        exact .opened hascii hbody
      · exact .opened hascii splitBody_escapeBody_open

/-- The cut of a text with straight double quotes, by a segmenter whose opening marks are
single characters. -/
theorem segments_canonicalizeQuotes {s r : Segmenter} (hr : r.IsSingle)
    (hplain : ∀ {t}, s.IsPlain t → r.IsPlain t) (hascii : r.opening? ['"'] = some .ascii)
    (text : List Char) :
    r.segments (s.canonicalizeQuotes .ascii text) =
      (s.segments text).map (·.requote .ascii) := by
  have hcut : r.IsCut ((s.segments text).map (·.requote .ascii)) :=
    (isCut_segments s text).requote hplain hascii
  rw [canonicalizeQuotes, segments_textOf hr hcut, tidy_map_requote, tidy_segments]

theorem isSingle_ascii : ascii.IsSingle := by
  intro d hd
  obtain rfl : d = .ascii := by simpa [ascii, ofList, dropRepeats] using hd
  exact ⟨'"', rfl⟩

theorem mem_dropRepeats {d : Delimiters} {ds : List Delimiters} (h : d ∈ ds) :
    d ∈ dropRepeats ds := by
  fun_induction dropRepeats ds with
  | case1 => exact h
  | case2 => exact h
  | case3 e rest ih =>
      rcases List.mem_cons.1 h with rfl | h
      · exact ih List.mem_cons_self
      · exact ih h
  | case4 a b rest _ ih =>
      rcases List.mem_cons.1 h with rfl | h
      · exact List.mem_cons_self
      · exact List.mem_cons_of_mem _ (ih h)

/-- The straight double quote is among the delimiters of every segmenter that was made from a
list. -/
theorem ascii_mem_ofList (ds : List Delimiters) : Delimiters.ascii ∈ (ofList ds).delimiters := by
  refine mem_dropRepeats ?_
  split
  · assumption
  · exact List.mem_cons_self

/-- Code in which no literal opens holds no straight double quote, so a segmenter that knows
nothing else finds none either. -/
theorem isPlain_ascii_of_isPlain {s : Segmenter} (h : .ascii ∈ s.delimiters) {t : List Char}
    (ht : s.IsPlain t) : ascii.IsPlain t := by
  intro c hc d hd
  obtain rfl : d = .ascii := by simpa [ascii, ofList, dropRepeats] using hd
  exact ht c hc _ h

/-- **Uniform quotes keep the reading of a text.**  Whatever delimiters a text was written with,
a reader that knows the straight double quote alone finds, after the change of marks, the same
stretches of code with the same literals between them. -/
theorem readsAs_canonicalizeQuotes (ds : List Delimiters) (text : List Char) :
    List.Forall₂ Segment.ReadsAs ((ofList ds).segments text)
      (ascii.segments ((ofList ds).canonicalizeQuotes .ascii text)) := by
  have hcut := segments_canonicalizeQuotes (s := ofList ds) isSingle_ascii
    (isPlain_ascii_of_isPlain (ascii_mem_ofList ds)) (by decide) text
  rw [hcut, List.forall₂_map_right_iff]
  exact List.forall₂_same.2 fun g _ => readsAs_requote .ascii g

end Segmenter

end RuleCanon
