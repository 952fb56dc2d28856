import RuleCanon.Proofs.Literal.Requote
import RuleCanon.Proofs.Literal.Rewrite
import RuleCanon.Proofs.Pattern.Lines

/-!
# Changes that go through a text line by line

Two texts joined by a line feed are changed like each of them by itself, if no literal of the
first one is open: then no literal reaches across the line feed, and the stretch of code around
it is the last stretch of the first text, the line feed and the first stretch of the second.  So
the question is what a change makes of a stretch of code with a line feed in it.  For
replacements, the matches are counted through: those in front of the line feed, those behind it,
and one that may take the line feed along.

## Main Definitions

* `Segmenter.IsClosed` — texts without an open literal
* `CutsAtNewline` — functions of a stretch of code that do the same in front of and behind a
  line feed
* `Pattern.RewritesLines` — patterns and replacement texts for which this holds
* `Segmenter.RewritesLines` — changes of a text that rewrite code alone, line by line

## Main Statements

* `Segmenter.segments_append_newline` — the segments of two texts joined by a line feed
* `Pattern.cutsAtNewline_rewriteIn` — replacement in a stretch of code with a line feed
* `Segmenter.rewritesLines_replaceOutside`, `Segmenter.rewritesLines_mapCode` — both kinds of
  change go line by line
* `Segmenter.RewritesLines.foldl` — and so do any number of them, one after the other
-/

namespace RuleCanon

open Segment Pattern

/-! ## Segments -/

namespace Segment

/-- Whether a segment is complete, that is, no literal without its closing mark. -/
def isComplete : Segment → Bool
  | code _ => true
  | literal _ _ terminated => terminated

@[simp] theorem textOf_tidy (gs : List Segment) : textOf (tidy gs) = textOf gs := by
  induction gs with
  | nil => rfl
  | cons g gs ih =>
      cases g with
      | literal d body terminated => rw [tidy, textOf_cons, textOf_cons, ih]
      | code t =>
          rw [tidy, textOf_cons, text, ← ih]
          induction t with
          | nil => rfl
          | cons c t iht => rw [consText, List.foldr_cons, ← consText, textOf_consCode, iht]; rfl

end Segment

namespace Segmenter

variable {s : Segmenter} {a b : List Char}

/-- All literals of the text have their closing marks. -/
def IsClosed (s : Segmenter) (text : List Char) : Prop :=
  ∀ g ∈ s.segments text, g.isComplete = true

/-- Whether a text is closed is seen from its literals. -/
theorem IsClosed.of_literals_eq (h : s.IsClosed a)
    (hab : (s.segments b).filter (·.isLiteral) = (s.segments a).filter (·.isLiteral)) :
    s.IsClosed b := by
  intro g hg
  cases g with
  | code t => rfl
  | literal d body terminated =>
      have hmem : .literal d body terminated ∈ (s.segments b).filter (·.isLiteral) :=
        List.mem_filter.2 ⟨hg, rfl⟩
      exact h _ (List.mem_filter.1 (hab ▸ hmem)).1

/-- Complete segments may stand in front of others. -/
theorem IsCut.append {gs hs : List Segment} (hgs : s.IsCut gs)
    (hcomplete : ∀ g ∈ gs, g.isComplete = true) (hhs : s.IsCut hs) : s.IsCut (gs ++ hs) := by
  induction hgs with
  | nil => exact hhs
  | code hplain _ ih => exact .code hplain (ih fun g hg => hcomplete g (List.mem_cons_of_mem _ hg))
  | closed hopens hbody _ ih =>
      exact .closed hopens hbody (ih fun g hg => hcomplete g (List.mem_cons_of_mem _ hg))
  | opened => simpa [isComplete] using hcomplete _ List.mem_cons_self

/-- **The segments of two texts joined by a line feed** are those of both texts with the line
feed between them, if no literal of the first text is open. -/
theorem segments_append_newline (hs : s.IsSingle) (hnewline : s.IsPlain ['\n'])
    (ha : s.IsClosed a) (b : List Char) :
    s.segments (a ++ '\n' :: b) = tidy (s.segments a ++ .code ['\n'] :: s.segments b) := by
  have hcut := (isCut_segments s a).append ha (.code hnewline (isCut_segments s b))
  rw [← segments_textOf hs hcut, textOf_append, textOf_cons, textOf_segments, textOf_segments]
  rfl

end Segmenter

/-! ## A stretch of code with a line feed -/

/-- A function of a stretch of code and the characters next to it that does the same in front of
a line feed as in front of the end of the text, and behind it as behind the start of the text.
An empty stretch in front of a mark stays empty. -/
structure CutsAtNewline (marks : List Char)
    (g : Option Char → List Char → Option Char → List Char) : Prop where
  nil : ∀ {before after}, (∀ o, after = some o → o ∈ marks) → g before [] after = []
  append : ∀ before t u after,
    g before (t ++ '\n' :: u) after = g before t none ++ '\n' :: g none u after

namespace Segment

variable {g : Option Char → List Char → Option Char → List Char} {marks : List Char}
  {gs hs : List Segment}

/-- The segments, if there are any, start with a literal, and that with a mark. -/
def LiteralNext (marks : List Char) (gs : List Segment) : Prop :=
  ∀ g ∈ gs.head?, g.isLiteral = true ∧ ∃ o ∈ marks, g.text.head? = some o

/-- Behind each stretch of code comes a literal, and literals start with marks. -/
def Alternate (marks : List Char) : List Segment → Prop
  | [] => True
  | code _ :: gs => LiteralNext marks gs ∧ Alternate marks gs
  | g :: gs => (∃ o ∈ marks, g.text.head? = some o) ∧ Alternate marks gs

theorem LiteralNext.append (h : LiteralNext marks gs) (hne : gs ≠ []) (hs : List Segment) :
    LiteralNext marks (tidy (gs ++ hs)) ∧
      (textOf (tidy (gs ++ hs))).head? = (textOf gs).head? := by
  obtain ⟨g, gs, rfl⟩ := List.exists_cons_of_ne_nil hne
  obtain ⟨hliteral, o, ho, hhead⟩ := h g rfl
  constructor
  · cases g with
    | code t => contradiction
    | literal d body terminated =>
        intro h hh
        obtain rfl := Option.some.inj hh
        exact ⟨rfl, o, ho, hhead⟩
  · rw [textOf_tidy, List.cons_append, textOf_cons, textOf_cons, List.head?_append,
      List.head?_append, hhead, Option.some_or, Option.some_or]

theorem consText_code (t u : List Char) (gs : List Segment) :
    consText t (code u :: gs) = code (t ++ u) :: gs := by
  induction t with
  | nil => rfl
  | cons c t ih => rw [consText, List.foldr_cons, ← consText, ih]; rfl

theorem consText_of_literalNext (h : LiteralNext marks gs) (c : Char) (t : List Char) :
    consText (t ++ [c]) gs = code (t ++ [c]) :: gs := by
  have hone : consCode c gs = code [c] :: gs := by
    cases gs with
    | nil => rfl
    | cons g gs =>
        cases g with
        | code u => simpa [isLiteral] using h _ rfl
        | literal => rfl
  rw [consText, List.foldr_append, List.foldr_cons, List.foldr_nil, hone, ← consText,
    consText_code]

/-- What stands before a literal does not matter behind it. -/
theorem LiteralNext.mapCodeIn_congr (h : LiteralNext marks gs) (before other : Option Char) :
    mapCodeIn g before gs = mapCodeIn g other gs := by
  cases gs with
  | nil => rfl
  | cons head gs =>
      obtain ⟨hliteral, o, -, hhead⟩ := h head rfl
      cases head with
      | code t => contradiction
      | literal d body terminated =>
          have hne : (literal d body terminated).text ≠ [] := by
            rintro hnil
            simp [hnil] at hhead
          rw [mapCodeIn, mapCodeIn, List.getLast?_eq_some_getLast hne, Option.some_or,
            Option.some_or]

/-- What the segments start with, if there are any, is a mark. -/
theorem LiteralNext.mem_of_head? (h : LiteralNext marks gs) {o : Char}
    (ho : (textOf gs).head? = some o) : o ∈ marks := by
  cases gs with
  | nil => simp at ho
  | cons head gs =>
      obtain ⟨-, o', ho', hhead⟩ := h head rfl
      rw [textOf_cons, List.head?_append, hhead, Option.some_or] at ho
      exact Option.some.inj ho ▸ ho'

/-- An empty stretch of code in front of a literal or at the end stays empty. -/
theorem nil_of_literalNext (hg : CutsAtNewline marks g) (h : LiteralNext marks gs)
    (before : Option Char) : g before [] (textOf gs).head? = [] :=
  hg.nil fun _ => h.mem_of_head?

/-- A stretch of code in front of a literal. -/
theorem textOf_mapCodeIn_consText (hg : CutsAtNewline marks g) (h : LiteralNext marks gs)
    (t : List Char) (before : Option Char) :
    textOf (mapCodeIn g before (consText t gs)) =
      g before t (textOf gs).head? ++ textOf (mapCodeIn g none gs) := by
  rcases List.eq_nil_or_concat t with rfl | ⟨t, c, rfl⟩
  · rw [nil_of_literalNext hg h, List.nil_append, h.mapCodeIn_congr none before]
    rfl
  · rw [List.concat_eq_append, consText_of_literalNext h, mapCodeIn, textOf_cons, text,
      h.mapCodeIn_congr _ none]

/-- A stretch of code and a line feed in front of segments. -/
theorem textOf_mapCodeIn_newline (hg : CutsAtNewline marks g) (h : Alternate marks gs)
    (t : List Char) (before : Option Char) :
    textOf (mapCodeIn g before (consText t (consText ['\n'] gs))) =
      g before t none ++ '\n' :: textOf (mapCodeIn g none gs) := by
  have hjoin : consText t (consText ['\n'] gs) = consText (t ++ ['\n']) gs := by
    rw [consText, consText, consText, List.foldr_append]
  rw [hjoin]
  by_cases hnext : LiteralNext marks gs
  · rw [textOf_mapCodeIn_consText hg hnext, hg.append, nil_of_literalNext hg hnext,
      List.append_assoc, List.cons_append, List.nil_append]
  · cases gs with
    | nil => exact absurd (by simp [LiteralNext]) hnext
    | cons head gs =>
        cases head with
        | literal d body terminated =>
            refine absurd (fun g hg => ?_) hnext
            obtain rfl := Option.some.inj hg
            exact ⟨rfl, h.1⟩
        | code u =>
            rw [consText_code, mapCodeIn, textOf_cons, text, List.append_assoc,
              List.singleton_append, hg.append, mapCodeIn, textOf_cons, text,
              h.1.mapCodeIn_congr _ (u.getLast?.or none), List.append_assoc, List.cons_append]

/-- **A change of each stretch of code goes line by line**, if the function of a stretch does. -/
theorem textOf_mapCodeIn_append_newline {hs : List Segment} (hg : CutsAtNewline marks g)
    (hgs : Alternate marks gs) (hhs : Alternate marks hs) (htidy : tidy hs = hs)
    (before : Option Char) :
    textOf (mapCodeIn g before (tidy (gs ++ code ['\n'] :: hs))) =
      textOf (mapCodeIn g before gs) ++ '\n' :: textOf (mapCodeIn g none hs) := by
  induction gs generalizing before with
  | nil =>
      have hnewline := textOf_mapCodeIn_newline hg hhs [] before
      rw [hg.nil (by simp)] at hnewline
      rw [List.nil_append, tidy, htidy]
      exact hnewline
  | cons head gs ih =>
      cases head with
      | literal d body terminated =>
          rw [List.cons_append, tidy, mapCodeIn, textOf_cons, ih hgs.2, mapCodeIn, textOf_cons,
            List.append_assoc]
      | code t =>
          rw [List.cons_append, tidy]
          by_cases hne : gs = []
          · rw [hne, List.nil_append, tidy, htidy, textOf_mapCodeIn_newline hg hhs, mapCodeIn,
              textOf_cons]
            simp [mapCodeIn, text]
          · obtain ⟨hnext, hhead⟩ := hgs.1.append hne (code ['\n'] :: hs)
            rw [textOf_mapCodeIn_consText hg hnext, hhead, ih hgs.2, mapCodeIn, textOf_cons, text,
              hgs.1.mapCodeIn_congr (t.getLast?.or before) none, List.append_assoc]

end Segment

/-! ## Replacement in a stretch of code with a line feed -/

namespace Segmenter

variable {p : Pattern} {f : List Char → Captures → List Char} {text : List Char} {i j : Nat}
  {c : Captures}

theorem rewriteIn_eq (p : Pattern) (f : List Char → Captures → List Char)
    (before : Option Char) (t : List Char) (after : Option Char) :
    p.rewriteIn f before t after = splice (before.toList ++ t) before.toList.length
      (exchangesFrom p f [] (before.toList ++ t ++ after.toList) before.toList.length) := rfl

/-- In a text without literals the next match is taken as it is. -/
theorem searchStep_nil (p : Pattern) (text : List Char) (i : Nat) :
    searchStep p.matcher [] text i = ((p.find text i).map SearchStep.accept).getD .finished := by
  have hmatcher : p.matcher.find text i = p.find text i := rfl
  rw [searchStep, hmatcher]
  cases p.find text i <;> rfl

theorem exchangesFrom_nil_of_find_none (h : p.find text i = none) :
    exchangesFrom p f [] text i = [] := by
  have hstep : searchStep p.matcher [] text i = .finished := by
    rw [searchStep_nil, h]
    rfl
  rw [exchangesFrom, matchesFrom_of_finished hstep, List.map_nil]

theorem exchangesFrom_nil_congr (h : p.find text i = p.find text j) :
    exchangesFrom p f [] text i = exchangesFrom p f [] text j := by
  have hstep : searchStep p.matcher [] text i = searchStep p.matcher [] text j := by
    rw [searchStep_nil, searchStep_nil, h]
  rw [exchangesFrom, exchangesFrom, matchesFrom_congr hstep]

/-- After a match the search goes on at its end, if the pattern is sealed. -/
theorem exchangesFrom_nil_of_find {marks : List Char} (hsealed : p.IsSealed marks)
    (h : p.find text i = some c) :
    exchangesFrom p f [] text i =
      (c.span, f text c) :: exchangesFrom p f [] text c.span.stop := by
  have hstep : searchStep p.matcher [] text i = .accept c := by
    rw [searchStep_nil, h]
    rfl
  have hresume : c.span.resume = c.span.stop :=
    if_neg (Nat.ne_of_lt (hsealed.lt_of_matchAt? (isLeftmost_of_find h).here).1)
  rw [exchangesFrom, matchesFrom_of_accept hstep, hresume, List.map_cons, exchangesFrom]

end Segmenter

namespace Pattern

/-- A search in the back of a text finds what a search of the back finds. -/
theorem find_eq_map_shift {p : Pattern} {text v : List Char} {j n : Nat}
    (hlength : text.length = v.length + n)
    (h : ∀ k, p.matchAt? text (k + n) = (p.matchAt? v k).map (·.shift n)) :
    p.find text (j + n) = (p.find v j).map (·.shift n) := by
  cases hfind : p.find v j with
  | none =>
      refine find_eq_none_iff.2 fun k hk hle => ?_
      obtain ⟨k, rfl⟩ : ∃ i, k = i + n := ⟨k - n, by omega⟩
      rw [h, find_eq_none_iff.1 hfind k (by omega) (by omega)]
      rfl
  | some c =>
      obtain ⟨⟨hle, hhere, hbefore⟩, hstart⟩ := find_eq_some_iff.1 hfind
      have hshift : (c.shift n).span.start = c.span.start + n := rfl
      rw [Option.map_some, find_eq_some_iff, hshift]
      refine ⟨⟨by omega, ?_, fun k hk hlt => ?_⟩, by omega⟩
      · rw [hshift, h, hhere]
        rfl
      · obtain ⟨k, rfl⟩ : ∃ i, k = i + n := ⟨k - n, by omega⟩
        rw [h, hbefore k (by omega) (by omega)]
        rfl

/-- A replacement text that is made of the match and of what is seen around it, where a line break
behind the match or a line feed before it is taken for an end of the text. -/
structure IsLinewise (f : List Char → Captures → List Char) : Prop where
  front : ∀ {w c b} v, isLineBreak b = true → c.span.start ≤ c.span.stop →
    c.span.stop ≤ w.length → (∀ g ∈ c.groups, g.2.Within c.span.start c.span.stop) →
      f (w ++ b :: v) c = f w c
  back : ∀ {v c} w, f (w ++ '\n' :: v) (c.shift (w.length + 1)) = f v c

/-- A pattern and replacement texts for it with which two texts joined by a line feed are
rewritten like each of them by itself.  A match at the line feed is a match at the start of the
second text with the line feed in front. -/
structure RewritesLines (p : Pattern) (f : List Char → Captures → List Char) : Prop where
  front : ∀ {w i b} v, isLineBreak b = true → i < w.length →
    p.matchAt? (w ++ b :: v) i = p.matchAt? w i
  back : ∀ w v j, p.matchAt? (w ++ '\n' :: v) (j + (w.length + 1)) =
    (p.matchAt? v j).map (·.shift (w.length + 1))
  between : ∀ {w v d}, p.matchAt? (w ++ '\n' :: v) w.length = some d →
    ∃ c, p.matchAt? v 0 = some c ∧ d.span.stop = c.span.stop + (w.length + 1) ∧
      f (w ++ '\n' :: v) d = '\n' :: f v c
  text : IsLinewise f

/-- A pattern without the empty word has no match at the end of a text. -/
theorem matchAt?_length_eq_none {p : Pattern} (hvoid : p.canBeVoid = false) (w : List Char) :
    p.matchAt? w w.length = none := by
  by_contra hne
  obtain ⟨c, hc⟩ := Option.ne_none_iff_exists'.1 hne
  have hword := ne_nil_of_canBeVoid_eq_false hvoid (spells_of_matchAt? hc).1
  rw [slice, start_of_matchAt? hc, List.drop_length, List.take_nil] at hword
  contradiction

/-- A pattern that keeps to a line has no match at the line feed. -/
theorem KeepsToLine.rewritesLines {p : Pattern} {f : List Char → Captures → List Char}
    (h : p.KeepsToLine) (hvoid : p.canBeVoid = false) (hf : IsLinewise f) : p.RewritesLines f where
  front v hb hi := h.matchAt?_append v hb (Nat.le_of_lt hi)
  back := h.matchAt?_newline_append
  between {w v d} hd := by
    -- there would be one at the end of the first text
    rw [h.matchAt?_append v rfl (Nat.le_refl _), matchAt?_length_eq_none hvoid] at hd
    contradiction
  text := hf

section Exchanges

open Segmenter

variable {p : Pattern} {f : List Char → Captures → List Char} {marks w v : List Char} {i j : Nat}
  (hsealed : p.IsSealed marks)

include hsealed

variable (hlines : p.RewritesLines f)

include hlines

/-- What is exchanged in front of a line break. -/
theorem exchangesFrom_front {b : Char} (hb : isLineBreak b = true) (v : List Char)
    (hi : i ≤ w.length) :
    exchangesFrom p f [] (w ++ b :: v) i =
      exchangesFrom p f [] w i ++ exchangesFrom p f [] (w ++ b :: v) w.length := by
  -- each match leaves less of the front
  induction hk : w.length - i using Nat.strongRecOn generalizing i with
  | ind k ih =>
      cases hfind : p.find w i with
      | none =>
          have hnone : p.find (w ++ b :: v) i = p.find (w ++ b :: v) w.length := by
            refine find_eq_find_of_le hi fun c hc => ?_
            by_contra hlt
            have hhere := (isLeftmost_of_find hc).here
            rw [hlines.front v hb (by omega), find_eq_none_iff.1 hfind _
              (isLeftmost_of_find hc).le (by omega)] at hhere
            contradiction
          rw [exchangesFrom_nil_congr hnone, exchangesFrom_nil_of_find_none hfind, List.nil_append]
      | some c =>
          have hleftmost := isLeftmost_of_find hfind
          have hstart := hleftmost.le
          have hlt := hsealed.lt_of_matchAt? hleftmost.here
          have hlong : p.find (w ++ b :: v) i = some c := by
            refine find_eq_some_iff.2 ⟨⟨hstart, ?_, fun k hk hlt' => ?_⟩, ?_⟩
            · rw [hlines.front v hb (by omega), hleftmost.here]
            · rw [hlines.front v hb (by omega), hleftmost.before k hk hlt']
            · rw [List.length_append]
              omega
          have htext := hlines.text.front v hb (Nat.le_of_lt hlt.1) hlt.2
            (spells_of_matchAt? hleftmost.here).2
          rw [exchangesFrom_nil_of_find hsealed hlong, exchangesFrom_nil_of_find hsealed hfind,
            htext, ih (w.length - c.span.stop) (by omega) hlt.2 rfl, List.cons_append]

/-- What is exchanged behind the line feed. -/
theorem exchangesFrom_back (w : List Char) (j : Nat) :
    exchangesFrom p f [] (w ++ '\n' :: v) (j + (w.length + 1)) =
      (exchangesFrom p f [] v j).map fun e => (e.1.shift (w.length + 1), e.2) := by
  have hshift (j : Nat) : p.find (w ++ '\n' :: v) (j + (w.length + 1)) =
      (p.find v j).map (·.shift (w.length + 1)) :=
    find_eq_map_shift (by rw [List.length_append, List.length_cons]; omega) (hlines.back w v)
  induction hk : v.length - j using Nat.strongRecOn generalizing j with
  | ind k ih =>
      have hfind' := hshift j
      cases hfind : p.find v j with
      | none =>
          rw [hfind] at hfind'
          rw [exchangesFrom_nil_of_find_none hfind', exchangesFrom_nil_of_find_none hfind,
            List.map_nil]
      | some c =>
          rw [hfind] at hfind'
          have hleftmost := isLeftmost_of_find hfind
          have hstart := hleftmost.le
          have hlt := hsealed.lt_of_matchAt? hleftmost.here
          rw [exchangesFrom_nil_of_find hsealed hfind', exchangesFrom_nil_of_find hsealed hfind,
            List.map_cons, hlines.text.back w]
          exact congrArg (_ :: ·) (ih (v.length - c.span.stop) (by omega) c.span.stop rfl)

/-- Replacement from the line feed on; `u` is the part of the second text that is kept. -/
theorem splice_exchangesFrom_newline (w u : List Char) :
    splice (w ++ '\n' :: u) w.length (exchangesFrom p f [] (w ++ '\n' :: v) w.length) =
      '\n' :: splice u 0 (exchangesFrom p f [] v 0) := by
  have hsplit : w ++ '\n' :: u = (w ++ ['\n']) ++ u := by simp
  have hlength : (w ++ ['\n']).length = w.length + 1 := by simp
  have hback (j : Nat) : splice (w ++ '\n' :: u) (j + (w.length + 1))
      (exchangesFrom p f [] (w ++ '\n' :: v) (j + (w.length + 1))) =
        splice u j (exchangesFrom p f [] v j) := by
    rw [exchangesFrom_back hsealed hlines, hsplit, ← hlength, splice_shift]
  cases hhere : p.matchAt? (w ++ '\n' :: v) w.length with
  | none =>
      -- the search goes on behind the line feed
      have hlater : p.find (w ++ '\n' :: v) w.length =
          p.find (w ++ '\n' :: v) (0 + (w.length + 1)) := by
        rw [find_eq (by simp), hhere, Option.none_or, Nat.zero_add]
      have hascends :=
        ascends_exchangesFrom p f [] (w ++ '\n' :: v) (0 + (w.length + 1))
      have hslice : slice (w ++ '\n' :: u) w.length (0 + (w.length + 1)) = ['\n'] := by
        rw [Nat.zero_add, slice_newline]
      have hexchanges : exchangesFrom p f [] (w ++ '\n' :: v) w.length =
          exchangesFrom p f [] (w ++ '\n' :: v) (0 + (w.length + 1)) :=
        exchangesFrom_nil_congr hlater
      rw [hexchanges, splice_of_le hascends (by omega), hslice, hback, List.singleton_append]
  | some d =>
      -- the match has the line feed in front of the match in the second text
      obtain ⟨c, hc, hstop, htext⟩ := hlines.between hhere
      have hdstart := start_of_matchAt? hhere
      have hcstart := start_of_matchAt? hc
      have hd : p.find (w ++ '\n' :: v) w.length = some d := by
        rw [find_eq (by simp), hhere, Option.some_or]
      have hc : p.find v 0 = some c := by rw [find_eq (by simp), hc, Option.some_or]
      rw [exchangesFrom_nil_of_find hsealed hd, exchangesFrom_nil_of_find hsealed hc, splice,
        splice, hstop, htext, hdstart, hcstart, hback]
      simp [slice]

omit hlines in
/-- A match leaves a mark behind the text alone. -/
theorem stop_le_of_matchAt?_mark {after : Option Char} {c : Captures}
    (hmark : ∀ o, after = some o → o ∈ marks) (hc : p.matchAt? (w ++ after.toList) i = some c) :
    c.span.stop ≤ w.length := by
  have hlength : after.toList.length ≤ 1 := by cases after <;> simp
  have hafter : (w ++ after.toList)[w.length]? = after := by
    rw [List.getElem?_append_right (Nat.le_refl _), Nat.sub_self]
    cases after <;> rfl
  have hslice : slice (w ++ after.toList) 0 (w.length + 1) = w ++ after.toList := by
    rw [slice_zero, List.take_of_length_le (by rw [List.length_append]; omega)]
  exact stop_add_le_of_matchAt?_slice hsealed (fun o ho => hmark o (hafter.symm.trans ho))
    (Nat.zero_le _) (hslice.symm ▸ hc)

omit hlines in
/-- Nothing is replaced in an empty stretch of code in front of a mark. -/
theorem rewriteIn_nil {before after : Option Char} (hmark : ∀ o, after = some o → o ∈ marks) :
    p.rewriteIn f before [] after = [] := by
  have hnone : p.find (before.toList ++ after.toList) before.toList.length = none := by
    by_contra hne
    obtain ⟨c, hc⟩ := Option.ne_none_iff_exists'.1 hne
    have hleftmost := isLeftmost_of_find hc
    have hstart := hleftmost.le
    have hlt := hsealed.lt_of_matchAt? hleftmost.here
    have hstop := stop_le_of_matchAt?_mark hsealed hmark hleftmost.here
    omega
  rw [rewriteIn_eq, List.append_nil, exchangesFrom_nil_of_find_none hnone, splice,
    List.drop_length]

/-- **Replacement goes line by line** in a stretch of code. -/
theorem cutsAtNewline_rewriteIn : CutsAtNewline marks (p.rewriteIn f) where
  nil hmark := rewriteIn_nil hsealed hmark
  append before t u after := by
    have hwindow : before.toList ++ (t ++ '\n' :: u) ++ after.toList =
        (before.toList ++ t) ++ '\n' :: (u ++ after.toList) := by simp
    have hkept : before.toList ++ (t ++ '\n' :: u) = (before.toList ++ t) ++ '\n' :: u := by simp
    have hle : before.toList.length ≤ (before.toList ++ t).length := by simp
    have hfront := exchangesFrom_front hsealed hlines (b := '\n') rfl (u ++ after.toList) hle
    have hnewline := splice_exchangesFrom_newline (v := u ++ after.toList) hsealed hlines
      (before.toList ++ t) u
    rw [rewriteIn_eq, hwindow, hkept, hfront,
      splice_append (ascends_exchangesFrom p f [] (before.toList ++ t) _)
        (ascends_exchangesFrom p f [] _ _) hle, hnewline, List.take_left, rewriteIn_eq,
      rewriteIn_eq, Option.toList_none, List.append_nil]
    rfl

end Exchanges

end Pattern

/-! ## Texts joined by a line feed -/

namespace Segmenter

variable {s : Segmenter}

/-- Stretches of code and literals alternate in a text. -/
theorem alternate_of_isCut {gs : List Segment} (hcut : s.IsCut gs)
    (hchain : gs.IsChain fun g h => g.isLiteral = true ∨ h.isLiteral = true) :
    Alternate s.marks gs := by
  have hopening {d : Delimiters} {body : List Char} {terminated : Bool}
      (hopens : s.opening? d.opening = some d) :
      ∃ o ∈ s.marks, (Segment.literal d body terminated).text.head? = some o := by
    obtain ⟨o, rest, hcons⟩ := List.exists_cons_of_ne_nil (opening_ne_nil hopens)
    refine ⟨o, List.mem_flatMap.2 ⟨d, List.mem_of_find?_eq_some hopens, by simp [hcons]⟩, ?_⟩
    simp [Segment.text, hcons]
  induction hcut with
  | nil => trivial
  | @code t gs hplain hrest ih =>
      obtain ⟨hhead, htail⟩ := List.isChain_cons.1 hchain
      refine ⟨fun g hg => ?_, ih htail⟩
      have hliteral := (hhead g hg).resolve_left (by simp [isLiteral])
      cases gs with
      | nil => contradiction
      | cons first gs =>
          obtain rfl := Option.some.inj hg
          cases first with
          | code u => contradiction
          | literal d body terminated => exact ⟨rfl, (ih htail).1⟩
  | closed hopens _ _ ih => exact ⟨hopening hopens, ih (List.isChain_cons.1 hchain).2⟩
  | opened hopens _ => exact ⟨hopening hopens, trivial⟩

/-- **A change of each stretch of code goes through the lines of a text**, if the function of a
stretch does. -/
theorem textOf_mapCodeIn_segments (hs : s.IsSingle) (hnewline : s.IsPlain ['\n'])
    {g : Option Char → List Char → Option Char → List Char} (hg : CutsAtNewline s.marks g)
    {a : List Char} (ha : s.IsClosed a) (b : List Char) :
    textOf (mapCodeIn g none (s.segments (a ++ '\n' :: b))) =
      textOf (mapCodeIn g none (s.segments a)) ++
        '\n' :: textOf (mapCodeIn g none (s.segments b)) := by
  have halternate (text : List Char) : Alternate s.marks (s.segments text) :=
    alternate_of_isCut (isCut_segments s text) (isChain_segments s text)
  rw [segments_append_newline hs hnewline ha, textOf_mapCodeIn_append_newline hg (halternate a)
    (halternate b) (tidy_segments s b)]

/-- The laws of a change that rewrites code only, and that goes through the lines of a text. -/
structure RewritesLines (s : Segmenter) (f : List Char → List Char) : Prop
    extends s.RewritesCode f where
  append : ∀ {a}, s.IsClosed a → ∀ b, f (a ++ '\n' :: b) = f a ++ '\n' :: f b

theorem rewritesLines_replaceOutside (hs : s.IsSingle) (hnewline : s.IsPlain ['\n'])
    {p : Pattern} {f : List Char → Captures → List Char} (hsealed : p.IsSealed s.marks)
    (hf : s.IsTame f) (hlines : p.RewritesLines f) :
    s.RewritesLines (s.replaceOutside p.matcher f) where
  toRewritesCode := (isCodewise_replaceOutside hs hsealed hf).rewritesCode hs
  append ha b := by
    rw [replaceOutside_eq hsealed hf, replaceOutside_eq hsealed hf, replaceOutside_eq hsealed hf,
      textOf_mapCodeIn_segments hs hnewline (cutsAtNewline_rewriteIn hsealed hlines) ha]

theorem rewritesLines_mapCode (hs : s.IsSingle) (hnewline : s.IsPlain ['\n'])
    {f : List Char → List Char} (hf : s.IsCodewise (s.mapCode f)) (hnil : f [] = [])
    (happend : ∀ t u, f (t ++ '\n' :: u) = f t ++ '\n' :: f u) :
    s.RewritesLines (s.mapCode f) where
  toRewritesCode := hf.rewritesCode hs
  append ha b := by
    have hcuts : CutsAtNewline s.marks fun _ t _ => f t :=
      ⟨fun _ => hnil, fun _ t u _ => happend t u⟩
    rw [mapCode_eq, mapCode_eq, mapCode_eq, textOf_mapCodeIn_segments hs hnewline hcuts ha]

namespace RewritesLines

variable {f h : List Char → List Char}

theorem id (s : Segmenter) : s.RewritesLines fun text => text :=
  ⟨.id s, fun _ _ => rfl⟩

/-- One change after the other. -/
theorem comp (hh : s.RewritesLines h) (hf : s.RewritesLines f) :
    s.RewritesLines fun text => h (f text) where
  toRewritesCode := hh.toRewritesCode.comp hf.toRewritesCode
  append {a} ha b := by
    have hclosed : s.IsClosed (f a) := ha.of_literals_eq (hf.literals a)
    rw [hf.append ha, hh.append hclosed]

/-- Any number of changes, one after the other. -/
theorem foldl {α : Type} {step : List Char → α → List Char} {l : List α}
    (hl : ∀ a ∈ l, s.RewritesLines fun text => step text a) :
    s.RewritesLines fun text => l.foldl step text := by
  induction l with
  | nil => exact .id s
  | cons a l ih =>
      exact (ih fun b hb => hl b (List.mem_cons_of_mem a hb)).comp (hl a List.mem_cons_self)

end RewritesLines

/-- New marks are given line by line. -/
theorem canonicalizeQuotes_append_newline (hs : s.IsSingle) (hnewline : s.IsPlain ['\n'])
    (marks : Delimiters) {a : List Char} (ha : s.IsClosed a) (b : List Char) :
    s.canonicalizeQuotes marks (a ++ '\n' :: b) =
      s.canonicalizeQuotes marks a ++ '\n' :: s.canonicalizeQuotes marks b := by
  rw [canonicalizeQuotes, segments_append_newline hs hnewline ha, ← tidy_map_requote, textOf_tidy,
    List.map_append, List.map_cons, textOf_append, textOf_cons]
  rfl

end Segmenter

end RuleCanon
