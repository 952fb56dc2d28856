import RuleCanon.Proofs.Literal.Body

/-!
# Cutting a text again

The segments of a text join to the text.  The converse needs care: a list of segments is what
its text would be cut into only if code opens no literal and each literal ends at its own
closing mark.  `Segmenter.IsCut` states these conditions one segment at a time.  They hold of
what a segmenter returns, they survive a change of the code or of the marks, and where opening
marks are single characters they are enough to cut the text of the list again.

## Main Definitions

* `Segment.tidy` — neighbouring stretches of code joined, empty ones dropped
* `Segmenter.IsPlain` — code in which no literal opens
* `Segmenter.IsCut` — the conditions, one segment at a time

## Main Statements

* `Segmenter.textOf_segments` — the segments of a text join to the text
* `Segmenter.isCut_segments` — the segments of a text satisfy the conditions
* `Segmenter.segments_textOf` — segments that satisfy them are found again
-/

namespace RuleCanon

namespace Segment

/-! ## Tidy lists of segments -/

/-- Puts code in front of segments, character by character. -/
def consText (t : List Char) (gs : List Segment) : List Segment := t.foldr consCode gs

/-- Joins neighbouring stretches of code and drops empty ones. -/
def tidy : List Segment → List Segment
  | [] => []
  | code t :: gs => consText t (tidy gs)
  | literal d body terminated :: gs => literal d body terminated :: tidy gs

@[simp] theorem textOf_nil : textOf [] = [] := rfl

@[simp] theorem textOf_cons (g : Segment) (gs : List Segment) :
    textOf (g :: gs) = g.text ++ textOf gs := rfl

@[simp] theorem textOf_append (gs hs : List Segment) :
    textOf (gs ++ hs) = textOf gs ++ textOf hs := by
  simp [textOf]

@[simp] theorem textOf_consCode (c : Char) (gs : List Segment) :
    textOf (consCode c gs) = c :: textOf gs := by
  cases gs with
  | nil => rfl
  | cons g gs => cases g <;> rfl

theorem tidy_consCode (c : Char) (gs : List Segment) :
    tidy (consCode c gs) = consCode c (tidy gs) := by
  cases gs with
  | nil => rfl
  | cons g gs => cases g <;> rfl

/-- The literals stay when code is put in front. -/
theorem filter_isLiteral_consText (t : List Char) (gs : List Segment) :
    (consText t gs).filter (·.isLiteral) = gs.filter (·.isLiteral) := by
  induction t with
  | nil => rfl
  | cons c t ih =>
      rw [← ih, consText, List.foldr_cons, ← consText]
      cases consText t gs with
      | nil => rfl
      | cons g gs => cases g <;> rfl

/-- Tidying leaves the literals alone. -/
theorem filter_isLiteral_tidy (gs : List Segment) :
    (tidy gs).filter (·.isLiteral) = gs.filter (·.isLiteral) := by
  induction gs with
  | nil => rfl
  | cons g gs ih =>
      cases g with
      | code t => rw [tidy, filter_isLiteral_consText, ih]; rfl
      | literal d body terminated =>
          rw [tidy, List.filter_cons_of_pos rfl, List.filter_cons_of_pos rfl, ih]

section Map

variable {f : Segment → Segment} (hcode : ∀ t, f (code t) = code t)
  (hliteral : ∀ d body terminated, (f (literal d body terminated)).isLiteral = true)

include hcode hliteral

theorem consText_map (t : List Char) (gs : List Segment) :
    consText t (gs.map f) = (consText t gs).map f := by
  induction t with
  | nil => rfl
  | cons c t ih =>
      simp only [consText, List.foldr_cons] at ih ⊢
      rw [ih]
      cases List.foldr consCode gs t with
      | nil => simp [consCode, hcode]
      | cons g gs =>
          cases g with
          | code u => simp [consCode, hcode]
          | literal d body terminated =>
              have hmap := hliteral d body terminated
              cases hg : f (literal d body terminated) with
              | code u => simp [hg, isLiteral] at hmap
              | literal => simp [consCode, hcode, hg]

/-- Tidying does not look into literals, so it may come before or after a change of them. -/
theorem tidy_map (gs : List Segment) : tidy (gs.map f) = (tidy gs).map f := by
  induction gs with
  | nil => rfl
  | cons g gs ih =>
      cases g with
      | code t => rw [List.map_cons, hcode, tidy, ih, tidy, consText_map hcode hliteral]
      | literal d body terminated =>
          have hmap := hliteral d body terminated
          rw [List.map_cons, tidy, List.map_cons, ← ih]
          cases hg : f (literal d body terminated) with
          | code u => simp [hg, isLiteral] at hmap
          | literal => rfl

end Map

end Segment

namespace Segmenter

open Segment

/-! ## What a segmenter returns -/

section Equations

variable {s : Segmenter} {c : Char} {text rest body after : List Char} {d : Delimiters}

theorem segments_cons_of_none (h : s.opening? (c :: rest) = none) :
    s.segments (c :: rest) = consCode c (s.segments rest) := by
  rw [segments]
  split
  · rfl
  · next d hd => simp [h] at hd

theorem ne_nil_of_opening? (h : s.opening? text = some d) : text ≠ [] := by
  rintro rfl
  have hnil := List.find?_some h
  rw [List.isPrefixOf_iff_prefix, List.prefix_nil] at hnil
  exact opening_ne_nil h hnil

theorem segments_of_closed (h : s.opening? text = some d)
    (hsplit : splitBody d.closing (text.drop d.opening.length) = (body, some after)) :
    s.segments text = .literal d body true :: s.segments after := by
  obtain ⟨c, rest, rfl⟩ := List.exists_cons_of_ne_nil (ne_nil_of_opening? h)
  rw [segments]
  split
  · next hd => simp [h] at hd
  · next e he =>
    obtain rfl : d = e := Option.some.inj (h.symm.trans he)
    split
    · next hopen => simp [hsplit] at hopen
    · next hclosed =>
      obtain ⟨rfl, hafter⟩ := Prod.mk.inj (hsplit.symm.trans hclosed)
      rw [Option.some.inj hafter]

theorem segments_of_open (h : s.opening? text = some d)
    (hsplit : splitBody d.closing (text.drop d.opening.length) = (body, none)) :
    s.segments text = [.literal d body false] := by
  obtain ⟨c, rest, rfl⟩ := List.exists_cons_of_ne_nil (ne_nil_of_opening? h)
  rw [segments]
  split
  · next hd => simp [h] at hd
  · next e he =>
    obtain rfl : d = e := Option.some.inj (h.symm.trans he)
    split
    · next hopen => rw [(Prod.mk.inj (hsplit.symm.trans hopen)).1]
    · next hclosed => simp [hsplit] at hclosed

end Equations

/-- The text starts with the mark that is found to open there. -/
theorem append_drop_of_opening? {s : Segmenter} {text : List Char} {d : Delimiters}
    (h : s.opening? text = some d) : d.opening ++ text.drop d.opening.length = text := by
  have hstart := List.find?_some h
  rw [List.isPrefixOf_iff_prefix] at hstart
  obtain ⟨rest, rfl⟩ := hstart
  rw [List.drop_left]

/-- **The segments of a text join to the text.** -/
theorem textOf_segments (s : Segmenter) (text : List Char) :
    textOf (s.segments text) = text := by
  fun_induction segments s text with
  | case1 => rfl
  | case2 c rest hopens ih => rw [textOf_consCode, ih]
  | case3 c rest d hopens body hsplit =>
      rw [textOf_cons, textOf_nil, text, eq_of_splitBody_none hsplit]
      simpa using append_drop_of_opening? hopens
  | case4 c rest d hopens body after hsplit ih =>
      have hrest := eq_append_of_splitBody hsplit
      rw [textOf_cons, ih, text]
      simpa [hrest] using append_drop_of_opening? hopens

/-- The segments of a text are tidy. -/
theorem tidy_segments (s : Segmenter) (text : List Char) :
    tidy (s.segments text) = s.segments text := by
  fun_induction segments s text with
  | case1 => rfl
  | case2 c rest hopens ih => rw [tidy_consCode, ih]
  | case3 => rfl
  | case4 c rest d hopens body after hsplit ih => rw [tidy, ih]

/-- No literal opens in the text by a mark of a single character. -/
def IsPlain (s : Segmenter) (t : List Char) : Prop :=
  ∀ c ∈ t, ∀ d ∈ s.delimiters, d.opening ≠ [c]

theorem isPlain_append {s : Segmenter} {t u : List Char} :
    s.IsPlain (t ++ u) ↔ s.IsPlain t ∧ s.IsPlain u := by
  simp [IsPlain, or_imp, forall_and]

/-- The conditions under which segments are what their text is cut into: code is plain, the
delimiters of a literal are those that its opening mark selects, a closed literal ends at its
closing mark whatever follows, and an open one comes last. -/
inductive IsCut (s : Segmenter) : List Segment → Prop where
  | nil : IsCut s []
  | code {t : List Char} {gs : List Segment} (hplain : s.IsPlain t) (hrest : IsCut s gs) :
      IsCut s (.code t :: gs)
  | closed {d : Delimiters} {body : List Char} {gs : List Segment}
      (hopens : s.opening? d.opening = some d)
      (hbody : ∀ rest, splitBody d.closing (body ++ d.closing ++ rest) = (body, some rest))
      (hrest : IsCut s gs) : IsCut s (.literal d body true :: gs)
  | opened {d : Delimiters} {body : List Char} (hopens : s.opening? d.opening = some d)
      (hbody : splitBody d.closing body = (body, none)) : IsCut s [.literal d body false]

theorem IsCut.consCode {s : Segmenter} {c : Char} {gs : List Segment}
    (hc : ∀ d ∈ s.delimiters, d.opening ≠ [c]) (h : s.IsCut gs) :
    s.IsCut (Segment.consCode c gs) := by
  have hplain : s.IsPlain [c] := by simpa [IsPlain] using hc
  cases h with
  | nil => exact .code hplain .nil
  | code hcode hrest =>
      exact .code (by simpa [IsPlain] using ⟨hc, hcode⟩) hrest
  | closed hopens hbody hrest => exact .code hplain (.closed hopens hbody hrest)
  | opened hopens hbody => exact .code hplain (.opened hopens hbody)

/-- The mark that opens a literal selects the delimiters of the literal even if nothing follows
it: a mark listed earlier that starts the mark starts the text as well. -/
theorem opening?_opening {s : Segmenter} {text : List Char} {d : Delimiters}
    (h : s.opening? text = some d) : s.opening? d.opening = some d := by
  obtain ⟨hd, before, after, hlist, hbefore⟩ := List.find?_eq_some_iff_append.1 h
  refine List.find?_eq_some_iff_append.2 ⟨by simp, before, after, hlist, fun e he => ?_⟩
  have hne := hbefore e he
  rw [Bool.not_eq_true', ← Bool.not_eq_true, List.isPrefixOf_iff_prefix] at hne ⊢
  exact fun hstart => hne (hstart.trans (List.isPrefixOf_iff_prefix.1 hd))

/-- **The segments of a text satisfy the conditions.** -/
theorem isCut_segments (s : Segmenter) (text : List Char) : s.IsCut (s.segments text) := by
  fun_induction segments s text with
  | case1 => exact .nil
  | case2 c rest hopens ih =>
      -- delimiters that open with this character alone would have opened here
      refine ih.consCode fun d hd hopening => ?_
      have hnone := List.find?_eq_none.1 hopens d hd
      simp [hopening] at hnone
  | case3 c rest d hopens body hsplit =>
      -- the body of an open literal is all that is left
      refine .opened (opening?_opening hopens) ?_
      rw [eq_of_splitBody_none hsplit]
      exact hsplit.trans (by rw [eq_of_splitBody_none hsplit])
  | case4 c rest d hopens body after hsplit ih =>
      have hproper := s.proper d (List.mem_of_find?_eq_some hopens)
      exact .closed (opening?_opening hopens)
        (splitBody_append_of_splitBody hproper.2 hsplit) ih

/-! ## Cutting again -/

/-- Every literal opens with a single character. -/
def IsSingle (s : Segmenter) : Prop := ∀ d ∈ s.delimiters, ∃ c, d.opening = [c]

section Single

variable {s : Segmenter} (hs : s.IsSingle)

include hs

/-- With single characters as opening marks, what opens at a place depends on the character
there and on nothing behind it. -/
theorem opening?_cons_congr (c : Char) (rest other : List Char) :
    s.opening? (c :: rest) = s.opening? (c :: other) := by
  rw [opening?, opening?, ← List.head?_filter, ← List.head?_filter]
  refine congrArg List.head? (List.filter_congr fun d hd => ?_)
  obtain ⟨q, hq⟩ := hs d hd
  rw [hq, isPrefixOf_singleton_cons, isPrefixOf_singleton_cons]

theorem opening?_eq_none_of_isPlain {c : Char} {t : List Char} (h : s.IsPlain (c :: t))
    (rest : List Char) : s.opening? (c :: rest) = none := by
  refine List.find?_eq_none.2 fun d hd => ?_
  obtain ⟨q, hq⟩ := hs d hd
  have hne := h c List.mem_cons_self d hd
  simpa [hq] using hne

theorem segments_append_of_isPlain {t : List Char} (h : s.IsPlain t) (rest : List Char) :
    s.segments (t ++ rest) = consText t (s.segments rest) := by
  induction t with
  | nil => rfl
  | cons c t ih =>
      rw [List.cons_append, segments_cons_of_none (opening?_eq_none_of_isPlain hs h _),
        ih fun a ha => h a (List.mem_cons_of_mem c ha)]
      rfl

theorem opening?_append {d : Delimiters} (h : s.opening? d.opening = some d)
    (rest : List Char) : s.opening? (d.opening ++ rest) = some d := by
  obtain ⟨c, hc⟩ := hs d (List.mem_of_find?_eq_some h)
  rw [hc] at h ⊢
  rw [← h]
  exact opening?_cons_congr hs c _ _

/-- **Segments that satisfy the conditions are found again**, up to code that stands beside
other code or is empty. -/
theorem segments_textOf {gs : List Segment} (h : s.IsCut gs) :
    s.segments (textOf gs) = tidy gs := by
  induction h with
  | nil => rw [textOf_nil, segments, tidy]
  | code hplain _ ih =>
      rw [textOf_cons, Segment.text, segments_append_of_isPlain hs hplain, ih, tidy]
  | @closed d body gs hopens hbody _ ih =>
      have htext : textOf (.literal d body true :: gs) =
          d.opening ++ (body ++ d.closing ++ textOf gs) := by
        simp [Segment.text]
      rw [htext, segments_of_closed (opening?_append hs hopens _)
        (by rw [List.drop_left]; exact hbody _), ih, tidy]
  | @opened d body hopens hbody =>
      have htext : textOf [.literal d body false] = d.opening ++ body := by
        simp [Segment.text]
      rw [htext, segments_of_open (opening?_append hs hopens _)
        (by rw [List.drop_left]; exact hbody)]
      rfl

end Single

end Segmenter

end RuleCanon
