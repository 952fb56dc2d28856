import RuleCanon.Proofs.Literal.Breaks

/-!
# Changes of a text and line ends

A change of a text keeps its lines if the breaks stay what they are, and it does not depend on
how lines end if a text with a carriage return in front of each line feed becomes what the text
becomes by itself, with the carriage returns added afterwards.

The segments of a text take carriage returns in their stride.  A literal can have line feeds,
even one with a backslash in front, which then protects the carriage return instead; the line
feed behind it is an ordinary character, and the literal ends where it did.

## Main Definitions

* `Segment.addReturns` — a segment with the other line ends
* `KeepsLineEnds` — changes of a text for which both laws hold

## Main Statements

* `Segmenter.segments_withReturns` — the segments of a text with the other line ends
* `Segmenter.keepsLineEnds_replaceOutside`, `Segmenter.keepsLineEnds_mapCode`,
  `Segmenter.keepsLineEnds_canonicalizeQuotes` — the three kinds of changes
-/

namespace RuleCanon

open Segment Pattern

/-! ## Segments with the other line ends -/

section Marks

variable {mark : List Char} (hmark : breaks mark = [])

include hmark

/-- A mark without line breaks does not start at a line break. -/
theorem isPrefixOf_break_cons (hne : mark ≠ []) {b : Char} (hb : isLineBreak b = true)
    (t : List Char) : mark.isPrefixOf (b :: t) = false := by
  obtain ⟨a, mark, rfl⟩ := List.exists_cons_of_ne_nil hne
  have ha := breaks_eq_nil_iff.1 hmark a List.mem_cons_self
  have hab : (a == b) = false := beq_false_of_ne fun h => by simp [← h, ha] at hb
  rw [List.isPrefixOf_cons_cons, hab, Bool.false_and]

/-- It starts a text with carriage returns added if it started the text without them. -/
theorem isPrefixOf_withReturns (t : List Char) :
    mark.isPrefixOf (withReturns t) = mark.isPrefixOf t := by
  induction mark generalizing t with
  | nil => simp
  | cons a mark ih =>
      cases t with
      | nil => rfl
      | cons c t =>
          by_cases hc : c = '\n'
          · rw [hc, withReturns_cons_newline,
              isPrefixOf_break_cons hmark (List.cons_ne_nil a mark) (b := '\r') rfl,
              isPrefixOf_break_cons hmark (List.cons_ne_nil a mark) (b := '\n') rfl]
          · rw [withReturns_cons_of_ne hc, List.isPrefixOf_cons_cons, List.isPrefixOf_cons_cons,
              ih (breaks_eq_nil_of_subset (List.subset_cons_self a mark) hmark)]

/-- **A body ends where it did** when carriage returns are added. -/
theorem splitBody_withReturns (hne : mark ≠ []) (t : List Char) :
    splitBody mark (withReturns t) =
      (withReturns (splitBody mark t).1, (splitBody mark t).2.map withReturns) := by
  -- at a line break the body goes on
  have hbreak {b : Char} (hb : isLineBreak b = true) (rest : List Char) :
      splitBody mark (b :: rest) = (b :: (splitBody mark rest).1, (splitBody mark rest).2) :=
    splitBody_cons_of_not_closed (by rintro rfl; contradiction)
      (isPrefixOf_break_cons hmark hne hb rest)
  fun_induction splitBody mark t with
  | case1 => rfl
  | case2 => rfl
  | case3 e rest body after hsplit ih =>
      rw [hsplit] at ih
      by_cases he : e = '\n'
      · -- the backslash protects the carriage return instead
        rw [he, withReturns_cons_of_ne (by decide), withReturns_cons_newline, splitBody_escape,
          hbreak rfl, ih]
        rfl
      · rw [withReturns_cons_of_ne (by decide), withReturns_cons_of_ne he, splitBody_escape, ih,
          withReturns_cons_of_ne (by decide), withReturns_cons_of_ne he]
  | case4 c rest hc hclose =>
      obtain ⟨tail, htail⟩ := List.isPrefixOf_iff_prefix.1 hclose
      have hreturns : withReturns (c :: rest) = [] ++ mark ++ withReturns tail := by
        rw [← htail, withReturns_append, withReturns_of_breaks hmark, List.nil_append]
      rw [hreturns, splitBody_append_of_splitBody hne (splitBody_cons_of_closed hc hclose),
        ← htail, List.drop_left]
      rfl
  | case5 c rest hc hclose body after hsplit ih =>
      rw [hsplit] at ih
      by_cases hnewline : c = '\n'
      · rw [hnewline, withReturns_cons_newline, hbreak rfl, hbreak rfl, ih]
        rfl
      · have hopen : mark.isPrefixOf (c :: withReturns rest) = false := by
          rw [← withReturns_cons_of_ne hnewline, isPrefixOf_withReturns hmark]
          rwa [Bool.not_eq_true] at hclose
        rw [withReturns_cons_of_ne hnewline, splitBody_cons_of_not_closed hc hopen, ih,
          withReturns_cons_of_ne hnewline]

end Marks

namespace Segment

/-- The segment with a carriage return in front of each line feed of the code or of the body. -/
def addReturns : Segment → Segment
  | code t => code (withReturns t)
  | literal d body terminated => literal d (withReturns body) terminated

/-- The marks of the segment, if it is a literal, have no line breaks. -/
def MarksOnLine : Segment → Prop
  | code _ => True
  | literal d _ _ => breaks d.opening = [] ∧ breaks d.closing = []

theorem text_addReturns {g : Segment} (h : g.MarksOnLine) :
    g.addReturns.text = withReturns g.text := by
  cases g with
  | code t => rfl
  | literal d body terminated =>
      rw [addReturns, text, text, withReturns_append, withReturns_append,
        withReturns_of_breaks h.1]
      cases terminated with
      | false => rfl
      | true => rw [if_pos rfl, withReturns_of_breaks h.2]

theorem textOf_map_addReturns {gs : List Segment} (h : ∀ g ∈ gs, g.MarksOnLine) :
    textOf (gs.map addReturns) = withReturns (textOf gs) := by
  induction gs with
  | nil => rfl
  | cons head gs ih =>
      obtain ⟨hhead, hrest⟩ := List.forall_mem_cons.1 h
      rw [List.map_cons, textOf_cons, ih hrest, text_addReturns hhead, textOf_cons,
        withReturns_append]

theorem consText_map_addReturns (t : List Char) (gs : List Segment) :
    consText (withReturns t) (gs.map addReturns) = (consText t gs).map addReturns := by
  induction t with
  | nil => rfl
  | cons c t ih =>
      -- a character is put in front of what has become of the others
      have hone (hs : List Segment) :
          consText (withReturns [c]) (hs.map addReturns) = (consCode c hs).map addReturns := by
        by_cases hc : c = '\n'
        · subst hc
          cases hs with
          | nil => rfl
          | cons h hs => cases h <;> rfl
        · rw [withReturns_cons_of_ne hc]
          cases hs with
          | nil => simp [consText, consCode, addReturns, withReturns_cons_of_ne hc]
          | cons h hs =>
              cases h <;> simp [consText, consCode, addReturns, withReturns_cons_of_ne hc]
      have hsplit : withReturns (c :: t) = withReturns [c] ++ withReturns t :=
        withReturns_append [c] t
      rw [hsplit, consText, List.foldr_append, ← consText, ← consText, ih, hone]
      rfl

theorem tidy_map_addReturns (gs : List Segment) :
    tidy (gs.map addReturns) = (tidy gs).map addReturns := by
  induction gs with
  | nil => rfl
  | cons h gs ih =>
      cases h with
      | code t => rw [List.map_cons, addReturns, tidy, ih, consText_map_addReturns, tidy]
      | literal d body terminated => rw [List.map_cons, addReturns, tidy, ih, tidy]; rfl

end Segment

namespace Segmenter

variable {s : Segmenter} (hmarks : breaks s.fences = [])

include hmarks

theorem breaks_delimiters {d : Delimiters} (hd : d ∈ s.delimiters) :
    breaks d.opening = [] ∧ breaks d.closing = [] := by
  have hsubset : d.opening ++ d.closing ⊆ s.fences := fun c hc => List.mem_flatMap.2 ⟨d, hd, hc⟩
  have hboth := breaks_eq_nil_of_subset hsubset hmarks
  rwa [breaks_append, List.append_eq_nil_iff] at hboth

/-- Line breaks are plain code. -/
theorem isPlain_break {b : Char} (hb : isLineBreak b = true) : s.IsPlain [b] := by
  intro c hc d hd hopening
  obtain rfl := List.mem_singleton.1 hc
  have hnone := breaks_eq_nil_iff.1 (breaks_delimiters hmarks hd).1 c (by simp [hopening])
  simp [hnone] at hb

theorem IsCut.marksOnLine {gs : List Segment} (h : s.IsCut gs) : ∀ g ∈ gs, g.MarksOnLine := by
  have hliteral {d : Delimiters} (hopens : s.opening? d.opening = some d) :
      breaks d.opening = [] ∧ breaks d.closing = [] :=
    breaks_delimiters hmarks (List.mem_of_find?_eq_some hopens)
  induction h with
  | nil => simp
  | code _ _ ih => exact List.forall_mem_cons.2 ⟨trivial, ih⟩
  | closed hopens _ _ ih => exact List.forall_mem_cons.2 ⟨hliteral hopens, ih⟩
  | opened hopens _ => exact List.forall_mem_singleton.2 (hliteral hopens)

/-- **Carriage returns keep the conditions of a cut.** -/
theorem IsCut.addReturns {gs : List Segment} (h : s.IsCut gs) :
    s.IsCut (gs.map Segment.addReturns) := by
  induction h with
  | nil => exact .nil
  | code hplain _ ih =>
      refine .code (fun c hc => ?_) ih
      rcases mem_withReturns hc with hc | rfl
      · exact hplain c hc
      · exact isPlain_break hmarks (b := '\r') rfl '\r' List.mem_cons_self
  | @closed d body gs hopens hbody _ ih =>
      have hmem := List.mem_of_find?_eq_some hopens
      have hd := breaks_delimiters hmarks hmem
      have hsplit : splitBody d.closing (withReturns body ++ d.closing) =
          (withReturns body, some []) := by
        have hreturns := splitBody_withReturns hd.2 (s.proper d hmem).2 (body ++ d.closing)
        have hclosed := hbody []
        rw [List.append_nil] at hclosed
        rwa [withReturns_append, withReturns_of_breaks hd.2, hclosed] at hreturns
      exact .closed hopens (splitBody_append_of_splitBody (s.proper d hmem).2 hsplit) ih
  | @opened d body hopens hbody =>
      have hmem := List.mem_of_find?_eq_some hopens
      have hreturns := splitBody_withReturns (breaks_delimiters hmarks hmem).2
        (s.proper d hmem).2 body
      exact .opened hopens (hreturns.trans (by rw [hbody]; rfl))

/-- **The segments of a text with the other line ends** are those of the text, with the carriage
returns added to each. -/
theorem segments_withReturns (hs : s.IsSingle) (text : List Char) :
    s.segments (withReturns text) = (s.segments text).map Segment.addReturns := by
  have hcut := isCut_segments s text
  rw [← textOf_segments s text, ← textOf_map_addReturns (hcut.marksOnLine hmarks),
    segments_textOf hs (hcut.addReturns hmarks), tidy_map_addReturns, textOf_segments,
    tidy_segments]

end Segmenter

/-! ## Changes of a text -/

/-- A change of a text that keeps its line breaks, and to which carriage returns in front of line
feeds make no difference. -/
structure KeepsLineEnds (f : List Char → List Char) : Prop where
  breaks_eq : ∀ text, breaks (f text) = breaks text
  apply_withReturns : ∀ text, f (withReturns text) = withReturns (f text)

namespace KeepsLineEnds

variable {f h : List Char → List Char}

theorem id : KeepsLineEnds fun text => text := ⟨fun _ => rfl, fun _ => rfl⟩

/-- One change after the other. -/
theorem comp (hh : KeepsLineEnds h) (hf : KeepsLineEnds f) :
    KeepsLineEnds fun text => h (f text) where
  breaks_eq text := (hh.breaks_eq (f text)).trans (hf.breaks_eq text)
  apply_withReturns text := by rw [hf.apply_withReturns, hh.apply_withReturns]

/-- Any number of changes, one after the other. -/
theorem foldl {α : Type} {step : List Char → α → List Char} {l : List α}
    (hl : ∀ a ∈ l, KeepsLineEnds fun text => step text a) :
    KeepsLineEnds fun text => l.foldl step text := by
  induction l with
  | nil => exact .id
  | cons a l ih =>
      exact (ih fun b hb => hl b (List.mem_cons_of_mem a hb)).comp (hl a List.mem_cons_self)

end KeepsLineEnds

/-- A change of each stretch of code keeps the line breaks. -/
theorem Segment.breaks_mapCodeIn {marks : List Char}
    {g : Option Char → List Char → Option Char → List Char} (hg : KeepsBreaks marks g)
    {gs : List Segment} (h : Alternate marks gs) (before : Option Char) :
    breaks (textOf (mapCodeIn g before gs)) = breaks (textOf gs) := by
  induction gs generalizing before with
  | nil => rfl
  | cons head gs ih =>
      cases head with
      | code t =>
          rw [mapCodeIn, textOf_cons, breaks_append, ih h.2, textOf_cons, breaks_append, text,
            hg.breaks_eq fun _ => h.1.mem_of_head?]
          rfl
      | literal d body terminated =>
          rw [mapCodeIn, textOf_cons, breaks_append, ih h.2, textOf_cons, breaks_append]

namespace Segmenter

variable {s : Segmenter} (hmarks : breaks s.fences = [])

include hmarks

/-- A change of each stretch of code does not depend on the line ends. -/
theorem textOf_mapCodeIn_map_addReturns
    {g : Option Char → List Char → Option Char → List Char} (hg : KeepsBreaks s.marks g)
    {gs : List Segment} (hline : ∀ h ∈ gs, h.MarksOnLine) (h : Alternate s.marks gs)
    (before : Option Char) :
    textOf (mapCodeIn g before (gs.map Segment.addReturns)) =
      withReturns (textOf (mapCodeIn g before gs)) := by
  induction gs generalizing before with
  | nil => rfl
  | cons head gs ih =>
      obtain ⟨hhead, hrest⟩ := List.forall_mem_cons.1 hline
      cases head with
      | code t =>
          -- the literal behind the code does not start with a line feed
          have hnext : (textOf gs).head? ≠ some '\n' := fun hnewline => by
            have hnone := breaks_eq_nil_iff.1 hmarks '\n'
              (marks_subset_fences s (h.1.mem_of_head? hnewline))
            contradiction
          rw [List.map_cons, Segment.addReturns, mapCodeIn, textOf_cons, ih hrest h.2, mapCodeIn,
            textOf_cons, withReturns_append, textOf_map_addReturns hrest,
            head?_withReturns hnext, getLast?_withReturns, Segment.text,
            hg.withReturns fun _ => h.1.mem_of_head?]
          rfl
      | literal d body terminated =>
          rw [List.map_cons, Segment.addReturns, mapCodeIn, textOf_cons, mapCodeIn, textOf_cons,
            withReturns_append, ← Segment.addReturns, text_addReturns hhead,
            getLast?_withReturns, ih hrest h.2]

/-- **A change of each stretch of code keeps the line ends**, if the function of a stretch keeps
the breaks. -/
theorem keepsLineEnds_mapCodeIn (hs : s.IsSingle)
    {g : Option Char → List Char → Option Char → List Char} (hg : KeepsBreaks s.marks g) :
    KeepsLineEnds fun text => textOf (mapCodeIn g none (s.segments text)) := by
  have halternate (text : List Char) : Alternate s.marks (s.segments text) :=
    alternate_of_isCut (isCut_segments s text) (isChain_segments s text)
  refine ⟨fun text => ?_, fun text => ?_⟩
  · rw [breaks_mapCodeIn hg (halternate text), textOf_segments]
  · rw [segments_withReturns hmarks hs,
      textOf_mapCodeIn_map_addReturns hmarks hg ((isCut_segments s text).marksOnLine hmarks)
        (halternate text)]

theorem keepsLineEnds_replaceOutside (hs : s.IsSingle) {p : Pattern}
    {f : List Char → Captures → List Char} (hsealed : p.IsSealed s.marks) (hf : s.IsTame f)
    (hlines : p.RewritesLines f) (hbreaks : p.KeepsBreaks f) :
    KeepsLineEnds (s.replaceOutside p.matcher f) := by
  have heq : s.replaceOutside p.matcher f = fun text =>
      textOf (mapCodeIn (p.rewriteIn f) none (s.segments text)) :=
    funext fun text => replaceOutside_eq hsealed hf text
  rw [heq]
  exact keepsLineEnds_mapCodeIn hmarks hs (keepsBreaks_rewriteIn hsealed hbreaks hlines)

theorem keepsLineEnds_mapCode (hs : s.IsSingle) {f : List Char → List Char} (hnil : f [] = [])
    (happend : ∀ t u, f (t ++ '\n' :: u) = f t ++ '\n' :: f u)
    (hreturn : ∀ t, f (t ++ ['\r']) = f t ++ ['\r']) (hbreaks : ∀ t, breaks (f t) = breaks t) :
    KeepsLineEnds (s.mapCode f) := by
  have hg : KeepsBreaks s.marks fun _ t _ => f t :=
    ⟨⟨fun _ => hnil, fun _ t u _ => happend t u⟩, fun _ => hbreaks _, fun _ => hreturn⟩
  have heq : s.mapCode f = fun text =>
      textOf (mapCodeIn (fun _ t _ => f t) none (s.segments text)) :=
    funext (mapCode_eq s f)
  rw [heq]
  exact keepsLineEnds_mapCodeIn hmarks hs hg

end Segmenter

/-! ## New marks -/

/-- Backslashes are put in front of closing marks, not of line breaks. -/
theorem breaks_escapeBody (closing body : List Char) :
    breaks (escapeBody closing body) = breaks body := by
  fun_induction escapeBody closing body with
  | case1 => rfl
  | case2 => rfl
  | case3 e body ih =>
      rw [breaks_cons, breaks_cons e, ih, ← breaks_cons e, ← breaks_cons]
  | case4 c body hc hclose ih =>
      rw [breaks_cons_of_not (by decide), breaks_cons, ih, ← breaks_cons]
  | case5 c body hc hclose ih => rw [breaks_cons, ih, ← breaks_cons]

theorem escapeBody_cons_of_ne {closing : List Char} {c : Char} (hc : c ≠ '\\')
    (rest : List Char) :
    escapeBody closing (c :: rest) =
      if closing.isPrefixOf (c :: rest) then '\\' :: c :: escapeBody closing rest
      else c :: escapeBody closing rest := by
  cases rest <;> simp [escapeBody, hc]

/-- Backslashes are put at the same places when carriage returns are added. -/
theorem escapeBody_withReturns {closing : List Char} (hclosing : breaks closing = [])
    (hne : closing ≠ []) (body : List Char) :
    escapeBody closing (withReturns body) = withReturns (escapeBody closing body) := by
  have hbreak {b : Char} (hb : isLineBreak b = true) (rest : List Char) :
      escapeBody closing (b :: rest) = b :: escapeBody closing rest := by
    rw [escapeBody_cons_of_ne (by rintro rfl; contradiction),
      isPrefixOf_break_cons hclosing hne hb]
    rfl
  have hescape (e : Char) (rest : List Char) : escapeBody closing ('\\' :: e :: rest) =
      '\\' :: e :: escapeBody closing rest := by simp [escapeBody]
  fun_induction escapeBody closing body with
  | case1 => rfl
  | case2 => rfl
  | case3 e body ih =>
      by_cases he : e = '\n'
      · rw [he, withReturns_cons_of_ne (by decide), withReturns_cons_newline, hescape, hbreak rfl,
          ih]
        rfl
      · rw [withReturns_cons_of_ne (by decide), withReturns_cons_of_ne he, hescape, ih,
          withReturns_cons_of_ne (by decide), withReturns_cons_of_ne he]
  | case4 c body hc hclose ih =>
      have hnewline : c ≠ '\n' := by
        rintro rfl
        rw [isPrefixOf_break_cons hclosing hne (b := '\n') rfl] at hclose
        contradiction
      rw [← isPrefixOf_withReturns hclosing, withReturns_cons_of_ne hnewline] at hclose
      rw [withReturns_cons_of_ne hnewline, escapeBody_cons_of_ne hc, if_pos hclose, ih,
        withReturns_cons_of_ne (by decide), withReturns_cons_of_ne hnewline]
  | case5 c body hc hclose ih =>
      by_cases hnewline : c = '\n'
      · rw [hnewline, withReturns_cons_newline, hbreak rfl, hbreak rfl, ih]
        rfl
      · rw [← isPrefixOf_withReturns hclosing, withReturns_cons_of_ne hnewline] at hclose
        rw [withReturns_cons_of_ne hnewline, escapeBody_cons_of_ne hc, if_neg hclose, ih,
          withReturns_cons_of_ne hnewline]

namespace Segment

/-- Line breaks of a literal are those of its body. -/
theorem breaks_text_literal {d : Delimiters} {body : List Char} {terminated : Bool}
    (h : (literal d body terminated).MarksOnLine) :
    breaks (literal d body terminated).text = breaks body := by
  rw [text, breaks_append, breaks_append, h.1]
  cases terminated with
  | false => exact List.append_nil _
  | true => rw [if_pos rfl, h.2, List.nil_append, List.append_nil]

/-- Straight double quotes may be given before or after carriage returns are added. -/
theorem requote_addReturns (g : Segment) :
    g.addReturns.requote .ascii = (g.requote .ascii).addReturns := by
  cases g with
  | code t => rfl
  | literal d body terminated =>
      rw [addReturns, requote, requote]
      split
      · rfl
      · rw [addReturns, escapeBody_withReturns rfl (by decide)]

theorem breaks_text_requote {g : Segment} (h : g.MarksOnLine) :
    breaks (g.requote .ascii).text = breaks g.text := by
  cases g with
  | code t => rfl
  | literal d body terminated =>
      rw [requote]
      split
      · rfl
      · rw [breaks_text_literal ⟨rfl, rfl⟩, breaks_escapeBody, breaks_text_literal h]

theorem breaks_map_requote {gs : List Segment} (h : ∀ g ∈ gs, g.MarksOnLine) :
    breaks (textOf (gs.map (·.requote .ascii))) = breaks (textOf gs) := by
  induction gs with
  | nil => rfl
  | cons head gs ih =>
      obtain ⟨hhead, hrest⟩ := List.forall_mem_cons.1 h
      rw [List.map_cons, textOf_cons, breaks_append, ih hrest, breaks_text_requote hhead,
        textOf_cons, breaks_append]

end Segment

/-- **Straight double quotes keep the line ends.** -/
theorem Segmenter.keepsLineEnds_canonicalizeQuotes {s : Segmenter} (hmarks : breaks s.fences = [])
    (hs : s.IsSingle) (hascii : s.opening? ['"'] = some .ascii) :
    KeepsLineEnds (s.canonicalizeQuotes .ascii) where
  breaks_eq text := by
    rw [canonicalizeQuotes, breaks_map_requote ((isCut_segments s text).marksOnLine hmarks),
      textOf_segments]
  apply_withReturns text := by
    have hcut : s.IsCut ((s.segments text).map (·.requote .ascii)) :=
      (isCut_segments s text).requote (fun ht => ht) hascii
    have hswap : ((s.segments text).map Segment.addReturns).map (·.requote .ascii) =
        ((s.segments text).map (·.requote .ascii)).map Segment.addReturns := by
      rw [List.map_map, List.map_map]
      exact List.map_congr_left fun g _ => requote_addReturns g
    rw [canonicalizeQuotes, segments_withReturns hmarks hs, hswap,
      textOf_map_addReturns (hcut.marksOnLine hmarks), canonicalizeQuotes]

end RuleCanon
