import Mathlib.Data.List.Basic
import RuleCanon.Proofs.Literal.Lines
import RuleCanon.Proofs.Literal.Scan
import RuleCanon.Proofs.Pattern.Parts

/-!
# Idioms that open a line

Some patterns have matches at the start of a line only, and none of them reads a line feed.
Replacement with such a pattern needs no search: the code is cut into lines, and on each line that
starts outside a literal the pattern is tried once, at the start.  What such a replacement makes of
a text can then be seen line by line, and so can whether a second run changes the text again.

## Main Definitions

* `Stretch.lines` — the lines of a stretch of code
* `Pattern.Opens` — patterns with matches at the start of a line only
* `openLine`, `openBy` — a line with another opening, and openings that are read into a value

## Main Statements

* `CutsAtNewline.eq_iff` — functions that agree on lines agree on a stretch of code
* `Pattern.Opens.rewriteIn_append` — replacement on one line
* `Pattern.opens_of_parts` — rows of parts at the start of a line
* `openLine_openBy` — when no new opening is replaced again
* `Segmenter.replaceOutside_eq_self_iff`, `Segmenter.replaceOutside_twice_eq_iff` — when a run and
  when a second run changes nothing
-/

namespace RuleCanon

open Pattern Segmenter

variable {c : Char} {t u w x y z out text rest new : List Char} {before after : Option Char}

/-! ## Lines -/

namespace Stretch

/-- The lines of code with the characters in front of it and behind it. -/
def linesIn (after : Option Char) : Option Char → List Char → List Stretch
  | before, [] => [⟨before, [], after⟩]
  | before, c :: rest =>
    if c = '\n' then ⟨before, [], none⟩ :: linesIn after none rest
    else
      match linesIn after before rest with
      | [] => []
      | l :: more => { l with code := c :: l.code } :: more

/-- The lines of a stretch of code, without their line feeds.  A line has the neighbours of the
stretch where the stretch begins and ends, and otherwise none. -/
def lines (r : Stretch) : List Stretch := linesIn r.after r.before r.code

/-- The code with the character behind it. -/
def ahead (r : Stretch) : List Char := r.code ++ r.after.toList

theorem linesIn_of_not_mem (ht : '\n' ∉ t) (before after : Option Char) :
    linesIn after before t = [⟨before, t, after⟩] := by
  induction t with
  | nil => rfl
  | cons c t ih =>
      rw [List.mem_cons, not_or] at ht
      rw [linesIn, if_neg (Ne.symm ht.1), ih ht.2]

theorem linesIn_append (ht : '\n' ∉ t) (u : List Char) (before after : Option Char) :
    linesIn after before (t ++ '\n' :: u) = ⟨before, t, none⟩ :: linesIn after none u := by
  induction t with
  | nil => rfl
  | cons c t ih =>
      rw [List.mem_cons, not_or] at ht
      rw [List.cons_append, linesIn, if_neg (Ne.symm ht.1), ih ht.2]

end Stretch

/-- What holds of lines, and of a line in front of a text for which it holds, holds of every
text. -/
theorem line_induction {P : List Char → Prop} (line : ∀ t, '\n' ∉ t → P t)
    (append : ∀ t u, '\n' ∉ t → P u → P (t ++ '\n' :: u)) (text : List Char) : P text := by
  induction hlength : text.length using Nat.strongRecOn generalizing text with
  | ind n ih =>
      by_cases hmem : '\n' ∈ text
      · obtain ⟨t, u, rfl, ht⟩ := List.eq_append_cons_of_mem hmem
        rw [List.length_append, List.length_cons] at hlength
        exact append t u ht (ih u.length (by omega) u rfl)
      · exact line text hmem

/-- What is known of a line of a stretch of code: it has no line feed, and next to it are the
neighbours of the stretch or none. -/
structure Stretch.IsLine (r l : Stretch) : Prop where
  not_mem : '\n' ∉ l.code
  before : l.before = none ∨ l.before = r.before
  after : l.after = none ∨ l.after = r.after

theorem Stretch.isLine_of_mem_lines {r l : Stretch} (h : l ∈ r.lines) : r.IsLine l := by
  obtain ⟨before, code, after⟩ := r
  rw [lines] at h
  simp only at h
  induction code using line_induction generalizing before with
  | line t ht =>
      rw [linesIn_of_not_mem ht, List.mem_singleton] at h
      rw [h]
      exact ⟨ht, .inr rfl, .inr rfl⟩
  | append t u ht ih =>
      rw [linesIn_append ht] at h
      rcases List.mem_cons.1 h with rfl | h
      · exact ⟨ht, .inr rfl, .inl rfl⟩
      · obtain ⟨hmem, hbefore, hafter⟩ := ih none h
        exact ⟨hmem, .inl (or_self_iff.1 hbefore), hafter⟩

/-- Texts with a line feed between them are told apart line by line. -/
theorem append_newline_inj (ht : '\n' ∉ t) (hu : '\n' ∉ u) :
    t ++ '\n' :: x = u ++ '\n' :: y ↔ t = u ∧ x = y := by
  constructor
  · intro heq
    have hfirst (v : List Char) {w : List Char} (hw : '\n' ∉ w) :
        (w ++ '\n' :: v).takeWhile (· ≠ '\n') = w := by
      have hall : ∀ c ∈ w, decide (c ≠ '\n') = true := by
        intro c hc
        rw [decide_eq_true_eq]
        rintro rfl
        exact hw hc
      rw [List.takeWhile_append_of_pos hall]
      exact List.append_nil w
    obtain rfl : t = u := by rw [← hfirst x ht, heq, hfirst y hu]
    exact ⟨rfl, (List.cons.inj (List.append_cancel_left heq)).2⟩
  · rintro ⟨rfl, rfl⟩
    rfl

section Lines

variable {marks : List Char} {g h : Option Char → List Char → Option Char → List Char}

theorem CutsAtNewline.id (marks : List Char) : CutsAtNewline marks fun _ t _ => t :=
  ⟨fun _ => rfl, fun _ _ _ _ => rfl⟩

theorem CutsAtNewline.comp (hh : CutsAtNewline marks h) (hg : CutsAtNewline marks g) :
    CutsAtNewline marks fun before t after => h before (g before t after) after where
  nil hmark := by rw [hg.nil hmark, hh.nil hmark]
  append before t u after := by rw [hg.append, hh.append]

/-- **Functions agree on a stretch of code just if they agree on its lines**, if a line remains
one. -/
theorem CutsAtNewline.eq_iff (hg : CutsAtNewline marks g) (hh : CutsAtNewline marks h) {r : Stretch}
    (hline : ∀ l, r.IsLine l →
      '\n' ∉ g l.before l.code l.after ∧ '\n' ∉ h l.before l.code l.after) :
    g r.before r.code r.after = h r.before r.code r.after ↔
      ∀ l ∈ r.lines, g l.before l.code l.after = h l.before l.code l.after := by
  obtain ⟨before, code, after⟩ := r
  rw [Stretch.lines]
  simp only
  induction code using line_induction generalizing before with
  | line t ht => rw [Stretch.linesIn_of_not_mem ht]; simp
  | append t u ht ih =>
      obtain ⟨hfirst, hsecond⟩ := hline ⟨before, t, none⟩ ⟨ht, .inr rfl, .inl rfl⟩
      have hlater := ih none fun l hl =>
        hline l ⟨hl.not_mem, .inl (or_self_iff.1 hl.before), hl.after⟩
      rw [Stretch.linesIn_append ht, List.forall_mem_cons, ← hlater, hg.append, hh.append,
        append_newline_inj hfirst hsecond]

end Lines

/-! ## Patterns at the start of a line -/

/-- Whether a place with that character before it starts a line. -/
def startsLine (previous : Option Char) : Bool := previous == none || previous == some '\n'

/-- **A pattern with matches at the start of a line only**, and what takes the place of a match.
The function says what a line has as its opening instead, and what is left of the line. -/
structure Pattern.Opens (p : Pattern) (f : List Char → Captures → List Char)
    (opening? : List Char → Option (List Char × List Char)) : Prop where
  elsewhere : ∀ {x y}, startsLine x.getLast? = false → p.matchAt? (x ++ y) x.length = none
  fails : ∀ {text}, opening? text = none → p.matchAt? text 0 = none
  opens : ∀ {text new rest}, opening? text = some (new, rest) → ∃ w m, text = w ++ rest ∧
    p.matchAt? text 0 = some m ∧ m.span = ⟨0, w.length⟩ ∧ f text m = new
  keeps : ∀ {text new rest}, opening? text = some (new, rest) → '\n' ∉ text → '\n' ∉ new

/-- A line with another opening, if it has one that is replaced. -/
def openLine (opening? : List Char → Option (List Char × List Char)) (text : List Char) :
    List Char :=
  match opening? text with
  | some (new, rest) => new ++ rest
  | none => text

/-- Such an opening read into a value, which says what takes its place and what is left. -/
def openBy {α : Type} (at? : List Char → Option α) (opening rest : α → List Char)
    (text : List Char) : Option (List Char × List Char) :=
  (at? text).map fun a => (opening a, rest a)

theorem openLine_of_none {opening? : List Char → Option (List Char × List Char)}
    (h : opening? text = none) : openLine opening? text = text := by
  rw [openLine, h]

theorem openLine_of_some {opening? : List Char → Option (List Char × List Char)}
    (h : opening? text = some (new, rest)) : openLine opening? text = new ++ rest := by
  rw [openLine, h]

section OpenBy

variable {α : Type} {at? : List Char → Option α} {opening left : α → List Char} {a : α}

theorem openBy_of_none (h : at? text = none) : openBy at? opening left text = none := by
  rw [openBy, h, Option.map_none]

theorem openBy_of_some (h : at? text = some a) :
    openBy at? opening left text = some (opening a, left a) := by
  rw [openBy, h, Option.map_some]

theorem openLine_openBy_eq (at? : List Char → Option α) (opening left : α → List Char)
    (text : List Char) :
    openLine (openBy at? opening left) text =
      match at? text with
      | some a => opening a ++ left a
      | none => text := by
  cases h : at? text with
  | none => exact openLine_of_none (openBy_of_none h)
  | some a => exact openLine_of_some (openBy_of_some h)

end OpenBy

/-- If no new opening is replaced again, no line is. -/
theorem openLine_openLine {opening? : List Char → Option (List Char × List Char)}
    (h : ∀ {text new rest}, opening? text = some (new, rest) → opening? (new ++ rest) = none)
    (text : List Char) : openLine opening? (openLine opening? text) = openLine opening? text := by
  cases hopening : opening? text with
  | none => rw [openLine_of_none hopening, openLine_of_none hopening]
  | some e => rw [openLine_of_some hopening, openLine_of_none (h hopening)]

theorem startsLine_getLast?_of_not_mem (hw : '\n' ∉ w) (hne : w ≠ []) :
    startsLine w.getLast? = false := by
  have hlast : w.getLast hne ≠ '\n' := fun heq => hw (heq ▸ List.getLast_mem hne)
  rw [List.getLast?_eq_some_getLast hne]
  simp [startsLine, hlast]

section Opens

variable {p : Pattern} {f : List Char → Captures → List Char} {marks : List Char}
  {opening? : List Char → Option (List Char × List Char)} (h : p.Opens f opening?)

include h

/-- Behind the start of a line nothing is replaced up to the end of the line. -/
theorem Pattern.Opens.eq_self_of_rewrites (hwalk : p.Rewrites f z x y out)
    (hx : startsLine x.getLast? = false) (hy : '\n' ∉ y) : out = y := by
  refine hwalk.eq_self fun u v hsplit _ => ?_
  rw [hsplit, ← List.append_assoc, List.append_assoc (x ++ u)]
  refine h.elsewhere ?_
  rw [List.getLast?_append]
  by_cases hu : u = []
  · rw [hu]
    exact hx
  · have hmem : '\n' ∉ u := fun hmem => hy (hsplit ▸ List.mem_append_left v hmem)
    rw [List.getLast?_eq_some_getLast hu, Option.some_or, ← List.getLast?_eq_some_getLast hu]
    exact startsLine_getLast?_of_not_mem hmem hu

variable (hsealed : p.IsSealed marks) (hafter : ∀ o, after = some o → o ∈ marks)

include hsealed hafter

/-- On a line that a literal precedes nothing is replaced. -/
theorem Pattern.Opens.rewriteIn_eq_self (hbefore : startsLine before = false) (ht : '\n' ∉ t) :
    p.rewriteIn f before t after = t := by
  have hlast : before.toList.getLast? = before := by cases before <;> rfl
  exact h.eq_self_of_rewrites (rewrites_rewriteIn hsealed f before hafter t)
    (hlast.symm ▸ hbefore) ht

/-- **On a line by itself the opening is replaced**, if there is one. -/
theorem Pattern.Opens.rewriteIn_append (ht : '\n' ∉ t) :
    p.rewriteIn f none t after ++ after.toList = openLine opening? (t ++ after.toList) := by
  have hmarks : ∀ o ∈ after.toList, o ∈ marks := fun o ho => hafter o (Option.mem_toList.1 ho)
  have hwalk : p.Rewrites f after.toList [] t (p.rewriteIn f none t after) :=
    rewrites_rewriteIn hsealed f none hafter t
  generalize p.rewriteIn f none t after = out at hwalk
  cases hopening : opening? (t ++ after.toList) with
  | none =>
      have hnone := h.fails hopening
      rw [openLine_of_none hopening]
      cases hwalk with
      | nil => rfl
      | @copy _ y out c _ hrest =>
          rw [List.mem_cons, not_or] at ht
          have hfree : startsLine [c].getLast? = false :=
            startsLine_getLast?_of_not_mem (by simpa using ht.1) (List.cons_ne_nil c [])
          rw [h.eq_self_of_rewrites hrest hfree ht.2]
      | exchange hmatch =>
          rw [List.nil_append, List.length_nil, hnone] at hmatch
          contradiction
  | some e =>
      obtain ⟨new, rest⟩ := e
      obtain ⟨w, m, hsplit, hm, hspan, hnew⟩ := h.opens hopening
      rw [openLine_of_some hopening]
      cases hwalk with
      | nil =>
          obtain ⟨v, _, heq, hne, -⟩ := hsealed.exists_of_matchAt? (x := []) (y := []) hmarks hm
          exact absurd (List.append_eq_nil_iff.1 heq.symm).1 hne
      | copy hnone =>
          rw [List.nil_append, List.length_nil, hm] at hnone
          contradiction
      | @exchange _ v y out m' hmatch hspan' hne hrest =>
          rw [List.nil_append, List.length_nil, hm] at hmatch
          obtain rfl := Option.some.inj hmatch
          have hlength : w.length = v.length := by
            rw [hspan] at hspan'
            simpa using congrArg Span.stop hspan'
          obtain ⟨rfl, hrest'⟩ : w = v ∧ rest = y ++ after.toList :=
            (List.append_inj (hsplit.symm.trans (List.append_assoc _ _ _)) hlength)
          have hmem : '\n' ∉ y := fun hmem => ht (List.mem_append_right w hmem)
          have hmem' : '\n' ∉ w := fun hmem => ht (List.mem_append_left y hmem)
          rw [h.eq_self_of_rewrites hrest (startsLine_getLast?_of_not_mem hmem' hne) hmem, hrest',
            List.append_assoc]
          exact congrArg (· ++ (y ++ after.toList)) hnew

/-- A line remains a line. -/
theorem Pattern.Opens.not_mem_rewriteIn
    (hbreak : '\n' ∉ marks) (hbefore : before = none ∨ startsLine before = false)
    (ht : '\n' ∉ t) : '\n' ∉ p.rewriteIn f before t after := by
  rcases hbefore with rfl | hbefore
  · have hmem : '\n' ∉ t ++ after.toList := by
      rw [List.mem_append, not_or]
      exact ⟨ht, fun hmem => hbreak (hafter _ (Option.mem_toList.1 hmem))⟩
    have hline : '\n' ∉ openLine opening? (t ++ after.toList) := by
      cases hopening : opening? (t ++ after.toList) with
      | none => rwa [openLine_of_none hopening]
      | some e =>
          obtain ⟨w, m, hsplit, -⟩ := h.opens hopening
          rw [openLine_of_some hopening, List.mem_append, not_or]
          rw [hsplit, List.mem_append, not_or] at hmem
          exact ⟨h.keeps hopening (hsplit ▸ by simpa using hmem), hmem.2⟩
    rw [← h.rewriteIn_append hsealed hafter ht, List.mem_append, not_or] at hline
    exact hline.1
  · rwa [h.rewriteIn_eq_self hsealed hafter hbefore ht]

/-- A second run changes a line again just if the new line has an opening that changes it. -/
theorem Pattern.Opens.rewriteIn_twice_eq_iff
    (hbreak : '\n' ∉ marks) (hbefore : before = none ∨ startsLine before = false)
    (ht : '\n' ∉ t) :
    p.rewriteIn f before (p.rewriteIn f before t after) after = p.rewriteIn f before t after ↔
      (before = none → openLine opening? (openLine opening? (t ++ after.toList)) =
        openLine opening? (t ++ after.toList)) := by
  have hmem := h.not_mem_rewriteIn hsealed hafter hbreak hbefore ht
  rcases hbefore with rfl | hbefore
  · rw [← h.rewriteIn_append hsealed hafter ht, ← h.rewriteIn_append hsealed hafter hmem,
      List.append_cancel_right_eq]
    exact ⟨fun heq _ => heq, fun heq => heq rfl⟩
  · rw [h.rewriteIn_eq_self hsealed hafter hbefore hmem]
    refine ⟨fun _ hnone => ?_, fun _ => rfl⟩
    rw [hnone] at hbefore
    contradiction

/-- A line is changed just if it has an opening that changes it. -/
theorem Pattern.Opens.rewriteIn_eq_self_iff
    (hbefore : before = none ∨ startsLine before = false) (ht : '\n' ∉ t) :
    p.rewriteIn f before t after = t ↔ (before = none →
      openLine opening? (t ++ after.toList) = t ++ after.toList) := by
  rcases hbefore with rfl | hbefore
  · rw [← h.rewriteIn_append hsealed hafter ht, List.append_cancel_right_eq]
    exact ⟨fun heq _ => heq, fun heq => heq rfl⟩
  · rw [h.rewriteIn_eq_self hsealed hafter hbefore ht]
    refine ⟨fun _ hnone => ?_, fun _ => rfl⟩
    rw [hnone] at hbefore
    contradiction

end Opens

/-! ## Parts of a line -/

/-- The first character of a line that is no blank. -/
def startOf? (text : List Char) : Option Char := (text.dropWhile CharSet.inlineBlank.mem).head?

theorem startOf?_append (hw : ∀ c ∈ w, CharSet.inlineBlank.mem c = true) (rest : List Char) :
    startOf? (w ++ rest) = startOf? rest := by
  rw [startOf?, List.dropWhile_append_of_pos hw, startOf?]

theorem inlineBlank_takeWhile (text : List Char) :
    ∀ c ∈ text.takeWhile CharSet.inlineBlank.mem, CharSet.inlineBlank.mem c = true :=
  List.all_eq_true.1 List.all_takeWhile

/-- **New openings are not replaced again** if they start with another character behind the blanks
than what is replaced. -/
theorem openLine_openBy {α : Type} {at? : List Char → Option α} {opening rest : α → List Char}
    {old new : Char} (hne : new ≠ old)
    (hnone : ∀ {text}, startOf? text ≠ some old → at? text = none)
    (hstart : ∀ {text a}, at? text = some a → ∀ t, startOf? (opening a ++ t) = some new)
    (text : List Char) :
    openLine (openBy at? opening rest) (openLine (openBy at? opening rest) text) =
      openLine (openBy at? opening rest) text := by
  refine openLine_openLine (fun {text new t} h => ?_) text
  obtain ⟨a, ha, heq⟩ := Option.map_eq_some_iff.1 h
  cases heq
  exact openBy_of_none (hnone (by simp [hstart ha, hne]))

/-- Then what has no such opening is what stays as it is. -/
theorem openLine_openBy_eq_self_iff {α : Type} {at? : List Char → Option α}
    {opening rest : α → List Char} {old new : Char} (hne : new ≠ old)
    (hnone : ∀ {text}, startOf? text ≠ some old → at? text = none)
    (hstart : ∀ {text a}, at? text = some a → ∀ t, startOf? (opening a ++ t) = some new)
    (text : List Char) :
    openLine (openBy at? opening rest) text = text ↔ at? text = none := by
  cases ha : at? text with
  | none => simp [openLine_openBy_eq, ha]
  | some a =>
      rw [openLine_of_some (openBy_of_some ha)]
      refine iff_of_false (fun heq => ?_) (Option.some_ne_none a)
      have hread := hstart ha (rest a)
      rw [heq] at hread
      rw [hnone (by simp [hread, hne])] at ha
      contradiction

namespace Pattern

/-- The blanks that a line starts with, recorded under a number. -/
def indentationPart (number : Nat) : Part := (Part.fill .inlineBlank).numbered number

/-- The indentation is read at the start of a line, and nothing is read elsewhere. -/
theorem runs_seqs_indentation (number : Nat) (parts : List Part) (r : Run) :
    (seqs (indentation number :: parts.map (·.toPattern))).runs r =
      if startsLine r.previous then (ofParts (indentationPart number :: parts)).runs r
      else [] := by
  have hanchor : (anchor .lineStart).runs r = if startsLine r.previous then [r] else [] := rfl
  cases parts with
  | nil =>
      show (seq (anchor .lineStart) (group number blanks)).runs r = _
      rw [runs, hanchor]
      split
      · rw [List.flatMap_singleton]
        rfl
      · rfl
  | cons a parts =>
      show (seq (seq (anchor .lineStart) (group number blanks)) (ofParts (a :: parts))).runs r = _
      rw [runs, runs, hanchor]
      split
      · rw [List.flatMap_singleton]
        rfl
      · rfl

section Parts

variable {number : Nat} {parts : List Part}

theorem matchAt?_seqs_indentation_of_startsLine (hfit : Fit (indentationPart number :: parts))
    (text : List Char) :
    (seqs (indentation number :: parts.map (·.toPattern))).matchAt? text 0 =
      (readParts (indentationPart number :: parts) text).map fun e =>
        matchOf (indentationPart number :: parts) e.1 0 := by
  refine Eq.trans ?_ (hfit.matchHere?_eq ⟨0, none, text⟩)
  show (seqs _).matchHere? ⟨0, none, text⟩ = _
  rw [matchHere?, matchHere?, runs_seqs_indentation]
  rfl

/-- **A row of parts at the start of a line.**  What opens the line is made of the words that the
parts have recorded, and what takes the place of the match is said by the same words. -/
theorem opens_of_parts (hfit : Fit (indentationPart number :: parts)) {α : Type}
    {at? : List Char → Option α} {opening rest : α → List Char}
    {f : List Char → Captures → List Char} (make : (Nat → List Char) → List Char → α)
    (hat : ∀ text, at? text = (readParts (indentationPart number :: parts) text).map fun e =>
      make (recorded (indentationPart number :: parts) e.1) e.2)
    (hrest : ∀ word t, rest (make word t) = t)
    (hf : ∀ {text m word t}, (∀ n, n ≠ 0 → m.textOf text n = word n) →
      charAfter? text m.span.stop = t.head? → f text m = opening (make word t))
    (hkeeps : ∀ {word} t, (∀ n, '\n' ∉ word n) → '\n' ∉ opening (make word t)) :
    (seqs (indentation number :: parts.map (·.toPattern))).Opens f (openBy at? opening rest) where
  elsewhere {x y} hx := by
    rw [matchAt?, charBefore?_length, matchHere?, runs_seqs_indentation, if_neg (by simp [hx])]
    rfl
  fails {text} h := by
    rw [openBy, hat, Option.map_map, Option.map_eq_none_iff] at h
    rw [matchAt?_seqs_indentation_of_startsLine hfit, h, Option.map_none]
  opens {text new t} h := by
    rw [openBy, hat, Option.map_map] at h
    obtain ⟨⟨words, t'⟩, hread, heq⟩ := Option.map_eq_some_iff.1 h
    obtain ⟨rfl, hleft⟩ := Prod.mk.inj heq
    obtain rfl : t' = t := (hrest _ t').symm.trans hleft
    have hsplit := hfit.append hread
    refine ⟨words.flatten, matchOf (indentationPart number :: parts) words 0, hsplit, ?_, ?_, ?_⟩
    · rw [matchAt?_seqs_indentation_of_startsLine hfit, hread, Option.map_some]
    · rw [matchOf, Nat.zero_add]
    · refine hf (fun n hn => ?_) ?_
      · rw [hsplit]
        exact textOf_matchOf hread [] hn
      · rw [hsplit, matchOf, Nat.zero_add, charAfter?, ← List.head?_drop, List.drop_left]
  keeps {text new t} h hmem := by
    rw [openBy, hat, Option.map_map] at h
    obtain ⟨⟨words, t'⟩, hread, heq⟩ := Option.map_eq_some_iff.1 h
    obtain ⟨rfl, -⟩ := Prod.mk.inj heq
    refine hkeeps t' fun n hword => hmem ?_
    rw [hfit.append hread]
    exact List.mem_append_left t' (recorded_subset _ words n hword)

end Parts

end Pattern

namespace Segmenter

variable {s : Segmenter} {p : Pattern} {f : List Char → Captures → List Char}
  {opening? : List Char → Option (List Char × List Char)} {r l : Stretch}

/-- Behind a line there is nothing or the start of a literal. -/
theorem IsStretch.mem_marks (hr : s.IsStretch r) (hl : r.IsLine l) :
    ∀ o, l.after = some o → o ∈ s.marks := by
  rcases hl.after with hnone | hsame
  · simp [hnone]
  · exact hsame ▸ hr.after

/-- In front of a line there is nothing or the end of a literal. -/
theorem IsStretch.startsLine (hfences : '\n' ∉ s.fences) (hr : s.IsStretch r) (hl : r.IsLine l) :
    l.before = none ∨ startsLine l.before = false := by
  rcases hl.before with hnone | hsame
  · exact .inl hnone
  · rw [hsame]
    cases hfront : r.before with
    | none => exact .inl rfl
    | some q =>
        have hq : q ≠ '\n' := fun heq => hfences (heq ▸ hr.before q hfront)
        exact .inr (by simp [RuleCanon.startsLine, hq])

section LineStart

variable (hs : s.IsSingle) (hsealed : p.IsSealed s.marks) (hf : s.IsTame f)
  (hne : ∀ text m, f text m ≠ []) (hlines : p.RewritesLines f) (h : p.Opens f opening?)
  (hfences : '\n' ∉ s.fences)

include hs hsealed hf hne hlines h hfences

/-- **A second run changes nothing just if no line has an opening again** that changes it. -/
theorem replaceOutside_twice_eq_iff (text : List Char) :
    s.replaceOutside p.matcher f (s.replaceOutside p.matcher f text) =
        s.replaceOutside p.matcher f text ↔
      ∀ r ∈ s.stretches text, ∀ l ∈ r.lines, l.before = none →
        openLine opening? (openLine opening? l.ahead) = openLine opening? l.ahead := by
  have honce := rewritesBy_replaceOutside hs hsealed hf fun {text _ m} _ => hne text m
  have hcuts := cutsAtNewline_rewriteIn hsealed hlines
  have hmarks : '\n' ∉ s.marks := fun hmem => hfences (marks_subset_fences s hmem)
  refine ((honce.comp hs honce).apply_eq_iff hs honce text).trans (forall₂_congr fun r hr => ?_)
  have hr := isStretch_of_mem_stretches hr
  refine ((hcuts.comp hcuts).eq_iff hcuts fun l hl => ?_).trans (forall₂_congr fun l hl => ?_)
  · have hkept := h.not_mem_rewriteIn hsealed (hr.mem_marks hl) hmarks (hr.startsLine hfences hl)
      hl.not_mem
    exact ⟨h.not_mem_rewriteIn hsealed (hr.mem_marks hl) hmarks (hr.startsLine hfences hl) hkept,
      hkept⟩
  · have hl := Stretch.isLine_of_mem_lines hl
    exact h.rewriteIn_twice_eq_iff hsealed (hr.mem_marks hl) hmarks (hr.startsLine hfences hl)
      hl.not_mem

/-- **Replacement changes nothing just if no line has an opening** that changes it. -/
theorem replaceOutside_eq_self_iff (text : List Char) :
    s.replaceOutside p.matcher f text = text ↔
      ∀ r ∈ s.stretches text, ∀ l ∈ r.lines, l.before = none →
        openLine opening? l.ahead = l.ahead := by
  have honce := rewritesBy_replaceOutside hs hsealed hf fun {text _ m} _ => hne text m
  have hcuts := cutsAtNewline_rewriteIn hsealed hlines
  have hmarks : '\n' ∉ s.marks := fun hmem => hfences (marks_subset_fences s hmem)
  refine (honce.apply_eq_self_iff hs text).trans (forall₂_congr fun r hr => ?_)
  have hr := isStretch_of_mem_stretches hr
  refine (hcuts.eq_iff (.id s.marks) fun l hl => ?_).trans (forall₂_congr fun l hl => ?_)
  · exact ⟨h.not_mem_rewriteIn hsealed (hr.mem_marks hl) hmarks (hr.startsLine hfences hl)
      hl.not_mem, hl.not_mem⟩
  · have hl := Stretch.isLine_of_mem_lines hl
    exact h.rewriteIn_eq_self_iff hsealed (hr.mem_marks hl) (hr.startsLine hfences hl) hl.not_mem

end LineStart

end Segmenter

end RuleCanon
