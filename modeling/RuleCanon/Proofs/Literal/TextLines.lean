import Mathlib.Data.List.Sort
import RuleCanon.Proofs.Literal.LineStart
import RuleCanon.Proofs.Literal.Matches

/-!
# Idioms that open a line, in a whole text

A pattern with matches at the start of a line only has at most one match on each line, and matches
on different lines have nothing in common.  So none gets in the way of another, and what is replaced
are all matches that no literal has a part of.  Replacement is then a function of each line, of
where it starts, and of where the literals are.

## Main Definitions

* `placedLines` — the lines of a text with the positions at which they start
* `mapLines` — a text with its lines changed one by one
* `Segmenter.openingOutside?` — the opening of a line that no literal has a part of
* `Segmenter.ReplacesOpenings` — replacement that can be told line by line

## Main Statements

* `IsLineAt.isApart_iff` — when no literal has a part of the start of a line
* `splice_filterMap_placedFrom` — exchanges at the start of lines
* `Pattern.Opens.mem_matchesOutside_iff` — what is replaced are all matches in code
* `Pattern.Opens.replaceOutside_eq_mapLines` — the outcome, line by line
* `Segmenter.ReplacesOpenings.replaceOutside_comm` — when two replacements can change places
-/

namespace RuleCanon

open Pattern Segmenter

variable {text t u line : List Char} {n i q : Nat}

/-! ## Lines and where they start -/

/-- Lines with the positions at which they start, the first one at `start`. -/
def placeFrom (start : Nat) : List (List Char) → List (Nat × List Char)
  | [] => []
  | line :: more => (start, line) :: placeFrom (start + line.length + 1) more

/-- The lines of a text, without their line feeds, with the positions at which they start. -/
def placedFrom (start : Nat) (text : List Char) : List (Nat × List Char) :=
  placeFrom start (text.splitOn '\n')

/-- The lines of a text with the positions at which they start. -/
def placedLines (text : List Char) : List (Nat × List Char) := placedFrom 0 text

/-- The lines from a position on, changed one by one. -/
def mapLinesFrom (change : Nat → List Char → List Char) (start : Nat) (text : List Char) :
    List Char :=
  ['\n'].intercalate ((placedFrom start text).map fun e => change e.1 e.2)

/-- A text with its lines changed one by one, each by the position at which it starts. -/
def mapLines (change : Nat → List Char → List Char) (text : List Char) : List Char :=
  mapLinesFrom change 0 text

theorem placedFrom_of_not_mem (ht : '\n' ∉ t) (n : Nat) : placedFrom n t = [(n, t)] := by
  rw [placedFrom, List.splitOn_eq_singleton ht]
  rfl

theorem placedFrom_append (ht : '\n' ∉ t) (n : Nat) (u : List Char) :
    placedFrom n (t ++ '\n' :: u) = (n, t) :: placedFrom (n + t.length + 1) u := by
  rw [placedFrom, List.splitOn_append_cons_self, List.splitOn_eq_singleton ht]
  rfl

theorem placedFrom_ne_nil (n : Nat) (text : List Char) : placedFrom n text ≠ [] := by
  induction text using line_induction generalizing n with
  | line t ht =>
      rw [placedFrom_of_not_mem ht]
      exact List.cons_ne_nil _ _
  | append t u ht _ =>
      rw [placedFrom_append ht]
      exact List.cons_ne_nil _ _

theorem mapLinesFrom_of_not_mem (ht : '\n' ∉ t) (change : Nat → List Char → List Char) (n : Nat) :
    mapLinesFrom change n t = change n t := by
  rw [mapLinesFrom, placedFrom_of_not_mem ht]
  simp [List.intercalate]

theorem mapLinesFrom_append (ht : '\n' ∉ t) (change : Nat → List Char → List Char) (n : Nat)
    (u : List Char) :
    mapLinesFrom change n (t ++ '\n' :: u) =
      change n t ++ '\n' :: mapLinesFrom change (n + t.length + 1) u := by
  obtain ⟨e, more, hmore⟩ := List.exists_cons_of_ne_nil (placedFrom_ne_nil (n + t.length + 1) u)
  rw [mapLinesFrom, mapLinesFrom, placedFrom_append ht, hmore]
  simp [List.intercalate]

/-- Functions that agree on the lines of a text change it alike. -/
theorem mapLines_congr {change other : Nat → List Char → List Char}
    (h : ∀ e ∈ placedLines text, change e.1 e.2 = other e.1 e.2) :
    mapLines change text = mapLines other text := by
  rw [mapLines, mapLinesFrom, mapLines, mapLinesFrom]
  exact congrArg _ (List.map_congr_left h)

/-- A line of a text, without its line feed, and the position at which it starts. -/
structure IsLineAt (text : List Char) (q : Nat) (line : List Char) : Prop where
  not_mem : '\n' ∉ line
  split : ∃ x y, text = x ++ (line ++ y) ∧ x.length = q ∧ (x = [] ∨ ∃ x', x = x' ++ ['\n']) ∧
    (y = [] ∨ ∃ y', y = '\n' :: y')

theorem IsLineAt.getElem?_add (h : IsLineAt text q t) (hi : i < t.length) :
    text[q + i]? = t[i]? := by
  obtain ⟨x, y, rfl, rfl, -, -⟩ := h.split
  rw [List.getElem?_append_right (Nat.le_add_right _ _), Nat.add_sub_cancel_left,
    List.getElem?_append_left hi]

/-- **Characters that are no marks do not count**: no literal has a part of the start of a line just
if the line starts in code and no literal starts before them. -/
theorem IsLineAt.isApart_iff {s : Segmenter} {front clear rest : List Char}
    (h : IsLineAt text q (front ++ (clear ++ rest))) (hpos : 0 < front.length + clear.length)
    (hclear : ∀ o ∈ clear, o ∉ s.marks) :
    (∀ l ∈ s.literalSpans text, Span.IsApart ⟨q, q + (front.length + clear.length)⟩ l) ↔
      s.InCode text q ∧
        ∀ l ∈ s.literalSpans text, ¬ (q ≤ l.start ∧ l.start < q + front.length) := by
  have hstarts : ∀ l ∈ s.literalSpans text,
      ¬ (q ≤ l.start ∧ l.start < q + (front.length + clear.length)) ↔
        ¬ (q ≤ l.start ∧ l.start < q + front.length) := by
    refine fun l hl => not_congr (and_congr_right fun hle => ⟨fun hlt => ?_, fun hlt => by omega⟩)
    -- a literal that starts behind the front would have a mark there
    by_contra hbehind
    obtain ⟨k, hk⟩ : ∃ k, l.start = q + (front.length + k) :=
      ⟨l.start - q - front.length, by omega⟩
    obtain ⟨o, ho, hget⟩ := (startWith_literalSpans s text).marked l hl
    have hinside : front.length + k < (front ++ (clear ++ rest)).length := by
      simp only [List.length_append]
      omega
    rw [hk, h.getElem?_add hinside, List.getElem?_append_right (Nat.le_add_right _ _),
      Nat.add_sub_cancel_left, List.getElem?_append_left (by omega)] at hget
    exact hclear o (List.mem_of_getElem? hget) ho
  rw [Segmenter.isApart_iff (Nat.lt_add_of_pos_right hpos)]
  exact and_congr_right fun _ => forall₂_congr hstarts

/-- No line starts inside another one. -/
theorem IsLineAt.startsLine_eq_false (h : IsLineAt text q line) (hq : q < i)
    (hi : i ≤ q + line.length) : startsLine (charBefore? text i) = false := by
  obtain ⟨x, y, rfl, rfl, -, -⟩ := h.split
  obtain ⟨k, rfl⟩ : ∃ k, i = x.length + k := ⟨i - x.length, by omega⟩
  have hne : line.take k ≠ [] := by
    rw [← List.length_pos_iff, List.length_take]
    omega
  rw [charBefore?, List.take_length_add_append, List.take_append_of_le_length (by omega),
    List.getLast?_append, List.getLast?_eq_some_getLast hne, Option.some_or,
    ← List.getLast?_eq_some_getLast hne]
  exact startsLine_getLast?_of_not_mem (fun hmem => h.not_mem (List.mem_of_mem_take hmem)) hne

theorem isLineAt_of_mem_placedFrom {x : List Char} (hx : x = [] ∨ ∃ x', x = x' ++ ['\n'])
    (h : (q, line) ∈ placedFrom x.length text) : IsLineAt (x ++ text) q line := by
  induction text using line_induction generalizing x with
  | line t ht =>
      rw [placedFrom_of_not_mem ht] at h
      obtain ⟨rfl, rfl⟩ := Prod.mk.inj (List.mem_singleton.1 h)
      exact ⟨ht, x, [], by rw [List.append_nil], rfl, hx, .inl rfl⟩
  | append t u ht ih =>
      rw [placedFrom_append ht] at h
      rcases List.mem_cons.1 h with heq | h
      · obtain ⟨rfl, rfl⟩ := Prod.mk.inj heq
        exact ⟨ht, x, '\n' :: u, rfl, rfl, hx, .inr ⟨u, rfl⟩⟩
      · have hsplit : x ++ (t ++ '\n' :: u) = (x ++ t ++ ['\n']) ++ u := by simp
        have hlength : x.length + t.length + 1 = (x ++ t ++ ['\n']).length := by simp; omega
        rw [hlength] at h
        rw [hsplit]
        exact ih (.inr ⟨x ++ t, rfl⟩) h

theorem isLineAt_of_mem_placedLines (h : (q, line) ∈ placedLines text) : IsLineAt text q line :=
  isLineAt_of_mem_placedFrom (x := []) (.inl rfl) h

/-- Lines start one behind the other. -/
theorem pairwise_placedFrom (n : Nat) (text : List Char) :
    (placedFrom n text).Pairwise (fun a b => a.1 < b.1) ∧ ∀ e ∈ placedFrom n text, n ≤ e.1 := by
  induction text using line_induction generalizing n with
  | line t ht => simp [placedFrom_of_not_mem ht]
  | append t u ht ih =>
      obtain ⟨hpairwise, hlater⟩ := ih (n + t.length + 1)
      have hbehind : ∀ e ∈ placedFrom (n + t.length + 1) u, n < e.1 := fun e he => by
        have := hlater e he
        omega
      rw [placedFrom_append ht]
      refine ⟨.cons hbehind hpairwise, List.forall_mem_cons.2 ⟨Nat.le_refl n, fun e he => ?_⟩⟩
      exact Nat.le_of_lt (hbehind e he)

/-- **A line starts at the start of a text** and behind each line feed. -/
theorem exists_mem_placedLines (hi : i ≤ text.length)
    (h : startsLine (charBefore? text i) = true) : ∃ line, (i, line) ∈ placedLines text := by
  suffices hfrom : ∀ n i, i ≤ text.length → startsLine (charBefore? text i) = true →
      ∃ line, (n + i, line) ∈ placedFrom n text by
    simpa only [placedLines, Nat.zero_add] using hfrom 0 i hi h
  clear hi h
  induction text using line_induction with
  | line t ht =>
      intro n i hi hstarts
      rw [placedFrom_of_not_mem ht]
      cases i with
      | zero => exact ⟨t, List.mem_singleton_self _⟩
      | succ i =>
          rw [charBefore?_succ hi, List.getElem?_eq_getElem hi] at hstarts
          have hbreak : t[i] = '\n' := by simpa [startsLine] using hstarts
          exact absurd (hbreak ▸ List.getElem_mem hi) ht
  | append t u ht ih =>
      intro n i hi hstarts
      rw [placedFrom_append ht]
      cases i with
      | zero => exact ⟨t, List.mem_cons_self⟩
      | succ i =>
          rw [charBefore?_succ hi] at hstarts
          by_cases hlt : i < t.length
          · rw [List.getElem?_append_left hlt, List.getElem?_eq_getElem hlt] at hstarts
            have hbreak : t[i] = '\n' := by simpa [startsLine] using hstarts
            exact absurd (hbreak ▸ List.getElem_mem hlt) ht
          · obtain ⟨j, rfl⟩ : ∃ j, i = t.length + j := ⟨i - t.length, by omega⟩
            have hj : j ≤ u.length := by
              rw [List.length_append, List.length_cons] at hi
              omega
            have hstarts' : startsLine (charBefore? u j) = true := by
              have hbefore := charBefore?_newline_append t u j
              rw [Nat.add_comm j, Nat.add_right_comm, charBefore?_succ hi] at hbefore
              rw [hbefore] at hstarts
              cases hu : charBefore? u j with
              | none => rfl
              | some c => rwa [hu, Option.some_or] at hstarts
            obtain ⟨line, hline⟩ := ih (n + t.length + 1) j hj hstarts'
            refine ⟨line, List.mem_cons_of_mem _ ?_⟩
            rwa [show n + (t.length + j + 1) = n + t.length + 1 + j by omega]

/-! ## Exchanges at the start of lines -/

section Splice

variable {exchange? : Nat × List Char → Option (Span × List Char)}

/-- What is exchanged lies on the line, from its start. -/
def OpensLines (exchange? : Nat × List Char → Option (Span × List Char)) : Prop :=
  ∀ {q line a new}, exchange? (q, line) = some (a, new) →
    a.start = q ∧ a.Within q (q + line.length)

theorem ascends_filterMap_placedFrom (hex : OpensLines exchange?) (n : Nat) (u : List Char) :
    Ascends (n + u.length) n (((placedFrom n u).filterMap exchange?).map (·.1)) := by
  induction u using line_induction generalizing n with
  | line t ht =>
      rw [placedFrom_of_not_mem ht]
      cases he : exchange? (n, t) with
      | none => simp [he, Ascends]
      | some e => simpa [he, Ascends] using (hex he).2
  | append t u ht ih =>
      have hlater := ih (n + t.length + 1)
      have hlength : n + (t ++ '\n' :: u).length = n + t.length + 1 + u.length := by
        rw [List.length_append, List.length_cons]
        omega
      rw [placedFrom_append ht, hlength]
      cases he : exchange? (n, t) with
      | none =>
          rw [List.filterMap_cons_none he]
          exact hlater.of_le (by omega)
      | some e =>
          obtain ⟨a, new⟩ := e
          obtain ⟨hstart, hle, hstop⟩ := (hex he).2
          rw [List.filterMap_cons_some he]
          have hbefore : a.stop ≤ n + t.length + 1 := Nat.le_succ_of_le hstop
          exact ⟨⟨hstart, hle, Nat.le_trans hbefore (Nat.le_add_right _ _)⟩, hlater.of_le hbefore⟩

/-- What is left of a line stays, with the line feed, if all exchanges are behind it. -/
theorem splice_of_line {k upper : Nat} {exchanges : List (Span × List Char)}
    (htext : text.drop n = t ++ '\n' :: u) (hk : k ≤ t.length)
    (h : Ascends upper (n + t.length + 1) (exchanges.map (·.1))) :
    splice text (n + k) exchanges =
      t.drop k ++ '\n' :: splice text (n + t.length + 1) exchanges := by
  have hslice : slice text (n + k) (n + t.length + 1) = t.drop k ++ ['\n'] := by
    have hmore : n + t.length + 1 - (n + k) = (t.drop k).length + 1 := by
      rw [List.length_drop]
      omega
    rw [slice, ← List.drop_drop, htext, List.drop_append_of_le_length hk, hmore,
      List.take_length_add_append]
    rfl
  rw [splice_of_le h (by omega), hslice, List.append_assoc, List.singleton_append]

/-- **Exchanges at the start of lines** change the lines one by one. -/
theorem splice_filterMap_placedFrom (hex : OpensLines exchange?) (htext : text.drop n = u)
    (hn : n ≤ text.length) :
    splice text n ((placedFrom n u).filterMap exchange?) =
      mapLinesFrom (fun q line => match exchange? (q, line) with
        | some (a, new) => new ++ line.drop (a.stop - q)
        | none => line) n u := by
  induction u using line_induction generalizing n with
  | line t ht =>
      rw [placedFrom_of_not_mem ht, mapLinesFrom_of_not_mem ht]
      cases he : exchange? (n, t) with
      | none => simpa [he, splice] using htext
      | some e =>
          obtain ⟨hstart, -, hle, -⟩ := hex he
          have hslice : slice text n e.1.start = [] := by
            rw [hstart, slice, Nat.sub_self, List.take_zero]
          have hdrop : text.drop e.1.stop = t.drop (e.1.stop - n) := by
            rw [← htext, List.drop_drop, Nat.add_sub_cancel' (by omega)]
          rw [List.filterMap_cons_some he, List.filterMap_nil, splice, splice, hslice, hdrop,
            List.nil_append]
  | append t u ht ih =>
      have hlength := congrArg List.length htext
      rw [List.length_drop, List.length_append, List.length_cons] at hlength
      have hrest : text.drop (n + t.length + 1) = u := by
        rw [Nat.add_assoc, ← List.drop_drop, htext, ← List.drop_drop, List.drop_left]
        rfl
      have hlater := ih hrest (by omega)
      have hascends := ascends_filterMap_placedFrom hex (n + t.length + 1) u
      rw [placedFrom_append ht, mapLinesFrom_append ht, ← hlater]
      have hkeep {k : Nat} (hk : k ≤ t.length) := splice_of_line htext hk hascends
      cases he : exchange? (n, t) with
      | none =>
          rw [List.filterMap_cons_none he]
          exact hkeep (Nat.zero_le _)
      | some e =>
          obtain ⟨a, new⟩ := e
          obtain ⟨hstart, -, hle, hstop⟩ := hex he
          obtain ⟨k, hk⟩ : ∃ k, a.stop = n + k := ⟨a.stop - n, by omega⟩
          have hslice : slice text n a.start = [] := by
            rw [hstart, slice, Nat.sub_self, List.take_zero]
          rw [List.filterMap_cons_some he, splice, hslice, List.nil_append, hk, hkeep (by omega)]
          simp only [hk, Nat.add_sub_cancel_left, List.append_assoc]

end Splice

/-! ## Patterns at the start of a line -/

/-- The opening of the line that starts at a position, if no literal has a part of it. -/
def Segmenter.openingOutside? (s : Segmenter)
    (opening? : List Char → Option (List Char × List Char)) (text : List Char) (start : Nat)
    (line : List Char) : Option (List Char × List Char) :=
  (opening? line).filter fun e =>
    ∀ l ∈ s.literalSpans text, Span.IsApart ⟨start, start + (line.length - e.2.length)⟩ l

/-- What is exchanged at the start of a line. -/
def Segmenter.exchangeAt? (s : Segmenter) (opening? : List Char → Option (List Char × List Char))
    (text : List Char) (e : Nat × List Char) : Option (Span × List Char) :=
  (s.openingOutside? opening? text e.1 e.2).map fun (new, rest) =>
    (⟨e.1, e.1 + (e.2.length - rest.length)⟩, new)

theorem Segmenter.openLine_openingOutside?_of_none {s : Segmenter}
    {opening? : List Char → Option (List Char × List Char)} (h : opening? line = none)
    (text : List Char) (q : Nat) : openLine (s.openingOutside? opening? text q) line = line :=
  openLine_of_none (by rw [openingOutside?, h, Option.filter_none])

theorem Segmenter.openLine_openingOutside?_of_some {s : Segmenter}
    {opening? : List Char → Option (List Char × List Char)} {e : List Char × List Char}
    (h : opening? line = some e) {condition : Prop} [Decidable condition]
    (hcode : (∀ l ∈ s.literalSpans text,
      Span.IsApart ⟨q, q + (line.length - e.2.length)⟩ l) ↔ condition) :
    openLine (s.openingOutside? opening? text q) line =
      if condition then e.1 ++ e.2 else line := by
  rw [openLine, openingOutside?, h, Option.filter_some]
  by_cases hcondition : condition
  · rw [if_pos (decide_eq_true (hcode.2 hcondition)), if_pos hcondition]
  · rw [if_neg (by simpa only [hcode, decide_eq_true_eq] using hcondition), if_neg hcondition]

theorem Segmenter.opensLines_exchangeAt? (s : Segmenter)
    (opening? : List Char → Option (List Char × List Char)) (text : List Char) :
    OpensLines (s.exchangeAt? opening? text) := by
  intro q line a new h
  obtain ⟨⟨new, rest⟩, -, heq⟩ := Option.map_eq_some_iff.1 h
  cases heq
  exact ⟨rfl, Nat.le_refl q, Nat.le_add_right _ _, Nat.add_le_add_left (Nat.sub_le _ _) q⟩

section Opens

variable {s : Segmenter} {p : Pattern} {f : List Char → Captures → List Char}
  {opening? : List Char → Option (List Char × List Char)} {m : Captures}

/-- The match at the start of a line is the match of the line by itself. -/
theorem IsLineAt.matchAt?_eq (h : IsLineAt text q line) (hkeeps : p.KeepsToLine) :
    p.matchAt? text q = (p.matchAt? line 0).map (·.shift q) := by
  obtain ⟨x, y, rfl, rfl, hx, hy⟩ := h.split
  have hfront : p.matchAt? (line ++ y) 0 = p.matchAt? line 0 := by
    rcases hy with rfl | ⟨y, rfl⟩
    · rw [List.append_nil]
    · exact hkeeps.matchAt?_append y rfl (Nat.zero_le _)
  rcases hx with rfl | ⟨x, rfl⟩
  · rw [List.nil_append, List.length_nil, hfront]
    cases p.matchAt? line 0 with
    | none => rfl
    | some c => exact congrArg some c.shift_zero.symm
  · have hback := hkeeps.matchAt?_newline_append x (line ++ y) 0
    have hsplit : x ++ ['\n'] ++ (line ++ y) = x ++ '\n' :: (line ++ y) := by simp
    rw [hsplit, List.length_append, List.length_singleton, ← hfront, ← hback, Nat.zero_add]

/-- What takes its place there is what takes its place in the line by itself. -/
theorem IsLineAt.replacement_eq (h : IsLineAt text q line) (hf : IsLinewise f)
    (hm : p.matchAt? line 0 = some m) : f text (m.shift q) = f line m := by
  obtain ⟨x, y, rfl, rfl, hx, hy⟩ := h.split
  obtain ⟨-, hle, hstop⟩ := within_of_matchHere? hm
  have hfront : f (line ++ y) m = f line m := by
    rcases hy with rfl | ⟨y, rfl⟩
    · rw [List.append_nil]
    · exact hf.front y rfl hle (by simpa using hstop) (spells_of_matchAt? hm).2
  rcases hx with rfl | ⟨x, rfl⟩
  · rw [List.nil_append, List.length_nil, m.shift_zero, hfront]
  · have hsplit : x ++ ['\n'] ++ (line ++ y) = x ++ '\n' :: (line ++ y) := by simp
    rw [hsplit, List.length_append, List.length_singleton, hf.back, hfront]

variable (h : p.Opens f opening?)

include h

/-- A match stands at the start of a line. -/
theorem Pattern.Opens.startsLine_of_matchAt? (hi : i ≤ text.length)
    (hm : p.matchAt? text i = some m) : startsLine (charBefore? text i) = true := by
  by_contra hbefore
  have hlength : (text.take i).length = i := List.length_take_of_le hi
  have hlast : startsLine (text.take i).getLast? = false := Bool.eq_false_iff.2 hbefore
  have hnone := h.elsewhere (y := text.drop i) hlast
  rw [List.take_append_drop, hlength, hm] at hnone
  contradiction

variable (hkeeps : p.KeepsToLine)

include hkeeps

/-- **What is replaced are all matches in code**: no match gets in the way of another one. -/
theorem Pattern.Opens.mem_matchesOutside_iff (hsealed : p.IsSealed s.marks) :
    m ∈ s.matchesOutside p.matcher text ↔
      p.matchAt? text m.span.start = some m ∧ ∀ l ∈ s.literalSpans text, m.span.IsApart l := by
  refine ⟨matchAt?_of_mem_matchesOutside hsealed, fun ⟨hm, hcode⟩ => ?_⟩
  have hlt {i : Nat} {c : Captures} (hc : p.matchAt? text i = some c) : i ≤ text.length := by
    obtain ⟨hlt, hstop⟩ := hsealed.lt_of_matchAt? hc
    have hstart : c.span.start = i := start_of_matchAt? hc
    omega
  refine mem_matchesOutside_of_matchAt? hsealed hm hcode fun j hj e he => ?_
  -- a match from before stays on its line
  obtain ⟨line, hline⟩ := exists_mem_placedLines (hlt he) (h.startsLine_of_matchAt? (hlt he) he)
  have hat := isLineAt_of_mem_placedLines hline
  rw [hat.matchAt?_eq hkeeps] at he
  obtain ⟨c, hc, rfl⟩ := Option.map_eq_some_iff.1 he
  have hwithin : c.span.stop ≤ line.length := (hsealed.lt_of_matchAt? hc).2
  have hstarts := h.startsLine_of_matchAt? (hlt hm) hm
  by_contra hover
  rw [hat.startsLine_eq_false hj (by simp only [Captures.shift, Span.shift] at hover; omega)]
    at hstarts
  contradiction

/-- What is exchanged on a line. -/
theorem Pattern.Opens.exchange_eq (hf : IsLinewise f) (hat : IsLineAt text q line) :
    ((p.matchAt? text q).filter fun c => ∀ l ∈ s.literalSpans text, c.span.IsApart l).map
        (fun c => (c.span, f text c)) = s.exchangeAt? opening? text (q, line) := by
  rw [hat.matchAt?_eq hkeeps, exchangeAt?, openingOutside?]
  cases hopening : opening? line with
  | none =>
      rw [h.fails hopening]
      rfl
  | some e =>
      obtain ⟨w, c, hsplit, hc, hspan, hnew⟩ := h.opens hopening
      have hold : (c.shift q).span = ⟨q, q + (line.length - e.2.length)⟩ := by
        rw [Captures.shift, hspan, Span.shift, hsplit, List.length_append, Nat.add_sub_cancel,
          Nat.zero_add, Nat.add_comm]
      rw [hc, Option.map_some, Option.filter_some, Option.filter_some, hold]
      split
      · rw [Option.map_some, Option.map_some, hold, hat.replacement_eq hf hc, hnew]
      · rfl

/-- **What is replaced, line by line.** -/
theorem Pattern.Opens.matchesOutside_eq (hsealed : p.IsSealed s.marks) (text : List Char) :
    s.matchesOutside p.matcher text = (placedLines text).filterMap fun e =>
      (p.matchAt? text e.1).filter fun c => ∀ l ∈ s.literalSpans text, c.span.IsApart l := by
  have hirrefl : Std.Irrefl fun a b : Captures => a.span.start < b.span.start :=
    ⟨fun a => Nat.lt_irrefl _⟩
  have hantisymm : Std.Antisymm fun a b : Captures => a.span.start < b.span.start :=
    ⟨fun a b hab hba => absurd hba (Nat.lt_asymm hab)⟩
  have hfilter {i : Nat} {c : Captures} : c ∈ (p.matchAt? text i).filter
      (fun c => ∀ l ∈ s.literalSpans text, c.span.IsApart l) ↔
        p.matchAt? text i = some c ∧ ∀ l ∈ s.literalSpans text, c.span.IsApart l := by
    simp [Option.filter_eq_some_iff]
  -- both lists are in order, so it is enough that they have the same members
  refine List.Pairwise.eq_of_mem_iff (r := fun a b => a.span.start < b.span.start) ?_ ?_
    fun c => ?_
  · have hordered := (ascends_matchesFrom p.matcher (s.literalSpans text) text 0).pairwise.1
    refine (List.pairwise_map.1 hordered).imp_of_mem fun {a b} ha _ hab => ?_
    have hlt := (hsealed.lt_of_matchAt? (matchAt?_of_mem_matchesOutside hsealed ha).1).1
    exact Nat.lt_of_lt_of_le hlt hab
  · refine (pairwise_placedFrom 0 text).1.filterMap _ fun a b hab c hc d hd => ?_
    have hstart : c.span.start = a.1 := start_of_matchAt? (hfilter.1 hc).1
    have hstart' : d.span.start = b.1 := start_of_matchAt? (hfilter.1 hd).1
    omega
  · rw [h.mem_matchesOutside_iff hkeeps hsealed, List.mem_filterMap]
    constructor
    · rintro ⟨hm, hcode⟩
      obtain ⟨hlt, hstop⟩ := hsealed.lt_of_matchAt? hm
      obtain ⟨line, hline⟩ := exists_mem_placedLines (by omega)
        (h.startsLine_of_matchAt? (by omega) hm)
      exact ⟨_, hline, hfilter.2 ⟨hm, hcode⟩⟩
    · rintro ⟨e, -, he⟩
      obtain ⟨hm, hcode⟩ := hfilter.1 he
      rw [start_of_matchAt? hm]
      exact ⟨hm, hcode⟩

/-- **Replacement, line by line.** -/
theorem Pattern.Opens.replaceOutside_eq_mapLines (hsealed : p.IsSealed s.marks)
    (hf : IsLinewise f) (text : List Char) :
    s.replaceOutside p.matcher f text =
      mapLines (fun q line => openLine (s.openingOutside? opening? text q) line) text := by
  have hexchanges : (s.matchesOutside p.matcher text).map (fun c => (c.span, f text c)) =
      (placedLines text).filterMap (s.exchangeAt? opening? text) := by
    rw [h.matchesOutside_eq hkeeps hsealed, List.map_filterMap]
    exact List.filterMap_congr fun e he =>
      h.exchange_eq hkeeps hf (isLineAt_of_mem_placedLines he)
  have hsplice := splice_filterMap_placedFrom (s.opensLines_exchangeAt? opening? text)
    (List.drop_zero (l := text)) (Nat.zero_le _)
  rw [replaceOutside, hexchanges, placedLines, hsplice]
  refine mapLines_congr fun e _ => ?_
  rw [exchangeAt?, openLine]
  cases hopening : s.openingOutside? opening? text e.1 e.2 with
  | none => rfl
  | some x =>
      obtain ⟨w, m, hsplit, -⟩ := h.opens (Option.filter_eq_some_iff.1 hopening).1
      simp only [Option.map_some, Nat.add_sub_cancel_left]
      rw [hsplit, List.length_append, Nat.add_sub_cancel, List.drop_left]

omit hkeeps in
/-- **An opening without marks** is replaced just if the line starts in code. -/
theorem Pattern.Opens.openLine_openingOutside? (hsealed : p.IsSealed s.marks)
    (havoids : s.marks.all p.avoids = true) (hat : IsLineAt text q line) :
    openLine (s.openingOutside? opening? text q) line =
      if s.InCode text q then openLine opening? line else line := by
  cases hopening : opening? line with
  | none => rw [openLine_openingOutside?_of_none hopening, openLine_of_none hopening, ite_self]
  | some e =>
      obtain ⟨w, c, hsplit, hc, hspan, -⟩ := h.opens hopening
      have hlength : line.length - e.2.length = w.length := by
        rw [hsplit, List.length_append, Nat.add_sub_cancel]
      have hpos : 0 < w.length := by
        have hlt := (hsealed.lt_of_matchAt? hc).1
        rwa [hspan] at hlt
      have hword : ∀ o ∈ w, o ∉ s.marks := by
        intro o ho hmark
        have hspells := (spells_of_matchAt? hc).1
        have hslice : slice line c.span.start c.span.stop = w := by
          rw [hspan, hsplit, slice, Nat.sub_zero, List.drop_zero, List.take_left]
        rw [hslice] at hspells
        exact ne_of_avoids (List.all_eq_true.1 havoids o hmark) hspells o ho rfl
      rw [hsplit, ← List.nil_append (w ++ e.2)] at hat
      have hcode := hat.isApart_iff (by simpa using hpos) hword
      simp only [List.length_nil, Nat.zero_add, Nat.add_zero] at hcode
      have hnowhere : ∀ l ∈ s.literalSpans text, ¬ (q ≤ l.start ∧ l.start < q) :=
        fun l _ hstarts => by omega
      rw [and_iff_left hnowhere, ← hlength] at hcode
      rw [openLine_openingOutside?_of_some hopening hcode, openLine_of_some hopening]

/-- **Replacement of openings without marks, line by line.** -/
theorem Pattern.Opens.replaceOutside_eq_mapLines_of_avoids (hsealed : p.IsSealed s.marks)
    (hf : IsLinewise f) (havoids : s.marks.all p.avoids = true) (text : List Char) :
    s.replaceOutside p.matcher f text =
      mapLines (fun q line => if s.InCode text q then openLine opening? line else line) text := by
  refine (h.replaceOutside_eq_mapLines hkeeps hsealed hf text).trans (mapLines_congr fun e he => ?_)
  exact h.openLine_openingOutside? hsealed havoids (isLineAt_of_mem_placedLines he)

end Opens

/-! ## Two replacements -/

/-- What is asked of a pattern and of what takes the place of its matches, for replacement to be
told line by line of the code. -/
structure Segmenter.ReplacesOpenings (s : Segmenter) (p : Pattern)
    (f : List Char → Captures → List Char)
    (opening? : List Char → Option (List Char × List Char)) : Prop where
  sealed : p.IsSealed s.marks
  tame : s.IsTame f
  ne_nil : ∀ text m, f text m ≠ []
  lines : p.RewritesLines f
  opens : p.Opens f opening?

section Comm

variable {s : Segmenter} {p p' : Pattern} {f f' : List Char → Captures → List Char}
  {opening? opening'? : List Char → Option (List Char × List Char)} {r l : Stretch}

/-- Replacement on a line that a text or a line feed precedes, and on one behind a literal. -/
theorem Segmenter.ReplacesOpenings.rewriteIn_rewriteIn (h : s.ReplacesOpenings p f opening?)
    (h' : s.ReplacesOpenings p' f' opening'?) (hfences : '\n' ∉ s.fences) (hr : s.IsStretch r)
    (hl : r.IsLine l) :
    p.rewriteIn f l.before (p'.rewriteIn f' l.before l.code l.after) l.after ++ l.after.toList =
      if l.before = none then openLine opening? (openLine opening'? l.ahead) else l.ahead := by
  have hmarks : '\n' ∉ s.marks := fun hmem => hfences (marks_subset_fences s hmem)
  have hafter := hr.mem_marks hl
  have hbefore := hr.startsLine hfences hl
  have hkept := h'.opens.not_mem_rewriteIn h'.sealed hafter hmarks hbefore hl.not_mem
  rcases hbefore with hnone | hliteral
  · rw [hnone] at hkept
    rw [if_pos hnone, hnone, h.opens.rewriteIn_append h.sealed hafter hkept,
      h'.opens.rewriteIn_append h'.sealed hafter hl.not_mem]
    rfl
  · have hne : l.before ≠ none := by
      rintro heq
      rw [heq] at hliteral
      contradiction
    rw [if_neg hne, h.opens.rewriteIn_eq_self h.sealed hafter hliteral hkept,
      h'.opens.rewriteIn_eq_self h'.sealed hafter hliteral hl.not_mem]
    rfl

/-- **Two replacements can change places** if they can on each line. -/
theorem Segmenter.ReplacesOpenings.replaceOutside_comm (h : s.ReplacesOpenings p f opening?)
    (h' : s.ReplacesOpenings p' f' opening'?) (hs : s.IsSingle) (hfences : '\n' ∉ s.fences)
    (hcomm : ∀ line, openLine opening? (openLine opening'? line) =
      openLine opening'? (openLine opening? line)) (text : List Char) :
    s.replaceOutside p.matcher f (s.replaceOutside p'.matcher f' text) =
      s.replaceOutside p'.matcher f' (s.replaceOutside p.matcher f text) := by
  have hone := rewritesBy_replaceOutside hs h.sealed h.tame fun {text _ m} _ => h.ne_nil text m
  have hother := rewritesBy_replaceOutside hs h'.sealed h'.tame
    fun {text _ m} _ => h'.ne_nil text m
  have hcuts := cutsAtNewline_rewriteIn h.sealed h.lines
  have hcuts' := cutsAtNewline_rewriteIn h'.sealed h'.lines
  have hmarks : '\n' ∉ s.marks := fun hmem => hfences (marks_subset_fences s hmem)
  refine ((hone.comp hs hother).apply_eq_iff hs (hother.comp hs hone) text).2 fun r hr => ?_
  have hr := isStretch_of_mem_stretches hr
  refine ((hcuts.comp hcuts').eq_iff (hcuts'.comp hcuts) fun l hl => ?_).2 fun l hl => ?_
  · have hafter := hr.mem_marks hl
    have hbefore := hr.startsLine hfences hl
    exact ⟨h.opens.not_mem_rewriteIn h.sealed hafter hmarks hbefore
        (h'.opens.not_mem_rewriteIn h'.sealed hafter hmarks hbefore hl.not_mem),
      h'.opens.not_mem_rewriteIn h'.sealed hafter hmarks hbefore
        (h.opens.not_mem_rewriteIn h.sealed hafter hmarks hbefore hl.not_mem)⟩
  · have hl := Stretch.isLine_of_mem_lines hl
    refine (List.append_cancel_right_eq _ l.after.toList _).mp ?_
    rw [h.rewriteIn_rewriteIn h' hfences hr hl, h'.rewriteIn_rewriteIn h hfences hr hl,
      hcomm l.ahead]

end Comm

section Openings

variable {α β : Type} {at? : List Char → Option α} {opening rest : α → List Char} {old new : Char}
  {at'? : List Char → Option β} {opening' rest' : β → List Char} {old' new' : Char}

/-- A line that starts with another character has no such opening. -/
theorem openLine_openBy_of_ne (hnone : ∀ {text}, startOf? text ≠ some old → at? text = none)
    (h : startOf? text ≠ some old) : openLine (openBy at? opening rest) text = text :=
  openLine_of_none (openBy_of_none (hnone h))

/-- A line starts as it did, or with a new opening. -/
theorem startOf?_openLine_openBy
    (hstart : ∀ {text a}, at? text = some a → ∀ t, startOf? (opening a ++ t) = some new)
    (text : List Char) :
    startOf? (openLine (openBy at? opening rest) text) = startOf? text ∨
      startOf? (openLine (openBy at? opening rest) text) = some new := by
  cases ha : at? text with
  | none =>
      left
      rw [openLine_of_none (openBy_of_none ha)]
  | some a =>
      right
      rw [openLine_of_some (openBy_of_some ha), hstart ha]

/-- **Openings of two kinds can be changed in either order**, if the old ones start with different
characters and no new one starts like an old one of the other kind. -/
theorem openLine_openBy_comm (hnone : ∀ {text}, startOf? text ≠ some old → at? text = none)
    (hstart : ∀ {text a}, at? text = some a → ∀ t, startOf? (opening a ++ t) = some new)
    (hnone' : ∀ {text}, startOf? text ≠ some old' → at'? text = none)
    (hstart' : ∀ {text b}, at'? text = some b → ∀ t, startOf? (opening' b ++ t) = some new')
    (hold : old ≠ old') (hnew : new ≠ old') (hnew' : new' ≠ old) (text : List Char) :
    openLine (openBy at? opening rest) (openLine (openBy at'? opening' rest') text) =
      openLine (openBy at'? opening' rest') (openLine (openBy at? opening rest) text) := by
  by_cases hline : startOf? text = some old
  · have hfree : startOf? text ≠ some old' := by simp [hline, hold]
    have hchanged : startOf? (openLine (openBy at? opening rest) text) ≠ some old' := by
      rcases startOf?_openLine_openBy hstart text with hsame | hother
      · rwa [hsame]
      · simp [hother, hnew]
    rw [openLine_openBy_of_ne hnone' hfree, openLine_openBy_of_ne hnone' hchanged]
  · have hchanged : startOf? (openLine (openBy at'? opening' rest') text) ≠ some old := by
      rcases startOf?_openLine_openBy hstart' text with hsame | hother
      · rwa [hsame]
      · simp [hother, hnew']
    rw [openLine_openBy_of_ne hnone hline, openLine_openBy_of_ne hnone hchanged]

end Openings

end RuleCanon
