import Mathlib.Data.List.Chain
import RuleCanon.Proofs.Literal.Codewise
import RuleCanon.Proofs.Literal.Frame
import RuleCanon.Proofs.Literal.Tame
import RuleCanon.Proofs.Pattern.Window

/-!
# Replacement with sealed patterns is codewise

A replacement outside literals searches the whole text, bodies of literals included.  If the
pattern is sealed against the opening marks, the search might as well have gone through each
stretch of code with the characters next to it: a match that starts in a literal or runs into
one is in vain, and what is found in a stretch of code is what the window of the stretch has.
If what takes the place of a match is made of the match and of what it can see within the
window, the replacement is codewise.

## Main Definitions

* `Pattern.rewriteIn` — replacement in one stretch of code
* `Segmenter.exchangesFrom` — what a replacement exchanges in a text, and for what

## Main Statements

* `Segmenter.matchesFrom_code` — the matches in a stretch of code are those in its window
* `Segmenter.isCodewise_replaceOutside` — the replacement is codewise
-/

namespace RuleCanon

open Segment Pattern

/-! ## Exchanging stretches of parts of a text -/

section Splice

variable {text x w : List Char} {n m b i upper : Nat} {exchanges later : List (Span × List Char)}

/-- What lies before the first exchange stays. -/
theorem splice_of_le (h : Ascends upper m (exchanges.map (·.1))) (hnm : n ≤ m) :
    splice text n exchanges = slice text n m ++ splice text m exchanges := by
  cases exchanges with
  | nil => rw [splice, splice, slice_append_drop text hnm]
  | cons e rest =>
      obtain ⟨⟨hstart, -⟩, -⟩ := h
      rw [splice, splice, ← slice_append_slice text hnm hstart, List.append_assoc,
        List.append_assoc, List.append_assoc]

/-- Exchanges before a position can be made apart from those behind it. -/
theorem splice_append (h : Ascends b n (exchanges.map (·.1)))
    (hlater : Ascends upper b (later.map (·.1))) (hnb : n ≤ b) :
    splice text n (exchanges ++ later) =
      splice (text.take b) n exchanges ++ splice text b later := by
  induction exchanges generalizing n with
  | nil => rw [List.nil_append, splice_of_le hlater hnb, splice, List.drop_take, slice]
  | cons e rest ih =>
      obtain ⟨⟨-, hle, hstop⟩, hrest⟩ := h
      simp only at hle hstop hrest
      have hslice : slice (text.take b) n e.1.start = slice text n e.1.start := by
        rw [← slice_zero, slice_slice text (by omega), Nat.zero_add, Nat.zero_add]
      rw [List.cons_append, splice, splice, ih hrest hstop, hslice, List.append_assoc,
        List.append_assoc, List.append_assoc]

/-- Exchanges move with the text. -/
theorem splice_shift (x : List Char) (exchanges : List (Span × List Char)) :
    splice (x ++ w) (i + x.length) (exchanges.map fun e => (e.1.shift x.length, e.2)) =
      splice w i exchanges := by
  have hdrop (j : Nat) : (x ++ w).drop (j + x.length) = w.drop j := by
    rw [Nat.add_comm, List.drop_length_add_append]
  induction exchanges generalizing i with
  | nil => exact hdrop i
  | cons e rest ih =>
      have hslice : slice (x ++ w) (i + x.length) (e.1.start + x.length) =
          slice w i e.1.start := by
        rw [slice, slice, hdrop, Nat.add_sub_add_right]
      rw [List.map_cons, splice, splice, Span.shift, hslice]
      simp only [ih]

/-- A character of the outcome is one of the text or of what was put in. -/
theorem mem_splice {a : Char} (h : Ascends b n (exchanges.map (·.1)))
    (ha : a ∈ splice text n exchanges) : a ∈ text.drop n ∨ ∃ e ∈ exchanges, a ∈ e.2 := by
  induction exchanges generalizing n with
  | nil => exact .inl ha
  | cons e rest ih =>
      obtain ⟨⟨hstart, hle, -⟩, hrest⟩ := h
      simp only at hstart hle hrest
      rw [splice, List.append_assoc, List.mem_append, List.mem_append] at ha
      rcases ha with ha | ha | ha
      · exact .inl (List.mem_of_mem_take ha)
      · exact .inr ⟨e, List.mem_cons_self, ha⟩
      · rcases ih hrest ha with ha | ⟨f, hf, ha⟩
        · have hstop : text.drop e.1.stop = (text.drop n).drop (e.1.stop - n) := by
            rw [List.drop_drop, Nat.add_sub_cancel' (by omega)]
          exact .inl (List.mem_of_mem_drop (hstop ▸ ha))
        · exact .inr ⟨f, List.mem_cons_of_mem e hf, ha⟩

end Splice

namespace Segmenter

/-! ## The steps of a search for a sealed pattern -/

section Steps

variable {p : Pattern} {marks text : List Char} {literals rest : List Span} {l : Span}
  {i n b j : Nat} {c : Captures}

/-- What a search does with its next match, if a match that runs into a literal is in vain. -/
def settle (literals : List Span) : Option Captures → SearchStep
  | none => .finished
  | some c =>
    if literals.any c.span.touches then
      match literals.find? (c.span.start < ·.stop) with
      | none => .finished
      | some first => .skip first.stop
    else .accept c

/-- The literals are in order, and each starts with one of the marks. -/
structure StartWith (marks text : List Char) (literals : List Span) : Prop where
  orderly : Orderly literals
  marked : ∀ l ∈ literals, ∃ o ∈ marks, text[l.start]? = some o

/-- A stretch of code ends here: the text ends, or the first of the literals starts. -/
def CodeEnds (text : List Char) (literals : List Span) (b : Nat) : Prop :=
  (literals = [] ∧ b = text.length) ∨ ∃ l rest, literals = l :: rest ∧ l.start = b

/-- Where a stretch of code ends the text ends or goes on with a mark. -/
theorem StartWith.mem_of_getElem? (h : StartWith marks text literals)
    (hends : CodeEnds text literals b) {o : Char} (ho : text[b]? = some o) : o ∈ marks := by
  rcases hends with ⟨-, rfl⟩ | ⟨l, rest, rfl, rfl⟩
  · simp at ho
  · obtain ⟨o', ho', hl⟩ := h.marked l List.mem_cons_self
    exact Option.some.inj (hl.symm.trans ho) ▸ ho'

/-- All literals are behind the stretch of code. -/
theorem StartWith.le_start_of_mem (h : StartWith marks text literals)
    (hends : CodeEnds text literals b) (hl : l ∈ literals) : b ≤ l.start := by
  rcases hends with ⟨rfl, -⟩ | ⟨k, rest, rfl, rfl⟩
  · contradiction
  · rcases List.mem_cons.1 hl with rfl | hl
    · exact Nat.le_refl _
    · have hfilled := h.orderly.filled k List.mem_cons_self
      have hapart := (List.pairwise_cons.1 h.orderly.ordered).1 l hl
      omega

variable (hsealed : p.IsSealed marks)

include hsealed

/-- A match that runs into a literal is in vain. -/
theorem findBefore_eq_none (hc : p.find text i = some c) (hstart : c.span.start < b)
    (hstop : b < c.span.stop) (hmark : ∀ o, text[b]? = some o → o ∈ marks) :
    p.matcher.findBefore text i b = none := by
  have hwithin := within_of_find hc
  obtain ⟨hle, -, hlength⟩ := hwithin
  have hnone : p.find (text.take (b + 1)) i = none := by
    rw [← slice_zero]
    refine find_slice_eq_none hsealed hmark (.inr rfl) (by omega) (by omega) ?_
    intro d hd
    obtain rfl : c = d := Option.some.inj (hc.symm.trans hd)
    exact hstop
  rw [Matcher.findBefore]
  simp only [Pattern.matcher, hnone]

/-- What a search for a sealed pattern does depends on its next match alone. -/
theorem searchStep_eq_settle (h : StartWith marks text literals) (i : Nat) :
    searchStep p.matcher literals text i = settle literals (p.find text i) := by
  have hmatcher : p.matcher.find text i = p.find text i := rfl
  rw [searchStep, hmatcher]
  cases hfind : p.find text i with
  | none => rfl
  | some c =>
      by_cases hany : literals.any c.span.touches = true
      · obtain ⟨k, hk, htouches⟩ := List.any_eq_true.1 hany
        cases hfirst : literals.find? (c.span.start < ·.stop) with
        | none => simp only [settle, hany, if_true, hfirst]
        | some first =>
            simp only [settle, hany, if_true, hfirst]
            by_cases hbefore : c.span.start < first.start
            · have hinto := h.orderly.lt_stop_of_touches hfirst hbefore hk htouches
              obtain ⟨o, ho, hmarked⟩ := h.marked first (List.mem_of_find?_eq_some hfirst)
              have hnone := findBefore_eq_none hsealed hfind hbefore hinto
                fun o' ho' => Option.some.inj (hmarked.symm.trans ho') ▸ ho
              simp only [hbefore, if_true, hnone]
            · simp only [hbefore, if_false]
      · simp only [settle, hany, Bool.false_eq_true, if_false]

/-- A search that starts further right and comes to the same match does the same. -/
theorem matchesFrom_eq_of_find_eq (h : StartWith marks text literals)
    (hfind : p.find text i = p.find text j) :
    matchesFrom p.matcher literals text i = matchesFrom p.matcher literals text j :=
  matchesFrom_congr (by
    rw [searchStep_eq_settle hsealed h, searchStep_eq_settle hsealed h, hfind])

omit hsealed in
/-- A search that finds nothing before a place might as well start there. -/
theorem find_eq_find_of_le (hij : i ≤ j) (h : ∀ c, p.find text i = some c → j ≤ c.span.start) :
    p.find text i = p.find text j := by
  cases hfind : p.find text i with
  | none =>
      refine (find_eq_none_iff.2 fun k hk => ?_).symm
      exact find_eq_none_iff.1 hfind k (by omega)
  | some c =>
      obtain ⟨hleftmost, hlength⟩ := find_eq_some_iff.1 hfind
      exact (find_eq_some_iff.2 ⟨hleftmost.of_le hij (h c hfind), hlength⟩).symm

/-- A match that starts before the end of the first literal and ends behind its start makes the
search skip the literal. -/
theorem matchesFrom_of_touches (h : StartWith marks text (l :: rest))
    (hc : p.find text i = some c) (hstart : c.span.start < l.stop)
    (hstop : l.start < c.span.stop) :
    matchesFrom p.matcher (l :: rest) text i = matchesFrom p.matcher (l :: rest) text l.stop := by
  have hlt := (hsealed.lt_of_matchAt? (isLeftmost_of_find hc).here).1
  have htouches : c.span.touches l = true := (Span.touches_iff hlt).2 ⟨hstart, hstop⟩
  refine matchesFrom_of_skip ?_
  rw [searchStep_eq_settle hsealed h, hc]
  simp only [settle, List.any_cons, htouches, Bool.true_or, if_true, List.find?_cons, hstart,
    decide_true]

/-- **The search passes a literal.** -/
theorem matchesFrom_literal (h : StartWith marks text (l :: rest)) :
    matchesFrom p.matcher (l :: rest) text l.start =
      matchesFrom p.matcher (l :: rest) text l.stop := by
  by_cases hinside : ∃ c, p.find text l.start = some c ∧ c.span.start < l.stop
  · obtain ⟨c, hc, hlt⟩ := hinside
    have hleftmost := isLeftmost_of_find hc
    have hfilled := (hsealed.lt_of_matchAt? hleftmost.here).1
    exact matchesFrom_of_touches hsealed h hc hlt (Nat.lt_of_le_of_lt hleftmost.le hfilled)
  · have hfilled := h.orderly.filled l List.mem_cons_self
    refine matchesFrom_eq_of_find_eq hsealed h (find_eq_find_of_le (Nat.le_of_lt hfilled) ?_)
    intro c hc
    by_contra hlt
    exact hinside ⟨c, hc, by omega⟩

/-- A match that ends before all literals is replaced. -/
theorem searchStep_of_stop_le (h : StartWith marks text literals) (hc : p.find text i = some c)
    (hstop : ∀ l ∈ literals, c.span.stop ≤ l.start) :
    searchStep p.matcher literals text i = .accept c := by
  have hlt := (hsealed.lt_of_matchAt? (isLeftmost_of_find hc).here).1
  have hapart : literals.any c.span.touches = false := by
    refine List.any_eq_false.2 fun l hl htouches => ?_
    have hle := hstop l hl
    have hinside := ((Span.touches_iff hlt).1 htouches).2
    omega
  rw [searchStep_eq_settle hsealed h, hc]
  simp only [settle, hapart]
  rfl

/-- If the next match runs across the end of the stretch of code, or there is none, the search
might as well start at the end. -/
theorem matchesFrom_eq_of_crosses (h : StartWith marks text literals)
    (hends : CodeEnds text literals b) (hle : i ≤ b)
    (hcrosses : ∀ d, p.find text i = some d → b < d.span.stop) :
    matchesFrom p.matcher literals text i = matchesFrom p.matcher literals text b := by
  by_cases hbefore : ∃ d, p.find text i = some d ∧ d.span.start < b
  · obtain ⟨d, hd, hstart⟩ := hbefore
    have hlength := (within_of_find hd).2.2
    have hstop := hcrosses d hd
    -- the match runs into the first literal, which both searches skip
    obtain ⟨l, rest, rfl, rfl⟩ := Or.resolve_left hends fun hend => by omega
    have hfilled := h.orderly.filled l List.mem_cons_self
    rw [matchesFrom_of_touches hsealed h hd (by omega) hstop, matchesFrom_literal hsealed h]
  · refine matchesFrom_eq_of_find_eq hsealed h (find_eq_find_of_le hle fun d hd => ?_)
    by_contra hlt
    exact hbefore ⟨d, hd, by omega⟩

/-- **The matches in a stretch of code are those in its window.**  The stretch ends at `b`, where
the text ends or the first literal starts; `n` is where the window starts. -/
theorem matchesFrom_code (h : StartWith marks text literals) (hb : b ≤ text.length)
    (hends : CodeEnds text literals b) (hj : 0 < j ∨ n = 0) (hle : j + n ≤ b) :
    matchesFrom p.matcher literals text (j + n) =
      (matchesFrom p.matcher [] (slice text n (b + 1)) j).map (·.shift n) ++
        matchesFrom p.matcher literals text b := by
  have hmark : ∀ o, text[b]? = some o → o ∈ marks := fun _ => h.mem_of_getElem? hends
  have hwindow : StartWith marks (slice text n (b + 1)) [] := ⟨⟨.nil, by simp⟩, by simp⟩
  -- each match that is taken leaves less of the stretch
  induction hk : b - (j + n) using Nat.strongRecOn generalizing j with
  | ind k ih =>
      by_cases hinside : ∃ d, p.find text (j + n) = some d ∧ d.span.stop ≤ b
      · -- both searches take the same match and go on behind it
        obtain ⟨d, hd, hstop⟩ := hinside
        obtain ⟨c, hc, rfl⟩ := exists_find_slice_of_stop_le hsealed hmark hj hb hd hstop
        have hleftmost := isLeftmost_of_find hc
        have hlt := (hsealed.lt_of_matchAt? hleftmost.here).1
        have hstart := hleftmost.le
        have hstop' : c.span.stop + n ≤ b := hstop
        have hresume : c.span.resume = c.span.stop := if_neg (Nat.ne_of_lt hlt)
        have hresume' : (c.shift n).span.resume = c.span.stop + n :=
          if_neg (by simp only [Captures.shift, Span.shift, Span.IsVoid]; omega)
        have hstep := searchStep_of_stop_le hsealed h hd fun l hl =>
          Nat.le_trans hstop (h.le_start_of_mem hends hl)
        have hstep' := searchStep_of_stop_le hsealed hwindow hc (by simp)
        rw [matchesFrom_of_accept hstep, matchesFrom_of_accept hstep', hresume, hresume',
          List.map_cons, List.cons_append,
          ih (b - (c.span.stop + n)) (by omega) (.inl (by omega)) hstop' rfl]
      · -- the window has nothing more, and the text only what runs across its end
        have hcrosses : ∀ d, p.find text (j + n) = some d → b < d.span.stop := by
          intro d hd
          by_contra hstop
          exact hinside ⟨d, hd, by omega⟩
        have hnone := find_slice_eq_none hsealed hmark hj hle hb hcrosses
        have hfinished : searchStep p.matcher [] (slice text n (b + 1)) j = .finished := by
          rw [searchStep_eq_settle hsealed hwindow, hnone]
          rfl
        rw [matchesFrom_of_finished hfinished, List.map_nil, List.nil_append]
        exact matchesFrom_eq_of_crosses hsealed h hends hle hcrosses

end Steps

end Segmenter

/-- Replacement in one stretch of code with the characters next to it. -/
def Pattern.rewriteIn (p : Pattern) (f : List Char → Captures → List Char)
    (before : Option Char) (t : List Char) (after : Option Char) : List Char :=
  let window := before.toList ++ t ++ after.toList
  splice (before.toList ++ t) before.toList.length
    ((Segmenter.matchesFrom p.matcher [] window before.toList.length).map fun c =>
      (c.span, f window c))

namespace Segmenter

/-- What a replacement exchanges from a position on, and for what. -/
def exchangesFrom (p : Pattern) (f : List Char → Captures → List Char) (literals : List Span)
    (text : List Char) (position : Nat) : List (Span × List Char) :=
  (matchesFrom p.matcher literals text position).map fun c => (c.span, f text c)

theorem ascends_exchangesFrom (p : Pattern) (f : List Char → Captures → List Char)
    (literals : List Span) (text : List Char) (position : Nat) :
    Ascends text.length position ((exchangesFrom p f literals text position).map (·.1)) := by
  rw [exchangesFrom, List.map_map]
  exact ascends_matchesFrom p.matcher literals text position

section Segments

variable {s : Segmenter} {t text : List Char} {gs : List Segment} {n : Nat}

theorem drop_add_of_drop_eq {g : Segment} (htext : text.drop n = textOf (g :: gs)) :
    text.drop (n + g.text.length) = textOf gs := by
  rw [← List.drop_drop, htext, textOf_cons, List.drop_left]

theorem slice_add_of_drop_eq {g : Segment} (htext : text.drop n = textOf (g :: gs)) :
    slice text n (n + g.text.length) = g.text := by
  rw [slice, htext, textOf_cons, Nat.add_sub_cancel_left, List.take_left]

theorem add_length_le_of_drop_eq {g : Segment} (htext : text.drop n = textOf (g :: gs))
    (hn : n ≤ text.length) : n + g.text.length ≤ text.length := by
  have hlength := congrArg List.length htext
  rw [List.length_drop, textOf_cons, List.length_append] at hlength
  omega

/-- The character before the next segment. -/
theorem charBefore?_add_of_drop_eq {g : Segment} (htext : text.drop n = textOf (g :: gs)) :
    charBefore? text (n + g.text.length) = g.text.getLast?.or (charBefore? text n) := by
  rw [charBefore?_add text n (Nat.le_add_right n g.text.length), slice_add_of_drop_eq htext]

/-- What follows a closed literal has a fence before it, the end of the closing mark. -/
theorem mem_fences_of_charBefore? {d : Delimiters} {body : List Char} {q : Char}
    (hd : d ∈ s.delimiters) (htext : text.drop n = textOf (.literal d body true :: gs))
    (hq : charBefore? text (n + (Segment.literal d body true).text.length) = some q) :
    q ∈ s.fences := by
  have hne := (s.proper d hd).2
  rw [charBefore?_add_of_drop_eq htext, getLast?_text_closed hne,
    List.getLast?_eq_some_getLast hne, Option.some_or] at hq
  exact List.mem_flatMap.2 ⟨d, hd, List.mem_append_right _
    (Option.some.inj hq ▸ List.getLast_mem hne)⟩

/-- The literals of a text start with marks. -/
theorem startWith_spansFrom (hcut : s.IsCut gs) (htext : text.drop n = textOf gs) :
    StartWith s.marks text (spansFrom n gs) := by
  refine ⟨orderly_spansFrom fun _ => hcut.text_ne_nil, ?_⟩
  have hopening {d : Delimiters} {body : List Char} {terminated : Bool} {gs : List Segment}
      {n : Nat} (hopens : s.opening? d.opening = some d)
      (htext : text.drop n = textOf (.literal d body terminated :: gs)) :
      ∃ o ∈ s.marks, text[n]? = some o := by
    obtain ⟨o, rest, hcons⟩ := List.exists_cons_of_ne_nil (opening_ne_nil hopens)
    refine ⟨o, List.mem_flatMap.2 ⟨d, List.mem_of_find?_eq_some hopens, by simp [hcons]⟩, ?_⟩
    rw [← List.head?_drop, htext, head?_textOf_literal (opening_ne_nil hopens), hcons,
      List.head?_cons]
  induction hcut generalizing n with
  | nil => simp
  | code _ _ ih => exact ih (drop_add_of_drop_eq htext)
  | closed hopens _ _ ih =>
      intro l hl
      rcases List.mem_cons.1 hl with rfl | hl
      · exact hopening hopens htext
      · exact ih (drop_add_of_drop_eq htext) l hl
  | opened hopens _ =>
      intro l hl
      rw [spansFrom_literal, spansFrom_nil, List.mem_singleton] at hl
      exact hl ▸ hopening hopens htext

end Segments

section Replacement

variable {s : Segmenter} {p : Pattern} {f : List Char → Captures → List Char}
  {t text : List Char} {literals : List Span} {gs : List Segment} {n : Nat}
  (hsealed : p.IsSealed s.marks)

include hsealed

/-- A match in the window of plain code is plain: if the window goes on with a mark, the match
ends before it. -/
theorem isPlain_slice_of_matchAt? (hs : s.IsSingle) {before after : Option Char} {c : Captures}
    (ht : s.IsPlain t) (hc : p.matchAt? (before.toList ++ t ++ after.toList) n = some c)
    (hn : before.toList.length ≤ n) :
    s.IsPlain (slice (before.toList ++ t ++ after.toList) c.span.start c.span.stop) := by
  obtain ⟨hlt, hstop⟩ := hsealed.lt_of_matchAt? hc
  obtain rfl := start_of_matchAt? hc
  have hdrop : (before.toList ++ t ++ after.toList).drop before.toList.length =
      t ++ after.toList := by
    rw [List.append_assoc, List.drop_left]
  rw [isPlain_iff hs] at ht ⊢
  intro a ha
  have hwithin := (slice_infix_slice _ hn (Nat.le_of_lt hlt) (Nat.le_refl _)).subset ha
  rw [slice, hdrop] at hwithin
  by_cases hend : c.span.stop ≤ before.toList.length + t.length
  · rw [List.take_append_of_le_length (by omega)] at hwithin
    exact ht a (List.mem_of_mem_take hwithin)
  -- a match that covers the character behind the code ends with it
  · cases after with
    | none =>
        simp only [Option.toList_none, List.append_nil, List.length_append] at hstop
        omega
    | some o =>
        have hlast : (slice (before.toList ++ t ++ (some o).toList) c.span.start
            c.span.stop).getLast? = some o := by
          have hlength : c.span.stop - 1 = (before.toList ++ t).length := by
            simp only [Option.toList_some, List.length_append, List.length_singleton] at hstop
            rw [List.length_append]
            omega
          rw [getLast?_slice hlt hstop, hlength, Option.toList_some, List.getElem?_concat_length]
        have ho := hsealed.not_mem_of_getLast? (spells_of_matchAt? hc).1 hlast
        rcases List.mem_append.1 (List.mem_of_mem_take hwithin) with ha | ha
        · exact ht a ha
        · rwa [List.mem_singleton.1 ha]

/-- At the end of the text there is nothing to replace. -/
theorem splice_exchangesFrom_nil (h : text.drop n = []) (hn : n ≤ text.length) :
    splice text n (exchangesFrom p f [] text n) = [] := by
  have hlength := List.drop_eq_nil_iff.1 h
  have hnone : p.find text n = none := by
    by_contra hne
    obtain ⟨c, hc⟩ := Option.ne_none_iff_exists'.1 hne
    have hleftmost := isLeftmost_of_find hc
    have hle := hleftmost.le
    have := hsealed.lt_of_matchAt? hleftmost.here
    omega
  have hfinished : searchStep p.matcher [] text n = .finished := by
    rw [searchStep]
    simp only [Pattern.matcher, hnone]
  rw [exchangesFrom, matchesFrom_of_finished hfinished, List.map_nil, splice, h]

/-- A literal stays where it is. -/
theorem splice_exchangesFrom_literal {d : Delimiters} {body : List Char} {terminated : Bool}
    (f : List Char → Captures → List Char)
    (hstart : StartWith s.marks text (spansFrom n (.literal d body terminated :: gs)))
    (htext : text.drop n = textOf (.literal d body terminated :: gs)) :
    let e := n + (Segment.literal d body terminated).text.length
    splice text n
        (exchangesFrom p f (spansFrom n (.literal d body terminated :: gs)) text n) =
      (Segment.literal d body terminated).text ++
        splice text e (exchangesFrom p f (spansFrom e gs) text e) := by
  intro e
  rw [spansFrom_literal] at hstart ⊢
  have hpass := matchesFrom_literal hsealed hstart
  have hpassed : matchesFrom p.matcher (⟨n, e⟩ :: spansFrom e gs) text e =
      matchesFrom p.matcher (spansFrom e gs) text e :=
    matchesFrom_append [⟨n, e⟩] fun l hl => (List.mem_singleton.1 hl) ▸ Nat.le_refl _
  have hexchanges : exchangesFrom p f (⟨n, e⟩ :: spansFrom e gs) text n =
      exchangesFrom p f (spansFrom e gs) text e := by
    rw [exchangesFrom, exchangesFrom, hpass, hpassed]
  rw [hexchanges, splice_of_le (ascends_exchangesFrom p f (spansFrom e gs) text e)
    (Nat.le_add_right _ _), slice_add_of_drop_eq htext]

variable (hf : s.IsTame f)

include hf

/-- Replacement in a stretch of code makes no literal of it. -/
theorem isPlain_rewriteIn (hs : s.IsSingle) {before after : Option Char} (ht : s.IsPlain t) :
    s.IsPlain (p.rewriteIn f before t after) := by
  have hascends := ascends_exchangesFrom p f [] (before.toList ++ t ++ after.toList)
    before.toList.length
  intro a ha
  rcases mem_splice hascends ha with ha | ⟨e, he, ha⟩
  · rw [List.drop_left] at ha
    exact ht a ha
  · obtain ⟨c, hc, rfl⟩ := List.mem_map.1 he
    obtain ⟨i, hi, hfind⟩ := exists_find_of_mem_matchesFrom_nil hc
    have hleftmost := isLeftmost_of_find hfind
    have hplain := isPlain_slice_of_matchAt? hsealed hs ht hleftmost.here
      (Nat.le_trans hi hleftmost.le)
    have hlt := (hsealed.lt_of_matchAt? hleftmost.here).1
    exact hf.plain (Nat.le_of_lt hlt) (spells_of_matchAt? hleftmost.here).2 hplain a ha

/-- A replacement text is made from the window of its stretch of code as from the whole text. -/
theorem eq_of_find_window {b i : Nat} {c : Captures} (hn : n ≤ text.length) (hnb : n ≤ b)
    (hbefore : ∀ q, charBefore? text n = some q → q ∈ s.fences)
    (hmark : ∀ o, text[b]? = some o → o ∈ s.marks)
    (hc : p.find (slice text (n - 1) (b + 1)) i = some c) (hi : n - (n - 1) ≤ i) :
    f text (c.shift (n - 1)) = f (slice text (n - 1) (b + 1)) c := by
  have hleftmost := isLeftmost_of_find hc
  have hle := hleftmost.le
  have hlt := hsealed.lt_of_matchAt? hleftmost.here
  have hstop := stop_add_le_of_matchAt?_slice hsealed hmark (by omega) hleftmost.here
  have hx : (text.take (n - 1)).length = n - 1 := by
    rw [List.length_take]
    omega
  have hfenced : Fenced s.fences (text.take (n - 1)) (slice text (n - 1) (b + 1))
      (text.drop (b + 1)) c.span := by
    refine ⟨⟨Nat.zero_le _, Nat.le_of_lt hlt.1, hlt.2⟩, ?_, ?_⟩
    -- the window starts with the end of a literal, unless it starts the text
    · by_cases hfirst : n - 1 = 0
      · exact .inl (by rw [hfirst, List.take_zero])
      · obtain ⟨m, rfl⟩ : ∃ m, n = m + 1 := ⟨n - 1, by omega⟩
        have hm : text[m]? = some text[m] := List.getElem?_eq_getElem (by omega)
        refine .inr ⟨by omega, text[m], hbefore _ ((charBefore?_succ (by omega)).trans hm), ?_⟩
        rw [List.head?_eq_getElem?, getElem?_slice (by omega), ← hm]
        rfl
    -- and it ends with the start of a literal, unless it ends the text
    · by_cases hend : text.length ≤ b + 1
      · exact .inl (List.drop_eq_nil_of_le hend)
      · have hb : text[b]? = some text[b] := List.getElem?_eq_getElem (by omega)
        have hlength : (slice text (n - 1) (b + 1)).length = b + 1 - (n - 1) :=
          length_slice (by omega)
        refine .inr ⟨by omega, text[b], marks_subset_fences s (hmark _ hb), ?_⟩
        rw [getLast?_slice (by omega) (by omega), Nat.add_sub_cancel, hb]
  have hmoves := hf.moves hfenced (spells_of_matchAt? hleftmost.here).2
  rwa [take_append_slice_append_drop text (by omega), hx] at hmoves

/-- What is exchanged in a stretch of code is what is exchanged in its window.  The window has
one character more on both sides, if there is one. -/
theorem exchangesFrom_code {b : Nat} (hstart : StartWith s.marks text literals)
    (hn : n ≤ text.length) (hnb : n ≤ b) (hb : b ≤ text.length)
    (hends : CodeEnds text literals b)
    (hbefore : ∀ q, charBefore? text n = some q → q ∈ s.fences) :
    exchangesFrom p f literals text n =
      (exchangesFrom p f [] (slice text (n - 1) (b + 1)) (n - (n - 1))).map
          (fun e => (e.1.shift (n - 1), e.2)) ++
        exchangesFrom p f literals text b := by
  have hmark : ∀ o, text[b]? = some o → o ∈ s.marks := fun _ => hstart.mem_of_getElem? hends
  have hposition : n - (n - 1) + (n - 1) = n := by omega
  have hsplit := matchesFrom_code hsealed hstart hb hends (j := n - (n - 1)) (n := n - 1)
    (by omega) (by omega)
  rw [hposition] at hsplit
  rw [exchangesFrom, hsplit, List.map_append, List.map_map, exchangesFrom, List.map_map]
  refine congrArg (· ++ _) (List.map_congr_left fun c hc => Prod.ext rfl ?_)
  obtain ⟨i, hi, hfind⟩ := exists_find_of_mem_matchesFrom_nil hc
  exact eq_of_find_window hsealed hf hn hnb hbefore hmark hfind hi

omit hf in
/-- What is exchanged in the window of a stretch of code lies in the stretch. -/
theorem stop_add_le_of_mem_exchangesFrom {b : Nat} {e : Span × List Char} (hnb : n ≤ b)
    (hmark : ∀ o, text[b]? = some o → o ∈ s.marks)
    (he : e ∈ exchangesFrom p f [] (slice text (n - 1) (b + 1)) (n - (n - 1))) :
    e.1.stop + (n - 1) ≤ b := by
  obtain ⟨c, hc, rfl⟩ := List.mem_map.1 he
  obtain ⟨i, hi, hfind⟩ := exists_find_of_mem_matchesFrom_nil hc
  exact stop_add_le_of_matchAt?_slice hsealed hmark (Nat.le_trans (Nat.sub_le n 1) hnb)
    (isLeftmost_of_find hfind).here

/-- Replacement up to the end of a stretch of code is replacement in the window. -/
theorem splice_exchangesFrom_window {b : Nat} (hstart : StartWith s.marks text literals)
    (hn : n ≤ text.length) (hnb : n ≤ b) (hb : b ≤ text.length)
    (hends : CodeEnds text literals b)
    (hbefore : ∀ q, charBefore? text n = some q → q ∈ s.fences) :
    splice text n (exchangesFrom p f literals text n) =
      splice (slice text (n - 1) b) (n - (n - 1))
          (exchangesFrom p f [] (slice text (n - 1) (b + 1)) (n - (n - 1))) ++
        splice text b (exchangesFrom p f literals text b) := by
  have hsplit := exchangesFrom_code hsealed hf hstart hn hnb hb hends hbefore
  have hascends := ascends_exchangesFrom p f literals text n
  rw [hsplit, List.map_append] at hascends
  -- the exchanges in front reach up to `b` at most, so those behind can be made apart
  have hfront := hascends.of_append (b := b) fun l hl => by
    obtain ⟨moved, hmoved, rfl⟩ := List.mem_map.1 hl
    obtain ⟨e, he, rfl⟩ := List.mem_map.1 hmoved
    exact stop_add_le_of_mem_exchangesFrom hsealed hnb
      (fun _ => hstart.mem_of_getElem? hends) he
  have hx : (text.take (n - 1)).length = n - 1 := by
    rw [List.length_take]
    omega
  have htake : text.take b = text.take (n - 1) ++ slice text (n - 1) b := by
    rw [← slice_zero, ← slice_zero, slice_append_slice text (Nat.zero_le _) (by omega)]
  have hposition : n - (n - 1) + (n - 1) = n := by omega
  have hshift := splice_shift (w := slice text (n - 1) b) (i := n - (n - 1)) (text.take (n - 1))
    (exchangesFrom p f [] (slice text (n - 1) (b + 1)) (n - (n - 1)))
  rw [← htake, hx, hposition] at hshift
  rw [hsplit, splice_append hfront (ascends_exchangesFrom p f literals text b) hnb, hshift]

/-- A stretch of code is replaced in its window. -/
theorem splice_exchangesFrom_code {b : Nat} (hbt : n + t.length = b)
    (hstart : StartWith s.marks text (spansFrom b gs))
    (hnext : gs = [] ∨ ∃ g rest, gs = g :: rest ∧ g.isLiteral = true)
    (htext : text.drop n = textOf (.code t :: gs)) (hn : n ≤ text.length)
    (hbefore : ∀ q, charBefore? text n = some q → q ∈ s.fences) :
    splice text n (exchangesFrom p f (spansFrom b gs) text n) =
      p.rewriteIn f (charBefore? text n) t (textOf gs).head? ++
        splice text b (exchangesFrom p f (spansFrom b gs) text b) := by
  have hb : b ≤ text.length := hbt ▸ add_length_le_of_drop_eq htext hn
  have hnb : n ≤ b := hbt ▸ Nat.le_add_right _ _
  have hrest : text.drop b = textOf gs := hbt ▸ drop_add_of_drop_eq htext
  have ht : slice text n b = t := hbt ▸ slice_add_of_drop_eq htext
  have hafter : text[b]? = (textOf gs).head? := by rw [← List.head?_drop, hrest]
  have hfront : slice text (n - 1) b = (charBefore? text n).toList ++ t := by
    rw [← slice_append_slice text (Nat.sub_le n 1) hnb, slice_pred hn, ht]
  have hwindow : slice text (n - 1) (b + 1) =
      (charBefore? text n).toList ++ t ++ (textOf gs).head?.toList := by
    rw [← slice_append_slice text (by omega) (Nat.le_succ b), hfront, slice_succ, hafter]
  have hlength : n - (n - 1) = (charBefore? text n).toList.length := by
    rw [← slice_pred hn, length_slice hn]
  -- the first literal behind the code starts where the code ends
  have hends : CodeEnds text (spansFrom b gs) b := by
    rcases hnext with rfl | ⟨g, rest, rfl, hg⟩
    · exact .inl ⟨rfl, Nat.le_antisymm hb (List.drop_eq_nil_iff.1 hrest)⟩
    · cases g with
      | code u => contradiction
      | literal d body terminated => exact .inr ⟨_, _, rfl, rfl⟩
  rw [splice_exchangesFrom_window hsealed hf hstart hn hnb hb hends hbefore, hwindow, hfront,
    hlength]
  rfl

/-- **Replacement goes through the segments one by one.** -/
theorem splice_exchangesFrom (hcut : s.IsCut gs)
    (halternate : gs.IsChain fun g h => g.isLiteral = true ∨ h.isLiteral = true)
    (htext : text.drop n = textOf gs) (hn : n ≤ text.length)
    (hbefore : ∀ t rest, gs = .code t :: rest → ∀ q, charBefore? text n = some q → q ∈ s.fences) :
    splice text n (exchangesFrom p f (spansFrom n gs) text n) =
      textOf (mapCodeIn (p.rewriteIn f) (charBefore? text n) gs) := by
  have hstart := startWith_spansFrom hcut htext
  induction hcut generalizing n with
  | nil => exact splice_exchangesFrom_nil hsealed htext hn
  | @code t gs hplain hrest ih =>
      obtain ⟨hhead, htail⟩ := List.isChain_cons.1 halternate
      have hnext : gs = [] ∨ ∃ g rest, gs = g :: rest ∧ g.isLiteral = true := by
        cases gs with
        | nil => exact .inl rfl
        | cons g rest =>
            exact .inr ⟨g, rest, rfl, (hhead g rfl).resolve_left (by simp [isLiteral])⟩
      have hcode := splice_exchangesFrom_code hsealed hf (b := n + t.length) rfl hstart hnext htext
        hn (hbefore t gs rfl)
      have hlater := ih htail (drop_add_of_drop_eq htext)
        (add_length_le_of_drop_eq htext hn) (fun u rest hu => ?_) hstart
      · rw [charBefore?_add_of_drop_eq htext] at hlater
        rw [spansFrom_code, hcode, mapCodeIn, textOf_cons]
        exact congrArg (_ ++ ·) hlater
      · -- no code follows code
        rcases hnext with rfl | ⟨g, rest, rfl, hg⟩
        · contradiction
        · simp [(List.cons.inj hu).1, isLiteral] at hg
  | @closed d body gs hopens hbody hrest ih =>
      have hlater := ih (List.isChain_cons.1 halternate).2 (drop_add_of_drop_eq htext)
        (add_length_le_of_drop_eq htext hn)
        (fun _ _ _ _ => mem_fences_of_charBefore? (List.mem_of_find?_eq_some hopens) htext)
        (startWith_spansFrom hrest (drop_add_of_drop_eq htext))
      rw [splice_exchangesFrom_literal hsealed f hstart htext, hlater,
        charBefore?_add_of_drop_eq htext, mapCodeIn, textOf_cons]
  | @opened d body hopens hbody =>
      have hend := drop_add_of_drop_eq htext
      rw [splice_exchangesFrom_literal hsealed f hstart htext, spansFrom_nil,
        splice_exchangesFrom_nil hsealed hend (add_length_le_of_drop_eq htext hn), mapCodeIn,
        textOf_cons]
      rfl

end Replacement

/-- No two stretches of code stand side by side. -/
theorem isChain_segments (s : Segmenter) (text : List Char) :
    (s.segments text).IsChain fun g h => g.isLiteral = true ∨ h.isLiteral = true := by
  fun_induction segments s text with
  | case1 => exact .nil
  | case2 c rest hopens ih =>
      cases hrest : s.segments rest with
      | nil => exact .singleton _
      | cons g gs =>
          rw [hrest] at ih
          cases g with
          | code t => exact List.isChain_cons.2 (List.isChain_cons.1 ih)
          | literal d body terminated =>
              refine List.isChain_cons.2 ⟨fun h hh => .inr ?_, ih⟩
              rw [← Option.some.inj hh]
              rfl
  | case3 => exact .singleton _
  | case4 c rest d hopens body after hsplit ih =>
      exact List.isChain_cons.2 ⟨fun h hh => .inl rfl, ih⟩

/-- **Replacement outside literals goes through the stretches of code**, each with the characters
next to it, if the pattern is sealed against opening marks and the replacement text is tame. -/
theorem replaceOutside_eq {s : Segmenter} {p : Pattern} {f : List Char → Captures → List Char}
    (hsealed : p.IsSealed s.marks) (hf : s.IsTame f) (text : List Char) :
    s.replaceOutside p.matcher f text =
      textOf (mapCodeIn (p.rewriteIn f) none (s.segments text)) := by
  have htext : text.drop 0 = textOf (s.segments text) := (textOf_segments s text).symm
  exact splice_exchangesFrom hsealed hf (isCut_segments s text) (isChain_segments s text) htext
    (Nat.zero_le _) (by simp)

/-- So it is codewise. -/
theorem isCodewise_replaceOutside {s : Segmenter} {p : Pattern}
    {f : List Char → Captures → List Char} (hs : s.IsSingle) (hsealed : p.IsSealed s.marks)
    (hf : s.IsTame f) : s.IsCodewise (s.replaceOutside p.matcher f) :=
  ⟨p.rewriteIn f, isPlain_rewriteIn hsealed hf hs, replaceOutside_eq hsealed hf⟩

end Segmenter

end RuleCanon
