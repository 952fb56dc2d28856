import RuleCanon.Proofs.Literal.Cut
import RuleCanon.Proofs.Literal.Step

/-!
# Replacement that touches no literal

The literals of a text take up stretches of it, in order and apart from each other.  Stretches
that touch none of them may be exchanged for anything: the text that comes out is made up of
the same literals in the same order, with other code between them.  To see this the segments
are split at both ends of each exchanged stretch, which is possible because neither end lies
strictly inside a literal.

## Main Definitions

* `Segment.spansFrom` — the stretches of the literals among segments
* `Orderly` — stretches with characters, in order and apart from each other

## Main Statements

* `Segment.orderly_spansFrom` — the stretches of literals are orderly
* `Segment.exists_split` — segments can be split wherever no literal is cut
* `Segment.exists_splitAround` — and around any stretch that touches no literal
* `Segmenter.exists_segments_splice` — an exchange that touches no literal keeps the literals
-/

namespace RuleCanon

/-- Stretches that hold characters, in order and apart from each other. -/
structure Orderly (spans : List Span) : Prop where
  ordered : spans.Pairwise (fun a b => a.stop ≤ b.start)
  filled : ∀ s ∈ spans, s.start < s.stop

theorem Orderly.of_append {front back : List Span} (h : Orderly (front ++ back)) :
    Orderly back where
  ordered := (List.pairwise_append.1 h.ordered).2.1
  filled s hs := h.filled s (List.mem_append_right _ hs)

namespace Orderly

variable {spans : List Span} {l m : Span} {i : Nat}

/-- The first stretch that ends behind a position starts before all others that do. -/
theorem start_le_of_find? (h : Orderly spans) (hm : spans.find? (i < ·.stop) = some m)
    (hl : l ∈ spans) (hi : i < l.stop) : m.start ≤ l.start := by
  obtain ⟨-, before, after, rfl, hbefore⟩ := List.find?_eq_some_iff_append.1 hm
  rcases List.mem_append.1 hl with hl | hl
  · simpa [hi] using hbefore l hl
  · rcases List.mem_cons.1 hl with rfl | hl
    · exact Nat.le_refl _
    · have hle := (List.pairwise_cons.1 h.of_append.ordered).1 l hl
      have := h.filled m (by simp)
      omega

/-- A stretch that starts before the next one of them and touches any of them runs into the next
one. -/
theorem lt_stop_of_touches (h : Orderly spans) {s : Span}
    (hfirst : spans.find? (s.start < ·.stop) = some m) (hbefore : s.start < m.start)
    (hl : l ∈ spans) (htouches : s.touches l = true) : m.start < s.stop := by
  rw [Span.touches] at htouches
  split at htouches <;> simp only [Bool.and_eq_true, decide_eq_true_eq] at htouches
  · have := h.start_le_of_find? hfirst hl htouches.2
    omega
  · have := h.start_le_of_find? hfirst hl htouches.1
    omega

end Orderly

namespace Span

variable {s l : Span}

theorem not_inside_of_touches_eq_false (hle : s.start ≤ s.stop) (h : s.touches l = false) :
    ¬ (l.start < s.start ∧ s.start < l.stop) ∧ ¬ (l.start < s.stop ∧ s.stop < l.stop) := by
  by_cases hvoid : s.start = s.stop
  · have hinside : ¬ (l.start < s.start ∧ s.start < l.stop) := by
      simpa [touches, IsVoid, hvoid] using h
    exact ⟨hinside, hvoid ▸ hinside⟩
  · have hapart : s.start < l.stop → s.stop ≤ l.start := by
      simpa [touches, IsVoid, hvoid] using h
    constructor <;> intro hinside <;> omega

/-- A stretch that a literal lies in touches it. -/
theorem touches_of_within (hl : l.start < l.stop) (h : l.Within s.start s.stop) :
    s.touches l = true := by
  obtain ⟨h₁, h₂, h₃⟩ := h
  rw [touches_iff (by omega)]
  omega

end Span

namespace Segment

/-! ## Where literals stand -/

/-- The stretches of the literals among segments, the first of which starts at `start`. -/
def spansFrom (start : Nat) (gs : List Segment) : List Span :=
  ((layout start gs).filter (·.2.isLiteral)).map (·.1)

variable {n k : Nat} {gs : List Segment}

@[simp] theorem spansFrom_nil (n : Nat) : spansFrom n [] = [] := rfl

@[simp] theorem spansFrom_code (n : Nat) (t : List Char) (gs : List Segment) :
    spansFrom n (code t :: gs) = spansFrom (n + t.length) gs := rfl

@[simp] theorem spansFrom_literal (n : Nat) (d : Delimiters) (body : List Char)
    (terminated : Bool) (gs : List Segment) :
    spansFrom n (literal d body terminated :: gs) =
      ⟨n, n + (literal d body terminated).text.length⟩ ::
        spansFrom (n + (literal d body terminated).text.length) gs := rfl

theorem within_of_mem_spansFrom {l : Span} (h : l ∈ spansFrom n gs) :
    l.Within n (n + (textOf gs).length) := by
  induction gs generalizing n with
  | nil => contradiction
  | cons g gs ih =>
      rw [textOf_cons, List.length_append, ← Nat.add_assoc]
      cases g with
      | code t =>
          rw [spansFrom_code] at h
          obtain ⟨h₁, h₂, h₃⟩ := ih h
          exact ⟨by omega, h₂, h₃⟩
      | literal d body terminated =>
          rw [spansFrom_literal, List.mem_cons] at h
          rcases h with rfl | h
          · exact ⟨Nat.le_refl _, Nat.le_add_right _ _, Nat.le_add_right _ _⟩
          · obtain ⟨h₁, h₂, h₃⟩ := ih h
            exact ⟨by omega, h₂, h₃⟩

/-- **The stretches of literals are in order and apart from each other**, and if no literal is
without characters, none of them is void. -/
theorem orderly_spansFrom (hfilled : ∀ g ∈ gs, g.isLiteral = true → g.text ≠ []) :
    Orderly (spansFrom n gs) := by
  induction gs generalizing n with
  | nil => exact ⟨.nil, by simp⟩
  | cons g gs ih =>
      have hrest (n : Nat) : Orderly (spansFrom n gs) :=
        ih fun h hh => hfilled h (List.mem_cons_of_mem g hh)
      cases g with
      | code t => exact hrest _
      | literal d body terminated =>
          have hpos := List.length_pos_iff.2 (hfilled _ List.mem_cons_self rfl)
          rw [spansFrom_literal]
          constructor
          · exact .cons (fun l hl => (within_of_mem_spansFrom hl).1) (hrest _).ordered
          · intro l hl
            rcases List.mem_cons.1 hl with rfl | hl
            · exact Nat.lt_add_of_pos_right hpos
            · exact (hrest _).filled l hl

theorem filter_isLiteral_eq_nil (h : spansFrom n gs = []) :
    gs.filter (·.isLiteral) = [] := by
  induction gs generalizing n with
  | nil => rfl
  | cons g gs ih =>
      cases g with
      | code t => exact ih h
      | literal => simp at h

/-! ## Splitting segments -/

/-- Two lists of segments that make up another one, the second of which starts at `k`: the text
is the same, the literals are, and they stand where they stood. -/
structure IsSplit (n k : Nat) (gs front back : List Segment) : Prop where
  text : textOf front ++ textOf back = textOf gs
  length : n + (textOf front).length = k
  literals : front.filter (·.isLiteral) ++ back.filter (·.isLiteral) = gs.filter (·.isLiteral)
  spans : spansFrom n front ++ spansFrom k back = spansFrom n gs

theorem IsSplit.cons {front back : List Segment} {g : Segment}
    (h : IsSplit (n + g.text.length) k gs front back) :
    IsSplit n k (g :: gs) (g :: front) back where
  text := by rw [textOf_cons, textOf_cons, List.append_assoc, h.text]
  length := by
    have := h.length
    rw [textOf_cons, List.length_append]
    omega
  literals := by
    have := h.literals
    cases g with
    | code t => exact this
    | literal => simpa [isLiteral] using this
  spans := by
    have := h.spans
    cases g with
    | code t => exact this
    | literal => exact congrArg (_ :: ·) this

/-- **Segments can be split wherever no literal is cut.** -/
theorem exists_split (hle : n ≤ k) (hk : k ≤ n + (textOf gs).length)
    (hcut : ∀ l ∈ spansFrom n gs, ¬ (l.start < k ∧ k < l.stop)) :
    ∃ front back, IsSplit n k gs front back := by
  induction gs generalizing n with
  | nil =>
      obtain rfl : k = n := Nat.le_antisymm hk hle
      exact ⟨[], [], rfl, rfl, rfl, rfl⟩
  | cons g gs ih =>
      rw [textOf_cons, List.length_append] at hk
      by_cases hbehind : n + g.text.length ≤ k
      · have hcut' : ∀ l ∈ spansFrom (n + g.text.length) gs, ¬ (l.start < k ∧ k < l.stop) := by
          intro l hl
          cases g with
          | code t => exact hcut l hl
          | literal => exact hcut l (List.mem_cons_of_mem _ hl)
        obtain ⟨front, back, hsplit⟩ := ih hbehind (by omega) hcut'
        exact ⟨g :: front, back, hsplit.cons⟩
      · cases g with
        | code t =>
            -- the place lies within the code, which is split itself
            have hlength : (t.take (k - n)).length = k - n := by
              rw [List.length_take]
              simp only [text] at hbehind
              omega
            refine ⟨[code (t.take (k - n))], code (t.drop (k - n)) :: gs, ?_, ?_, rfl, ?_⟩
            · rw [textOf_cons, textOf_cons, textOf_nil, List.append_nil, ← List.append_assoc, text,
                text, List.take_append_drop, textOf_cons, text]
            · simp only [textOf_cons, textOf_nil, text, List.append_nil, hlength]
              omega
            · simp only [spansFrom_code, spansFrom_nil, List.nil_append, List.length_drop]
              congr 1
              simp only [text] at hbehind
              omega
        | literal d body terminated =>
            have houtside := hcut _ List.mem_cons_self
            obtain rfl : k = n := by
              simp only at houtside
              omega
            exact ⟨[], literal d body terminated :: gs, rfl, rfl, rfl, rfl⟩

/-- Segments in front of a stretch, in it and behind it, where the stretch has code alone. -/
structure IsSplitAround (n : Nat) (s : Span) (gs front middle back : List Segment) : Prop where
  text : textOf front ++ (textOf middle ++ textOf back) = textOf gs
  start : n + (textOf front).length = s.start
  stop : s.start + (textOf middle).length = s.stop
  literals : front.filter (·.isLiteral) ++ back.filter (·.isLiteral) = gs.filter (·.isLiteral)
  spans : spansFrom n front ++ spansFrom s.stop back = spansFrom n gs

/-- **Segments can be split around a stretch that touches no literal.** -/
theorem exists_splitAround {s : Span} (hwithin : s.Within n (n + (textOf gs).length))
    (horderly : Orderly (spansFrom n gs)) (hapart : ∀ l ∈ spansFrom n gs, s.touches l = false) :
    ∃ front middle back, IsSplitAround n s gs front middle back := by
  obtain ⟨hstart, hle, hstop⟩ := hwithin
  obtain ⟨front, later, hfront⟩ := exists_split hstart (by omega)
    fun l hl => (Span.not_inside_of_touches_eq_false hle (hapart l hl)).1
  have hlater : ∀ l ∈ spansFrom s.start later, l ∈ spansFrom n gs := fun l hl =>
    hfront.spans ▸ List.mem_append_right _ hl
  have hsize : (textOf front).length + (textOf later).length = (textOf gs).length := by
    rw [← List.length_append, hfront.text]
  have hfrontLength := hfront.length
  obtain ⟨middle, back, hback⟩ := exists_split hle (by omega)
    fun l hl => (Span.not_inside_of_touches_eq_false hle (hapart l (hlater l hl))).2
  -- a literal in the middle would be touched
  have hmiddle : spansFrom s.start middle = [] := by
    refine List.eq_nil_iff_forall_not_mem.2 fun l hl => ?_
    have hl' : l ∈ spansFrom n gs := hlater l (hback.spans ▸ List.mem_append_left _ hl)
    have hinside := within_of_mem_spansFrom hl
    rw [hback.length] at hinside
    simpa [hapart l hl'] using Span.touches_of_within (horderly.filled l hl') hinside
  have hliterals := hback.literals
  rw [filter_isLiteral_eq_nil hmiddle, List.nil_append] at hliterals
  have hspans := hback.spans
  rw [hmiddle, List.nil_append] at hspans
  exact ⟨front, middle, back, by rw [hback.text, hfront.text], hfront.length, hback.length,
    by rw [hliterals, hfront.literals], by rw [hspans, hfront.spans]⟩

end Segment

namespace Segmenter

open Segment

/-- A literal holds at least its opening mark. -/
theorem IsCut.text_ne_nil {s : Segmenter} {gs : List Segment} (h : s.IsCut gs) {g : Segment}
    (hg : g ∈ gs) (hliteral : g.isLiteral = true) : g.text ≠ [] := by
  induction h with
  | nil => contradiction
  | code hplain _ ih =>
      rcases List.mem_cons.1 hg with rfl | hg
      · contradiction
      · exact ih hg
  | closed hopens hbody _ ih =>
      rcases List.mem_cons.1 hg with rfl | hg
      · simp [text, opening_ne_nil hopens]
      · exact ih hg
  | opened hopens hbody =>
      rw [List.mem_singleton.1 hg]
      simp [text, opening_ne_nil hopens]

/-- The stretches of the literals of a text are orderly. -/
theorem orderly_literalSpans (s : Segmenter) (text : List Char) :
    Orderly (s.literalSpans text) :=
  Segment.orderly_spansFrom fun _ => (isCut_segments s text).text_ne_nil

/-! ## Exchanging stretches -/

/-- **An exchange that touches no literal keeps the literals**: what comes out is made up of
the same literals in the same order. -/
theorem exists_segments_splice {text : List Char} {n : Nat} {gs : List Segment}
    {exchanges : List (Span × List Char)} (htext : text.drop n = textOf gs)
    (hlength : n ≤ text.length) (horderly : Orderly (spansFrom n gs))
    (hascends : Ascends text.length n (exchanges.map (·.1)))
    (hapart : ∀ e ∈ exchanges, ∀ l ∈ spansFrom n gs, e.1.touches l = false) :
    ∃ hs, hs.filter (·.isLiteral) = gs.filter (·.isLiteral) ∧
      textOf hs = splice text n exchanges := by
  induction exchanges generalizing n gs with
  | nil => exact ⟨gs, rfl, htext.symm⟩
  | cons e rest ih =>
      obtain ⟨s, replacement⟩ := e
      obtain ⟨⟨hstart, hle, hstop⟩, hrest⟩ := hascends
      simp only at hstart hle hstop hrest
      have hsize : n + (textOf gs).length = text.length := by
        rw [← htext, List.length_drop]
        omega
      obtain ⟨front, middle, back, h⟩ := exists_splitAround ⟨hstart, hle, by omega⟩ horderly
        (hapart (s, replacement) List.mem_cons_self)
      have hback : text.drop s.stop = textOf back := by
        rw [← h.stop, ← h.start, Nat.add_assoc, ← List.drop_drop, htext, ← h.text,
          ← List.append_assoc, ← List.length_append, List.drop_left]
      have hspans : ∀ l ∈ spansFrom s.stop back, l ∈ spansFrom n gs := fun l hl =>
        h.spans ▸ List.mem_append_right _ hl
      have hbackOrderly : Orderly (spansFrom s.stop back) := by
        rw [← h.spans] at horderly
        exact horderly.of_append
      obtain ⟨hs, hliterals, hsText⟩ := ih hback hstop hbackOrderly hrest
        fun e he l hl => hapart e (List.mem_cons_of_mem _ he) l (hspans l hl)
      refine ⟨front ++ .code replacement :: hs, ?_, ?_⟩
      · rw [← h.literals, List.filter_append, List.filter_cons_of_neg (by simp [isLiteral]),
          hliterals]
      · have hslice : slice text n s.start = textOf front := by
          rw [slice, htext, ← h.text, ← h.start, Nat.add_sub_cancel_left, List.take_left]
        rw [splice, hslice, textOf_append, textOf_cons, hsText, List.append_assoc]
        rfl

end Segmenter

end RuleCanon
