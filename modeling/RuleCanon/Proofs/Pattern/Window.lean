import RuleCanon.Proofs.Pattern.Search
import RuleCanon.Proofs.Pattern.Sealed
import RuleCanon.Proofs.Text.Slice

/-!
# Searching a window of a text

A window of a text ends with a mark or at the end of the text.  A sealed pattern that is
searched for in the window finds what it finds at that place in the whole text, if the match
lies before the mark.  It finds nothing just if the whole text has nothing there, or if what the
text has runs across the mark.

Throughout, the window starts at the position `n` of the text and holds the character at `b`, if
there is one.  Places of the window at which something is searched for have a character before
them in the window, unless the window starts with the text.

## Main Statements

* `Pattern.exists_find_slice_of_stop_le` — a match before the mark is found in the window
* `Pattern.find_slice_eq_none` — otherwise the window has nothing
-/

namespace RuleCanon

namespace Pattern

variable {p : Pattern} {marks text : List Char} {n b i j : Nat} {c d : Captures}

/-- A match of a sealed pattern holds characters of the text. -/
theorem IsSealed.lt_of_matchAt? (h : p.IsSealed marks) (hc : p.matchAt? text i = some c) :
    c.span.start < c.span.stop ∧ c.span.stop ≤ text.length := by
  have hne := h.ne_nil (spells_of_matchAt? hc).1
  have hlt : c.span.start < c.span.stop := by
    by_contra hle
    rw [slice, Nat.sub_eq_zero_of_le (by omega)] at hne
    simp at hne
  have hstart : c.span.start < text.length := by
    by_contra hle
    rw [slice, List.drop_eq_nil_of_le (by omega)] at hne
    simp at hne
  obtain ⟨-, -, hwithin⟩ := within_of_matchHere? hc
  rw [List.length_drop] at hwithin
  have : c.span.start = i := start_of_matchAt? hc
  refine ⟨hlt, Nat.le_trans hwithin ?_⟩
  simp only
  omega

/-- Up to and including the character at its end the window shows the text. -/
theorem alike_slice (hj : 0 < j ∨ n = 0) (hle : j + n ≤ b) (hb : b ≤ text.length) :
    Cursor.Alike n (b + 1 - n)
      ⟨j, charBefore? (slice text n (b + 1)) j, (slice text n (b + 1)).drop j⟩
      ⟨j + n, charBefore? text (j + n), text.drop (j + n)⟩ where
  position := rfl
  previous := by
    have hx : (text.take n).length = n := by
      rw [List.length_take]
      omega
    have hlength : j ≤ (slice text n (b + 1)).length := by
      rw [slice, List.length_take, List.length_drop]
      omega
    have hbefore := charBefore?_append_append (x := text.take n) (y := text.drop (b + 1)) hlength
      (hj.imp_right fun hn => by rw [hn, List.take_zero])
    rwa [take_append_slice_append_drop text (by omega), hx] at hbefore
  rest := by
    rw [slice, List.drop_take, List.drop_drop, List.take_take, Nat.min_self, Nat.add_comm n j]

section Sealed

variable (hsealed : p.IsSealed marks) (hmark : ∀ o, text[b]? = some o → o ∈ marks)

include hsealed hmark

/-- A match in the window leaves the mark alone. -/
theorem stop_add_le_of_matchAt?_slice (hn : n ≤ b)
    (hc : p.matchAt? (slice text n (b + 1)) j = some c) : c.span.stop + n ≤ b := by
  obtain ⟨hlt, hstop⟩ := hsealed.lt_of_matchAt? hc
  by_contra hlong
  have hlength : (slice text n (b + 1)).length ≤ b + 1 - n := List.length_take_le _ _
  -- otherwise the match would end with the mark
  have hlast : (slice (slice text n (b + 1)) c.span.start c.span.stop).getLast? = text[b]? := by
    rw [getLast?_slice hlt hstop, getElem?_slice (by omega)]
    congr 1
    omega
  have hspells := (spells_of_matchAt? hc).1
  obtain ⟨o, ho⟩ := Option.ne_none_iff_exists'.1 (mt List.getLast?_eq_none_iff.1
    (hsealed.ne_nil hspells))
  exact hsealed.not_mem_of_getLast? hspells ho (hmark o (hlast ▸ ho))

/-- A match in the window shows that the text has a match at that place. -/
theorem exists_matchAt?_of_slice (hj : 0 < j ∨ n = 0) (hle : j + n ≤ b) (hb : b ≤ text.length)
    (hc : p.matchAt? (slice text n (b + 1)) j = some c) :
    ∃ d, p.matchAt? text (j + n) = some d := by
  have hstop := stop_add_le_of_matchAt?_slice hsealed hmark (by omega) hc
  exact exists_matchHere?_of_lt (alike_slice hj hle hb) hc (by omega)

/-- A match in the text that lies before the mark is a match in the window. -/
theorem exists_slice_of_matchAt? (hj : 0 < j ∨ n = 0) (hb : b ≤ text.length)
    (hd : p.matchAt? text (j + n) = some d) (hstop : d.span.stop ≤ b) :
    ∃ c, p.matchAt? (slice text n (b + 1)) j = some c ∧ d = c.shift n := by
  have hstart := start_of_matchAt? hd
  have hlt := (hsealed.lt_of_matchAt? hd).1
  have halike := alike_slice hj (show j + n ≤ b by omega) hb
  obtain ⟨c, hc⟩ := exists_matchHere?_of_lt_add halike hd (by omega)
  have hcstop := stop_add_le_of_matchAt?_slice hsealed hmark (by omega) hc
  exact ⟨c, hc, eq_shift_of_matchHere? halike hc (by omega) hd (by omega)⟩

/-- **A match before the mark is found in the window.** -/
theorem exists_find_slice_of_stop_le (hj : 0 < j ∨ n = 0) (hb : b ≤ text.length)
    (hd : p.find text (j + n) = some d) (hstop : d.span.stop ≤ b) :
    ∃ c, p.find (slice text n (b + 1)) j = some c ∧ d = c.shift n := by
  have hleftmost := isLeftmost_of_find hd
  have hge := hleftmost.le
  have hlt := (hsealed.lt_of_matchAt? hleftmost.here).1
  obtain ⟨i, hi⟩ : ∃ i, d.span.start = i + n := ⟨d.span.start - n, by omega⟩
  have hhere := hleftmost.here
  rw [hi] at hhere
  obtain ⟨c, hc, rfl⟩ := exists_slice_of_matchAt? hsealed hmark (by omega) hb hhere hstop
  obtain rfl : c.span.start = i := start_of_matchAt? hc
  refine ⟨c, find_eq_some_iff.2 ⟨⟨by omega, hc, fun k hk hlt => ?_⟩, ?_⟩, rfl⟩
  · by_contra hne
    obtain ⟨e, he⟩ := Option.ne_none_iff_exists'.1 hne
    obtain ⟨e', he'⟩ := exists_matchAt?_of_slice hsealed hmark (by omega) (by omega) hb he
    simpa [he'] using hleftmost.before (k + n) (by omega) (by omega)
  · have := hsealed.lt_of_matchAt? hc
    omega

/-- What was read up to the mark holds no match, if it was read by a match. -/
theorem matchAt?_slice_eq_none_of_crosses (hle : j + n ≤ b) (hd : p.matchAt? text i = some d)
    (hi : i ≤ j + n) (hcrosses : b < d.span.stop) :
    p.matchAt? (slice text n (b + 1)) j = none := by
  by_contra hne
  obtain ⟨c, hc⟩ := Option.ne_none_iff_exists'.1 hne
  have hstop := hsealed.lt_of_matchAt? hd
  have hcstart := start_of_matchAt? hc
  have hclt := hsealed.lt_of_matchAt? hc
  obtain rfl : d.span.start = i := start_of_matchAt? hd
  have hcstop := stop_add_le_of_matchAt?_slice hsealed hmark (by omega) hc
  have hbo : text[b]? = some text[b] := List.getElem?_eq_getElem (by omega)
  -- the word of `d` has the mark in it, and the word of `c` lies before the mark
  have hword := (spells_of_matchAt? hd).1
  rw [slice_eq_append_cons (by omega) hcrosses hbo] at hword
  refine hsealed.not_spells_of_infix hword (hmark _ hbo) ?_ (spells_of_matchAt? hc).1
  rw [slice_slice text (by omega)]
  exact slice_infix_slice text (by omega) (by omega) (by omega)

/-- **The window has nothing if the text has nothing there or runs across the mark.** -/
theorem find_slice_eq_none (hj : 0 < j ∨ n = 0) (hle : j + n ≤ b) (hb : b ≤ text.length)
    (h : ∀ d, p.find text (j + n) = some d → b < d.span.stop) :
    p.find (slice text n (b + 1)) j = none := by
  refine find_eq_none_iff.2 fun k hk _ => ?_
  by_contra hne
  obtain ⟨c, hc⟩ := Option.ne_none_iff_exists'.1 hne
  have hstop := stop_add_le_of_matchAt?_slice hsealed hmark (by omega) hc
  have hstart := start_of_matchAt? hc
  have hlt := hsealed.lt_of_matchAt? hc
  obtain ⟨e, he⟩ := exists_matchAt?_of_slice hsealed hmark (by omega) (by omega) hb hc
  cases hfind : p.find text (j + n) with
  | none =>
      have hnone := find_eq_none_iff.1 hfind (k + n) (by omega) (by omega)
      simp [he] at hnone
  | some d =>
      have hleftmost := isLeftmost_of_find hfind
      have hge : d.span.start ≤ k + n := by
        by_contra hlater
        simpa [he] using hleftmost.before (k + n) (by omega) (by omega)
      have hnone := matchAt?_slice_eq_none_of_crosses hsealed hmark (by omega) hleftmost.here
        hge (h d hfind)
      simp [hc] at hnone

end Sealed

end Pattern

end RuleCanon
