import Mathlib.Data.List.Find
import RuleCanon.Proofs.Literal.Frame
import RuleCanon.Proofs.Text.Bytes

/-!
# The replacement loop

Replacement outside literals is given by lists: the matches that the search takes, and a text with
their stretches exchanged.  Nothing can go wrong there, since a stretch that reaches too far is
just shorter.  Here the same is written as a loop over byte offsets, where things can go wrong.  A
slice has to be in order and to start and end between two characters, a search may not start behind
the end of the text, which for a confined search is a shorter one, and the loop has only so many
turns.

The loop does not fail.  No slice and no search in it is out of range, and what it puts out and
exchanges is what the lists say.

## Main Definitions

* `byteSlice?`, `nextOffset?`, `Matcher.searchAt?` — slices of a text and searches, if in range
* `Segmenter.turn?` — one search of the loop and what becomes of it
* `Segmenter.loop?`, `Segmenter.replaceBytes?` — the loop, and replacement by means of it
* `IsSplice` — a text in which stretches given in bytes have been exchanged

## Main Statements

* `byteSlice?_eq_some_iff` — when a slice is in range
* `Segmenter.turn?_byteOffset` — a turn is a step of the search
* `Segmenter.loop?_eq` — the loop gives what is left to be put out
* `isSplice_splice` — what stands between the stretches is kept
* `Segmenter.replaceBytes?_eq` — the loop ends and gives the text with the matches exchanged
* `Segmenter.replaceOutside_bytewise` — and the stretches in bytes that it exchanges are in order
-/

namespace RuleCanon

variable {text : List Char} {i j k : Nat}

/-! ## Slices -/

/-- The characters between two offsets.  There are none if the offsets are out of order, or if one
of them lies within a character or behind the end of the text. -/
def byteSlice? (text : List Char) (start stop : Nat) : Option (List Char) := do
  let i ← positionOfByte? text start
  let j ← positionOfByte? text stop
  if i ≤ j then some (slice text i j) else none

/-- The offset behind the character at an offset, or one more at the end of the text. -/
def nextOffset? (text : List Char) (offset : Nat) : Option Nat := do
  let rest ← byteSlice? text offset (utf8Length text)
  some (offset + (rest.head?.map Char.utf8Size).getD 1)

/-- The offset of a position.  The search can go on one position behind the end of the text, which
is taken to be one byte further. -/
def offsetOf (text : List Char) (position : Nat) : Nat :=
  byteOffset text position + (position - text.length)

theorem offsetOf_of_le (hi : i ≤ text.length) : offsetOf text i = byteOffset text i := by
  rw [offsetOf, Nat.sub_eq_zero_of_le hi, Nat.add_zero]

theorem offsetOf_le_iff : offsetOf text i ≤ utf8Length text ↔ i ≤ text.length := by
  constructor
  · intro h
    refine Nat.le_of_not_lt fun hlt => ?_
    rw [offsetOf, byteOffset, List.take_of_length_le (Nat.le_of_lt hlt)] at h
    omega
  · intro hi
    rw [offsetOf_of_le hi, ← byteOffset_length, byteOffset_le_iff hi (Nat.le_refl _)]
    exact hi

/-- **A slice is in range** just if it goes from one position of the text to a later one. -/
theorem byteSlice?_eq_some_iff {start stop : Nat} {w : List Char} :
    byteSlice? text start stop = some w ↔
      ∃ i j, i ≤ j ∧ j ≤ text.length ∧ byteOffset text i = start ∧ byteOffset text j = stop ∧
        w = slice text i j := by
  constructor
  · intro h
    obtain ⟨i, hi, h⟩ := Option.bind_eq_some_iff.1 h
    obtain ⟨j, hj, h⟩ := Option.bind_eq_some_iff.1 h
    obtain ⟨-, hstart⟩ := positionOfByte?_eq_some_iff.1 hi
    obtain ⟨hlength, hstop⟩ := positionOfByte?_eq_some_iff.1 hj
    obtain ⟨hij, hw⟩ := Option.ite_none_right_eq_some.1 h
    exact ⟨i, j, hij, hlength, hstart, hstop, (Option.some.inj hw).symm⟩
  · rintro ⟨i, j, hij, hj, rfl, rfl, rfl⟩
    rw [byteSlice?, positionOfByte?_byteOffset (Nat.le_trans hij hj), positionOfByte?_byteOffset hj]
    exact if_pos hij

theorem byteSlice?_byteOffset (hij : i ≤ j) (hj : j ≤ text.length) :
    byteSlice? text (byteOffset text i) (byteOffset text j) = some (slice text i j) :=
  byteSlice?_eq_some_iff.2 ⟨i, j, hij, hj, rfl, rfl, rfl⟩

/-- A slice that ends within a character. -/
example : byteSlice? "甲乙".toList 3 5 = none := by decide

/-- From the start of a text on. -/
theorem byteSlice?_zero (hj : j ≤ text.length) :
    byteSlice? text 0 (byteOffset text j) = some (text.take j) := by
  have hslice := byteSlice?_byteOffset (Nat.zero_le j) hj
  rwa [byteOffset_zero, slice_zero] at hslice

/-- Up to the end of a text. -/
theorem byteSlice?_utf8Length (hi : i ≤ text.length) :
    byteSlice? text (byteOffset text i) (utf8Length text) = some (text.drop i) := by
  rw [← byteOffset_length, byteSlice?_byteOffset hi (Nat.le_refl _), slice,
    List.take_of_length_le (Nat.le_of_eq (List.length_drop ..))]

/-- The next offset is that of the next position. -/
theorem nextOffset?_byteOffset (hi : i ≤ text.length) :
    nextOffset? text (byteOffset text i) = some (offsetOf text (i + 1)) := by
  have hnext : byteOffset text i + utf8Length (slice text i (i + 1)) = byteOffset text (i + 1) :=
    byteOffset_add_utf8Length_slice (Nat.le_succ i)
  rw [nextOffset?, byteSlice?_utf8Length hi, offsetOf, ← hnext, slice_succ]
  simp only [Option.bind_eq_bind, Option.bind_some, List.head?_drop]
  cases hc : text[i]? with
  | none =>
      have hend : i = text.length := Nat.le_antisymm hi (List.getElem?_eq_none_iff.1 hc)
      simp [hend, utf8Length]
  | some c =>
      obtain ⟨hlt, -⟩ := List.getElem?_eq_some_iff.1 hc
      simp [utf8Length, Nat.sub_eq_zero_of_le hlt]

/-! ## Searches -/

/-- A match with its stretch in bytes. -/
structure Found where
  /-- The stretch of the whole match in bytes. -/
  range : Span
  /-- What was found. -/
  captures : Captures

/-- A match as it is found in a text. -/
def Captures.found (text : List Char) (c : Captures) : Found := ⟨c.span.bytes text, c⟩

@[simp] theorem Captures.found_range (text : List Char) (c : Captures) :
    (c.found text).range = c.span.bytes text := rfl

/-- Where the search goes on after a match: at its end, or one character further if it is void. -/
def Found.resume? (text : List Char) (a : Found) : Option Nat :=
  if a.range.IsVoid then nextOffset? text a.range.stop else some a.range.stop

namespace Matcher

variable {m : Matcher}

/-- The first match from an offset on.  The search fails if the offset lies within a character or
behind the end of the text. -/
def searchAt? (m : Matcher) (text : List Char) (offset : Nat) : Option (Option Found) := do
  let position ← positionOfByte? text offset
  some ((m.find text position).map (·.found text))

/-- Searches for a match that ends by `cut`, first with one more character in sight. -/
def searchBefore? (m : Matcher) (text : List Char) (offset cut : Nat) :
    Option (Option Found) := do
  let next ← nextOffset? text cut
  let window ← byteSlice? text 0 (min next (utf8Length text))
  match ← m.searchAt? window offset with
  | none => some none
  | some a =>
    if a.range.stop ≤ cut then some (some a)
    else
      let front ← byteSlice? text 0 cut
      m.searchAt? front offset

/-- A search in the front of a text finds the offsets that count in the whole text. -/
theorem searchAt?_take (m : Matcher) (hik : i ≤ k) (hk : k ≤ text.length) :
    m.searchAt? (text.take k) (byteOffset text i) =
      some ((m.find (text.take k) i).map (·.found text)) := by
  have hlength : (text.take k).length = k := by rw [List.length_take, Nat.min_eq_left hk]
  rw [searchAt?, ← byteOffset_take text hik, positionOfByte?_byteOffset (hlength.symm ▸ hik)]
  simp only [Option.bind_eq_bind, Option.bind_some, Option.some.injEq]
  refine Option.map_congr fun c hc => ?_
  obtain ⟨-, hle, hstop⟩ := m.find_within hc
  rw [Captures.found, Captures.found, Span.bytes_take hle (hlength ▸ hstop)]

theorem searchAt?_byteOffset (m : Matcher) (hi : i ≤ text.length) :
    m.searchAt? text (byteOffset text i) = some ((m.find text i).map (·.found text)) := by
  have hsearch := m.searchAt?_take hi (Nat.le_refl text.length)
  rwa [List.take_length] at hsearch

/-- **The confined search is in range** if the literal starts behind the offset. -/
theorem searchBefore?_byteOffset (m : Matcher) (hij : i ≤ j) (hj : j < text.length) :
    m.searchBefore? text (byteOffset text i) (byteOffset text j) =
      some ((m.findBefore text i j).map (·.found text)) := by
  have hwindow : min (offsetOf text (j + 1)) (utf8Length text) = byteOffset text (j + 1) := by
    rw [Nat.min_eq_left (offsetOf_le_iff.2 hj), offsetOf_of_le hj]
  rw [searchBefore?, findBefore, nextOffset?_byteOffset (Nat.le_of_lt hj)]
  simp only [Option.bind_eq_bind, Option.bind_some]
  rw [hwindow, byteSlice?_zero hj, Option.bind_some, searchAt?_take m (Nat.le_succ_of_le hij) hj,
    Option.bind_some]
  cases hfind : m.find (text.take (j + 1)) i with
  | none => rfl
  | some c =>
      have hstop := (m.find_within hfind).2.2
      rw [List.length_take] at hstop
      have hends : byteOffset text c.span.stop ≤ byteOffset text j ↔ c.span.stop ≤ j :=
        byteOffset_le_iff (by omega) (Nat.le_of_lt hj)
      simp only [Option.map_some, Captures.found_range, Span.bytes_stop, hends]
      split
      · rfl
      · rw [byteSlice?_zero (Nat.le_of_lt hj), Option.bind_some,
          searchAt?_take m hij (Nat.le_of_lt hj)]

end Matcher

/-! ## Stretches in bytes -/

theorem Span.bytes_isVoid_iff {a : Span} (hle : a.start ≤ a.stop) (ha : a.stop ≤ text.length) :
    (a.bytes text).IsVoid ↔ a.IsVoid :=
  byteOffset_inj (Nat.le_trans hle ha) ha

theorem Span.bytes_touches {a l : Span} (hle : a.start ≤ a.stop) (ha : a.stop ≤ text.length)
    (hl : l.start < l.stop) (hlength : l.stop ≤ text.length) :
    (a.bytes text).touches (l.bytes text) = a.touches l := by
  have hstart : a.start ≤ text.length := Nat.le_trans hle ha
  have hlstart : l.start ≤ text.length := Nat.le_trans (Nat.le_of_lt hl) hlength
  simp only [touches, bytes_isVoid_iff hle ha, bytes_start, bytes_stop,
    byteOffset_lt_iff hlstart hstart, byteOffset_lt_iff hstart hlength,
    byteOffset_lt_iff hlstart ha]

/-- The search goes on at the offset of the position where it should. -/
theorem Found.resume?_found {c : Captures} (hle : c.span.start ≤ c.span.stop)
    (hstop : c.span.stop ≤ text.length) :
    (c.found text).resume? text = some (offsetOf text c.span.resume) := by
  simp only [resume?, Captures.found_range, Span.bytes_isVoid_iff hle hstop, Span.bytes_stop,
    Span.resume]
  split
  · exact nextOffset?_byteOffset hstop
  · rw [offsetOf_of_le hstop]

theorem Ascends.bytes {lower upper : Nat} {spans : List Span} (h : Ascends upper lower spans)
    (hupper : upper ≤ text.length) :
    Ascends (byteOffset text upper) (byteOffset text lower) (spans.map (·.bytes text)) := by
  induction spans generalizing lower with
  | nil => trivial
  | cons a rest ih =>
      obtain ⟨⟨hstart, hle, hstop⟩, hrest⟩ := h
      refine ⟨⟨?_, ?_, ?_⟩, ih hrest⟩
      · exact (byteOffset_le_iff (by omega) (by omega)).2 hstart
      · exact (byteOffset_le_iff (by omega) (by omega)).2 hle
      · exact (byteOffset_le_iff (by omega) (by omega)).2 hstop

/-- A text, the first character of which has an offset, in which stretches have been exchanged:
what stands between the stretches and behind them is kept. -/
inductive IsSplice : Nat → List Char → List (Span × List Char) → List Char → Prop where
  | rest (offset : Nat) (text : List Char) : IsSplice offset text [] text
  | exchange {offset : Nat} {text output : List Char} {exchanges : List (Span × List Char)}
      (between old new : List Char) {a : Span} (hstart : a.start = offset + utf8Length between)
      (hstop : a.stop = a.start + utf8Length old) (hrest : IsSplice a.stop text exchanges output) :
      IsSplice offset (between ++ old ++ text) ((a, new) :: exchanges) (between ++ new ++ output)

/-- **What stands between the stretches is kept.** -/
theorem isSplice_splice {n : Nat} {exchanges : List (Span × List Char)}
    (h : Ascends text.length n (exchanges.map (·.1))) :
    IsSplice (byteOffset text n) (text.drop n) (exchanges.map fun e => (e.1.bytes text, e.2))
      (splice text n exchanges) := by
  induction exchanges generalizing n with
  | nil => exact .rest _ _
  | cons e exchanges ih =>
      obtain ⟨a, new⟩ := e
      obtain ⟨⟨hstart, hle, -⟩, hrest⟩ := h
      have htext : text.drop n =
          slice text n a.start ++ slice text a.start a.stop ++ text.drop a.stop := by
        rw [List.append_assoc, slice_append_drop text hle, slice_append_drop text hstart]
      rw [htext]
      exact .exchange _ _ _ (byteOffset_add_utf8Length_slice hstart).symm
        (byteOffset_add_utf8Length_slice hle).symm (ih hrest)

namespace Segmenter

variable {m : Matcher} {literals : List Span} {position n turns : Nat} {c : Captures}

/-! ## A turn of the loop -/

/-- Where the search goes on after a literal is the end of one. -/
theorem exists_stop_eq_of_searchStep_skip {next : Nat}
    (h : searchStep m literals text position = .skip next) : ∃ l ∈ literals, l.stop = next := by
  unfold searchStep at h
  split at h
  · contradiction
  · split at h
    · split at h
      · contradiction
      · next literal hliteral =>
        have hmem := List.mem_of_find?_eq_some hliteral
        split at h
        · split at h
          · contradiction
          · exact ⟨literal, hmem, SearchStep.skip.inj h⟩
        · exact ⟨literal, hmem, SearchStep.skip.inj h⟩
    · contradiction

/-- What becomes of a turn of the loop. -/
inductive Turn where
  /-- There is no further match. -/
  | finished
  /-- The search goes on at an offset. -/
  | skip (next : Nat)
  /-- The match is to be replaced. -/
  | accept (a : Found)

/-- A step of the search, with offsets in the place of positions. -/
def Turn.ofStep (text : List Char) : SearchStep → Turn
  | .finished => .finished
  | .skip next => .skip (byteOffset text next)
  | .accept c => .accept (c.found text)

/-- Takes the next match from an offset on and decides what becomes of it; the literals are given
in bytes. -/
def turn? (m : Matcher) (literals : List Span) (text : List Char) (offset : Nat) :
    Option Turn := do
  match ← m.searchAt? text offset with
  | none => some .finished
  | some a =>
    if literals.any a.range.touches then
      match literals.find? (a.range.start < ·.stop) with
      | none => some .finished
      | some literal =>
        if a.range.start < literal.start then
          match ← m.searchBefore? text offset literal.start with
          | some confined => some (.accept confined)
          | none => some (.skip literal.stop)
        else some (.skip literal.stop)
    else some (.accept a)

section Within

variable (hliterals : ∀ l ∈ literals, l.start < l.stop ∧ l.stop ≤ text.length)

include hliterals

theorem any_touches_found (hle : c.span.start ≤ c.span.stop) (hstop : c.span.stop ≤ text.length) :
    (literals.map (·.bytes text)).any (c.found text).range.touches =
      literals.any c.span.touches := by
  rw [List.any_map, Bool.eq_iff_iff, List.any_eq_true, List.any_eq_true]
  refine exists_congr fun l => and_congr_right fun hl => ?_
  obtain ⟨hfilled, hlength⟩ := hliterals l hl
  rw [Function.comp_apply, Captures.found_range, Span.bytes_touches hle hstop hfilled hlength]

theorem find?_found (hstart : c.span.start ≤ text.length) :
    (literals.map (·.bytes text)).find? ((c.found text).range.start < ·.stop) =
      (literals.find? (c.span.start < ·.stop)).map (·.bytes text) := by
  rw [List.find?_map]
  refine congrArg _ (List.find?_congr fun l hl => ?_)
  rw [Function.comp_apply, decide_eq_decide]
  exact byteOffset_lt_iff hstart (hliterals l hl).2

/-- **A turn of the loop is a step of the search**, and nothing in it is out of range. -/
theorem turn?_byteOffset (hposition : position ≤ text.length) :
    turn? m (literals.map (·.bytes text)) text (byteOffset text position) =
      some (.ofStep text (searchStep m literals text position)) := by
  rw [turn?, searchStep, m.searchAt?_byteOffset hposition]
  simp only [Option.bind_eq_bind, Option.bind_some]
  cases hfind : m.find text position with
  | none => rfl
  | some c =>
      obtain ⟨hbehind, hle, hstop⟩ := m.find_within hfind
      have hstart : c.span.start ≤ text.length := Nat.le_trans hle hstop
      simp only [Option.map_some, any_touches_found hliterals hle hstop,
        find?_found hliterals hstart]
      split
      · cases hliteral : literals.find? (c.span.start < ·.stop) with
        | none => rfl
        | some literal =>
            obtain ⟨hfilled, hlength⟩ := hliterals literal (List.mem_of_find?_eq_some hliteral)
            have hbefore : (c.found text).range.start < (literal.bytes text).start ↔
                c.span.start < literal.start := byteOffset_lt_iff hstart (by omega)
            simp only [Option.map_some, hbefore]
            split
            · rw [Span.bytes_start, m.searchBefore?_byteOffset (by omega) (by omega),
                Option.bind_some]
              cases m.findBefore text position literal.start <;> rfl
            · rfl
      · rfl

end Within

/-! ## The loop -/

/-- What the loop keeps from turn to turn. -/
structure Progress where
  /-- Where the search goes on. -/
  offset : Nat := 0
  /-- Where the part of the text ends that is done with. -/
  copied : Nat := 0
  /-- What has been put out for that part. -/
  output : List Char := []
  /-- The matches that have been exchanged. -/
  exchanged : List Found := []

namespace Progress

/-- Puts out what is left of the text. -/
def finish? (text : List Char) (p : Progress) : Option (List Char × List Found) := do
  let rest ← byteSlice? text p.copied (utf8Length text)
  some (p.output ++ rest, p.exchanged)

/-- Puts out the text up to a match and what takes the place of the match. -/
def exchange? (f : List Char → Captures → List Char) (text : List Char) (p : Progress)
    (a : Found) : Option Progress := do
  let between ← byteSlice? text p.copied a.range.start
  let next ← a.resume? text
  some ⟨next, a.range.stop, p.output ++ between ++ f text a.captures, p.exchanged ++ [a]⟩

/-- The search goes on at a position, and the text is done with up to another one, which is not
behind it. -/
structure IsAt (text : List Char) (p : Progress) (n position : Nat) : Prop where
  offset : p.offset = offsetOf text position
  copied : p.copied = byteOffset text n
  le : n ≤ position
  le_length : n ≤ text.length

end Progress

/-- The loop, with a bound for its turns. -/
def loop? (m : Matcher) (literals : List Span) (f : List Char → Captures → List Char)
    (text : List Char) : Nat → Progress → Option (List Char × List Found)
  | 0, _ => none
  | turns + 1, p =>
    if p.offset ≤ utf8Length text then do
      match ← turn? m literals text p.offset with
      | .finished => p.finish? text
      | .skip next => loop? m literals f text turns { p with offset := next }
      | .accept a =>
        let q ← p.exchange? f text a
        loop? m literals f text turns q
    else p.finish? text

variable {f : List Char → Captures → List Char} {p : Progress}

namespace Progress

theorem finish?_eq (h : p.IsAt text n position) :
    p.finish? text = some (p.output ++ text.drop n, p.exchanged) := by
  rw [finish?, h.copied, byteSlice?_utf8Length h.le_length]
  rfl

/-- **An exchange is in range**, and the search goes on where it should. -/
theorem exchange?_found (f : List Char → Captures → List Char) (h : p.IsAt text n position)
    (hc : c.span.Within position text.length) :
    p.exchange? f text (c.found text) =
      some ⟨offsetOf text c.span.resume, byteOffset text c.span.stop,
        p.output ++ slice text n c.span.start ++ f text c, p.exchanged ++ [c.found text]⟩ := by
  obtain ⟨hstart, hle, hstop⟩ := hc
  rw [exchange?, h.copied, Captures.found_range, Span.bytes_start, Span.bytes_stop,
    byteSlice?_byteOffset (Nat.le_trans h.le hstart) (Nat.le_trans hle hstop),
    Found.resume?_found hle hstop]
  rfl

end Progress

/-- A turn of the loop within the text. -/
theorem loop?_succ (hliterals : ∀ l ∈ literals, l.start < l.stop ∧ l.stop ≤ text.length)
    (h : p.IsAt text n position) (hposition : position ≤ text.length) :
    loop? m (literals.map (·.bytes text)) f text (turns + 1) p =
      match Turn.ofStep text (searchStep m literals text position) with
      | .finished => p.finish? text
      | .skip next => loop? m (literals.map (·.bytes text)) f text turns { p with offset := next }
      | .accept a => (p.exchange? f text a).bind
          (loop? m (literals.map (·.bytes text)) f text turns) := by
  rw [loop?, h.offset, if_pos (offsetOf_le_iff.2 hposition), offsetOf_of_le hposition,
    turn?_byteOffset hliterals hposition]
  rfl

/-- **The loop gives what is left to be put out**, if the bound for its turns is beyond what is
left of the text. -/
theorem loop?_eq (hliterals : ∀ l ∈ literals, l.start < l.stop ∧ l.stop ≤ text.length)
    (h : p.IsAt text n position) (hturns : text.length + 1 - position < turns) :
    loop? m (literals.map (·.bytes text)) f text turns p =
      some (p.output ++ splice text n
          ((matchesFrom m literals text position).map fun c => (c.span, f text c)),
        p.exchanged ++ (matchesFrom m literals text position).map (·.found text)) := by
  -- the search is further on after each turn, so a turn fewer is enough for the rest
  obtain ⟨turns, rfl⟩ : ∃ k, turns = k + 1 := ⟨turns - 1, by omega⟩
  fun_induction matchesFrom m literals text position generalizing p n turns with
  | case1 position hposition hstep =>
      rw [loop?_succ hliterals h hposition, hstep]
      simpa [Turn.ofStep, splice] using Progress.finish?_eq h
  | case2 position hposition next hstep ih =>
      have hlater := lt_of_searchStep_skip hstep
      obtain ⟨l, hl, rfl⟩ := exists_stop_eq_of_searchStep_skip hstep
      have hnext : ({ p with offset := byteOffset text l.stop } : Progress).IsAt text n l.stop :=
        ⟨(offsetOf_of_le (hliterals l hl).2).symm, h.copied, by have := h.le; omega, h.le_length⟩
      rw [loop?_succ hliterals h hposition, hstep]
      obtain ⟨turns, rfl⟩ : ∃ k, turns = k + 1 := ⟨turns - 1, by omega⟩
      exact ih hnext turns (by omega)
  | case3 position hposition c hstep ih =>
      have hwithin := within_of_searchStep_accept hstep
      have hlater := Span.lt_resume hwithin
      obtain ⟨turns, rfl⟩ : ∃ k, turns = k + 1 := ⟨turns - 1, by omega⟩
      rw [loop?_succ hliterals h hposition, hstep, Turn.ofStep]
      simp only [Progress.exchange?_found f h hwithin, Option.bind_some]
      rw [ih ⟨rfl, rfl, c.span.stop_le_resume, hwithin.2.2⟩ turns (by omega)]
      simp only [List.map_cons, splice, List.append_assoc, List.cons_append, List.nil_append]
  | case4 position hposition =>
      rw [loop?, h.offset, if_neg (mt offsetOf_le_iff.1 hposition), Progress.finish?_eq h]
      simp [splice]

/-! ## Replacement by means of the loop -/

/-- Replaces what the matcher finds outside literals by means of the loop, in a number of turns, and
gives the matches as well. -/
def replaceBytes? (s : Segmenter) (m : Matcher) (f : List Char → Captures → List Char)
    (text : List Char) (turns : Nat) : Option (List Char × List Found) :=
  loop? m ((s.literalSpans text).map (·.bytes text)) f text turns {}

/-- The matches that are replaced, with their stretches in bytes. -/
def foundOutside (s : Segmenter) (m : Matcher) (text : List Char) : List Found :=
  (s.matchesOutside m text).map (·.found text)

theorem stop_le_length_of_mem_literalSpans {s : Segmenter} {l : Span}
    (hl : l ∈ s.literalSpans text) : l.stop ≤ text.length := by
  have hwithin := Segment.within_of_mem_spansFrom hl
  rw [textOf_segments] at hwithin
  simpa using hwithin.2.2

/-- **The loop ends**, and gives the text with the matches exchanged. -/
theorem replaceBytes?_eq (s : Segmenter) (m : Matcher) (f : List Char → Captures → List Char)
    (text : List Char) (hturns : text.length + 1 < turns) :
    s.replaceBytes? m f text turns = some (s.replaceOutside m f text, s.foundOutside m text) := by
  have hliterals : ∀ l ∈ s.literalSpans text, l.start < l.stop ∧ l.stop ≤ text.length :=
    fun l hl => ⟨(orderly_literalSpans s text).filled l hl, stop_le_length_of_mem_literalSpans hl⟩
  have hstart : ({} : Progress).IsAt text 0 0 :=
    ⟨(offsetOf_of_le (Nat.zero_le _)).symm, rfl, Nat.le_refl _, Nat.zero_le _⟩
  exact loop?_eq hliterals hstart hturns

/-- Each match starts where the search went on after the one before it, or later. -/
theorem pairwise_matchesFrom (m : Matcher) (literals : List Span) (text : List Char)
    (position : Nat) :
    (matchesFrom m literals text position).Pairwise (·.span.resume ≤ ·.span.start) := by
  fun_induction matchesFrom m literals text position with
  | case1 => exact .nil
  | case2 _ _ _ _ ih => exact ih
  | case3 _ _ c _ ih => exact .cons (fun d hd => (within_of_mem_matchesFrom hd).1) ih
  | case4 => exact .nil

/-- No void stretch is exchanged twice. -/
theorem pairwise_foundOutside (s : Segmenter) (m : Matcher) (text : List Char) :
    (s.foundOutside m text).Pairwise (fun a b => a.range.IsVoid → a.range ≠ b.range) := by
  rw [foundOutside, List.pairwise_map]
  refine (pairwise_matchesFrom m (s.literalSpans text) text 0).imp_of_mem
    fun {c d} hc hd hresume hvoid hsame => ?_
  obtain ⟨-, hcle, hcstop⟩ := within_of_mem_matchesFrom hc
  obtain ⟨-, hdle, hdstop⟩ := within_of_mem_matchesFrom hd
  rw [Captures.found_range, Span.bytes_isVoid_iff hcle hcstop] at hvoid
  have hstart : c.span.start = d.span.start :=
    (byteOffset_inj (by omega) (by omega)).1 (congrArg Span.start hsame)
  rw [Span.resume, if_pos hvoid] at hresume
  omega

/-- **Replacement outside literals, byte by byte.**  With at least two turns more than the text has
characters the loop ends, without a search or a slice out of range.  The stretches that it
exchanges are in order, each behind the one before it, and no void one comes twice.  What is put out
is the text with those stretches exchanged. -/
theorem replaceOutside_bytewise (s : Segmenter) (m : Matcher)
    (f : List Char → Captures → List Char) (text : List Char) :
    (∀ n, s.replaceBytes? m f text (text.length + 2 + n) =
        some (s.replaceOutside m f text, s.foundOutside m text)) ∧
      Ascends (utf8Length text) 0 ((s.foundOutside m text).map (·.range)) ∧
      (s.foundOutside m text).Pairwise (fun a b => a.range.IsVoid → a.range ≠ b.range) ∧
      IsSplice 0 text ((s.foundOutside m text).map fun a => (a.range, f text a.captures))
        (s.replaceOutside m f text) := by
  have hascends := ascends_matchesFrom m (s.literalSpans text) text 0
  refine ⟨fun n => replaceBytes?_eq s m f text (by omega), ?_, pairwise_foundOutside s m text, ?_⟩
  · have hbytes := hascends.bytes (Nat.le_refl _)
    rw [byteOffset_length, List.map_map] at hbytes
    rwa [foundOutside, List.map_map]
  · have hexchanges : Ascends text.length 0
        (((s.matchesOutside m text).map fun c => (c.span, f text c)).map (·.1)) := by
      rwa [List.map_map]
    have hsplice := isSplice_splice hexchanges
    rw [List.map_map] at hsplice
    rwa [foundOutside, List.map_map]

end Segmenter

end RuleCanon
