import RuleCanon.Proofs.Pattern.Horizon
import RuleCanon.Proofs.Pattern.Words
import RuleCanon.Text.Identifier

/-!
# What a search finds

A search goes through the places of a text from left to right and stops at the first one that
has a match.  `Pattern.IsLeftmost` says this without the search, so that searches of different
texts can be compared place by place: a text with the same text cut short, or a text with a
window of it.

## Main Definitions

* `Pattern.matchAt?` — the most preferred match at a place of a text
* `Pattern.IsLeftmost` — a match with no match at a place before it

## Main Statements

* `Pattern.find_eq_some_iff`, `Pattern.find_eq_none_iff` — what a search finds
* `Pattern.spells_of_matchAt?` — a match covers a word of the pattern
* `Pattern.exists_matchAt?_of_take` — a match in a text cut short that ends before the cut
  shows that the whole text has a match at that place
-/

namespace RuleCanon

namespace Pattern

/-- The most preferred match at a place of a text. -/
def matchAt? (p : Pattern) (text : List Char) (position : Nat) : Option Captures :=
  p.matchHere? ⟨position, charBefore? text position, text.drop position⟩

/-- The match is the most preferred one at its place, and no place before it from the position
on has a match. -/
structure IsLeftmost (p : Pattern) (text : List Char) (position : Nat) (c : Captures) :
    Prop where
  le : position ≤ c.span.start
  here : p.matchAt? text c.span.start = some c
  before : ∀ i, position ≤ i → i < c.span.start → p.matchAt? text i = none

variable {p : Pattern} {text : List Char} {position i : Nat} {c d : Captures}

theorem start_of_matchAt? (h : p.matchAt? text i = some c) : c.span.start = i := by
  obtain ⟨r, -, rfl⟩ := Option.map_eq_some_iff.1 h
  rfl

/-- There is only one leftmost match. -/
theorem IsLeftmost.eq (h : p.IsLeftmost text position c) (h' : p.IsLeftmost text position d) :
    c = d := by
  have hle : c.span.start ≤ d.span.start := by
    by_contra hlt
    simpa [h'.here] using h.before d.span.start h'.le (by omega)
  have hge : d.span.start ≤ c.span.start := by
    by_contra hlt
    simpa [h.here] using h'.before c.span.start h.le (by omega)
  have hstart : c.span.start = d.span.start := Nat.le_antisymm hle hge
  have hhere := h.here
  rw [hstart, h'.here] at hhere
  exact (Option.some.inj hhere).symm

/-- What lies between an earlier position and the match has no match either. -/
theorem IsLeftmost.of_le (h : p.IsLeftmost text position c) (hle : position ≤ i)
    (hi : i ≤ c.span.start) : p.IsLeftmost text i c where
  le := hi
  here := h.here
  before j hj := h.before j (Nat.le_trans hle hj)

/-! ## The search, place by place -/

/-- A search looks at the place where it starts, and if there is no match goes on behind it. -/
theorem find_eq (h : position ≤ text.length) :
    p.find text position = (p.matchAt? text position).or (p.find text (position + 1)) := by
  rw [find, if_pos h, find, matchAt?, charBefore?]
  cases hrest : text.drop position with
  | nil =>
      have hle : text.length ≤ position := List.drop_eq_nil_iff.1 hrest
      rw [if_neg (by omega), Option.or_none, search]
  | cons a rest =>
      have hlt : position < text.length := by
        by_contra hge
        rw [List.drop_eq_nil_of_le (by omega)] at hrest
        contradiction
      have hnext : text.drop (position + 1) = rest := by
        rw [← List.tail_drop, hrest, List.tail_cons]
      have hprevious : (text.take (position + 1)).getLast? = some a := by
        have ha : text[position]? = some a := by rw [← List.head?_drop, hrest, List.head?_cons]
        rw [List.take_add_one, ha, Option.toList_some, List.getLast?_concat]
      rw [if_pos (by omega), hnext, hprevious, search]
      cases p.matchHere? _ <;> rfl

/-- A search behind the end of the text finds nothing. -/
theorem find_of_length_lt (h : text.length < position) : p.find text position = none := by
  rw [find, if_neg (by omega)]

/-- A search that finds nothing has seen no match. -/
theorem find_eq_none_iff :
    p.find text position = none ↔
      ∀ i, position ≤ i → i ≤ text.length → p.matchAt? text i = none := by
  -- by induction on the number of places that are left
  induction hn : text.length + 1 - position generalizing position with
  | zero =>
      rw [find_of_length_lt (by omega)]
      exact iff_of_true rfl fun i hi hlength => by omega
  | succ n ih =>
      rw [find_eq (by omega), Option.or_eq_none_iff, ih (by omega)]
      constructor
      · rintro ⟨hhere, hlater⟩ i hi hlength
        rcases Nat.eq_or_lt_of_le hi with rfl | hi
        · exact hhere
        · exact hlater i hi hlength
      · intro hnone
        exact ⟨hnone position (Nat.le_refl _) (by omega), fun i hi => hnone i (by omega)⟩

/-- A search finds a leftmost match. -/
theorem isLeftmost_of_find (h : p.find text position = some c) :
    p.IsLeftmost text position c := by
  induction hn : text.length + 1 - position generalizing position with
  | zero =>
      rw [find_of_length_lt (by omega)] at h
      contradiction
  | succ n ih =>
      rw [find_eq (by omega), Option.or_eq_some_iff] at h
      rcases h with hhere | ⟨hnone, hlater⟩
      · obtain rfl := start_of_matchAt? hhere
        exact ⟨Nat.le_refl _, hhere, fun i hi hlt => by omega⟩
      · obtain ⟨hle, hhere, hbefore⟩ := ih hlater (by omega)
        refine ⟨by omega, hhere, fun i hi hlt => ?_⟩
        rcases Nat.eq_or_lt_of_le hi with rfl | hi
        · exact hnone
        · exact hbefore i hi hlt

/-- **A search finds the leftmost match**, and of those at one place the most preferred. -/
theorem find_eq_some_iff :
    p.find text position = some c ↔
      p.IsLeftmost text position c ∧ c.span.start ≤ text.length := by
  constructor
  · intro hfind
    obtain ⟨-, h₂, h₃⟩ := within_of_find hfind
    exact ⟨isLeftmost_of_find hfind, Nat.le_trans h₂ h₃⟩
  · rintro ⟨hleftmost, hstart⟩
    cases hfind : p.find text position with
    | none =>
        have hnone := find_eq_none_iff.1 hfind c.span.start hleftmost.le hstart
        simp [hleftmost.here] at hnone
    | some d => rw [hleftmost.eq (isLeftmost_of_find hfind)]

/-! ## The word under a match -/

/-- What a run has left to read is the text from where it is. -/
theorem drop_of_reads {r s : Run} {w : List Char} (hrest : text.drop r.position = r.rest)
    (h : r.Reads w s) : text.drop s.position = s.rest := by
  rw [h.position, ← List.drop_drop, hrest, h.rest, List.drop_left]

/-- The word that a run has read is the stretch between where it started and where it is. -/
theorem slice_eq_of_reads {r s : Run} {w : List Char} (hrest : text.drop r.position = r.rest)
    (h : r.Reads w s) : slice text r.position s.position = w := by
  rw [slice, hrest, h.rest, h.position, Nat.add_sub_cancel_left, List.take_left]

/-- **A match covers a word of the pattern**, and its groups lie within it. -/
theorem spells_of_matchAt? (h : p.matchAt? text i = some c) :
    p.Spells (charBefore? text i) (slice text c.span.start c.span.stop) ∧
      ∀ g ∈ c.groups, g.2.Within c.span.start c.span.stop := by
  obtain ⟨r, hr, rfl⟩ := Option.map_eq_some_iff.1 h
  obtain ⟨w, hreads, hspells⟩ := spells_of_mem_runs (List.mem_of_mem_head? hr)
  constructor
  · have hslice : slice text i r.position = w := slice_eq_of_reads rfl hreads
    rw [hslice]
    exact hspells
  · intro g hg
    -- no group was completed before the run began
    rcases hreads.groups g hg with hnone | hwithin
    · contradiction
    · exact hwithin

/-! ## A text cut short -/

/-- Up to the cut the whole text is the same. -/
theorem alike_take {cut : Nat} (hi : i ≤ cut) :
    Cursor.Alike 0 cut ⟨i, charBefore? (text.take cut) i, (text.take cut).drop i⟩
      ⟨i, charBefore? text i, text.drop i⟩ where
  position := rfl
  previous := by rw [charBefore?, charBefore?, List.take_take, Nat.min_eq_left hi]
  rest := by rw [List.drop_take, List.take_take, Nat.min_self]

/-- **A match that ends before the cut shows that the whole text has a match** at that place,
though perhaps a longer one. -/
theorem exists_matchAt?_of_take {cut : Nat} (h : p.matchAt? (text.take cut) i = some c)
    (hstop : c.span.stop < cut) : ∃ d, p.matchAt? text i = some d := by
  have hstart : c.span.start = i := start_of_matchAt? h
  have hle : c.span.start ≤ c.span.stop := (within_of_matchHere? h).2.1
  exact exists_matchHere?_of_lt (alike_take (by omega)) h hstop

/-- So the search of the whole text does not pass the place. -/
theorem IsLeftmost.start_le_of_take {cut : Nat} (h : p.IsLeftmost text position c)
    (hd : p.find (text.take cut) position = some d) (hstop : d.span.stop < cut) :
    c.span.start ≤ d.span.start := by
  have hleftmost := isLeftmost_of_find hd
  obtain ⟨e, he⟩ := exists_matchAt?_of_take hleftmost.here hstop
  by_contra hlt
  simpa [he] using h.before d.span.start hleftmost.le (by omega)

end Pattern

end RuleCanon
