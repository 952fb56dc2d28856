import RuleCanon.Proofs.Text.Slice

/-!
# Line breaks

Lines end with a line feed, or with a carriage return and a line feed.  What the lines of a text
are is seen from its breaks alone, the subsequence of these two characters; and a text with one
kind of line ends becomes one with the other kind when each line feed gets a carriage return in
front of it.

## Main Definitions

* `isLineBreak` — line feeds and carriage returns
* `breaks` — the line breaks of a text
* `withReturns` — a text with carriage returns in front of its line feeds

## Main Statements

* `breaks_eq_nil_iff` — texts without line breaks
* `lines_induction` — induction on the lines of a text
-/

namespace RuleCanon

variable {t u : List Char} {c : Char}

/-- Whether the character breaks a line: a line feed or a carriage return. -/
def isLineBreak (c : Char) : Bool := c == '\n' || c == '\r'

theorem isLineBreak_iff : isLineBreak c = true ↔ c = '\n' ∨ c = '\r' := by simp [isLineBreak]

/-- What does not hold of line feeds and of carriage returns does not hold of line breaks. -/
theorem eq_false_of_isLineBreak {P : Char → Bool} (hP : P '\n' = false ∧ P '\r' = false)
    (hc : isLineBreak c = true) : P c = false := by
  rcases isLineBreak_iff.1 hc with rfl | rfl
  · exact hP.1
  · exact hP.2

/-! ## The breaks of a text -/

/-- The line breaks of a text, in their order. -/
def breaks (t : List Char) : List Char := t.filter isLineBreak

@[simp] theorem breaks_nil : breaks [] = [] := rfl

@[simp] theorem breaks_append (t u : List Char) : breaks (t ++ u) = breaks t ++ breaks u :=
  List.filter_append ..

theorem breaks_cons (c : Char) (t : List Char) :
    breaks (c :: t) = breaks [c] ++ breaks t := breaks_append [c] t

theorem breaks_cons_of_not (hc : isLineBreak c = false) (t : List Char) :
    breaks (c :: t) = breaks t := List.filter_cons_of_neg (by simp [hc])

theorem breaks_eq_nil_iff : breaks t = [] ↔ ∀ c ∈ t, isLineBreak c = false := by
  simp [breaks]

/-- A part of a text without line breaks has none. -/
theorem breaks_eq_nil_of_subset (h : t ⊆ u) (hu : breaks u = []) : breaks t = [] :=
  breaks_eq_nil_iff.2 fun c hc => breaks_eq_nil_iff.1 hu c (h hc)

/-- A text has a line feed if its breaks have one. -/
theorem newline_mem_breaks : '\n' ∈ breaks t ↔ '\n' ∈ t := by
  simp [breaks, List.mem_filter, isLineBreak]

/-! ## Carriage returns in front of line feeds -/

/-- The text with a carriage return in front of each line feed. -/
def withReturns (t : List Char) : List Char :=
  t.flatMap fun c => if c = '\n' then ['\r', '\n'] else [c]

@[simp] theorem withReturns_nil : withReturns [] = [] := rfl

@[simp] theorem withReturns_append (t u : List Char) :
    withReturns (t ++ u) = withReturns t ++ withReturns u := List.flatMap_append

@[simp] theorem withReturns_cons_newline (t : List Char) :
    withReturns ('\n' :: t) = '\r' :: '\n' :: withReturns t := rfl

theorem withReturns_cons_of_ne (hc : c ≠ '\n') (t : List Char) :
    withReturns (c :: t) = c :: withReturns t := by
  simp [withReturns, hc]

theorem withReturns_of_not_mem (h : '\n' ∉ t) : withReturns t = t := by
  induction t with
  | nil => rfl
  | cons c t ih =>
      rw [List.mem_cons, not_or] at h
      rw [withReturns_cons_of_ne (Ne.symm h.1), ih h.2]

theorem withReturns_of_breaks (h : breaks t = []) : withReturns t = t :=
  withReturns_of_not_mem fun hmem => by simpa [h] using newline_mem_breaks.2 hmem

/-- Only carriage returns are added. -/
theorem mem_withReturns (h : c ∈ withReturns t) : c ∈ t ∨ c = '\r' := by
  obtain ⟨a, ha, hc⟩ := List.mem_flatMap.1 h
  split at hc
  · next hnewline =>
    rcases List.mem_cons.1 hc with hc | hc
    · exact .inr hc
    · exact .inl (List.mem_singleton.1 hc ▸ hnewline ▸ ha)
  · exact .inl (List.mem_singleton.1 hc ▸ ha)

/-- Texts end alike with both kinds of line ends. -/
theorem getLast?_withReturns (t : List Char) : (withReturns t).getLast? = t.getLast? := by
  rcases List.eq_nil_or_concat t with rfl | ⟨t, c, rfl⟩
  · rfl
  · rw [List.concat_eq_append, withReturns_append, List.getLast?_concat]
    by_cases hc : c = '\n'
    · rw [hc, withReturns_cons_newline]
      simp
    · rw [withReturns_cons_of_ne hc]
      simp

/-- They start alike unless there is a line feed. -/
theorem head?_withReturns (h : t.head? ≠ some '\n') : (withReturns t).head? = t.head? := by
  cases t with
  | nil => rfl
  | cons c t =>
      have hc : c ≠ '\n' := fun hc => h (by rw [List.head?_cons, hc])
      rw [withReturns_cons_of_ne hc, List.head?_cons, List.head?_cons]

/-- Induction on the lines of a text, the first one first. -/
theorem lines_induction {motive : List Char → Prop}
    (last : ∀ t, '\n' ∉ t → motive t)
    (line : ∀ t u, '\n' ∉ t → motive u → motive (t ++ '\n' :: u)) (t : List Char) : motive t := by
  induction hn : t.length using Nat.strongRecOn generalizing t with
  | ind n ih =>
      by_cases h : '\n' ∈ t
      · obtain ⟨front, back, rfl, hfront⟩ := List.eq_append_cons_of_mem h
        refine line front back hfront (ih back.length ?_ back rfl)
        rw [← hn, List.length_append, List.length_cons]
        omega
      · exact last t h

end RuleCanon
