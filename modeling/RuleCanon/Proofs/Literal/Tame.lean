import RuleCanon.Proofs.Literal.Cut
import RuleCanon.Proofs.Pattern.Horizon
import RuleCanon.Proofs.Text.Slice

/-!
# Tame replacement texts

What takes the place of a match may be made of the match, of its groups and of the text around
it.  A replacement text is tame if it does not look beyond the literals on both sides of the code
that the match was found in, and if it makes no opening mark out of code that has none.  All that
it can look at is the same in the whole text and in the part between the fences, the characters
that literals start and end with.

## Main Definitions

* `Segmenter.marks`, `Segmenter.fences` — characters of opening marks, and of all marks
* `Segmenter.Fenced` — a match between fences
* `Segmenter.IsTame` — replacement texts that are tame

## Main Statements

* `Segmenter.Fenced.textOf_shift` — groups are the same in the whole text
* `Segmenter.Fenced.takeWhile_before`, `Segmenter.Fenced.takeWhile_after` — so are the
  characters of a kind next to the match, if fences are not of that kind
-/

namespace RuleCanon

theorem Captures.group?_shift (c : Captures) (n number : Nat) :
    (c.shift n).group? number = (c.group? number).map (·.shift n) := by
  have hlookup (groups : List (Nat × Span)) :
      (groups.map fun g => (g.1, g.2.shift n)).lookup number =
        (groups.lookup number).map (·.shift n) := by
    induction groups with
    | nil => rfl
    | cons g groups ih =>
        rw [List.map_cons, List.lookup_cons, List.lookup_cons]
        split
        · rfl
        · exact ih
  by_cases hnumber : number = 0
  · rw [Captures.group?, Captures.group?, if_pos hnumber, if_pos hnumber]
    rfl
  · rw [Captures.group?, Captures.group?, if_neg hnumber, if_neg hnumber]
    exact hlookup c.groups

theorem Captures.within_of_group? {c : Captures} (hle : c.span.start ≤ c.span.stop)
    (hgroups : ∀ g ∈ c.groups, g.2.Within c.span.start c.span.stop) {number : Nat} {g : Span}
    (h : c.group? number = some g) : g.Within c.span.start c.span.stop := by
  rw [group?] at h
  split at h
  · obtain rfl := Option.some.inj h
    exact ⟨Nat.le_refl _, hle, Nat.le_refl _⟩
  · obtain ⟨front, back, hsplit, -⟩ := List.lookup_eq_some_iff.1 h
    exact hgroups (number, g) (by simp [hsplit])

theorem takeWhile_append_of_exists {P : Char → Bool} {l m : List Char}
    (h : ∃ a ∈ l, P a = false) : (l ++ m).takeWhile P = l.takeWhile P := by
  obtain ⟨a, ha, hPa⟩ := h
  induction l with
  | nil => contradiction
  | cons b l ih =>
      rw [List.cons_append, List.takeWhile_cons, List.takeWhile_cons]
      split
      · next hPb =>
        rcases List.mem_cons.1 ha with rfl | ha
        · simp [hPa] at hPb
        · rw [ih ha]
      · rfl

namespace Segmenter

/-- The first characters of the marks that open literals. -/
def marks (s : Segmenter) : List Char := s.delimiters.flatMap (·.opening)

/-- The characters that literals start and end with. -/
def fences (s : Segmenter) : List Char := s.delimiters.flatMap fun d => d.opening ++ d.closing

theorem marks_subset_fences (s : Segmenter) : s.marks ⊆ s.fences := by
  intro c hc
  obtain ⟨d, hd, hc⟩ := List.mem_flatMap.1 hc
  exact List.mem_flatMap.2 ⟨d, hd, List.mem_append_left _ hc⟩

/-- A match in a part of a text: it lies within the part, and where the text goes on the part
ends with a fence that the match leaves alone. -/
structure Fenced (fences x w y : List Char) (span : Span) : Prop where
  within : span.Within 0 w.length
  left : x = [] ∨ 0 < span.start ∧ ∃ q ∈ fences, w.head? = some q
  right : y = [] ∨ span.stop < w.length ∧ ∃ q ∈ fences, w.getLast? = some q

/-- A replacement text that is made of the match and of what is seen around it up to a fence,
and that brings no opening mark along. -/
structure IsTame (s : Segmenter) (f : List Char → Captures → List Char) : Prop where
  moves : ∀ {x w y : List Char} {c : Captures}, Fenced s.fences x w y c.span →
    (∀ g ∈ c.groups, g.2.Within c.span.start c.span.stop) →
      f (x ++ w ++ y) (c.shift x.length) = f w c
  plain : ∀ {w : List Char} {c : Captures}, c.span.start ≤ c.span.stop →
    (∀ g ∈ c.groups, g.2.Within c.span.start c.span.stop) →
      s.IsPlain (slice w c.span.start c.span.stop) → s.IsPlain (f w c)

/-! ## What is seen of a text between fences -/

namespace Fenced

variable {fences x w y : List Char} {c : Captures}

theorem slice_shift (h : Fenced fences x w y c.span) :
    slice (x ++ w ++ y) (c.shift x.length).span.start (c.shift x.length).span.stop =
      slice w c.span.start c.span.stop :=
  slice_append_append h.within.2.2

/-- The character before the match. -/
theorem charBefore?_shift (h : Fenced fences x w y c.span) :
    charBefore? (x ++ w ++ y) (c.shift x.length).span.start = charBefore? w c.span.start :=
  charBefore?_append_append (Nat.le_trans h.within.2.1 h.within.2.2)
    (h.left.elim .inr fun hleft => .inl hleft.1)

/-- The character behind the match. -/
theorem charAfter?_shift (h : Fenced fences x w y c.span) :
    charAfter? (x ++ w ++ y) (c.shift x.length).span.stop = charAfter? w c.span.stop :=
  charAfter?_append_append (h.right.elim .inr fun hright => .inl hright.1)

/-- **A group is the same in the whole text.** -/
theorem textOf_shift (h : Fenced fences x w y c.span)
    (hgroups : ∀ g ∈ c.groups, g.2.Within c.span.start c.span.stop) (number : Nat) :
    (c.shift x.length).textOf (x ++ w ++ y) number = c.textOf w number := by
  rw [Captures.textOf, Captures.textOf, Captures.group?_shift]
  cases hgroup : c.group? number with
  | none => rfl
  | some g =>
      have hwithin := Captures.within_of_group? h.within.2.1 hgroups hgroup
      exact slice_append_append (Nat.le_trans hwithin.2.2 h.within.2.2)

/-- The characters of a kind right before the match. -/
theorem takeWhile_before (h : Fenced fences x w y c.span) {P : Char → Bool}
    (hP : ∀ q ∈ fences, P q = false) :
    ((x ++ w ++ y).take (c.shift x.length).span.start).reverse.takeWhile P =
      (w.take c.span.start).reverse.takeWhile P := by
  have htake : (x ++ w ++ y).take (c.shift x.length).span.start = x ++ w.take c.span.start :=
    take_append_append (Nat.le_trans h.within.2.1 h.within.2.2)
  rw [htake, List.reverse_append]
  rcases h.left with rfl | ⟨hpos, q, hq, hhead⟩
  · rw [List.reverse_nil, List.append_nil]
  · -- the fence is of another kind, so nothing in front of it is reached
    refine takeWhile_append_of_exists ⟨q, ?_, hP q hq⟩
    obtain ⟨rest, rfl⟩ := List.head?_eq_some_iff.1 hhead
    obtain ⟨n, hn⟩ : ∃ n, c.span.start = n + 1 := ⟨c.span.start - 1, by omega⟩
    simp [hn]

/-- The characters of a kind right behind the match. -/
theorem takeWhile_after (h : Fenced fences x w y c.span) {P : Char → Bool}
    (hP : ∀ q ∈ fences, P q = false) :
    ((x ++ w ++ y).drop (c.shift x.length).span.stop).takeWhile P =
      (w.drop c.span.stop).takeWhile P := by
  have hdrop : (x ++ w ++ y).drop (c.shift x.length).span.stop = w.drop c.span.stop ++ y := by
    have hshift : (c.shift x.length).span.stop = x.length + c.span.stop := Nat.add_comm _ _
    rw [hshift, List.append_assoc, List.drop_length_add_append,
      List.drop_append_of_le_length h.within.2.2]
  rw [hdrop]
  rcases h.right with rfl | ⟨hlt, q, hq, hlast⟩
  · rw [List.append_nil]
  · refine takeWhile_append_of_exists ⟨q, ?_, hP q hq⟩
    obtain ⟨front, rfl⟩ := List.getLast?_eq_some_iff.1 hlast
    rw [List.length_append, List.length_singleton] at hlt
    rw [List.drop_append_of_le_length (by omega)]
    exact List.mem_append_right _ List.mem_cons_self

end Fenced

/-! ## Plain pieces -/

section Plain

variable {s : Segmenter} {t u w : List Char} {c : Captures}

theorem isPlain_iff (hs : s.IsSingle) : s.IsPlain t ↔ ∀ c ∈ t, c ∉ s.marks := by
  refine forall₂_congr fun c _ => ?_
  rw [marks, List.mem_flatMap, not_exists]
  refine forall_congr' fun d => ?_
  rw [not_and]
  refine forall_congr' fun hd => ?_
  obtain ⟨q, hq⟩ := hs d hd
  rw [hq, List.mem_singleton, ne_eq, List.cons.injEq, eq_comm]
  simp

theorem IsPlain.cons {c : Char} (hc : s.IsPlain [c]) (ht : s.IsPlain t) : s.IsPlain (c :: t) :=
  isPlain_append.2 ⟨hc, ht⟩

theorem IsPlain.of_subset (h : s.IsPlain t) (hu : u ⊆ t) : s.IsPlain u :=
  fun c hc => h c (hu hc)

/-- A group of a plain match is plain. -/
theorem isPlain_textOf (hle : c.span.start ≤ c.span.stop)
    (hgroups : ∀ g ∈ c.groups, g.2.Within c.span.start c.span.stop)
    (h : s.IsPlain (slice w c.span.start c.span.stop)) (number : Nat) :
    s.IsPlain (c.textOf w number) := by
  rw [Captures.textOf]
  cases hgroup : c.group? number with
  | none => exact fun a ha => absurd ha List.not_mem_nil
  | some g =>
      have hwithin := Captures.within_of_group? hle hgroups hgroup
      exact h.of_subset (slice_infix_slice w hwithin.1 hwithin.2.1 hwithin.2.2).subset

end Plain

end Segmenter

end RuleCanon
