import RuleCanon.Proofs.Pattern.Groups
import RuleCanon.Proofs.Pattern.Search
import RuleCanon.Proofs.Text.Breaks

/-!
# Patterns and line breaks

A line feed or a carriage return ends a line as the end of the text does, and a line feed starts
one as the start of the text does.  A pattern that cannot read either of them, and whose
conditions do not tell them from an end of the text, runs in two texts that are joined by a line
feed as it runs in each of them.

The horizon of `Run.Alike` does not say this: there, texts must agree in the character behind
the last one that was read, and here one of them has a line break where the other one ends.  So
runs are compared by a relation of their own.  It leaves open what is asked of the groups, as
long as completing a group keeps it.

## Main Definitions

* `Anchor.isLinewise`, `Pattern.isLinewise` — conditions that do not tell a line break from an
  end of the text
* `Run.AlikeOnLine` — runs in a text and in a longer one that goes on with a line break
* `Pattern.KeepsToLine` — patterns whose runs correspond one by one

## Main Statements

* `Pattern.alikeOnLine_runs` — the runs of a pattern that cannot read a line break correspond
* `Pattern.keepsToLine_of_avoids`, `Pattern.keepsToLine_anyLineEnd` — the two kinds of such
  patterns
* `Pattern.KeepsToLine.matchAt?_append`, `Pattern.KeepsToLine.matchAt?_newline_append` — matches
  in a text in front of a line break and behind a line feed
-/

namespace RuleCanon

/-- Whether the condition takes a line break behind a place, or a line feed before it, for an end
of the text. -/
def Anchor.isLinewise : Anchor → Bool
  | textStart | textEnd | lineEnd | anyLineStart | anyLineEnd => false
  | _ => true

/-- Whether no condition in the pattern tells a line break from an end of the text.  Repetition
of more than one character is left out. -/
def Pattern.isLinewise : Pattern → Bool
  | anchor a => a.isLinewise
  | seq p q => p.isLinewise && q.isLinewise
  | alt p q => p.isLinewise && q.isLinewise
  | group _ p => p.isLinewise
  | distinct p => p.isLinewise
  | loop .. | upTo .. => false
  | _ => true

/-- No word of the pattern has a line break. -/
def Pattern.AvoidsBreaks (p : Pattern) : Prop := ∀ b, isLineBreak b = true → p.avoids b = true

instance (p : Pattern) : Decidable p.AvoidsBreaks :=
  decidable_of_iff (p.avoids '\n' = true ∧ p.avoids '\r' = true)
    (by simp [Pattern.AvoidsBreaks, isLineBreak_iff])

/-- A relation between the groups of two runs, the second one further right, is kept when both
runs complete the group of that number. -/
def KeepsGroup (G : List (Nat × Span) → List (Nat × Span) → Prop) (shift number : Nat) : Prop :=
  ∀ {gs hs : List (Nat × Span)} (s : Span), G gs hs →
    G (completeGroup number s gs) (completeGroup number (s.shift shift) hs)

/-- The second groups are the first ones, moved to the right. -/
def GroupsShifted (shift : Nat) (gs hs : List (Nat × Span)) : Prop :=
  hs = gs.map fun g => (g.1, g.2.shift shift)

theorem keepsGroup_groupsShifted (shift number : Nat) :
    KeepsGroup (GroupsShifted shift) shift number := by
  rintro gs _ s rfl
  simp [GroupsShifted, List.filter_map, Function.comp_def]

/-- Two runs, the second one further right.  What is before the first one is before the second
one, unless the first one is at the start of its text and the second one behind a line feed; and
the second one has more text behind what the first one has. -/
structure Run.AlikeOnLine (G : List (Nat × Span) → List (Nat × Span) → Prop) (shift : Nat)
    (more : List Char) (r s : Run) : Prop where
  position : s.position = r.position + shift
  previous : s.previous = r.previous ∨ r.previous = none ∧ s.previous = some '\n'
  rest : s.rest = r.rest ++ more
  groups : G r.groups s.groups
  marks : s.marks = r.marks

namespace Run.AlikeOnLine

variable {G : List (Nat × Span) → List (Nat × Span) → Prop} {n : Nat} {more : List Char}
  {r s t u : Run}

theorem advance {c : Char} {rest : List Char} (h : AlikeOnLine G n more r s) :
    AlikeOnLine G n more (r.advance c rest) (s.advance c (rest ++ more)) where
  position := by
    simp only [Run.advance, h.position]
    omega
  previous := .inl rfl
  rest := rfl
  groups := h.groups
  marks := rfl

theorem record {number : Nat} (hG : KeepsGroup G n number) (h : AlikeOnLine G n more r s)
    (h' : AlikeOnLine G n more t u) :
    AlikeOnLine G n more (t.record number r.position) (u.record number s.position) where
  position := h'.position
  previous := h'.previous
  rest := h'.rest
  groups := by
    have hspan : (⟨s.position, u.position⟩ : Span) = (⟨r.position, t.position⟩ : Span).shift n := by
      rw [Span.shift, h.position, h'.position]
    simp only [Run.record, hspan]
    exact hG _ h'.groups
  marks := h'.marks

variable (hmore : ∀ c, more.head? = some c → isLineBreak c = true)

include hmore

/-- What comes next is the same, unless the first run is at the end of its text and the second
one before a line break. -/
theorem head?_rest (h : AlikeOnLine G n more r s) :
    s.rest.head? = r.rest.head? ∨
      r.rest.head? = none ∧ ∃ b, isLineBreak b = true ∧ s.rest.head? = some b := by
  rw [h.rest, List.head?_append]
  cases hr : r.rest.head? with
  | some c => exact .inl rfl
  | none =>
      cases hhead : more.head? with
      | none => exact .inl rfl
      | some b => exact .inr ⟨rfl, b, hmore b hhead, rfl⟩

/-- A condition that takes a line break for an end of the text holds for both runs or for
neither. -/
theorem holds_eq (h : AlikeOnLine G n more r s) {a : Anchor} (ha : a.isLinewise = true) :
    a.holds s.toCursor = a.holds r.toCursor := by
  have hnewline : isWordNeighbour (some '\n') = false := by decide
  have hnone : isWordNeighbour none = false := rfl
  have hbreak (b : Char) (hb : isLineBreak b = true) : isWordNeighbour (some b) = false :=
    eq_false_of_isLineBreak (P := Unicode.isWord) (by decide) hb
  rcases h.previous with hprevious | ⟨hprevious, hprevious'⟩ <;>
    rcases h.head?_rest hmore with hrest | ⟨hrest, b, hb, hrest'⟩ <;>
    cases a <;> simp_all [Anchor.holds, Anchor.isLinewise]

theorem readMany {set : CharSet} (hset : ∀ b, isLineBreak b = true → set.mem b = false)
    {rest : List Char}
    (hrest : r.rest = rest) (h : AlikeOnLine G n more r s) :
    List.Forall₂ (AlikeOnLine G n more) (Run.readMany set rest r) (Run.readMany set s.rest s) := by
  induction rest generalizing r s with
  | nil =>
      -- the second run stops at the line break
      have hs : Run.readMany set s.rest s = [s] := by
        rw [h.rest, hrest, List.nil_append]
        cases hcases : more with
        | nil => rfl
        | cons c tail =>
            rw [Run.readMany, hset c (hmore c (by rw [hcases, List.head?_cons]))]
            rfl
      rw [hs]
      exact .cons h .nil
  | cons c rest ih =>
      have hs : s.rest = c :: (rest ++ more) := by rw [h.rest, hrest, List.cons_append]
      rw [hs, Run.readMany, Run.readMany]
      split
      · exact .cons h (ih rfl h.advance)
      · exact .cons h .nil

end Run.AlikeOnLine

namespace Pattern

/-! ## Runs -/

section Runs

variable {G : List (Nat × Span) → List (Nat × Span) → Prop} {n : Nat} {more : List Char}
  {r s : Run}

/-- A run that has a character to read reads it in the longer text. -/
theorem alikeOnLine_one (set : CharSet) (h : r.AlikeOnLine G n more s)
    (hrest : r.rest ≠ [] ∨ more = []) :
    List.Forall₂ (Run.AlikeOnLine G n more) ((one set).runs r) ((one set).runs s) := by
  cases hr : r.rest with
  | nil =>
      have hs : s.rest = [] := by
        rw [h.rest, hr, hrest.resolve_left (by simp [hr]), List.nil_append]
      simp only [runs, hr, hs]
      exact .nil
  | cons c rest =>
      have hs : s.rest = c :: (rest ++ more) := by rw [h.rest, hr, List.cons_append]
      simp only [runs, hr, hs]
      split
      · exact .cons h.advance .nil
      · exact .nil

/-- **The runs of a pattern that cannot read a line break correspond one by one**, if what one
text has in addition starts with a line break. -/
theorem alikeOnLine_runs (hmore : ∀ c, more.head? = some c → isLineBreak c = true) {p : Pattern}
    (hline : p.isLinewise = true) (havoids : p.AvoidsBreaks)
    (hG : ∀ number ∈ p.groupNumbers, KeepsGroup G n number) (h : r.AlikeOnLine G n more s) :
    List.Forall₂ (Run.AlikeOnLine G n more) (p.runs r) (p.runs s) := by
  induction p generalizing r s with
  | empty => exact .cons h .nil
  | one set =>
      by_cases hrest : r.rest = []
      · have hs : (one set).runs s = [] := by
          simp only [runs, h.rest, hrest, List.nil_append]
          cases hcases : more with
          | nil => rfl
          | cons c tail =>
              have hset : set.mem c = false := by
                simpa [avoids] using havoids c (hmore c (by rw [hcases, List.head?_cons]))
              simp only [hset, Bool.false_eq_true, if_false]
        have hr : (one set).runs r = [] := by simp only [runs, hrest]
        rw [hr, hs]
        exact .nil
      · exact alikeOnLine_one set h (.inl hrest)
  | anchor a =>
      rw [runs, runs, h.holds_eq hmore hline]
      split
      · exact .cons h .nil
      · exact .nil
  | seq p q ihp ihq =>
      simp only [isLinewise, AvoidsBreaks, avoids, Bool.and_eq_true] at hline havoids
      simp only [groupNumbers, List.mem_append] at hG
      exact List.rel_flatMap
        (ihp hline.1 (fun b hb => (havoids b hb).1) (fun k hk => hG k (.inl hk)) h)
        fun t u htu => ihq hline.2 (fun b hb => (havoids b hb).2) (fun k hk => hG k (.inr hk)) htu
  | alt p q ihp ihq =>
      simp only [isLinewise, AvoidsBreaks, avoids, Bool.and_eq_true] at hline havoids
      simp only [groupNumbers, List.mem_append] at hG
      exact List.rel_append
        (ihp hline.1 (fun b hb => (havoids b hb).1) (fun k hk => hG k (.inl hk)) h)
        (ihq hline.2 (fun b hb => (havoids b hb).2) (fun k hk => hG k (.inr hk)) h)
  | many greedy set =>
      have hset : ∀ b, isLineBreak b = true → set.mem b = false := by
        simpa [AvoidsBreaks, avoids] using havoids
      have hmany := h.readMany hmore hset rfl
      rw [runs, runs]
      split
      · exact List.forall₂_reverse_iff.2 hmany
      · exact hmany
  | loop greedy p ih => contradiction
  | upTo greedy turns p ih => contradiction
  | group number p ih =>
      have hruns := ih hline havoids (fun k hk => hG k (List.mem_cons_of_mem _ hk)) h
      rw [runs, runs, List.forall₂_map_left_iff, List.forall₂_map_right_iff]
      exact hruns.imp fun t u htu => h.record (hG number List.mem_cons_self) htu
  | mark id =>
      rw [runs, runs, h.marks]
      split
      · exact .nil
      · exact .cons ⟨h.position, h.previous, h.rest, h.groups, rfl⟩ .nil
  | distinct p ih =>
      exact forall₂_firstToEach (φ := (· + n)) (fun _ _ => Nat.add_right_cancel)
        (fun htu => htu.position) (fun _ => by simp only [List.not_mem_nil])
        (ih hline havoids hG h)

/-- The runs of a sequence of patterns go through one part of it after the other. -/
theorem runs_seqs_append {l m : List Pattern} (hm : m ≠ []) (r : Run) :
    (seqs (l ++ m)).runs r = ((seqs l).runs r).flatMap (seqs m).runs := by
  induction l generalizing r with
  | nil => simp [seqs, runs]
  | cons p l ih =>
      have hcons : seqs (p :: l ++ m) = seq p (seqs (l ++ m)) := by
        cases l <;> cases m <;> first | rfl | contradiction
      rw [hcons, runs]
      cases l with
      | nil => rw [seqs, List.nil_append]
      | cons q l =>
          rw [seqs, runs, List.flatMap_assoc]
          · exact List.flatMap_congr fun t _ => ih t
          · exact List.cons_ne_nil q l

/-- The end of a line, where a carriage return ends a line as well, is the end of the text or
stands before a line break, if no carriage return comes before it. -/
theorem alikeOnLine_anyLineEnd (hmore : ∀ c, more.head? = some c → isLineBreak c = true)
    (hreturn : r.previous ≠ some '\r') (h : r.AlikeOnLine G n more s) :
    List.Forall₂ (Run.AlikeOnLine G n more) ((anchor .anyLineEnd).runs r)
      ((anchor .anyLineEnd).runs s) := by
  have hr : (r.previous != some '\r') = true := by simpa using hreturn
  have hs : (s.previous != some '\r') = true := by
    rcases h.previous with hprevious | ⟨-, hprevious⟩
    · rwa [hprevious]
    · rw [hprevious]
      rfl
  have hholds : Anchor.anyLineEnd.holds s.toCursor = Anchor.anyLineEnd.holds r.toCursor := by
    simp only [Anchor.holds, hr, hs]
    rcases h.head?_rest hmore with hrest | ⟨hrest, b, hb, hrest'⟩
    · rw [hrest]
    · rw [hrest, hrest']
      rcases isLineBreak_iff.1 hb with rfl | rfl <;> rfl
  rw [runs, runs, hholds]
  split
  · exact .cons h .nil
  · exact .nil

/-- A sequence of patterns may end with that condition, if what is read before it cannot end
with a carriage return. -/
theorem alikeOnLine_runs_anyLineEnd (hmore : ∀ c, more.head? = some c → isLineBreak c = true)
    {l : List Pattern} (hline : (seqs l).isLinewise = true) (havoids : (seqs l).AvoidsBreaks)
    (hvoid : (seqs l).canBeVoid = false)
    (hG : ∀ number ∈ (seqs l).groupNumbers, KeepsGroup G n number)
    (h : r.AlikeOnLine G n more s) :
    List.Forall₂ (Run.AlikeOnLine G n more) ((seqs (l ++ [anchor .anyLineEnd])).runs r)
      ((seqs (l ++ [anchor .anyLineEnd])).runs s) := by
  have hprevious : ∀ t ∈ (seqs l).runs r, t.previous ≠ some '\r' := by
    intro t ht
    obtain ⟨w, hreads, hspells⟩ := spells_of_mem_runs ht
    have hne := ne_nil_of_canBeVoid_eq_false hvoid hspells
    rw [hreads.previous, List.getLast?_eq_some_getLast hne, Option.some_or]
    exact fun hlast => ne_of_avoids (havoids '\r' rfl) hspells _ (List.getLast_mem hne)
      (Option.some.inj hlast)
  have hruns := (List.forall₂_and_left _ _).2 ⟨hprevious, alikeOnLine_runs hmore hline havoids hG h⟩
  rw [runs_seqs_append (List.cons_ne_nil _ _), runs_seqs_append (List.cons_ne_nil _ _)]
  exact List.rel_flatMap hruns fun t u htu => alikeOnLine_anyLineEnd hmore htu.1 htu.2

end Runs

/-- The runs of the pattern in two texts correspond one by one, if one of them has the other one
in front of a line break or behind a line feed. -/
def KeepsToLine (p : Pattern) : Prop :=
  ∀ {n : Nat} {more : List Char} {r s : Run}, (∀ c, more.head? = some c → isLineBreak c = true) →
    r.AlikeOnLine (GroupsShifted n) n more s →
      List.Forall₂ (Run.AlikeOnLine (GroupsShifted n) n more) (p.runs r) (p.runs s)

theorem keepsToLine_of_avoids {p : Pattern} (hline : p.isLinewise = true)
    (havoids : p.AvoidsBreaks) : p.KeepsToLine := fun hmore h =>
  alikeOnLine_runs hmore hline havoids (fun number _ => keepsGroup_groupsShifted _ number) h

theorem keepsToLine_anyLineEnd {l : List Pattern} (hline : (seqs l).isLinewise = true)
    (havoids : (seqs l).AvoidsBreaks) (hvoid : (seqs l).canBeVoid = false) :
    (seqs (l ++ [anchor .anyLineEnd])).KeepsToLine :=
  fun hmore h => alikeOnLine_runs_anyLineEnd hmore hline havoids hvoid
    (fun number _ => keepsGroup_groupsShifted _ number) h

end Pattern

/-! ## Matches -/

theorem Captures.shift_zero (c : Captures) : c.shift 0 = c := by
  simp [Captures.shift, Span.shift]

/-- The run that starts at a place of a text. -/
def Run.startAt (text : List Char) (i : Nat) : Run where
  position := i
  previous := charBefore? text i
  rest := text.drop i

namespace Pattern

variable {p : Pattern} {w v : List Char} {b : Char} {i j : Nat}

/-- Runs that correspond make the same match, moved to the right. -/
theorem matchAt?_eq_of_alikeOnLine {n : Nat} {more : List Char} (hj : j = i + n)
    (h : List.Forall₂ (Run.AlikeOnLine (GroupsShifted n) n more) (p.runs (.startAt w i))
      (p.runs (.startAt v j))) :
    p.matchAt? v j = (p.matchAt? w i).map (·.shift n) := by
  have hw : p.matchAt? w i =
      (p.runs (.startAt w i)).head?.map fun r => ⟨⟨i, r.position⟩, r.groups⟩ := rfl
  have hv : p.matchAt? v j =
      (p.runs (.startAt v j)).head?.map fun r => ⟨⟨j, r.position⟩, r.groups⟩ := rfl
  rw [hw, hv]
  generalize p.runs (.startAt w i) = l, p.runs (.startAt v j) = m at h
  cases h with
  | nil => rfl
  | @cons t u _ _ htu _ =>
      have hgroups : u.groups = t.groups.map fun g => (g.1, g.2.shift n) := htu.groups
      simp only [List.head?_cons, Option.map_some, Captures.shift, Span.shift, htu.position, hj,
        hgroups]

/-- Runs that correspond at the same place make the same match. -/
theorem matchAt?_eq_of_alikeOnLine_zero {more : List Char}
    (h : List.Forall₂ (Run.AlikeOnLine (GroupsShifted 0) 0 more) (p.runs (.startAt w i))
      (p.runs (.startAt v i))) :
    p.matchAt? v i = p.matchAt? w i := by
  rw [matchAt?_eq_of_alikeOnLine (j := i) rfl h]
  cases p.matchAt? w i with
  | none => rfl
  | some c => exact congrArg some c.shift_zero

/-- A place in a text in front of more text. -/
theorem alikeOnLine_startAt_append (v : List Char) (hi : i ≤ w.length) :
    Run.AlikeOnLine (GroupsShifted 0) 0 v (.startAt w i) (.startAt (w ++ v) i) where
  position := rfl
  previous := .inl (by
    rw [Run.startAt, Run.startAt, charBefore?, charBefore?, List.take_append_of_le_length hi])
  rest := List.drop_append_of_le_length hi
  groups := rfl
  marks := rfl

/-- A place in a text behind a line feed. -/
theorem alikeOnLine_startAt_newline (w v : List Char) (j : Nat) :
    Run.AlikeOnLine (GroupsShifted (w.length + 1)) (w.length + 1) [] (.startAt v j)
      (.startAt (w ++ '\n' :: v) (j + (w.length + 1))) where
  position := rfl
  previous := by
    rw [Run.startAt, Run.startAt, charBefore?_newline_append]
    cases charBefore? v j with
    | none => exact .inr ⟨rfl, rfl⟩
    | some c => exact .inl rfl
  rest := by rw [Run.startAt, Run.startAt, drop_newline_append, List.append_nil]
  groups := rfl
  marks := rfl

namespace KeepsToLine

variable (h : p.KeepsToLine)

include h

/-- **A match in front of a line break** is a match of the text that ends there. -/
theorem matchAt?_append (v : List Char) (hb : isLineBreak b = true) (hi : i ≤ w.length) :
    p.matchAt? (w ++ b :: v) i = p.matchAt? w i := by
  have hmore : ∀ c, (b :: v).head? = some c → isLineBreak c = true := by simpa using hb
  exact matchAt?_eq_of_alikeOnLine_zero (h hmore (alikeOnLine_startAt_append (b :: v) hi))

/-- **A match behind a line feed** is a match of the text that starts there. -/
theorem matchAt?_newline_append (w v : List Char) (j : Nat) :
    p.matchAt? (w ++ '\n' :: v) (j + (w.length + 1)) =
      (p.matchAt? v j).map (·.shift (w.length + 1)) :=
  matchAt?_eq_of_alikeOnLine rfl (h (by simp) (alikeOnLine_startAt_newline w v j))

end KeepsToLine

end Pattern

end RuleCanon
