import RuleCanon.Pattern.Word
import RuleCanon.Proofs.Pattern.Words

/-!
# Patterns that a mark stops

A search outside literals is easy to follow if the pattern never has a choice at an opening
mark: no match ends with such a mark, and when a match reads one, then what it has read before
the mark holds no match at all.  Then a match that runs into a literal is always in vain, and
cutting the text at the literal cannot bring a new one to light.

Both follow if each word of the pattern ends in a part without marks that the pattern cannot do
without.  `Pattern.IsSealed` says this; it holds of patterns that avoid marks altogether, and
of those that must find a closing character after anything that might be a mark.

## Main Definitions

* `Pattern.IsSealed` — a pattern whose words end in such a part

## Main Statements

* `Pattern.isSealed_of_avoids`, `Pattern.isSealed_of_splits` — the two kinds of such patterns
* `Pattern.IsSealed.not_spells_of_infix` — what was read before a mark holds no word
-/

namespace RuleCanon

namespace Pattern

/-- Each word of the pattern ends in a part that is not empty and has none of the marks, and the
part before it holds no word. -/
def IsSealed (p : Pattern) (marks : List Char) : Prop :=
  ∀ previous w, p.Spells previous w → ∃ u v, w = u ++ v ∧ v ≠ [] ∧ (∀ c ∈ v, c ∉ marks) ∧
    ∀ previous' w', w' <:+: u → ¬ p.Spells previous' w'

namespace IsSealed

variable {p : Pattern} {marks : List Char} {previous previous' : Option Char}
  {u v w : List Char} {o : Char}

theorem ne_nil (h : p.IsSealed marks) (hw : p.Spells previous w) : w ≠ [] := by
  obtain ⟨u, v, rfl, hv, -⟩ := h previous w hw
  simp [hv]

/-- No word ends with a mark. -/
theorem not_mem_of_getLast? (h : p.IsSealed marks) (hw : p.Spells previous w)
    (ho : w.getLast? = some o) : o ∉ marks := by
  obtain ⟨u, v, rfl, hv, hmarks, -⟩ := h previous w hw
  rw [List.getLast?_append, List.getLast?_eq_some_getLast hv, Option.some_or] at ho
  exact hmarks o (Option.some.inj ho ▸ List.getLast_mem hv)

/-- **What was read before a mark holds no word.** -/
theorem not_spells_of_infix (h : p.IsSealed marks) (hw : p.Spells previous (u ++ o :: v))
    (ho : o ∈ marks) (hpart : w <:+: u) : ¬ p.Spells previous' w := by
  obtain ⟨front, back, hsplit, hback, hmarks, hnone⟩ := h previous _ hw
  refine hnone previous' w ?_
  -- the mark cannot be in the last part, so it comes after the front
  rcases List.append_eq_append_iff.1 hsplit with ⟨a, rfl, -⟩ | ⟨a, rfl, rfl⟩
  · exact hpart.trans (List.prefix_append u a).isInfix
  · exact absurd ho (hmarks o (by simp))

end IsSealed

/-- A pattern that avoids the marks is sealed. -/
theorem isSealed_of_avoids {p : Pattern} {marks : List Char} (hvoid : p.canBeVoid = false)
    (havoids : marks.all p.avoids = true) : p.IsSealed marks := by
  intro previous w hw
  refine ⟨[], w, rfl, ne_nil_of_canBeVoid_eq_false hvoid hw, fun c hc hmark => ?_, ?_⟩
  · exact ne_of_avoids (List.all_eq_true.1 havoids c hmark) hw c hc rfl
  · intro previous' w' hpart hw'
    exact ne_nil_of_canBeVoid_eq_false hvoid hw' (List.infix_nil.1 hpart)

/-- A pattern is sealed if its words split into a front without closing characters and a back
with a closing character and without marks. -/
theorem isSealed_of_splits {p : Pattern} {marks : List Char} (front back : Pattern)
    (closers : List Char)
    (hsplits : ∀ previous w, p.Spells previous w → ∃ u v previous', w = u ++ v ∧
      front.Spells previous u ∧ back.Spells previous' v)
    (hfront : closers.all front.avoids = true) (hback : marks.all back.avoids = true)
    (hcloser : ∀ previous w, back.Spells previous w → ∃ c ∈ w, c ∈ closers) :
    p.IsSealed marks := by
  intro previous w hw
  obtain ⟨u, v, previous', rfl, hu, hv⟩ := hsplits previous w hw
  refine ⟨u, v, rfl, ?_, fun c hc hmark => ?_, ?_⟩
  · obtain ⟨c, hc, -⟩ := hcloser previous' v hv
    exact List.ne_nil_of_mem hc
  · exact ne_of_avoids (List.all_eq_true.1 hback c hmark) hv c hc rfl
  · -- a word in the front would bring a closing character along
    intro previous'' w' hpart hw'
    obtain ⟨u', v', previous₃, rfl, -, hv'⟩ := hsplits previous'' w' hw'
    obtain ⟨c, hc, hcloser⟩ := hcloser previous₃ v' hv'
    exact ne_of_avoids (List.all_eq_true.1 hfront c hcloser) hu c
      (hpart.subset (List.mem_append_right u' hc)) rfl

/-! ## Sequences of patterns -/

/-- A word of a sequence of patterns splits where the sequence does. -/
theorem spells_seqs_append {l m : List Pattern} (hm : m ≠ []) {previous : Option Char}
    {w : List Char} (h : (seqs (l ++ m)).Spells previous w) :
    ∃ u v, w = u ++ v ∧ (seqs l).Spells previous u ∧
      (seqs m).Spells (u.getLast?.or previous) v := by
  induction l generalizing previous w with
  | nil => exact ⟨[], w, rfl, rfl, h⟩
  | cons p l ih =>
      have hcons : seqs (p :: l ++ m) = seq p (seqs (l ++ m)) := by
        cases l <;> cases m <;> first | rfl | contradiction
      rw [hcons] at h
      obtain ⟨u, v, rfl, hu, hv⟩ := h
      obtain ⟨u', v', rfl, hu', hv'⟩ := ih hv
      refine ⟨u ++ u', v', (List.append_assoc u u' v').symm, ?_, ?_⟩
      · cases l with
        | nil =>
            rw [seqs, Spells] at hu'
            simpa [seqs, hu'] using hu
        | cons q l => exact ⟨u, u', rfl, hu, hu'⟩
      · rwa [List.getLast?_append, Option.or_assoc]

/-- A sequence that starts with one character of a list has that character in its words. -/
theorem exists_mem_of_spells_seq {chars : List Char} {p : Pattern} {previous : Option Char}
    {w : List Char} (h : (seq (one (.oneOf chars)) p).Spells previous w) :
    ∃ c ∈ w, c ∈ chars := by
  obtain ⟨u, v, rfl, ⟨c, hc, rfl⟩, -⟩ := h
  exact ⟨c, by simp, by simpa [CharSet.mem] using hc⟩

end Pattern

end RuleCanon
