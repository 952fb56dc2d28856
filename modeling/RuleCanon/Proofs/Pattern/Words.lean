import RuleCanon.Pattern.Basic

/-!
# The words of a pattern

A run of a pattern reads a word of the text.  `Pattern.Spells` says which words a pattern can
read after a given character, by recursion on the pattern and without any search: it is the
language of the pattern, with the conditions on the character before each place, and with
those on the character after it as far as some text could satisfy them.  What holds of all
words of a pattern holds of all its matches, wherever they are found.

## Main Definitions

* `Run.Reads` — what one run has read when it has become another
* `Pattern.Spells` — the words of a pattern
* `Pattern.avoids`, `Pattern.canBeVoid` — decidable properties of all words of a pattern

## Main Statements

* `Pattern.spells_of_mem_runs` — a run reads a word of its pattern
* `Pattern.ne_of_avoids`, `Pattern.ne_nil_of_canBeVoid_eq_false` — the properties are those
  of the words
-/

namespace RuleCanon

/-- The run `r` has read the word `w` and thereby become `s`; the groups completed on the way
lie in the stretch that was read. -/
structure Run.Reads (r : Run) (w : List Char) (s : Run) : Prop where
  rest : r.rest = w ++ s.rest
  position : s.position = r.position + w.length
  previous : s.previous = w.getLast?.or r.previous
  groups : ∀ g ∈ s.groups, g ∈ r.groups ∨ g.2.Within r.position s.position

namespace Run.Reads

theorem refl (r : Run) : r.Reads [] r where
  rest := rfl
  position := rfl
  previous := rfl
  groups _ hg := .inl hg

theorem trans {r s t : Run} {v w : List Char} (h₁ : r.Reads v s) (h₂ : s.Reads w t) :
    r.Reads (v ++ w) t where
  rest := by rw [h₁.rest, h₂.rest, List.append_assoc]
  position := by rw [h₂.position, h₁.position, List.length_append, Nat.add_assoc]
  previous := by rw [h₂.previous, h₁.previous, List.getLast?_append, Option.or_assoc]
  groups g hg := by
    have hs := h₁.position
    have ht := h₂.position
    rcases h₂.groups g hg with hg | ⟨hlow, hle, hup⟩
    · rcases h₁.groups g hg with hg | ⟨hlow, hle, hup⟩
      · exact .inl hg
      · exact .inr ⟨hlow, hle, by omega⟩
    · exact .inr ⟨by omega, hle, hup⟩

theorem advance {r : Run} {c : Char} {rest : List Char} (h : r.rest = c :: rest) :
    r.Reads [c] (r.advance c rest) where
  rest := h
  position := rfl
  previous := rfl
  groups _ hg := .inl hg

theorem record {r s : Run} {w : List Char} (h : r.Reads w s) (number : Nat) :
    r.Reads w (s.record number r.position) where
  rest := h.rest
  position := h.position
  previous := h.previous
  groups g hg := by
    rcases List.mem_cons.1 hg with rfl | hg
    · exact .inr ⟨Nat.le_refl _, by rw [h.position]; exact Nat.le_add_right _ _, Nat.le_refl _⟩
    · exact h.groups g (List.mem_filter.1 hg).1

end Run.Reads

namespace Pattern

/-- Any number of words, each after the last character of those before it. -/
inductive Repeats (words : Option Char → List Char → Prop) : Option Char → List Char → Prop where
  | nil (previous : Option Char) : Repeats words previous []
  | append {previous : Option Char} {u v : List Char} (hu : words previous u)
      (hv : Repeats words (u.getLast?.or previous) v) : Repeats words previous (u ++ v)

/-- The words that the pattern can read after a character. -/
def Spells : Pattern → Option Char → List Char → Prop
  | empty, _, w => w = []
  | one set, _, w => ∃ c, set.mem c = true ∧ w = [c]
  | anchor a, previous, w => w = [] ∧ ∃ rest, a.holds ⟨0, previous, rest⟩ = true
  | seq p q, previous, w =>
      ∃ u v, w = u ++ v ∧ p.Spells previous u ∧ q.Spells (u.getLast?.or previous) v
  | alt p q, previous, w => p.Spells previous w ∨ q.Spells previous w
  | many _ set, _, w => ∀ c ∈ w, set.mem c = true
  | loop _ p, previous, w => Repeats p.Spells previous w
  | upTo _ _ p, previous, w => Repeats p.Spells previous w
  | group _ p, previous, w => p.Spells previous w
  | mark _, _, w => w = []
  | distinct p, previous, w => p.Spells previous w

namespace Repeats

variable {words : Option Char → List Char → Prop} {previous : Option Char} {u v : List Char}

theorem single (h : words previous u) : Repeats words previous u := by
  simpa using Repeats.append h (.nil _)

theorem trans (hu : Repeats words previous u) (hv : Repeats words (u.getLast?.or previous) v) :
    Repeats words previous (u ++ v) := by
  induction hu with
  | nil => simpa using hv
  | append hword _ ih =>
      rw [List.append_assoc]
      refine .append hword (ih ?_)
      rwa [List.getLast?_append, Option.or_assoc] at hv

end Repeats

/-! ## A run reads a word of its pattern -/

/-- The run `r` becomes `s` by reading one of the words. -/
def ReadsOneOf (words : Option Char → List Char → Prop) (r s : Run) : Prop :=
  ∃ w, r.Reads w s ∧ words r.previous w

theorem readsOneOf_repeats_trans {words : Option Char → List Char → Prop} {r s t : Run}
    (h₁ : ReadsOneOf (Repeats words) r s) (h₂ : ReadsOneOf (Repeats words) s t) :
    ReadsOneOf (Repeats words) r t := by
  obtain ⟨v, hread, hv⟩ := h₁
  obtain ⟨w, hread', hw⟩ := h₂
  exact ⟨v ++ w, hread.trans hread', hv.trans (hread.previous ▸ hw)⟩

theorem reads_of_mem_readMany {set : CharSet} {rest : List Char} {r s : Run}
    (hrest : r.rest = rest) (h : s ∈ Run.readMany set rest r) :
    ∃ w, r.Reads w s ∧ ∀ c ∈ w, set.mem c = true := by
  induction rest generalizing r with
  | nil =>
      rw [Run.readMany, List.mem_singleton] at h
      exact ⟨[], h ▸ .refl r, by simp⟩
  | cons c rest ih =>
      rw [Run.readMany] at h
      split at h
      · next hc =>
        rcases List.mem_cons.1 h with rfl | h
        · exact ⟨[], .refl _, by simp⟩
        · obtain ⟨w, hread, hw⟩ := ih rfl h
          refine ⟨[c] ++ w, (Run.Reads.advance hrest).trans hread, fun a ha => ?_⟩
          rcases List.mem_cons.1 ha with rfl | ha
          · exact hc
          · exact hw a ha
      · rw [List.mem_singleton] at h
        exact ⟨[], h ▸ .refl r, by simp⟩

/-- **A run of a pattern reads a word of the pattern.** -/
theorem spells_of_mem_runs {p : Pattern} {r s : Run} (h : s ∈ p.runs r) :
    ∃ w, r.Reads w s ∧ p.Spells r.previous w := by
  induction p generalizing r s with
  | empty =>
      rw [runs, List.mem_singleton] at h
      exact ⟨[], h ▸ .refl r, rfl⟩
  | one set =>
      rw [runs] at h
      split at h
      · simp at h
      · next c rest hrest =>
        split at h
        · next hc =>
          rw [List.mem_singleton] at h
          exact ⟨[c], h ▸ .advance hrest, c, hc, rfl⟩
        · simp at h
  | anchor a =>
      rw [runs] at h
      split at h
      · next ha =>
        rw [List.mem_singleton] at h
        -- the text that follows in this run satisfies the condition
        refine ⟨[], h ▸ .refl r, rfl, r.rest, ?_⟩
        cases a <;> exact ha
      · simp at h
  | seq p q ihp ihq =>
      rw [runs, List.mem_flatMap] at h
      obtain ⟨t, ht, hs⟩ := h
      obtain ⟨u, hu, hpu⟩ := ihp ht
      obtain ⟨v, hv, hqv⟩ := ihq hs
      exact ⟨u ++ v, hu.trans hv, u, v, rfl, hpu, hu.previous ▸ hqv⟩
  | alt p q ihp ihq =>
      rw [runs, List.mem_append] at h
      rcases h with h | h
      · obtain ⟨w, hw, hspells⟩ := ihp h
        exact ⟨w, hw, .inl hspells⟩
      · obtain ⟨w, hw, hspells⟩ := ihq h
        exact ⟨w, hw, .inr hspells⟩
  | many greedy set =>
      rw [runs] at h
      split at h
      · exact reads_of_mem_readMany rfl (List.mem_reverse.1 h)
      · exact reads_of_mem_readMany rfl h
  | loop greedy p ih =>
      rw [runs] at h
      refine Run.rel_of_mem_repeatBody (R := ReadsOneOf (Repeats p.Spells))
        (fun r => ⟨[], .refl r, .nil _⟩) readsOneOf_repeats_trans (fun r s hs => ?_) h
      obtain ⟨w, hw, hspells⟩ := ih hs
      exact ⟨w, hw, .single hspells⟩
  | upTo greedy turns p ih =>
      rw [runs] at h
      refine Run.rel_of_mem_takeTurns (R := ReadsOneOf (Repeats p.Spells))
        (fun r => ⟨[], .refl r, .nil _⟩) readsOneOf_repeats_trans (fun r s hs => ?_) h
      -- a turn starts without marks, which have no part in what is read
      obtain ⟨w, hw, hspells⟩ := ih hs
      exact ⟨w, ⟨hw.rest, hw.position, hw.previous, hw.groups⟩, .single hspells⟩
  | group number p ih =>
      rw [runs, List.mem_map] at h
      obtain ⟨t, ht, rfl⟩ := h
      obtain ⟨w, hw, hspells⟩ := ih ht
      exact ⟨w, hw.record number, hspells⟩
  | mark id =>
      rw [runs] at h
      split at h
      · simp at h
      · rw [List.mem_singleton] at h
        subst h
        exact ⟨[], ⟨rfl, rfl, rfl, fun _ hg => .inl hg⟩, rfl⟩
  | distinct p ih =>
      rw [runs] at h
      exact ih (Run.Follows.of_mem_distinct h)

/-! ## Properties of all words -/

/-- No word of the pattern has the character. -/
def avoids (c : Char) : Pattern → Bool
  | empty => true
  | one set => !set.mem c
  | anchor _ => true
  | seq p q => p.avoids c && q.avoids c
  | alt p q => p.avoids c && q.avoids c
  | many _ set => !set.mem c
  | loop _ p => p.avoids c
  | upTo _ _ p => p.avoids c
  | group _ p => p.avoids c
  | mark _ => true
  | distinct p => p.avoids c

theorem Repeats.forall_of_forall {words : Option Char → List Char → Prop} {P : Char → Prop}
    (h : ∀ {previous w}, words previous w → ∀ c ∈ w, P c) {previous : Option Char}
    {w : List Char} (hw : Repeats words previous w) : ∀ c ∈ w, P c := by
  induction hw with
  | nil => simp
  | append hu _ ih =>
      intro c hc
      rcases List.mem_append.1 hc with hc | hc
      · exact h hu c hc
      · exact ih c hc

/-- A character that a pattern avoids is in none of its words. -/
theorem ne_of_avoids {p : Pattern} {a : Char} (havoids : p.avoids a = true)
    {previous : Option Char} {w : List Char} (h : p.Spells previous w) : ∀ c ∈ w, c ≠ a := by
  induction p generalizing previous w with
  | empty =>
      rw [Spells] at h
      simp [h]
  | one set =>
      obtain ⟨c, hc, rfl⟩ := h
      intro b hb hab
      simp [avoids, ← hab, List.mem_singleton.1 hb, hc] at havoids
  | anchor b => simp [h.1]
  | seq p q ihp ihq =>
      obtain ⟨u, v, rfl, hu, hv⟩ := h
      simp only [avoids, Bool.and_eq_true] at havoids
      intro c hc
      rcases List.mem_append.1 hc with hc | hc
      · exact ihp havoids.1 hu c hc
      · exact ihq havoids.2 hv c hc
  | alt p q ihp ihq =>
      simp only [avoids, Bool.and_eq_true] at havoids
      rcases h with h | h
      · exact ihp havoids.1 h
      · exact ihq havoids.2 h
  | many greedy set =>
      intro c hc hca
      simp [avoids, ← hca, h c hc] at havoids
  | loop greedy p ih => exact Repeats.forall_of_forall (ih havoids) h
  | upTo greedy turns p ih => exact Repeats.forall_of_forall (ih havoids) h
  | group number p ih => exact ih havoids h
  | mark id =>
      rw [Spells] at h
      simp [h]
  | distinct p ih => exact ih havoids h

/-- Whether the pattern could have the empty word; if this is false, each word has a
character. -/
def canBeVoid : Pattern → Bool
  | one _ => false
  | seq p q => p.canBeVoid && q.canBeVoid
  | alt p q => p.canBeVoid || q.canBeVoid
  | group _ p => p.canBeVoid
  | distinct p => p.canBeVoid
  | _ => true

theorem ne_nil_of_canBeVoid_eq_false {p : Pattern} (hvoid : p.canBeVoid = false)
    {previous : Option Char} {w : List Char} (h : p.Spells previous w) : w ≠ [] := by
  induction p generalizing previous w with
  | one set =>
      obtain ⟨c, -, rfl⟩ := h
      simp
  | seq p q ihp ihq =>
      obtain ⟨u, v, rfl, hu, hv⟩ := h
      rcases Bool.and_eq_false_iff.1 hvoid with hvoid | hvoid
      · simp [ihp hvoid hu]
      · simp [ihq hvoid hv]
  | alt p q ihp ihq =>
      obtain ⟨hp, hq⟩ := Bool.or_eq_false_iff.1 hvoid
      rcases h with h | h
      · exact ihp hp h
      · exact ihq hq h
  | group number p ih => exact ih hvoid h
  | distinct p ih => exact ih hvoid h
  | _ => simp [canBeVoid] at hvoid

end Pattern

end RuleCanon
