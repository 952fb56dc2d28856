import RuleCanon.Proofs.Pattern.Words

/-!
# The groups of a run

A run completes groups by their numbers, and of two groups with the same number the later one
counts.  A group whose number does not occur in the pattern is what it was before the run.

## Main Definitions

* `Pattern.groupNumbers` — the numbers that occur in a pattern
* `completeGroup` — the groups of a run after one more was completed

## Main Statements

* `Pattern.lookup_of_mem_runs` — a run leaves the groups alone that its pattern does not have
* `Run.Reads.within_of_lookup` — a group that is new lies in what was read
-/

namespace RuleCanon

/-- The numbers of the groups in a pattern. -/
def Pattern.groupNumbers : Pattern → List Nat
  | seq p q => p.groupNumbers ++ q.groupNumbers
  | alt p q => p.groupNumbers ++ q.groupNumbers
  | loop _ p => p.groupNumbers
  | upTo _ _ p => p.groupNumbers
  | group number p => number :: p.groupNumbers
  | distinct p => p.groupNumbers
  | _ => []

/-- The groups of a run after one more was completed. -/
abbrev completeGroup (number : Nat) (s : Span) (groups : List (Nat × Span)) : List (Nat × Span) :=
  (number, s) :: groups.filter (·.1 != number)

theorem lookup_completeGroup_self (number : Nat) (s : Span) (groups : List (Nat × Span)) :
    (completeGroup number s groups).lookup number = some s := by
  simp [completeGroup]

theorem lookup_completeGroup_of_ne {number k : Nat} (hk : k ≠ number) (s : Span)
    (groups : List (Nat × Span)) :
    (completeGroup number s groups).lookup k = groups.lookup k := by
  have hfilter : (groups.filter (·.1 != number)).lookup k = groups.lookup k := by
    induction groups with
    | nil => rfl
    | cons g groups ih =>
        by_cases hnumber : g.1 = number
        · rw [List.filter_cons_of_neg (by simp [hnumber]), ih, List.lookup_cons, hnumber,
            beq_false_of_ne hk]
        · rw [List.filter_cons_of_pos (by simp [hnumber]), List.lookup_cons, ih, List.lookup_cons]
  rw [completeGroup, List.lookup_cons, beq_false_of_ne hk, hfilter]

theorem groups_of_mem_readMany {set : CharSet} {rest : List Char} {r s : Run}
    (h : s ∈ Run.readMany set rest r) : s.groups = r.groups := by
  induction rest generalizing r with
  | nil =>
      rw [Run.readMany, List.mem_singleton] at h
      rw [h]
  | cons c rest ih =>
      rw [Run.readMany] at h
      split at h
      · rcases List.mem_cons.1 h with rfl | h
        · rfl
        · exact (ih h : s.groups = (r.advance c rest).groups)
      · rw [List.mem_singleton.1 h]

/-- **A run leaves the groups alone** that its pattern does not have. -/
theorem Pattern.lookup_of_mem_runs {p : Pattern} {number : Nat} (hnumber : number ∉ p.groupNumbers)
    {r s : Run} (h : s ∈ p.runs r) : s.groups.lookup number = r.groups.lookup number := by
  induction p generalizing r s with
  | empty =>
      rw [runs, List.mem_singleton] at h
      rw [h]
  | one set =>
      rw [runs] at h
      split at h
      · contradiction
      · split at h
        · rw [List.mem_singleton.1 h]
          rfl
        · contradiction
  | anchor a =>
      rw [runs] at h
      split at h
      · rw [List.mem_singleton.1 h]
      · contradiction
  | seq p q ihp ihq =>
      rw [groupNumbers, List.mem_append, not_or] at hnumber
      obtain ⟨t, ht, hs⟩ := List.mem_flatMap.1 h
      exact (ihq hnumber.2 hs).trans (ihp hnumber.1 ht)
  | alt p q ihp ihq =>
      rw [groupNumbers, List.mem_append, not_or] at hnumber
      rcases List.mem_append.1 h with h | h
      · exact ihp hnumber.1 h
      · exact ihq hnumber.2 h
  | many greedy set =>
      rw [runs] at h
      split at h
      · rw [groups_of_mem_readMany (List.mem_reverse.1 h)]
      · rw [groups_of_mem_readMany h]
  | loop greedy p ih =>
      refine Run.rel_of_mem_repeatBody
        (R := fun r s => s.groups.lookup number = r.groups.lookup number)
        (fun _ => rfl) (fun h₁ h₂ => h₂.trans h₁) (fun _ _ hs => ih hnumber hs) h
  | upTo greedy turns p ih =>
      refine Run.rel_of_mem_takeTurns
        (R := fun r s => s.groups.lookup number = r.groups.lookup number)
        (fun _ => rfl) (fun h₁ h₂ => h₂.trans h₁) (fun r s hs => ?_) h
      exact (ih hnumber hs : _ = ({ r with marks := [] } : Run).groups.lookup number)
  | group k p ih =>
      rw [groupNumbers, List.mem_cons, not_or] at hnumber
      obtain ⟨t, ht, rfl⟩ := List.mem_map.1 h
      exact (lookup_completeGroup_of_ne hnumber.1 _ _).trans (ih hnumber.2 ht)
  | mark id =>
      rw [runs] at h
      split at h
      · contradiction
      · rw [List.mem_singleton.1 h]
  | distinct p ih => exact ih hnumber (Run.Follows.of_mem_distinct h)

/-- **A group that is new** lies in the stretch that was read. -/
theorem Run.Reads.within_of_lookup {r s : Run} {w : List Char} {number : Nat} {g : Span}
    (h : r.Reads w s) (hnone : r.groups.lookup number = none)
    (hg : s.groups.lookup number = some g) : g.Within r.position s.position := by
  obtain ⟨front, back, hsplit, -⟩ := List.lookup_eq_some_iff.1 hg
  have hmem : (number, g) ∈ s.groups := by simp [hsplit]
  refine (h.groups (number, g) hmem).resolve_left fun hold => ?_
  simpa using List.lookup_eq_none_iff.1 hnone (number, g) hold

end RuleCanon
