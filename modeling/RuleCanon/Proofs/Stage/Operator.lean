import RuleCanon.Proofs.Idiom.Branch
import RuleCanon.Proofs.Idiom.Comparison
import RuleCanon.Proofs.Idiom.Rebinding
import RuleCanon.Stage.Builtin

/-!
# The operator stage run again

The stage replaces comparison words, ends of conditions and bindings, in this order.  What it
gives has no comparison word and no end of a condition any more, since neither an operator nor a
mark nor the word `令` makes a new one.  So a second run can find bindings only, and it finds those
that the first one has passed over, which stand right behind another binding.

## Main Definitions

* `Stretch.BindsInARow` — stretches of code with two bindings, one right behind the other

## Main Statements

* `operator_operator_eq_iff` — when a second run of the stage changes nothing, and that a third one
  never does
-/

namespace RuleCanon

open Lexicon Pattern Segmenter

variable {u v : List Char}

/-! ## Bindings leave comparisons and branches alone -/

/-- Behind a replaced first word stands what stood there before. -/
theorem Swaps.head?_eq (h : Swaps u v) : v.head? = some '令' ∨ v.head? = u.head? := by
  cases h with
  | nil => exact .inr rfl
  | copy => exact .inr rfl
  | swap => exact .inl rfl

theorem Swaps.isCompared (h : Swaps u v) (hu : IsCompared u) : IsCompared v := by
  induction h with
  | nil => exact hu
  | @copy c u v h ih =>
      obtain ⟨hhead, htail⟩ := List.isChain_cons.1 hu
      refine List.isChain_cons.2 ⟨fun d hd hcomparing => ?_, ih htail⟩
      rcases h.head?_eq with hother | hsame
      · -- the word that was put in is no end of a comparison word
        rw [hother] at hd
        have hword := hcomparing.2
        rw [← Option.some.inj hd] at hword
        exact absurd hword (by decide)
      · exact hhead d (hsame ▸ hd) hcomparing
  | @swap u v h ih =>
      have htail := (List.isChain_cons.1 (List.isChain_cons.1 hu).2).2
      refine List.isChain_cons.2 ⟨fun d _ hcomparing => ?_, ih htail⟩
      exact absurd hcomparing.1 (by decide)

/-- What has no word `令` has not changed. -/
theorem Swaps.exists_of_append {w : List Char} (h : Swaps u (w ++ v)) (hw : '令' ∉ w) :
    ∃ u', u = w ++ u' ∧ Swaps u' v := by
  induction w generalizing u with
  | nil => exact ⟨u, rfl, h⟩
  | cons c w ih =>
      rw [List.cons_append] at h
      cases h with
      | copy _ h =>
          obtain ⟨u', rfl, hrest⟩ := ih h fun hmem => hw (List.mem_cons_of_mem _ hmem)
          exact ⟨u', rfl, hrest⟩
      | swap => exact absurd List.mem_cons_self hw

theorem Swaps.isBranch (h : Swaps u v) (hv : IsBranch v) : IsBranch u := by
  obtain @⟨gap, gap', rest, hgap, hgap', hend⟩ := hv
  have hblank {l : List Char} (hl : ∀ c ∈ l, CharSet.inlineBlank.mem c = true) : '令' ∉ l :=
    fun hmem => absurd (hl _ hmem) (by decide)
  have hsplit : gap ++ '则' :: (gap' ++ rest) = (gap ++ '则' :: gap') ++ rest := by simp
  rw [hsplit] at h
  obtain ⟨rest', rfl, hrest⟩ := h.exists_of_append (by simp [hblank hgap.2, hblank hgap'])
  rw [← hrest.startsValue_eq] at hend
  simpa using IsBranch.intro hgap hgap' hend

theorem Swaps.unbranched (h : Swaps u v) (hu : Unbranched u) : Unbranched v := by
  induction h with
  | nil => exact hu
  | copy c h ih => exact ⟨fun hbranch => hu.1 ((h.copy c).isBranch hbranch), ih hu.2⟩
  | swap h ih =>
      refine ⟨fun hbranch => ?_, ih hu.2.2⟩
      exact absurd hbranch.inlineBlank_of_cons (by decide)

/-! ## The stage on a stretch of code -/

/-- What takes the place of a match of a binding is not empty. -/
theorem bindingReplacement_ne_nil {text : List Char} {i : Nat} {m : Captures}
    (h : bindingPattern.matchAt? text i = some m) : bindingReplacement ['令'] text m ≠ [] := by
  obtain ⟨hlt, hstop⟩ := isSealed_bindingPattern.lt_of_matchAt? h
  have hi : i ≤ text.length := by
    rw [← start_of_matchAt? h]
    omega
  obtain ⟨x, y, rfl, rfl⟩ : ∃ x y, text = x ++ y ∧ i = x.length :=
    ⟨text.take i, text.drop i, (List.take_append_drop i text).symm,
      (List.length_take_of_le hi).symm⟩
  obtain ⟨lead, t, rest, hsplit, -, -, -, rfl⟩ := exists_of_matchAt?_bindingPattern h
  rw [hsplit, bindingReplacement_bindingMatch]
  split <;> simp

theorem rewritesBy_canonicalizeComparisons :
    chinese.segmenter.RewritesBy (comparisonPattern.rewriteIn comparisonReplacement)
      (canonicalizeComparisons chinese.segmenter) :=
  rewritesBy_replaceOutside isSingle_chinese isSealed_comparisonPattern
    isTame_comparisonReplacement comparisonReplacement_ne_nil

theorem rewritesBy_canonicalizeThen :
    chinese.segmenter.RewritesBy (thenPattern.rewriteIn fun _ _ => [':'])
      (canonicalizeThen chinese.segmenter) :=
  rewritesBy_replaceOutside isSingle_chinese isSealed_thenPattern isTame_thenReplacement
    fun _ => List.cons_ne_nil _ _

theorem rewritesBy_canonicalizeBindings :
    chinese.segmenter.RewritesBy (bindingPattern.rewriteIn (bindingReplacement ['令']))
      (canonicalizeBindings ['令'] chinese.segmenter) :=
  rewritesBy_replaceOutside isSingle_chinese isSealed_bindingPattern
    (isTame_bindingReplacement (isPlain_chinese (by decide))) bindingReplacement_ne_nil

/-- Stretches of code without comparison words and ends of conditions, also with the character
behind them. -/
structure Stretch.IsSettled (r : Stretch) : Prop where
  compared : IsCompared (r.code ++ r.after.toList)
  unbranched : Unbranched (r.code ++ r.after.toList)

/-- Stretches of code with a place where a binding could start that starts two bindings, one right
behind the other, the second one of a value. -/
def Stretch.BindsInARow (r : Stretch) : Prop :=
  ∃ u v, r.code = u ++ v ∧ v ≠ [] ∧ freeAfter r.before.isNone u = true ∧
    isRow (v ++ r.after.toList) = true

/-- Stretches of code with no place where a binding could start that starts one of a value. -/
def Stretch.IsUnbound (r : Stretch) : Prop :=
  Everywhere (¬ isBinding · = true) r.after.toList r.before.isNone r.code

/-- The stretch of code after replacement of bindings. -/
def Stretch.rebound (r : Stretch) : Stretch :=
  r.map (bindingPattern.rewriteIn (bindingReplacement ['令']))

theorem rebound_eq_iff {r : Stretch} : r.rebound = r ↔ r.rebound.code = r.code :=
  ⟨congrArg Stretch.code, congrArg (Stretch.mk r.before · r.after)⟩

theorem Stretch.not_bindsInARow_iff {r : Stretch} :
    ¬ r.BindsInARow ↔ Everywhere (¬ isRow · = true) r.after.toList r.before.isNone r.code := by
  rw [everywhere_iff, BindsInARow]
  simp only [not_exists, not_and]

section Stretch

variable {r : Stretch} (hr : chinese.segmenter.IsStretch r)

theorem length_after_le (r : Stretch) : r.after.toList.length ≤ 1 := by
  cases r.after <;> simp

theorem isCompared_after (r : Stretch) : IsCompared r.after.toList := by
  cases r.after with
  | none => exact .nil
  | some o => exact .singleton o

include hr

/-- The character behind a stretch of code is no blank. -/
theorem inlineBlank_after : ∀ o ∈ r.after.toList, CharSet.inlineBlank.mem o = false := by
  have hall : chinese.segmenter.marks.all (!CharSet.inlineBlank.mem ·) = true := by decide
  intro o ho
  rw [← Bool.not_eq_true']
  exact List.all_eq_true.1 hall o (hr.after o (Option.mem_toList.1 ho))

theorem unbranched_after : Unbranched r.after.toList := by
  cases hafter : r.after with
  | none => trivial
  | some o =>
      refine ⟨fun hbranch => ?_, trivial⟩
      have hblank := inlineBlank_after hr o (by simp [hafter])
      rw [hbranch.inlineBlank_of_cons] at hblank
      contradiction

theorem isCompared_before_append {code : List Char}
    (h : IsCompared (code ++ r.after.toList)) :
    IsCompared (r.before.toList ++ code ++ r.after.toList) := by
  have hall : chinese.segmenter.fences.all (· ∉ ['大', '小', '等', '于']) = true := by decide
  rw [List.append_assoc]
  refine isCompared_append_of_not_mem (fun q hq => ?_) h
  exact of_decide_eq_true (List.all_eq_true.1 hall q (hr.before q (Option.mem_toList.1 hq)))

/-- After comparisons and branches a stretch of code is settled. -/
theorem isSettled_map_map :
    ((r.map (comparisonPattern.rewriteIn comparisonReplacement)).map
      (thenPattern.rewriteIn fun _ _ => [':'])).IsSettled := by
  have hcompared := isCompared_of_rewrites (rewrites_rewriteIn isSealed_comparisonPattern
    comparisonReplacement r.before hr.after r.code) (isCompared_after r)
  have hbranch := rewrites_rewriteIn isSealed_thenPattern (fun _ _ => [':']) r.before
    hr.after (comparisonPattern.rewriteIn comparisonReplacement r.before r.code r.after)
  have hafter := unbranched_after hr
  refine ⟨?_, unbranched_of_rewrites hbranch hafter⟩
  refine hbranch.isCompared_of_isCompared (fun _ => List.cons_ne_nil _ _) (fun _ hc => ?_)
    (isCompared_before_append hr hcompared)
  rw [List.mem_singleton.1 hc]
  decide

/-- Bindings on a stretch of code. -/
theorem rebinds_rewriteIn :
    Rebinds r.after.toList r.before.isNone r.code
      (bindingPattern.rewriteIn (bindingReplacement ['令']) r.before r.code r.after) := by
  have hall : chinese.segmenter.fences.all (fun q => !startsLine (some q)) = true := by decide
  have hwalk := rewrites_rewriteIn isSealed_bindingPattern (bindingReplacement ['令'])
    r.before hr.after r.code
  refine rebinds_of_rewrites hwalk (fun hclosed => ?_) (fun hfree => .inl ?_)
  · obtain ⟨q, hq⟩ := Option.isSome_iff_exists.1 (by simpa using hclosed)
    rw [hq, ← Bool.not_eq_true']
    exact List.all_eq_true.1 hall q (hr.before q hq)
  · rw [Option.isNone_iff_eq_none.1 hfree]
    rfl

theorem Stretch.IsSettled.rebound (h : r.IsSettled) : r.rebound.IsSettled where
  compared := (rebinds_rewriteIn hr).swaps.isCompared h.compared
  unbranched := (rebinds_rewriteIn hr).swaps.unbranched h.unbranched

/-- Comparisons are done on settled code. -/
theorem Stretch.IsSettled.rewriteIn_comparison (h : r.IsSettled) :
    comparisonPattern.rewriteIn comparisonReplacement r.before r.code r.after = r.code := by
  have hwalk := rewrites_rewriteIn isSealed_comparisonPattern comparisonReplacement r.before
    hr.after r.code
  refine hwalk.eq_self fun u v _ _ => ?_
  exact matchAt?_comparisonPattern_eq_none (isCompared_before_append hr h.compared) _

/-- Branches are done on settled code. -/
theorem Stretch.IsSettled.rewriteIn_then (h : r.IsSettled) :
    thenPattern.rewriteIn (fun _ _ => [':']) r.before r.code r.after = r.code := by
  have hwalk := rewrites_rewriteIn isSealed_thenPattern (fun _ _ => [':']) r.before hr.after
    r.code
  refine hwalk.eq_self fun u v hsplit _ => ?_
  rw [List.append_assoc]
  exact h.unbranched.matchAt?_eq_none (v := v ++ r.after.toList) (by simp [hsplit]) _

/-- A stretch of code has no binding left after bindings just if there were no two in a row. -/
theorem isUnbound_rebound_iff : r.rebound.IsUnbound ↔ ¬ r.BindsInARow := by
  rw [Stretch.not_bindsInARow_iff]
  refine ((rebinds_rewriteIn hr).everywhere_not_isBinding_iff (length_after_le r) id).trans ?_
  exact and_iff_left fun hclosed hopen => by simp [hclosed] at hopen

theorem not_bindsInARow_rebound : ¬ r.rebound.BindsInARow := by
  rw [Stretch.not_bindsInARow_iff]
  exact (rebinds_rewriteIn hr).not_isRow (length_after_le r) (inlineBlank_after hr) id

theorem Stretch.IsUnbound.rebound_eq (h : r.IsUnbound) : r.rebound = r :=
  rebound_eq_iff.2 ((rebinds_rewriteIn hr).eq_self id h)

/-- Bindings are done after two runs, and after one just if there were no two in a row. -/
theorem rebound_rebound_eq_iff : r.rebound.rebound = r.rebound ↔ ¬ r.BindsInARow := by
  have hrebound := rewritesBy_canonicalizeBindings.isStretch hr
  constructor
  · intro heq
    rw [← isUnbound_rebound_iff hr, ← heq]
    exact (isUnbound_rebound_iff hrebound).2 (not_bindsInARow_rebound hr)
  · exact fun h => ((isUnbound_rebound_iff hr).2 h).rebound_eq hrebound

theorem rebound_rebound_rebound_eq : r.rebound.rebound.rebound = r.rebound.rebound := by
  have hrebound := rewritesBy_canonicalizeBindings.isStretch hr
  exact (rebound_rebound_eq_iff hrebound).2 (not_bindsInARow_rebound hr)

end Stretch

/-! ## The stage on a text -/

theorem operator_apply_eq (text : List Char) :
    (Stage.operator .chinese).apply chinese.segmenter text =
      canonicalizeBindings ['令'] chinese.segmenter
        (canonicalizeThen chinese.segmenter (canonicalizeComparisons chinese.segmenter text)) := by
  have hword : (chinese.keyword .letName).surface.toList = ['令'] := by decide
  rw [← hword]
  rfl

/-- Replacement of bindings is done after one run just if there were no two in a row. -/
theorem canonicalizeBindings_twice_eq_iff (text : List Char) :
    canonicalizeBindings ['令'] chinese.segmenter
        (canonicalizeBindings ['令'] chinese.segmenter text) =
      canonicalizeBindings ['令'] chinese.segmenter text ↔
      ∀ r ∈ chinese.segmenter.stretches text, ¬ r.BindsInARow := by
  have honce := rewritesBy_canonicalizeBindings
  have htwice := honce.comp isSingle_chinese honce
  refine (htwice.apply_eq_iff isSingle_chinese honce text).trans (forall₂_congr fun r hr => ?_)
  rw [← rebound_rebound_eq_iff (isStretch_of_mem_stretches hr), rebound_eq_iff]
  rfl

/-- It is done after two runs. -/
theorem canonicalizeBindings_thrice_eq (text : List Char) :
    canonicalizeBindings ['令'] chinese.segmenter
        (canonicalizeBindings ['令'] chinese.segmenter
          (canonicalizeBindings ['令'] chinese.segmenter text)) =
      canonicalizeBindings ['令'] chinese.segmenter
        (canonicalizeBindings ['令'] chinese.segmenter text) := by
  have honce := rewritesBy_canonicalizeBindings
  have htwice := honce.comp isSingle_chinese honce
  refine ((honce.comp isSingle_chinese htwice).apply_eq_iff isSingle_chinese htwice text).2 ?_
  intro r hr
  exact congrArg Stretch.code (rebound_rebound_rebound_eq (isStretch_of_mem_stretches hr))

section Settled

variable {text : List Char} (h : ∀ r ∈ chinese.segmenter.stretches text, r.IsSettled)

include h

/-- On settled text the stage replaces bindings only. -/
theorem operator_apply_eq_of_isSettled :
    (Stage.operator .chinese).apply chinese.segmenter text =
      canonicalizeBindings ['令'] chinese.segmenter text := by
  have hcompare : canonicalizeComparisons chinese.segmenter text = text :=
    (rewritesBy_canonicalizeComparisons.apply_eq_self_iff isSingle_chinese text).2 fun r hr =>
      (h r hr).rewriteIn_comparison (isStretch_of_mem_stretches hr)
  have hbranch : canonicalizeThen chinese.segmenter text = text :=
    (rewritesBy_canonicalizeThen.apply_eq_self_iff isSingle_chinese text).2 fun r hr =>
      (h r hr).rewriteIn_then (isStretch_of_mem_stretches hr)
  rw [operator_apply_eq, hcompare, hbranch]

theorem isSettled_canonicalizeBindings :
    ∀ r ∈ chinese.segmenter.stretches (canonicalizeBindings ['令'] chinese.segmenter text),
      r.IsSettled := by
  rw [rewritesBy_canonicalizeBindings.stretches_apply isSingle_chinese]
  exact List.forall_mem_map.2 fun r hr => (h r hr).rebound (isStretch_of_mem_stretches hr)

end Settled

/-- After comparisons and branches a text is settled. -/
theorem isSettled_canonicalizeThen (text : List Char) :
    ∀ r ∈ chinese.segmenter.stretches
      (canonicalizeThen chinese.segmenter (canonicalizeComparisons chinese.segmenter text)),
      r.IsSettled := by
  rw [rewritesBy_canonicalizeThen.stretches_apply isSingle_chinese,
    rewritesBy_canonicalizeComparisons.stretches_apply isSingle_chinese, List.map_map]
  exact List.forall_mem_map.2 fun r hr => isSettled_map_map (isStretch_of_mem_stretches hr)

/-- **The stage run again.**  A second run changes nothing just if, after comparisons and branches,
no stretch of code has two bindings in a row where the first one can start; and a third run never
changes anything. -/
theorem operator_operator_eq_iff (text : List Char) :
    let run := (Stage.operator .chinese).apply chinese.segmenter
    (run (run text) = run text ↔
      ∀ r ∈ chinese.segmenter.stretches
        (canonicalizeThen chinese.segmenter (canonicalizeComparisons chinese.segmenter text)),
        ¬ r.BindsInARow) ∧
    run (run (run text)) = run (run text) := by
  intro run
  have hfirst := isSettled_canonicalizeThen text
  have hsecond := isSettled_canonicalizeBindings hfirst
  have hthird := isSettled_canonicalizeBindings hsecond
  have honce : run text = _ := operator_apply_eq text
  have htwice : run (run text) = _ :=
    (congrArg run honce).trans (operator_apply_eq_of_isSettled hsecond)
  have hthrice : run (run (run text)) = _ :=
    (congrArg run htwice).trans (operator_apply_eq_of_isSettled hthird)
  rw [hthrice, htwice, honce]
  exact ⟨canonicalizeBindings_twice_eq_iff _, canonicalizeBindings_thrice_eq _⟩

/-- Two bindings in a row, of which the first run replaces one and the second run the other. -/
theorem operator_not_idempotent :
    let run := (Stage.operator .chinese).apply chinese.segmenter
    run "设置 a 为 设置 b 为 c".toList = "令 a 为 设置 b 为 c".toList ∧
      run (run "设置 a 为 设置 b 为 c".toList) = "令 a 为 令 b 为 c".toList := by
  decide +kernel

end RuleCanon
