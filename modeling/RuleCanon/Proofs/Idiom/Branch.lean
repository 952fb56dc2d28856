import RuleCanon.Proofs.Idiom.Binding

/-!
# Code without branches

The word at the end of a condition is replaced together with the blanks around it, where a line
ends behind them.  So whether there is something to replace at a place can be told from the text
behind it alone.

## Main Definitions

* `IsBranch` — texts that start with the end of a condition
* `Unbranched` — texts in which no condition ends

## Main Statements

* `matchAt?_thenPattern_eq_none_iff` — where there is something to replace
* `unbranched_of_rewrites` — replacement leaves such a text
-/

namespace RuleCanon

open Pattern

variable {c : Char} {u v w x y z out text gap gap' rest : List Char}

/-! ## The end of a condition -/

/-- Texts that start with the end of a condition: blanks, the word, and blanks up to where the
line ends. -/
inductive IsBranch : List Char → Prop where
  | intro {gap gap' rest : List Char} (hgap : Fills .inlineBlank gap)
      (hgap' : ∀ c ∈ gap', CharSet.inlineBlank.mem c = true) (hend : startsValue rest = false) :
      IsBranch (gap ++ '则' :: (gap' ++ rest))

/-- The end of a condition starts with a blank. -/
theorem IsBranch.inlineBlank_of_cons (h : IsBranch (c :: u)) :
    CharSet.inlineBlank.mem c = true := by
  generalize htext : c :: u = text at h
  obtain ⟨⟨hne, hgap⟩, -, -⟩ := h
  obtain ⟨b, gap, rfl⟩ := List.exists_cons_of_ne_nil hne
  obtain rfl : c = b := (List.cons.inj htext).1
  exact hgap c List.mem_cons_self

theorem IsBranch.ne_nil (h : IsBranch u) : u ≠ [] := by
  obtain ⟨⟨hne, -⟩, -, -⟩ := h
  exact List.append_ne_nil_of_left_ne_nil hne _

/-- Blanks end where the line does. -/
theorem endsRun_of_startsValue (h : startsValue rest = false) : EndsRun .inlineBlank rest := by
  intro c hc
  by_contra hblank
  rw [startsValue, hc] at h
  rcases mem_inlineBlank_iff.1 (by simpa using hblank) with rfl | rfl <;> exact absurd h (by decide)

/-- Where no carriage return was read last, a line ends just if no value starts. -/
theorem holds_anyLineEnd_iff {r : Cursor} (hprevious : r.previous ≠ some '\r') :
    Anchor.anyLineEnd.holds r = true ↔ startsValue r.rest = false := by
  cases hrest : r.rest with
  | nil => simp [Anchor.holds, startsValue, hrest]
  | cons c rest =>
      by_cases hc : c = '\r' <;> simp [Anchor.holds, startsValue, hrest, hprevious, hc]

/-- The blanks behind the word do not end with a carriage return, nor does the word. -/
theorem getLast?_or_ne_return (hgap' : ∀ c ∈ gap', CharSet.inlineBlank.mem c = true) :
    gap'.getLast?.or (some '则') ≠ some '\r' := by
  rcases List.eq_nil_or_concat gap' with rfl | ⟨front, b, rfl⟩
  · decide
  · rw [List.concat_eq_append, List.getLast?_concat, Option.some_or]
    rcases mem_inlineBlank_iff.1 (hgap' b (by simp)) with rfl | rfl <;> decide

theorem mem_runs_seq {p q : Pattern} {r s t : Run} (hs : s ∈ p.runs r) (ht : t ∈ q.runs s) :
    t ∈ (seq p q).runs r :=
  List.mem_flatMap.2 ⟨s, hs, ht⟩

/-- The parts of the pattern. -/
theorem thenPattern_eq :
    thenPattern = seq someBlanks (seq (one (.oneOf ['则'])) (seq blanks (anchor .anyLineEnd))) :=
  rfl

/-- Where a condition ends the pattern has a run. -/
theorem IsBranch.runs_ne_nil {r : Run} (h : IsBranch r.rest) : thenPattern.runs r ≠ [] := by
  generalize htext : r.rest = text at h
  obtain @⟨gap, gap', rest, hgap, hgap', hend⟩ := h
  have hblanks := readsMost_someOf htext hgap fun c hc => by
    rw [← Option.some.inj hc]
    decide
  have hword : (one (.oneOf ['则'])).runs (r.read gap ('则' :: (gap' ++ rest))) = _ :=
    runs_one_of_mem rfl (by decide)
  have hback := readsMost_many (r := (r.read gap ('则' :: (gap' ++ rest))).read ['则'] (gap' ++ rest))
    rfl hgap' (endsRun_of_startsValue hend)
  set last : Run := ((r.read gap ('则' :: (gap' ++ rest))).read ['则'] (gap' ++ rest)).read gap' rest
  have hanchor : (anchor .anyLineEnd).runs last = [last] :=
    if_pos ((holds_anyLineEnd_iff (getLast?_or_ne_return hgap')).2 hend)
  have hmem : last ∈ thenPattern.runs r := by
    rw [thenPattern_eq]
    refine mem_runs_seq (List.mem_of_mem_head? hblanks.head?_runs) ?_
    refine mem_runs_seq (hword ▸ List.mem_singleton_self _) ?_
    exact mem_runs_seq (List.mem_of_mem_head? hback.head?_runs)
      (hanchor ▸ List.mem_singleton_self _)
  exact List.ne_nil_of_mem hmem

/-- Where the pattern has a run a condition ends. -/
theorem isBranch_of_mem_runs {r s : Run} (h : s ∈ thenPattern.runs r) : IsBranch r.rest := by
  rw [thenPattern_eq] at h
  obtain ⟨r₁, h₁, h⟩ := List.mem_flatMap.1 h
  obtain ⟨r₂, h₂, h⟩ := List.mem_flatMap.1 h
  obtain ⟨r₃, h₃, h⟩ := List.mem_flatMap.1 h
  obtain ⟨gap, hread₁, hgap⟩ := spells_of_mem_runs h₁
  obtain ⟨word, hread₂, c, hc, rfl⟩ := spells_of_mem_runs h₂
  obtain ⟨gap', hread₃, hgap'⟩ := spells_of_mem_runs h₃
  obtain rfl : c = '则' := by simpa [CharSet.mem] using hc
  have hholds : Anchor.anyLineEnd.holds r₃.toCursor = true := by
    by_contra hnot
    rw [runs, if_neg hnot] at h
    contradiction
  have hprevious : r₃.previous ≠ some '\r' := by
    rw [hread₃.previous, hread₂.previous]
    exact getLast?_or_ne_return hgap'
  have hsplit : r.rest = gap ++ '则' :: (gap' ++ r₃.rest) := by
    rw [hread₁.rest, hread₂.rest, hread₃.rest]
    rfl
  rw [hsplit]
  exact .intro (spells_someOf_iff.1 hgap) hgap' ((holds_anyLineEnd_iff hprevious).1 hholds)

/-- **Where there is something to replace**: just where a condition ends. -/
theorem matchAt?_thenPattern_eq_none_iff :
    thenPattern.matchAt? (x ++ y) x.length = none ↔ ¬ IsBranch y := by
  rw [matchAt?, matchHere?, Option.map_eq_none_iff, List.head?_eq_none_iff, List.drop_left]
  constructor
  · intro hnil hbranch
    exact hbranch.runs_ne_nil (r := { position := _, previous := _, rest := y }) hnil
  · intro hnot
    exact List.eq_nil_iff_forall_not_mem.2 fun s hs => hnot (isBranch_of_mem_runs hs)

/-! ## Texts without branches -/

/-- Texts in which no condition ends. -/
def Unbranched : List Char → Prop
  | [] => True
  | c :: text => ¬ IsBranch (c :: text) ∧ Unbranched text

/-- Nothing is replaced in a text in which no condition ends. -/
theorem Unbranched.matchAt?_eq_none (h : Unbranched y) (hsplit : y = u ++ v) (x : List Char) :
    thenPattern.matchAt? (x ++ y) (x ++ u).length = none := by
  subst hsplit
  rw [← List.append_assoc, matchAt?_thenPattern_eq_none_iff]
  induction u with
  | nil =>
      cases v with
      | nil => exact fun hbranch => hbranch.ne_nil rfl
      | cons c v => exact h.1
  | cons c u ih => exact ih h.2

/-- What a walk leaves is what it has passed, up to the first mark that it has put in. -/
theorem Pattern.Rewrites.exists_of_append
    (h : thenPattern.Rewrites (fun _ _ => [':']) z x y out) (hsplit : out ++ z = w ++ v)
    (hw : ':' ∉ w) : ∃ u, y ++ z = w ++ u ∧ (v.head? = some ':' ∨ u.head? = v.head?) := by
  induction h generalizing w with
  | nil => exact ⟨v, hsplit, .inr rfl⟩
  | @copy x y out c _ _ ih =>
      cases w with
      | nil =>
          have hhead : some c = v.head? := congrArg List.head? hsplit
          exact ⟨c :: y ++ z, rfl, .inr hhead⟩
      | cons a w =>
          obtain ⟨rfl, htail⟩ := List.cons.inj hsplit
          obtain ⟨u, hu, hhead⟩ := ih htail fun hmem => hw (List.mem_cons_of_mem _ hmem)
          exact ⟨u, congrArg _ hu, hhead⟩
  | exchange =>
      cases w with
      | nil => exact ⟨_, rfl, .inl (congrArg List.head? hsplit).symm⟩
      | cons a w =>
          obtain ⟨rfl, -⟩ := List.cons.inj hsplit
          exact absurd List.mem_cons_self hw

/-- Replacement ends no condition that was not ended before. -/
theorem isBranch_of_rewrites (h : thenPattern.Rewrites (fun _ _ => [':']) z x y out)
    (hbranch : IsBranch (c :: (out ++ z))) : IsBranch (c :: (y ++ z)) := by
  generalize htext : c :: (out ++ z) = text at hbranch
  obtain @⟨gap, gap', rest, ⟨hne, hgap⟩, hgap', hend⟩ := hbranch
  obtain ⟨b, gap, rfl⟩ := List.exists_cons_of_ne_nil hne
  obtain ⟨rfl, htail⟩ := List.cons.inj htext
  have hblank {l : List Char} (hl : ∀ c ∈ l, CharSet.inlineBlank.mem c = true) : ':' ∉ l :=
    fun hmem => absurd (hl _ hmem) (by decide)
  obtain ⟨u, hu, hhead⟩ := h.exists_of_append (w := gap ++ '则' :: gap') (v := rest)
    (by simpa using htail) (by simp [hblank (List.forall_mem_cons.1 hgap).2, hblank hgap'])
  have hend' : startsValue u = false := by
    rcases hhead with hcolon | hsame
    · rw [startsValue, hcolon] at hend
      exact absurd hend (by decide)
    · rwa [startsValue, hsame]
  have hsplit : c :: (y ++ z) = (c :: gap) ++ '则' :: (gap' ++ u) := by rw [hu]; simp
  exact hsplit ▸ .intro ⟨List.cons_ne_nil _ _, hgap⟩ hgap' hend'

/-- **Replacement leaves a text in which no condition ends.** -/
theorem unbranched_of_rewrites (h : thenPattern.Rewrites (fun _ _ => [':']) z x y out)
    (hz : Unbranched z) : Unbranched (out ++ z) := by
  induction h with
  | nil => exact hz
  | @copy x y out c hnone hrest ih =>
      refine ⟨fun hbranch => ?_, ih⟩
      rw [List.append_assoc, matchAt?_thenPattern_eq_none_iff] at hnone
      exact hnone (isBranch_of_rewrites hrest hbranch)
  | exchange _ _ _ _ ih =>
      refine ⟨fun hbranch => ?_, ih⟩
      exact absurd hbranch.inlineBlank_of_cons (by decide)

end RuleCanon
