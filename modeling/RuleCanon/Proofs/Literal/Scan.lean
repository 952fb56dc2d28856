import RuleCanon.Proofs.Literal.Stretch

/-!
# Replacement from left to right

Replacement in a stretch of code can be told as a walk through it.  Where the pattern has no
match the walk takes one character and leaves it; where it has one, the walk goes to the end of
the match and leaves what takes its place.  The walk sees everything that it has passed, and what
lies before it with the character behind the stretch, but what it has put in the place of earlier
matches it does not see.

## Main Definitions

* `Pattern.Rewrites` — the walk, as a relation of what it has to pass and what it leaves

## Main Statements

* `Pattern.rewrites_rewriteIn` — replacement with a sealed pattern is such a walk
* `Pattern.Rewrites.eq_self` — a walk that comes to no match changes nothing
* `Segmenter.rewritesBy_replaceOutside` — replacement outside literals goes stretch by stretch
* `Segmenter.replaceOutside_eq_self` — it changes nothing if no stretch has a word of the pattern
-/

namespace RuleCanon

open Segmenter

namespace Pattern

variable {p : Pattern} {f : List Char → Captures → List Char} {marks x y z w out : List Char}
  {m : Captures}

/-- The walk that has passed `x`, has `y` before it and then `z`, which it does not enter, leaves
`out` in the place of `y`. -/
inductive Rewrites (p : Pattern) (f : List Char → Captures → List Char) (z : List Char) :
    List Char → List Char → List Char → Prop where
  /-- The walk is at its end. -/
  | nil (x : List Char) : Rewrites p f z x [] []
  /-- No match starts here, and the next character stays. -/
  | copy {x y out : List Char} {c : Char} (hnone : p.matchAt? (x ++ c :: y ++ z) x.length = none)
      (hrest : Rewrites p f z (x ++ [c]) y out) : Rewrites p f z x (c :: y) (c :: out)
  /-- A match starts here and is replaced. -/
  | exchange {x w y out : List Char} {m : Captures}
      (hmatch : p.matchAt? (x ++ (w ++ y) ++ z) x.length = some m)
      (hspan : m.span = ⟨x.length, x.length + w.length⟩) (hne : w ≠ [])
      (hrest : Rewrites p f z (x ++ w) y out) :
      Rewrites p f z x (w ++ y) (f (x ++ (w ++ y) ++ z) m ++ out)

/-- What a match covers that starts between two texts. -/
theorem slice_of_span (hspan : m.span = ⟨x.length, x.length + w.length⟩) :
    slice (x ++ (w ++ y) ++ z) m.span.start m.span.stop = w := by
  rw [hspan, List.append_assoc, List.append_assoc, slice_between]

theorem charBefore?_length (x u : List Char) : charBefore? (x ++ u) x.length = x.getLast? := by
  rw [charBefore?, List.take_left]

/-- There is only one walk. -/
theorem Rewrites.unique {other : List Char} (h : p.Rewrites f z x y out)
    (h' : p.Rewrites f z x y other) : out = other := by
  induction h generalizing other with
  | nil =>
      generalize hy : ([] : List Char) = y at h'
      cases h' with
      | nil => rfl
      | copy => contradiction
      | exchange _ _ hne => exact absurd (List.append_eq_nil_iff.1 hy.symm).1 hne
  | @copy x y out c hnone _ ih =>
      generalize hy : c :: y = y' at h'
      cases h' with
      | nil => contradiction
      | copy _ hrest =>
          obtain ⟨rfl, rfl⟩ := List.cons.inj hy
          rw [ih hrest]
      | exchange hmatch =>
          rw [← hy, hnone] at hmatch
          contradiction
  | @exchange x w y out m hmatch hspan hne _ ih =>
      generalize hy : w ++ y = y' at h'
      cases h' with
      | nil => exact absurd (List.append_eq_nil_iff.1 hy).1 hne
      | copy hnone =>
          rw [← hy, hmatch] at hnone
          contradiction
      | @exchange _ w' y' out' m' hmatch' hspan' _ hrest =>
          rw [← hy, hmatch] at hmatch'
          obtain rfl := Option.some.inj hmatch'
          have hlength : w.length = w'.length := by
            rw [hspan] at hspan'
            exact Nat.add_left_cancel (congrArg Span.stop hspan')
          obtain ⟨rfl, rfl⟩ := List.append_inj hy hlength
          rw [ih hrest]

/-- **A walk that comes to no match changes nothing.** -/
theorem Rewrites.eq_self (h : p.Rewrites f z x y out)
    (hnone : ∀ u v, y = u ++ v → v ≠ [] → p.matchAt? (x ++ y ++ z) (x ++ u).length = none) :
    out = y := by
  induction h with
  | nil => rfl
  | @copy x y out c _ _ ih =>
      rw [ih fun u v hsplit hv => ?_]
      have hlater := hnone (c :: u) v (by rw [hsplit]; rfl) hv
      rwa [← List.append_cons, ← List.append_cons]
  | @exchange x w y out m hmatch _ hne _ _ =>
      have hhere := hnone [] (w ++ y) rfl (by simp [hne])
      rw [List.append_nil, hmatch] at hhere
      contradiction

/-- A walk leaves something of each text. -/
theorem Rewrites.ne_nil (h : p.Rewrites f z x y out)
    (hne : ∀ {text i m}, p.matchAt? text i = some m → f text m ≠ []) (hy : y ≠ []) : out ≠ [] := by
  cases h with
  | nil => contradiction
  | copy => exact List.cons_ne_nil _ _
  | exchange hmatch => exact List.append_ne_nil_of_left_ne_nil (hne hmatch) _

section Sealed

variable (hsealed : p.IsSealed marks)

include hsealed

/-- No match goes on into the marks at the end of a text. -/
theorem IsSealed.stop_le (hz : ∀ o ∈ z, o ∈ marks) {i : Nat}
    (hm : p.matchAt? (y ++ z) i = some m) : m.span.stop ≤ y.length := by
  obtain ⟨hlt, hstop⟩ := hsealed.lt_of_matchAt? hm
  by_contra hlong
  -- otherwise the match would end with a mark
  have hlast : (slice (y ++ z) m.span.start m.span.stop).getLast? = (y ++ z)[m.span.stop - 1]? :=
    getLast?_slice hlt hstop
  rw [List.length_append] at hstop
  have hindex : m.span.stop - 1 - y.length < z.length := by omega
  rw [List.getElem?_append_right (by omega), List.getElem?_eq_getElem hindex] at hlast
  exact hsealed.not_mem_of_getLast? (spells_of_matchAt? hm).1 hlast
    (hz _ (List.getElem_mem hindex))

/-- A match covers a stretch of what the walk has before it, and leaves alone what comes then. -/
theorem IsSealed.exists_of_matchAt? (hz : ∀ o ∈ z, o ∈ marks)
    (hm : p.matchAt? (x ++ y ++ z) x.length = some m) :
    ∃ w v, y = w ++ v ∧ w ≠ [] ∧ m.span = ⟨x.length, x.length + w.length⟩ := by
  have hlt := (hsealed.lt_of_matchAt? hm).1
  have hstart : m.span.start = x.length := start_of_matchAt? hm
  have hwithin := hsealed.stop_le hz hm
  rw [List.length_append] at hwithin
  refine ⟨y.take (m.span.stop - x.length), y.drop (m.span.stop - x.length),
    (List.take_append_drop _ y).symm, ?_, ?_⟩
  · rw [← List.length_pos_iff, List.length_take]
    omega
  · have hend : x.length + (y.take (m.span.stop - x.length)).length = m.span.stop := by
      rw [List.length_take]
      omega
    rw [hend, ← hstart]

/-- Where the walk has no text before it, no match is found any more. -/
theorem IsSealed.find_eq_none (hz : ∀ o ∈ z, o ∈ marks) : p.find (x ++ z) x.length = none := by
  refine find_eq_none_iff.2 fun i hi hile => ?_
  by_contra hsome
  obtain ⟨m, hm⟩ := Option.ne_none_iff_exists'.1 hsome
  have hstart : m.span.start = i := start_of_matchAt? hm
  have hlt := (hsealed.lt_of_matchAt? hm).1
  have hwithin := hsealed.stop_le hz hm
  omega

/-- Replacement from a place on is a walk from there. -/
theorem rewrites_splice (f : List Char → Captures → List Char) (hz : ∀ o ∈ z, o ∈ marks)
    (x y : List Char) :
    p.Rewrites f z x y
      (splice (x ++ y) x.length (exchangesFrom p f [] (x ++ y ++ z) x.length)) := by
  have hwindow (text : List Char) : StartWith marks text [] := ⟨⟨.nil, by simp⟩, by simp⟩
  induction hn : y.length using Nat.strongRecOn generalizing x y with
  | ind n ih =>
      cases hm : p.matchAt? (x ++ y ++ z) x.length with
      | some m =>
          obtain ⟨w, v, rfl, hne, hspan⟩ := hsealed.exists_of_matchAt? hz hm
          have hpos := List.length_pos_iff.2 hne
          have hfind : p.find (x ++ (w ++ v) ++ z) x.length = some m := by
            rw [find_eq (by simp only [List.length_append]; omega), hm, Option.some_or]
          have hstep := searchStep_of_stop_le hsealed (hwindow _) hfind (by simp)
          have hstop : m.span.stop = (x ++ w).length := by rw [hspan, List.length_append]
          have hresume : m.span.resume = (x ++ w).length := by
            rw [hspan, Span.resume, if_neg (by simp only [Span.IsVoid]; omega), List.length_append]
          have hfront : slice (x ++ (w ++ v)) x.length m.span.start = [] := by
            rw [hspan, slice, Nat.sub_self, List.take_zero]
          have hlater := ih v.length (by rw [← hn, List.length_append]; omega) (x ++ w) v rfl
          rw [List.append_assoc x w v] at hlater
          rw [exchangesFrom, matchesFrom_of_accept hstep, hresume, List.map_cons, splice]
          simp only [hfront, List.nil_append, hstop]
          exact .exchange hm hspan hne hlater
      | none =>
          cases y with
          | nil =>
              have hfinished : searchStep p.matcher [] (x ++ [] ++ z) x.length = .finished := by
                rw [searchStep_eq_settle hsealed (hwindow _), List.append_nil,
                  hsealed.find_eq_none hz]
                rfl
              rw [exchangesFrom, matchesFrom_of_finished hfinished, List.map_nil, splice,
                List.append_nil, List.drop_length]
              exact .nil x
          | cons c y =>
              have hfind : p.find (x ++ c :: y ++ z) x.length =
                  p.find (x ++ c :: y ++ z) (x.length + 1) := by
                rw [find_eq (by simp only [List.length_append]; omega), hm, Option.none_or]
              have hexchanges : exchangesFrom p f [] (x ++ c :: y ++ z) x.length =
                  exchangesFrom p f [] (x ++ c :: y ++ z) (x.length + 1) := by
                rw [exchangesFrom, matchesFrom_eq_of_find_eq hsealed (hwindow _) hfind,
                  exchangesFrom]
              have hslice : slice (x ++ c :: y) x.length (x.length + 1) = [c] := by
                rw [slice, List.drop_left, Nat.add_sub_cancel_left]
                rfl
              have hlater := ih y.length (by rw [← hn, List.length_cons]; omega) (x ++ [c]) y rfl
              rw [← List.append_cons, List.length_append] at hlater
              rw [hexchanges, splice_of_le (ascends_exchangesFrom p f [] _ _) (Nat.le_succ _),
                hslice]
              exact .copy hm hlater

/-- **Replacement with a sealed pattern is a walk** through the stretch of code. -/
theorem rewrites_rewriteIn (f : List Char → Captures → List Char) (before : Option Char)
    {after : Option Char} (hafter : ∀ o, after = some o → o ∈ marks) (t : List Char) :
    p.Rewrites f after.toList before.toList t (p.rewriteIn f before t after) :=
  rewrites_splice hsealed f (fun o ho => hafter o (Option.mem_toList.1 ho)) before.toList t

end Sealed

end Pattern

/-! ## Replacement outside literals -/

namespace Segmenter

open Pattern

variable {s : Segmenter} {p : Pattern} {f : List Char → Captures → List Char}

/-- **Replacement outside literals goes stretch by stretch**, if what takes the place of a match
is never empty. -/
theorem rewritesBy_replaceOutside (hs : s.IsSingle) (hsealed : p.IsSealed s.marks)
    (hf : s.IsTame f)
    (hne : ∀ {text i m}, p.matchAt? text i = some m → f text m ≠ []) :
    s.RewritesBy (p.rewriteIn f) (s.replaceOutside p.matcher f) where
  isStretch {r} hr := by
    have hwalk := rewrites_rewriteIn hsealed f r.before hr.after r.code
    exact ⟨isPlain_rewriteIn hsealed hf hs hr.plain, hwalk.ne_nil hne hr.ne_nil, hr.before,
      hr.after⟩
  apply_eq := replaceOutside_eq hsealed hf

/-- **A text without words of the pattern stays as it is**, whatever its literals hold. -/
theorem replaceOutside_eq_self (hsealed : p.IsSealed s.marks) (hf : s.IsTame f) {text : List Char}
    (hnone : ∀ r ∈ s.stretches text, ∀ u w v, r.code = u ++ (w ++ v) → w ≠ [] →
      ¬ p.Spells (u.getLast?.or r.before) w) : s.replaceOutside p.matcher f text = text := by
  have hsame : Segment.mapCodeIn (p.rewriteIn f) none (s.segments text) =
      Segment.mapCodeIn (fun _ t _ => t) none (s.segments text) := by
    refine (Segment.mapCodeIn_eq_iff _).2 fun r hr => ?_
    have hafter := (isStretch_of_mem_stretches hr).after
    refine (rewrites_rewriteIn hsealed f r.before hafter r.code).eq_self fun u v hsplit _ => ?_
    by_contra hsome
    obtain ⟨m, hm⟩ := Option.ne_none_iff_exists'.1 hsome
    rw [hsplit, ← List.append_assoc] at hm
    obtain ⟨w, v, rfl, hne, hspan⟩ := hsealed.exists_of_matchAt?
      (fun o ho => hafter o (Option.mem_toList.1 ho)) hm
    have hspells := (spells_of_matchAt? hm).1
    have hbefore : r.before.toList.getLast? = r.before := by cases r.before <;> rfl
    rw [slice_of_span hspan, List.append_assoc (r.before.toList ++ u), charBefore?_length,
      List.getLast?_append, hbefore] at hspells
    exact hnone r hr u w v hsplit hne hspells
  rw [replaceOutside_eq hsealed hf, hsame, Segment.mapCodeIn_id, textOf_segments]

end Segmenter

end RuleCanon
