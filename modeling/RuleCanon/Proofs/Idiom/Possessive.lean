import RuleCanon.Proofs.Idiom.Codewise
import RuleCanon.Proofs.Literal.Scan
import RuleCanon.Proofs.Pattern.Parts

/-!
# Member access is found once

The pattern for the possessive particle reads the blanks around it if there are some on both sides,
and otherwise the particle alone.  Whether it becomes a dot depends on what lies before it and
behind it in the text as it was.  A second run sees dots where particles have been replaced.  A dot
is no blank, no ideograph and no part of a name, so it makes no match that was none before, and no
particle member access that was not.  Matches share blanks, so it would not be enough to look at
each place by itself: the second run is led through the places at which the first one has been.

## Main Definitions

* `particle?` — what the pattern reads at a place
* `joins` — whether what is read stands for member access
* `Dotted` — a text with some particles replaced by dots
* `Unjoined` — code in which no particle stands for member access

## Main Statements

* `matchAt?_possessivePattern` — the match at a place
* `unjoined_of_rewrites` — what a run leaves
* `rewriteIn_possessive_eq_self_iff` — when a run changes nothing
* `rewriteIn_possessive_twice` — a second run changes nothing
-/

namespace RuleCanon

open Lexicon Pattern Segmenter

variable {c : Char} {t u v w x y z out rest : List Char}

/-! ## Reading the particle -/

/-- Reading the particle. -/
def readParticle : Reading := readOne (.oneOf [possessiveParticle])

/-- What the pattern reads at the start of a text: the particle with the blanks around it if there
are some on both sides, or else the particle alone. -/
def particle? : Reading :=
  readEither (readBoth readBlanks (readBoth readParticle readBlanks)) readParticle

theorem readsBy_possessivePattern : possessivePattern.ReadsBy .inlineBlank particle? := by
  have hblanks := readsBy_seq_one_many .inlineBlank .inlineBlank
  have hparticle := readsBy_one (.oneOf [possessiveParticle])
  have hdisjoint : CharSet.inlineBlank.Disjoint (.oneOf [possessiveParticle]) :=
    CharSet.disjoint_oneOf (by decide)
  have hspaced := hblanks.seq (hparticle.seq hblanks (refuses_empty _))
    ((refuses_one hdisjoint).seq _)
  refine hspaced.alt (hparticle.mono fun c hc => ?_) fun t ht => ?_
  · simp [CharSet.empty, CharSet.mem] at hc
  · obtain ⟨⟨w, rest⟩, hread⟩ := Option.ne_none_iff_exists'.1 ht
    obtain ⟨⟨u, t'⟩, hfirst, -⟩ := Option.bind_eq_some_iff.1 hread
    obtain ⟨c, v, rfl, hc, -, -, rfl⟩ := readRun_eq_some_iff.1 hfirst
    exact readOne_eq_none fun d hd => hdisjoint d (Option.some.inj hd ▸ hc)

/-- **The match at a place** covers what is read there. -/
theorem matchAt?_possessivePattern (x y : List Char) :
    possessivePattern.matchAt? (x ++ y) x.length =
      (particle? y).map fun e => ⟨⟨x.length, x.length + e.1.length⟩, []⟩ :=
  readsBy_possessivePattern.matchAt?_eq x y

/-- The particle as it is read in front of a text. -/
inductive IsParticle : List Char → List Char → Prop where
  | spaced {gap gap' rest : List Char} (hgap : Fills .inlineBlank gap)
      (hgap' : Fills .inlineBlank gap') (hend : EndsRun .inlineBlank rest) :
      IsParticle (gap ++ possessiveParticle :: gap') rest
  | single (rest : List Char) : IsParticle [possessiveParticle] rest

theorem inlineBlank_possessiveParticle : CharSet.inlineBlank.mem possessiveParticle = false := by
  decide

theorem readParticle_eq_some_iff :
    readParticle t = some (w, rest) ↔
      w = [possessiveParticle] ∧ t = possessiveParticle :: rest := by
  simp [readParticle, readOne_eq_some_iff, CharSet.mem]

/-- **What is read is the particle**, with all blanks around it or alone. -/
theorem particle?_eq_some_iff :
    particle? t = some (w, rest) ↔ t = w ++ rest ∧ IsParticle w rest := by
  rw [particle?, readEither, Option.or_eq_some_iff]
  constructor
  · rintro (h | ⟨-, h⟩)
    · obtain ⟨gap, v, t', rfl, hfront, h⟩ := readBoth_eq_some_iff.1 h
      obtain ⟨u, gap', t'', rfl, hparticle, hback⟩ := readBoth_eq_some_iff.1 h
      obtain ⟨hgap, -, rfl⟩ := readRun_self_eq_some_iff.1 hfront
      obtain ⟨rfl, rfl⟩ := readParticle_eq_some_iff.1 hparticle
      obtain ⟨hgap', hend, rfl⟩ := readRun_self_eq_some_iff.1 hback
      exact ⟨by simp, .spaced hgap hgap' hend⟩
    · obtain ⟨rfl, rfl⟩ := readParticle_eq_some_iff.1 h
      exact ⟨rfl, .single rest⟩
  · rintro ⟨rfl, h⟩
    cases h with
    | @spaced gap gap' _ hgap hgap' hend =>
        have hmark : EndsRun .inlineBlank (possessiveParticle :: (gap' ++ rest)) := by
          intro c hc
          rw [← Option.some.inj hc]
          exact inlineBlank_possessiveParticle
        refine .inl (readBoth_eq_some_iff.2 ⟨gap, possessiveParticle :: gap', _, rfl,
          readRun_self_eq_some_iff.2 ⟨hgap, hmark, by simp⟩, readBoth_eq_some_iff.2 ?_⟩)
        exact ⟨[possessiveParticle], gap', _, rfl, readParticle_eq_some_iff.2 ⟨rfl, rfl⟩,
          readRun_self_eq_some_iff.2 ⟨hgap', hend, rfl⟩⟩
    | single =>
        refine .inr ⟨?_, readParticle_eq_some_iff.2 ⟨rfl, rfl⟩⟩
        have hnone : readOne .inlineBlank (possessiveParticle :: rest) = none :=
          readOne_eq_none fun c hc => Option.some.inj hc ▸ inlineBlank_possessiveParticle
        simp [readBoth, readBlanks, readRun, hnone]

/-! ## Member access -/

/-- The ideographs other than the particle right before the end of a text, in reverse. -/
def wordBefore (x : List Char) : List Char := x.reverse.takeWhile isPossessiveNeighbour

/-- The ideographs other than the particle at the start of a text. -/
def wordAfter (t : List Char) : List Char := t.takeWhile isPossessiveNeighbour

/-- Whether the particle `w` between two texts stands for member access. -/
def joins (x w rest : List Char) : Bool :=
  if 1 < w.length then x.getLast?.any isIdentifierChar && rest.head?.any isIdentifierChar
  else 2 ≤ (wordBefore x).length && 2 ≤ (wordAfter rest).length

theorem possessiveReplacement_eq {m : Captures}
    (hspan : m.span = ⟨x.length, x.length + w.length⟩) :
    possessiveReplacement (x ++ (w ++ y) ++ z) m = if joins x w (y ++ z) then ['.'] else w := by
  have hbefore : charBefore? (x ++ (w ++ y) ++ z) m.span.start = x.getLast? := by
    rw [hspan, List.append_assoc, charBefore?_length]
  have hdrop : (x ++ (w ++ y) ++ z).drop m.span.stop = y ++ z := by
    have hsplit : x ++ (w ++ y) ++ z = (x ++ w) ++ (y ++ z) := by simp
    rw [hspan, hsplit, ← List.length_append, List.drop_left]
  have hafter : charAfter? (x ++ (w ++ y) ++ z) m.span.stop = (y ++ z).head? := by
    rw [charAfter?, ← List.head?_drop, hdrop]
  have htake : (x ++ (w ++ y) ++ z).take m.span.start = x := by
    rw [hspan, List.append_assoc, List.take_left]
  have hlong : m.span.start + 1 < m.span.stop ↔ 1 < w.length := by
    rw [hspan]
    simp
  have haccess : isMemberAccess (x ++ (w ++ y) ++ z) m.span = joins x w (y ++ z) := by
    rw [isMemberAccess, joins, hbefore, hafter, ideographsBefore, ideographsAfter, htake, hdrop]
    simp only [hlong]
    rfl
  rw [possessiveReplacement, haccess, slice_of_span hspan]

/-! ## Texts with dots -/

/-- The second text is the first one with some particles replaced by dots. -/
inductive Dotted : List Char → List Char → Prop where
  | nil : Dotted [] []
  | copy (c : Char) {u v : List Char} (h : Dotted u v) : Dotted (c :: u) (c :: v)
  | dot {w u v : List Char} (hw : IsParticle w u) (h : Dotted u v) : Dotted (w ++ u) ('.' :: v)

namespace Dotted

theorem refl (u : List Char) : Dotted u u := by
  induction u with
  | nil => exact .nil
  | cons c u ih => exact ih.copy c

theorem append_left (w : List Char) (h : Dotted u v) : Dotted (w ++ u) (w ++ v) := by
  induction w with
  | nil => exact h
  | cons c w ih => exact ih.copy c

/-- A dot stands where a particle did, and what has no dot has not changed. -/
theorem exists_of_append (h : Dotted u (w ++ v)) (hw : '.' ∉ w) :
    ∃ u', u = w ++ u' ∧ Dotted u' v := by
  induction w generalizing u with
  | nil => exact ⟨u, rfl, h⟩
  | cons c w ih =>
      rw [List.cons_append] at h
      cases h with
      | copy _ h =>
          obtain ⟨u', rfl, hrest⟩ := ih h fun hmem => hw (List.mem_cons_of_mem _ hmem)
          exact ⟨u', rfl, hrest⟩
      | dot => exact absurd List.mem_cons_self hw

theorem head?_eq (h : Dotted u v) : v.head? = u.head? ∨ v.head? = some '.' := by
  cases h with
  | nil => exact .inl rfl
  | copy => exact .inl rfl
  | dot => exact .inr rfl

theorem endsRun (h : Dotted u v) (hu : EndsRun .inlineBlank u) : EndsRun .inlineBlank v := by
  intro c hc
  rcases h.head?_eq with hsame | hdot
  · exact hu c (hsame ▸ hc)
  · rw [hdot] at hc
    rw [← Option.some.inj hc]
    decide

end Dotted

theorem IsParticle.exists_cons (h : IsParticle w rest) :
    ∃ c v, w = c :: v ∧ isPossessiveNeighbour c = false := by
  cases h with
  | @spaced gap gap' _ hgap _ _ =>
      obtain ⟨c, gap, rfl⟩ := List.exists_cons_of_ne_nil hgap.1
      refine ⟨c, _, rfl, ?_⟩
      rcases mem_inlineBlank_iff.1 (hgap.2 c List.mem_cons_self) with rfl | rfl <;> decide
  | single => exact ⟨_, [], rfl, by decide⟩

theorem IsParticle.exists_concat (h : IsParticle w rest) :
    ∃ v c, w = v ++ [c] ∧ isPossessiveNeighbour c = false := by
  cases h with
  | @spaced gap gap' _ _ hgap' _ =>
      obtain ⟨v, c, rfl⟩ : ∃ v c, gap' = v ++ [c] :=
        ⟨_, _, (List.dropLast_append_getLast hgap'.1).symm⟩
      refine ⟨gap ++ possessiveParticle :: v, c, by simp, ?_⟩
      rcases mem_inlineBlank_iff.1 (hgap'.2 c (by simp)) with rfl | rfl <;> decide
  | single => exact ⟨[], _, rfl, by decide⟩

theorem Dotted.wordAfter_eq (h : Dotted u v) : wordAfter v = wordAfter u := by
  induction h with
  | nil => rfl
  | copy c _ ih =>
      rw [wordAfter, wordAfter, List.takeWhile_cons, List.takeWhile_cons]
      split
      · exact congrArg (c :: ·) ih
      · rfl
  | @dot w u v hw _ _ =>
      obtain ⟨c, w, rfl, hc⟩ := hw.exists_cons
      rw [wordAfter, wordAfter, List.cons_append, List.takeWhile_cons_of_neg (by decide),
        List.takeWhile_cons_of_neg (by simp [hc])]

/-- There is no dot in a particle with its blanks. -/
theorem IsParticle.dot_not_mem (h : IsParticle w rest) : '.' ∉ w := by
  have hblank {l : List Char} (hl : ∀ c ∈ l, CharSet.inlineBlank.mem c = true) : '.' ∉ l :=
    fun hmem => absurd (hl _ hmem) (by decide)
  cases h with
  | spaced hgap hgap' _ =>
      simp [hblank hgap.2, hblank hgap'.2, possessiveParticle]
  | single => decide

/-- No particle is read at a dot. -/
theorem particle?_dot (t : List Char) : particle? ('.' :: t) = none := by
  by_contra hsome
  obtain ⟨⟨w, rest⟩, hread⟩ := Option.ne_none_iff_exists'.1 hsome
  obtain ⟨hsplit, hw⟩ := particle?_eq_some_iff.1 hread
  obtain ⟨c, v, rfl, -⟩ := hw.exists_cons
  obtain ⟨rfl, -⟩ := List.cons_eq_cons.1 hsplit
  exact hw.dot_not_mem List.mem_cons_self

/-- A particle is read in front of any text. -/
theorem IsParticle.particle?_ne_none (h : IsParticle w rest) (t : List Char) :
    particle? (w ++ t) ≠ none := by
  cases h with
  | @spaced gap gap' _ hgap hgap' _ =>
      -- the blanks behind the particle may go on
      have hmore : Fills .inlineBlank (gap' ++ t.takeWhile CharSet.inlineBlank.mem) :=
        ⟨by simp [hgap'.1], List.forall_mem_append.2
          ⟨hgap'.2, List.all_eq_true.1 List.all_takeWhile⟩⟩
      have hread := particle?_eq_some_iff.2 ⟨rfl, .spaced hgap hmore (endsRun_dropWhile _ t)⟩
      rw [List.append_assoc, List.cons_append, List.append_assoc,
        List.takeWhile_append_dropWhile] at hread
      rw [List.append_assoc, List.cons_append, hread]
      exact Option.some_ne_none _
  | single =>
      rw [particle?_eq_some_iff.2 ⟨rfl, .single t⟩]
      exact Option.some_ne_none _

/-- **Dots make no particle.** -/
theorem Dotted.particle?_eq_none (h : Dotted u v) (hnone : particle? u = none) :
    particle? v = none := by
  by_contra hsome
  obtain ⟨⟨w, rest⟩, hread⟩ := Option.ne_none_iff_exists'.1 hsome
  obtain ⟨rfl, hw⟩ := particle?_eq_some_iff.1 hread
  obtain ⟨u', rfl, -⟩ := h.exists_of_append hw.dot_not_mem
  exact hw.particle?_ne_none u' hnone

/-- A particle is read in front of a text with dots as in front of the text. -/
theorem Dotted.isParticle (h : Dotted u v) (hw : IsParticle w u) : IsParticle w v := by
  cases hw with
  | spaced hgap hgap' hend => exact .spaced hgap hgap' (h.endsRun hend)
  | single => exact .single v

/-! ## The second run -/

/-- What the first run and the second run have passed: it looks the same to what comes next, or
there is a dot. -/
structure PassedAlike (x y : List Char) : Prop where
  last : y.getLast? = x.getLast? ∨ y.getLast? = some '.'
  word : wordBefore y = wordBefore x

namespace PassedAlike

theorem refl (x : List Char) : PassedAlike x x := ⟨.inl rfl, rfl⟩

theorem wordBefore_concat (hc : isPossessiveNeighbour c = false) (x : List Char) :
    wordBefore (x ++ [c]) = [] := by
  rw [wordBefore, List.reverse_append, List.reverse_singleton, List.singleton_append,
    List.takeWhile_cons_of_neg (by simp [hc])]

theorem concat (h : PassedAlike x y) (c : Char) : PassedAlike (x ++ [c]) (y ++ [c]) := by
  refine ⟨.inl (by rw [List.getLast?_concat, List.getLast?_concat]), ?_⟩
  cases hc : isPossessiveNeighbour c with
  | false => rw [wordBefore_concat hc, wordBefore_concat hc]
  | true =>
      have hword (x : List Char) : wordBefore (x ++ [c]) = c :: wordBefore x := by
        rw [wordBefore, List.reverse_append, List.reverse_singleton, List.singleton_append,
          List.takeWhile_cons_of_pos hc, wordBefore]
      rw [hword, hword, h.word]

theorem append (h : PassedAlike x y) (w : List Char) : PassedAlike (x ++ w) (y ++ w) := by
  induction w generalizing x y with
  | nil => rwa [List.append_nil, List.append_nil]
  | cons c w ih =>
      have hlater := ih (h.concat c)
      rwa [← List.append_cons, ← List.append_cons] at hlater

theorem dot (hw : IsParticle w rest) (x y : List Char) : PassedAlike (x ++ w) (y ++ ['.']) := by
  obtain ⟨v, c, rfl, hc⟩ := hw.exists_concat
  refine ⟨.inr List.getLast?_concat, ?_⟩
  rw [wordBefore_concat (by decide), ← List.append_assoc, wordBefore_concat hc]

/-- **No particle becomes member access** by dots around it. -/
theorem joins_eq_false (h : PassedAlike x y) (hdotted : Dotted u v) (hjoins : joins x w u = false) :
    joins y w v = false := by
  have hdot : (some '.').any isIdentifierChar = false := by decide
  rw [joins] at hjoins ⊢
  split at hjoins
  · next hlong =>
    rw [if_pos hlong]
    rcases h.last with hlast | hlast
    · rcases hdotted.head?_eq with hhead | hhead
      · rwa [hlast, hhead]
      · rw [hhead, hdot, Bool.and_false]
    · rw [hlast, hdot, Bool.false_and]
  · next hshort => rwa [if_neg hshort, h.word, hdotted.wordAfter_eq]

end PassedAlike

/-- What a match of the pattern is, and what takes its place. -/
theorem isParticle_of_matchAt? {m : Captures}
    (hmatch : possessivePattern.matchAt? (x ++ (w ++ y) ++ z) x.length = some m)
    (hspan : m.span = ⟨x.length, x.length + w.length⟩) : IsParticle w (y ++ z) := by
  rw [List.append_assoc, matchAt?_possessivePattern] at hmatch
  obtain ⟨⟨v, rest⟩, hread, rfl⟩ := Option.map_eq_some_iff.1 hmatch
  obtain ⟨hsplit, hv⟩ := particle?_eq_some_iff.1 hread
  have hlength : w.length = v.length := (Nat.add_left_cancel (congrArg Span.stop hspan)).symm
  obtain ⟨rfl, rfl⟩ := List.append_inj ((List.append_assoc w y z).symm.trans hsplit) hlength
  exact hv

theorem dotted_of_rewrites (h : possessivePattern.Rewrites possessiveReplacement z x y out) :
    Dotted (y ++ z) (out ++ z) := by
  induction h with
  | nil => exact .refl z
  | copy _ _ ih => exact ih.copy _
  | @exchange x w y out m hmatch hspan _ _ ih =>
      rw [possessiveReplacement_eq hspan, List.append_assoc, List.append_assoc]
      split
      · exact .dot (isParticle_of_matchAt? hmatch hspan) ih
      · exact ih.append_left w

/-- Code in which no particle stands for member access, where the particles are read from left to
right; `x` has been passed, and `z` follows. -/
inductive Unjoined (z : List Char) : List Char → List Char → Prop where
  | nil (x : List Char) : Unjoined z x []
  | copy {c : Char} {x y : List Char} (hnone : particle? (c :: y ++ z) = none)
      (h : Unjoined z (x ++ [c]) y) : Unjoined z x (c :: y)
  | keep {x w y : List Char} (hw : IsParticle w (y ++ z)) (hjoins : joins x w (y ++ z) = false)
      (h : Unjoined z (x ++ w) y) : Unjoined z x (w ++ y)

/-- **What the walk leaves has no member access any more**: a second walk that has passed something
alike goes where the first one went, and where that has put a dot there is no particle. -/
theorem unjoined_of_rewrites (h : possessivePattern.Rewrites possessiveReplacement z x y out)
    (hpassed : PassedAlike x u) : Unjoined z u out := by
  induction h generalizing u with
  | nil => exact .nil u
  | @copy x y out c hnone hrest ih =>
      have hdotted := (dotted_of_rewrites hrest).copy c
      rw [List.append_assoc, matchAt?_possessivePattern, Option.map_eq_none_iff] at hnone
      exact .copy (hdotted.particle?_eq_none hnone) (ih (hpassed.concat c))
  | @exchange x w y out m hmatch hspan _ hrest ih =>
      have hparticle := isParticle_of_matchAt? hmatch hspan
      have hdotted := dotted_of_rewrites hrest
      rw [possessiveReplacement_eq hspan]
      cases hjoins : joins x w (y ++ z) with
      | true =>
          rw [if_pos rfl, List.singleton_append]
          exact .copy (particle?_dot _) (ih (.dot hparticle x u))
      | false =>
          exact .keep (hdotted.isParticle hparticle) (hpassed.joins_eq_false hdotted hjoins)
            (ih (hpassed.append w))

/-- A walk through code without member access leaves everything. -/
theorem Unjoined.rewrites (h : Unjoined z x y) :
    possessivePattern.Rewrites possessiveReplacement z x y y := by
  induction h with
  | nil x => exact .nil x
  | @copy c x y hnone _ ih =>
      refine .copy ?_ ih
      rw [List.append_assoc, matchAt?_possessivePattern, hnone, Option.map_none]
  | @keep x w y hw hjoins _ ih =>
      have hmatch : possessivePattern.matchAt? (x ++ (w ++ y) ++ z) x.length =
          some ⟨⟨x.length, x.length + w.length⟩, []⟩ := by
        rw [List.append_assoc, List.append_assoc, matchAt?_possessivePattern,
          particle?_eq_some_iff.2 ⟨rfl, hw⟩]
        rfl
      have hne : w ≠ [] := by
        obtain ⟨c, v, rfl, -⟩ := hw.exists_cons
        exact List.cons_ne_nil c v
      have hstep := Rewrites.exchange (f := possessiveReplacement) hmatch rfl hne ih
      rw [possessiveReplacement_eq rfl, hjoins] at hstep
      exact hstep

/-! ## A stretch of code -/

section Stretch

variable {before after : Option Char} (hafter : ∀ o, after = some o → o ∈ chinese.segmenter.marks)

include hafter

theorem unjoined_rewriteIn (before : Option Char) (t : List Char) :
    Unjoined after.toList before.toList
      (possessivePattern.rewriteIn possessiveReplacement before t after) :=
  unjoined_of_rewrites (rewrites_rewriteIn isSealed_possessivePattern possessiveReplacement before
    hafter t) (.refl _)

/-- **Code stays as it is** just if no particle in it stands for member access. -/
theorem rewriteIn_possessive_eq_self_iff :
    possessivePattern.rewriteIn possessiveReplacement before t after = t ↔
      Unjoined after.toList before.toList t := by
  constructor
  · intro hsame
    have hleft := unjoined_rewriteIn hafter before t
    rwa [hsame] at hleft
  · intro h
    exact (rewrites_rewriteIn isSealed_possessivePattern possessiveReplacement before hafter
      t).unique h.rewrites

/-- **A second run changes nothing.** -/
theorem rewriteIn_possessive_twice :
    possessivePattern.rewriteIn possessiveReplacement before
        (possessivePattern.rewriteIn possessiveReplacement before t after) after =
      possessivePattern.rewriteIn possessiveReplacement before t after :=
  (rewriteIn_possessive_eq_self_iff hafter).2 (unjoined_rewriteIn hafter before t)

end Stretch

end RuleCanon
