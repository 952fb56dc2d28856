import Mathlib.Data.List.Forall2
import RuleCanon.Pattern.Basic

/-!
# How far a run can see

A run looks at the character it is about to read and at the one before it, and it never goes
back.  So what a pattern can do before some place of a text depends only on the text up to that
place, whatever follows and however much text there is in front.  This module makes that
precise for two runs under way in two texts: if the texts agree up to a horizon, then the runs
that stay before the horizon correspond to each other one by one and in the same order of
preference.

The order is what takes work.  A repetition leaves out places that it has explored before, and
in the longer text it explores places behind the horizon as well.  `alikeFound_repeatBody` shows
that these do not interfere: a run behind the horizon reaches only places behind it.

## Main Definitions

* `Run.Alike` — runs in two texts that agree up to a horizon
* `Run.AlikeBefore` — lists of runs that correspond as far as they stay before it
* `Cursor.Alike`, `Captures.shift` — the same for places and for matches

## Main Statements

* `Pattern.alikeBefore_runs` — the runs of a pattern correspond before the horizon
* `Pattern.eq_shift_of_matchHere?` — matches before the horizon are the same
* `Pattern.exists_matchHere?_of_lt` — a match before the horizon shows that the other text has
  one at that place, though perhaps not the same
-/

namespace RuleCanon

/-- Two runs in texts that agree from here up to a horizon.  The second one is further right by
a fixed number of characters. -/
structure Run.Alike (shift horizon : Nat) (r s : Run) : Prop where
  position : s.position = r.position + shift
  previous : s.previous = r.previous
  rest : s.rest.take (horizon - r.position) = r.rest.take (horizon - r.position)
  groups : s.groups = r.groups.map fun g => (g.1, g.2.shift shift)
  marks : s.marks = r.marks

/-! ## Lists that correspond before the horizon -/

/-- Two lists correspond as far as their members stay before the horizon: the members that do
are related one by one, in the same order. -/
def CorrespondBefore {α : Type} (position : α → Nat) (R : α → α → Prop) (shift horizon : Nat)
    (l m : List α) : Prop :=
  List.Forall₂ R (l.filter (position · < horizon)) (m.filter (position · < horizon + shift))

namespace CorrespondBefore

variable {α : Type} {position : α → Nat} {R : α → α → Prop} {n k : Nat} {l m l' m' : List α}

theorem filter_eq_nil_of_le (h : ∀ a ∈ l, k ≤ position a) :
    l.filter (position · < k) = [] := by
  refine List.filter_eq_nil_iff.2 fun a ha => ?_
  simpa using h a ha

/-- What is behind the horizon corresponds to nothing, and need not. -/
theorem of_le (hl : ∀ a ∈ l, k ≤ position a) (hm : ∀ b ∈ m, k + n ≤ position b) :
    CorrespondBefore position R n k l m := by
  rw [CorrespondBefore, filter_eq_nil_of_le hl, filter_eq_nil_of_le hm]
  exact .nil

theorem append (h : CorrespondBefore position R n k l m)
    (h' : CorrespondBefore position R n k l' m') :
    CorrespondBefore position R n k (l ++ l') (m ++ m') := by
  rw [CorrespondBefore, List.filter_append, List.filter_append]
  exact List.rel_append h h'

theorem singleton {a b : α} (hab : R a b) (hposition : position b = position a + n) :
    CorrespondBefore position R n k [a] [b] := by
  by_cases ha : position a < k
  · have hb : position b < k + n := by omega
    simpa [CorrespondBefore, ha, hb] using hab
  · have hb : ¬ position b < k + n := by omega
    simp [CorrespondBefore, ha, hb]

theorem filter_flatMap_of_forward {f : α → List α}
    (hf : ∀ a, ∀ b ∈ f a, position a ≤ position b) (l : List α) :
    (l.flatMap f).filter (position · < k) =
      (l.filter (position · < k)).flatMap fun a => (f a).filter (position · < k) := by
  induction l with
  | nil => rfl
  | cons a l ih =>
      rw [List.flatMap_cons, List.filter_append, ih]
      by_cases ha : position a < k
      · rw [List.filter_cons_of_pos (by simpa using ha), List.flatMap_cons]
      · rw [List.filter_cons_of_neg (by simpa using ha), filter_eq_nil_of_le, List.nil_append]
        intro b hb
        have := hf a b hb
        omega

/-- Functions that leave the places as they are may be applied to all members. -/
theorem map {β : Type} {position' : β → Nat} {S : β → β → Prop} {f g : α → β}
    (hf : ∀ a, position' (f a) = position a) (hg : ∀ a, position' (g a) = position a)
    (hRS : ∀ a b, R a b → S (f a) (g b)) (h : CorrespondBefore position R n k l m) :
    CorrespondBefore position' S n k (l.map f) (m.map g) := by
  rw [CorrespondBefore, List.filter_map, List.filter_map, List.forall₂_map_left_iff,
    List.forall₂_map_right_iff]
  simp only [Function.comp_def, hf, hg]
  exact List.Forall₂.imp hRS h

/-- A function that never goes back may be applied to all members. -/
theorem flatMap {f : α → List α} (hf : ∀ a, ∀ b ∈ f a, position a ≤ position b)
    (hR : ∀ a b, R a b → CorrespondBefore position R n k (f a) (f b))
    (h : CorrespondBefore position R n k l m) :
    CorrespondBefore position R n k (l.flatMap f) (m.flatMap f) := by
  rw [CorrespondBefore, filter_flatMap_of_forward hf, filter_flatMap_of_forward hf]
  exact List.rel_flatMap h fun a b hab => hR a b hab

/-- A member before the horizon has a counterpart, so there is one at all. -/
theorem ne_nil_right {a : α} (h : CorrespondBefore position R n k l m) (ha : a ∈ l)
    (hk : position a < k) : m ≠ [] := by
  rintro rfl
  have hnone := List.filter_eq_nil_iff.1 (List.forall₂_nil_right_iff.1 h) a ha
  simp [hk] at hnone

theorem ne_nil_left {b : α} (h : CorrespondBefore position R n k l m) (hb : b ∈ m)
    (hk : position b < k + n) : l ≠ [] := by
  rintro rfl
  have hnone := List.filter_eq_nil_iff.1 (List.forall₂_nil_left_iff.1 h) b hb
  simp [hk] at hnone

/-- First members that are before the horizon are counterparts of each other. -/
theorem head? {a b : α} (h : CorrespondBefore position R n k l m) (ha : l.head? = some a)
    (hk : position a < k) (hb : m.head? = some b) (hk' : position b < k + n) : R a b := by
  obtain ⟨l, rfl⟩ := List.head?_eq_some_iff.1 ha
  obtain ⟨m, rfl⟩ := List.head?_eq_some_iff.1 hb
  rw [CorrespondBefore, List.filter_cons_of_pos (by simpa using hk),
    List.filter_cons_of_pos (by simpa using hk')] at h
  exact (List.forall₂_cons.1 h).1

end CorrespondBefore

/-- Two lists of runs correspond as far as they stay before the horizon. -/
abbrev Run.AlikeBefore (n k : Nat) (l m : List Run) : Prop :=
  CorrespondBefore (fun r : Run => r.position) (Run.Alike n k) n k l m

namespace Run

variable {n k : Nat} {r s : Run} {l m : List Run}

namespace Alike

theorem alikeBefore_singleton (h : Alike n k r s) : AlikeBefore n k [r] [s] :=
  .singleton h h.position

/-- Before the horizon both runs have the same character to read, or none. -/
theorem rest_cases (h : Alike n k r s) (hk : r.position < k) :
    (r.rest = [] ∧ s.rest = []) ∨ ∃ c u v, r.rest = c :: u ∧ s.rest = c :: v ∧
      Alike n k (r.advance c u) (s.advance c v) := by
  have hrest := h.rest
  obtain ⟨d, hd⟩ : ∃ d, k - r.position = d + 1 := ⟨k - r.position - 1, by omega⟩
  rw [hd] at hrest
  cases hr : r.rest with
  | nil =>
      cases hs : s.rest with
      | nil => exact .inl ⟨rfl, rfl⟩
      | cons c v => simp [hr, hs] at hrest
  | cons c u =>
      cases hs : s.rest with
      | nil => simp [hr, hs] at hrest
      | cons b v =>
          rw [hr, hs, List.take_succ_cons, List.take_succ_cons] at hrest
          obtain ⟨rfl, htail⟩ := List.cons.inj hrest
          refine .inr ⟨b, u, v, rfl, rfl, ?_, rfl, ?_, h.groups, rfl⟩
          · simp only [advance, h.position]
            omega
          · have hk' : k - (r.position + 1) = d := by omega
            simpa only [advance, hk'] using htail

theorem head?_rest (h : Alike n k r s) (hk : r.position < k) :
    s.rest.head? = r.rest.head? := by
  rcases h.rest_cases hk with ⟨hr, hs⟩ | ⟨c, u, v, hr, hs, -⟩ <;> simp [hr, hs]

/-- A condition on a place before the horizon holds in both texts or in neither. -/
theorem holds_eq (h : Alike n k r s) (hk : r.position < k) (a : Anchor) :
    a.holds s.toCursor = a.holds r.toCursor := by
  cases a <;> simp only [Anchor.holds, h.previous, h.head?_rest hk]

theorem record {t u : Run} (h : Alike n k r s) (h' : Alike n k t u) (number : Nat) :
    Alike n k (t.record number r.position) (u.record number s.position) where
  position := h'.position
  previous := h'.previous
  rest := h'.rest
  groups := by
    simp [Run.record, h'.groups, h'.position, h.position, List.filter_map, Span.shift,
      Function.comp_def]
  marks := h'.marks

theorem setMarks (h : Alike n k r s) (marks : List Nat) :
    Alike n k { r with marks } { s with marks } where
  position := h.position
  previous := h.previous
  rest := h.rest
  groups := h.groups
  marks := rfl

end Alike

/-! ## Runs that never go back -/

/-- Runs of a body stay where they are or go on. -/
def IsForward (body : Run → List Run) : Prop := ∀ r, ∀ s ∈ body r, s.Follows r

/-- Behind the horizon a body reaches nothing before it. -/
theorem IsForward.alikeBefore {body : Run → List Run} (hbody : IsForward body)
    (h : Alike n k r s) (hk : k ≤ r.position) : AlikeBefore n k (body r) (body s) := by
  refine .of_le (fun t ht => Nat.le_trans hk (hbody r t ht).1) fun u hu => ?_
  have hle := (hbody s u hu).1
  rw [h.position] at hle
  omega

theorem isForward_readMany (set : CharSet) : IsForward fun r => readMany set r.rest r :=
  fun _ _ => Follows.of_mem_readMany rfl

theorem alikeBefore_readMany (set : CharSet) {rest : List Char} (hrest : r.rest = rest)
    (h : Alike n k r s) :
    AlikeBefore n k (readMany set rest r) (readMany set s.rest s) := by
  induction rest generalizing r s with
  | nil =>
      by_cases hk : r.position < k
      · rcases h.rest_cases hk with ⟨hr, hs⟩ | ⟨c, u, v, hr, -⟩
        · simpa [readMany, hs] using h.alikeBefore_singleton
        · simp [hrest] at hr
      · rw [← hrest]
        exact (isForward_readMany set).alikeBefore h (by omega)
  | cons c rest ih =>
      by_cases hk : r.position < k
      · rcases h.rest_cases hk with ⟨hr, -⟩ | ⟨b, u, v, hr, hs, hadvance⟩
        · simp [hrest] at hr
        · obtain ⟨rfl, rfl⟩ := List.cons.inj (hrest.symm.trans hr)
          rw [hs, readMany, readMany]
          split
          · exact h.alikeBefore_singleton.append (ih rfl hadvance)
          · exact h.alikeBefore_singleton
      · rw [← hrest]
        exact (isForward_readMany set).alikeBefore h (by omega)

/-! ## The first run to each place -/

end Run

section FirstToEach

variable {α β κ ν : Type} [BEq κ] [LawfulBEq κ] [BEq ν] [LawfulBEq ν]

/-- Only keys that occur in the list matter among those seen. -/
theorem firstToEach_congr {key : α → κ} {seen other : List κ} {l : List α}
    (h : ∀ a ∈ l, key a ∈ seen ↔ key a ∈ other) :
    firstToEach key seen l = firstToEach key other l := by
  induction l generalizing seen other with
  | nil => rfl
  | cons a l ih =>
      have ha := h a List.mem_cons_self
      have hl : ∀ b ∈ l, key b ∈ seen ↔ key b ∈ other := fun b hb => h b (List.mem_cons_of_mem a hb)
      simp only [firstToEach, List.contains_iff_mem, ha]
      split
      · exact ih hl
      · exact congrArg (a :: ·) (ih fun b hb => by simp only [List.mem_cons, hl b hb])

/-- A choice that depends on the key alone may be made before or after. -/
theorem filter_firstToEach {key : α → κ} {P : α → Bool}
    (hP : ∀ a b, key a = key b → P a = P b) {seen : List κ} {l : List α} :
    (firstToEach key seen l).filter P = firstToEach key seen (l.filter P) := by
  induction l generalizing seen with
  | nil => rfl
  | cons a l ih =>
      by_cases ha : P a = true
      · rw [List.filter_cons_of_pos ha, firstToEach, firstToEach]
        split
        · exact ih
        · rw [List.filter_cons_of_pos ha, ih]
      · rw [List.filter_cons_of_neg ha, firstToEach]
        split
        · exact ih
        · rw [List.filter_cons_of_neg ha, ih]
          -- the key of a member that is left out counts as seen, but no other member has it
          refine firstToEach_congr fun b hb => ?_
          have hne : key b ≠ key a := fun hkey =>
            ha (hP b a hkey ▸ (List.mem_filter.1 hb).2)
          simp [hne]

/-- The first members to each key correspond if all members and their keys do. -/
theorem forall₂_firstToEach {R : α → β → Prop} {key : α → κ} {key' : β → ν} {φ : κ → ν}
    (hφ : Function.Injective φ) (hkey : ∀ {a b}, R a b → key' b = φ (key a)) {seen : List κ}
    {seen' : List ν} {l : List α} {m : List β} (hseen : ∀ x, φ x ∈ seen' ↔ x ∈ seen)
    (h : List.Forall₂ R l m) :
    List.Forall₂ R (firstToEach key seen l) (firstToEach key' seen' m) := by
  induction h generalizing seen seen' with
  | nil => exact .nil
  | @cons a b l m hab _ ih =>
      simp only [firstToEach, List.contains_iff_mem, hkey hab, hseen]
      split
      · exact ih hseen
      · -- both keys are seen from here on
        refine .cons hab (ih fun x => ?_)
        simp only [List.mem_cons, hseen, hφ.eq_iff]

/-- Of members that correspond, the first ones to each key correspond. -/
theorem CorrespondBefore.firstToEach {position : α → Nat} {R : α → α → Prop} {n k : Nat}
    {key : α → κ} {φ : κ → κ} (hφ : Function.Injective φ)
    (hkey : ∀ {a b}, R a b → key b = φ (key a))
    (hposition : ∀ a b, key a = key b → position a = position b) {l m : List α}
    (h : CorrespondBefore position R n k l m) :
    CorrespondBefore position R n k (firstToEach key [] l) (firstToEach key [] m) := by
  rw [CorrespondBefore, filter_firstToEach fun a b hab => by rw [hposition a b hab],
    filter_firstToEach fun a b hab => by rw [hposition a b hab]]
  exact forall₂_firstToEach (R := R) hφ hkey (fun _ => by simp only [List.not_mem_nil]) h

end FirstToEach

namespace Run

variable {n k : Nat} {r s : Run} {l m : List Run}

theorem AlikeBefore.distinct (h : AlikeBefore n k l m) :
    AlikeBefore n k (Run.distinct l) (Run.distinct m) :=
  h.firstToEach (φ := (· + n)) (fun _ _ => Nat.add_right_cancel) (fun hab => hab.position)
    fun _ _ => id

/-- The body does the same before the horizon in both texts. -/
def IsAlike (n k : Nat) (body : Run → List Run) : Prop :=
  ∀ r s, Alike n k r s → AlikeBefore n k (body r) (body s)

/-! ## Repetition -/

/-- What a repetition has found and where it has been, before the horizon. -/
def AlikeFound (n k : Nat) (x y : List Run × List Nat) : Prop :=
  AlikeBefore n k x.1 y.1 ∧ ∀ p < k, p ∈ x.2 ↔ p + n ∈ y.2

variable {body : Run → List Run} {greedy : Bool}

/-- One step of the fold that goes through the runs of the body. -/
def explore (body : Run → List Run) (greedy : Bool) (fuel : Nat) (x : List Run × List Nat)
    (next : Run) : List Run × List Nat :=
  let y := repeatBody body greedy fuel x.2 next
  (x.1 ++ y.1, y.2)

theorem repeatBody_succ (fuel : Nat) (seen : List Nat) (r : Run) :
    repeatBody body greedy (fuel + 1) seen r =
      if r.position ∈ seen then ([], seen)
      else
        let x := (body r).foldl (explore body greedy fuel) ([], r.position :: seen)
        (if greedy then x.1 ++ [r] else r :: x.1, x.2) := by
  rw [repeatBody]
  simp only [List.contains_iff_mem]
  rfl

/-- Places that are kept by a repetition, with those that it may add, are kept by one repetition
after another. -/
theorem mem_foldl_explore {fuel p q : Nat} (hkeep : ∀ {seen : List Nat} {t : Run}, p ∈ seen →
      p ∈ (repeatBody body greedy fuel seen t).2)
    (hadd : ∀ {seen : List Nat} {t : Run}, p ∈ (repeatBody body greedy fuel seen t).2 →
      p ∈ seen ∨ t.position ≤ p)
    {l : List Run} (hl : ∀ t ∈ l, q ≤ t.position) {x : List Run × List Nat} :
    (p ∈ x.2 → p ∈ (l.foldl (explore body greedy fuel) x).2) ∧
      (p ∈ (l.foldl (explore body greedy fuel) x).2 → p ∈ x.2 ∨ q ≤ p) := by
  induction l generalizing x with
  | nil => exact ⟨id, .inl⟩
  | cons t l ih =>
      obtain ⟨hkeep', hadd'⟩ := @ih (fun u hu => hl u (List.mem_cons_of_mem t hu))
        (explore body greedy fuel x t)
      refine ⟨fun hp => hkeep' (hkeep hp), fun hp => ?_⟩
      rcases hadd' hp with hp | hp
      · exact (hadd hp).imp_right (Nat.le_trans (hl t List.mem_cons_self))
      · exact .inr hp

/-- Places are never forgotten, and those that a repetition adds are not before its start. -/
theorem mem_repeatBody (hbody : IsForward body) {fuel : Nat} {seen : List Nat} {r : Run}
    (p : Nat) : (p ∈ seen → p ∈ (repeatBody body greedy fuel seen r).2) ∧
      (p ∈ (repeatBody body greedy fuel seen r).2 → p ∈ seen ∨ r.position ≤ p) := by
  induction fuel generalizing seen r with
  | zero => exact ⟨id, .inl⟩
  | succ fuel ih =>
      obtain ⟨hkeep, hadd⟩ := mem_foldl_explore (p := p) (q := r.position)
        (x := ([], r.position :: seen)) ih.1 ih.2 (fun t ht => (hbody r t ht).1)
      rw [repeatBody_succ]
      split
      · exact ⟨id, .inl⟩
      · refine ⟨fun hp => hkeep (List.mem_cons_of_mem _ hp), fun hp => ?_⟩
        rcases hadd hp with hp | hp
        · -- a new place, unless it is the start itself
          rcases List.mem_cons.1 hp with rfl | hp
          · exact .inr (Nat.le_refl _)
          · exact .inl hp
        · exact .inr hp

/-- A run that starts behind the horizon finds nothing before it. -/
theorem repeatBody_of_le (hbody : IsForward body) {fuel : Nat} {seen : List Nat} {r : Run}
    (hk : k ≤ r.position) :
    (∀ t ∈ (repeatBody body greedy fuel seen r).1, k ≤ t.position) ∧
      ∀ p < k, p ∈ (repeatBody body greedy fuel seen r).2 ↔ p ∈ seen := by
  constructor
  · intro t ht
    have hfollows : t.Follows r := rel_of_mem_repeatBody (R := fun r s => s.Follows r) .refl
      (fun h₁ h₂ => h₂.trans h₁) hbody ht
    exact Nat.le_trans hk hfollows.1
  · intro p hp
    refine ⟨fun hfound => ?_, (mem_repeatBody hbody p).1⟩
    exact ((mem_repeatBody hbody p).2 hfound).resolve_right (by omega)

/-- Exploring from a run behind the horizon changes nothing before it, in the second text. -/
theorem AlikeFound.explore_right {x y : List Run × List Nat} {fuel : Nat}
    (hbody : IsForward body) (h : AlikeFound n k x y) (hk : k + n ≤ r.position) :
    AlikeFound n k x (explore body greedy fuel y r) := by
  refine ⟨?_, fun p hp =>
    (h.2 p hp).trans ((repeatBody_of_le hbody hk).2 (p + n) (by omega)).symm⟩
  rw [explore, ← List.append_nil x.1]
  exact h.1.append (.of_le (by simp) (repeatBody_of_le hbody hk).1)

/-- The same in the first text. -/
theorem AlikeFound.explore_left {x y : List Run × List Nat} {fuel : Nat}
    (hbody : IsForward body) (h : AlikeFound n k x y) (hk : k ≤ r.position) :
    AlikeFound n k (explore body greedy fuel x r) y := by
  refine ⟨?_, fun p hp => ((repeatBody_of_le hbody hk).2 p hp).trans (h.2 p hp)⟩
  rw [explore, ← List.append_nil y.1]
  exact h.1.append (.of_le (repeatBody_of_le hbody hk).1 (by simp))

theorem AlikeFound.foldl_explore_right {x y : List Run × List Nat} {fuel : Nat}
    (hbody : IsForward body) (h : AlikeFound n k x y) (hm : ∀ r ∈ m, k + n ≤ r.position) :
    AlikeFound n k x (m.foldl (explore body greedy fuel) y) := by
  induction m generalizing y with
  | nil => exact h
  | cons r m ih =>
      exact ih (h.explore_right hbody (hm r List.mem_cons_self))
        fun t ht => hm t (List.mem_cons_of_mem r ht)

/-- A run has fuel enough if it need not be explored or has fewer characters to come. -/
def HasFuel (fuel : Nat) (seen : List Nat) (r : Run) : Prop :=
  r.position ∈ seen ∨ r.rest.length < fuel

/-- What two explorations have found stays alike while they go through runs of which those
before the horizon correspond.  Runs behind the horizon may stand anywhere in either list. -/
theorem AlikeFound.foldl_explore {fuel fuel' p q : Nat} {x y : List Run × List Nat}
    (hbody : IsForward body)
    (halike : ∀ {seen seen' : List Nat} {t u : Run}, Alike n k t u →
      (∀ p < k, p ∈ seen ↔ p + n ∈ seen') → HasFuel fuel seen t → HasFuel fuel' seen' u →
      AlikeFound n k (repeatBody body greedy fuel seen t) (repeatBody body greedy fuel' seen' u))
    (hl : ∀ t ∈ l, t.position = p ∨ t.rest.length < fuel)
    (hm : ∀ u ∈ m, u.position = q ∨ u.rest.length < fuel') (h : AlikeBefore n k l m)
    (hx : p ∈ x.2) (hy : q ∈ y.2) (hxy : AlikeFound n k x y) :
    AlikeFound n k (l.foldl (explore body greedy fuel) x)
      (m.foldl (explore body greedy fuel') y) := by
  induction l generalizing m x y with
  | nil =>
      refine hxy.foldl_explore_right hbody fun u hu => ?_
      have hnone := List.filter_eq_nil_iff.1 (List.forall₂_nil_left_iff.1 h) u hu
      simpa using hnone
  | cons t l ih =>
      have hl' : ∀ t ∈ l, t.position = p ∨ t.rest.length < fuel :=
        fun v hv => hl v (List.mem_cons_of_mem t hv)
      have hx' : p ∈ (explore body greedy fuel x t).2 := (mem_repeatBody hbody p).1 hx
      by_cases ht : t.position < k
      · rw [AlikeBefore, CorrespondBefore, List.filter_cons_of_pos (by simpa using ht),
          List.forall₂_cons_left_iff] at h
        obtain ⟨u, rest, htu, hrest, hfilter⟩ := h
        -- the run that corresponds to `t` comes after some that are behind the horizon
        obtain ⟨m₁, m₂, rfl, hm₁, -, rfl⟩ := List.filter_eq_cons_iff.1 hfilter
        have hbehind : ∀ v ∈ m₁, k + n ≤ v.position := fun v hv => by simpa using hm₁ v hv
        have hy₁ : q ∈ (m₁.foldl (explore body greedy fuel') y).2 :=
          (mem_foldl_explore (mem_repeatBody hbody q).1 (mem_repeatBody hbody q).2
            fun t _ => Nat.zero_le t.position).1 hy
        have hxy₁ : AlikeFound n k x (m₁.foldl (explore body greedy fuel') y) :=
          hxy.foldl_explore_right hbody hbehind
        have hnext := halike htu hxy₁.2
          ((hl t List.mem_cons_self).imp_left fun hp => by rwa [hp])
          ((hm u (by simp)).imp_left fun hq => by rwa [hq])
        rw [List.foldl_cons, List.foldl_append, List.foldl_cons]
        -- the runs behind the horizon in front of `u` have changed nothing before it
        exact ih hl' (fun v hv => hm v (by simp [hv])) hrest hx'
          ((mem_repeatBody hbody q).1 hy₁) ⟨hxy₁.1.append hnext.1, hnext.2⟩
      · rw [AlikeBefore, CorrespondBefore, List.filter_cons_of_neg (by simpa using ht)] at h
        exact ih hl' hm h hx' hy (hxy.explore_left hbody (by omega))

theorem repeatBody_of_mem {fuel : Nat} {seen : List Nat} (h : r.position ∈ seen) :
    repeatBody body greedy fuel seen r = ([], seen) := by
  cases fuel with
  | zero => rfl
  | succ fuel => rw [repeatBody_succ, if_pos h]

/-- A turn stays at its place or has fewer characters to come. -/
theorem eq_or_length_lt {fuel : Nat} (h : s.Follows r) (hfuel : r.rest.length < fuel + 1) :
    s.position = r.position ∨ s.rest.length < fuel := by
  obtain ⟨hle, hsum⟩ := h
  omega

theorem alikeFound_of_le (hbody : IsForward body) {fuel fuel' : Nat} {seen seen' : List Nat}
    (h : Alike n k r s) (hseen : ∀ p < k, p ∈ seen ↔ p + n ∈ seen') (hk : k ≤ r.position) :
    AlikeFound n k (repeatBody body greedy fuel seen r)
      (repeatBody body greedy fuel' seen' s) := by
  have hs : k + n ≤ s.position := by
    rw [h.position]
    omega
  have hnil : AlikeFound n k ([], seen) ([], seen') := ⟨.nil, hseen⟩
  exact (hnil.explore_left hbody hk).explore_right hbody hs

/-- **Repetition corresponds before the horizon.**  The induction is on the fuel, but neither
text's fuel plays a part: each turn that stays at its place is cut off by the places seen, and
each other turn reads a character. -/
theorem alikeFound_repeatBody (hbody : IsForward body) (halike : IsAlike n k body)
    {fuel fuel' : Nat} {seen seen' : List Nat} {r s : Run} (h : Alike n k r s)
    (hseen : ∀ p < k, p ∈ seen ↔ p + n ∈ seen') (hfuel : HasFuel fuel seen r)
    (hfuel' : HasFuel fuel' seen' s) :
    AlikeFound n k (repeatBody body greedy fuel seen r)
      (repeatBody body greedy fuel' seen' s) := by
  induction fuel generalizing fuel' seen seen' r s with
  | zero =>
      have hr : r.position ∈ seen := hfuel.resolve_right (Nat.not_lt_zero _)
      by_cases hk : r.position < k
      · have hs : s.position ∈ seen' := h.position ▸ (hseen _ hk).1 hr
        rw [repeatBody_of_mem hr, repeatBody_of_mem hs]
        exact ⟨.nil, hseen⟩
      · exact alikeFound_of_le hbody h hseen (by omega)
  | succ fuel ih =>
      by_cases hk : r.position < k
      · -- both runs have been at their places before, or neither has
        by_cases hr : r.position ∈ seen
        · have hs : s.position ∈ seen' := h.position ▸ (hseen _ hk).1 hr
          rw [repeatBody_of_mem hr, repeatBody_of_mem hs]
          exact ⟨.nil, hseen⟩
        · have hs : s.position ∉ seen' := fun hs => hr ((hseen _ hk).2 (h.position ▸ hs))
          have hlength := hfuel.resolve_left hr
          have hlength' := hfuel'.resolve_left hs
          obtain ⟨fuel', rfl⟩ : ∃ m, fuel' = m + 1 := ⟨fuel' - 1, by omega⟩
          have hfound : AlikeFound n k ([], r.position :: seen) ([], s.position :: seen') := by
            refine ⟨.nil, fun p hp => ?_⟩
            rw [List.mem_cons, List.mem_cons, hseen p hp, h.position, Nat.add_right_cancel_iff]
          -- every turn reads a character or comes to a place that has been seen
          have hlater : AlikeFound n k
              ((body r).foldl (explore body greedy fuel) ([], r.position :: seen))
              ((body s).foldl (explore body greedy fuel') ([], s.position :: seen')) :=
            hfound.foldl_explore hbody ih
              (fun t ht => eq_or_length_lt (hbody r t ht) hlength)
              (fun u hu => eq_or_length_lt (hbody s u hu) hlength') (halike r s h)
              List.mem_cons_self List.mem_cons_self
          rw [repeatBody_succ, repeatBody_succ, if_neg hr, if_neg hs]
          refine ⟨?_, hlater.2⟩
          cases greedy with
          | true => exact hlater.1.append h.alikeBefore_singleton
          | false => exact h.alikeBefore_singleton.append hlater.1
      · exact alikeFound_of_le hbody h hseen (by omega)

end Run

/-! ## Turns -/

namespace Turn

variable {n k : Nat} {body : Run → List Run} {greedy : Bool}

/-- Turns whose runs are alike and which are both over or both not. -/
def Alike (n k : Nat) (t u : Turn) : Prop :=
  Run.Alike n k t.toRun u.toRun ∧ u.isOver = t.isOver

/-- Two lists of turns correspond as far as they stay before the horizon. -/
abbrev AlikeBefore (n k : Nat) (l m : List Turn) : Prop :=
  CorrespondBefore (fun t : Turn => t.position) (Alike n k) n k l m

/-- The turns that one turn leads to. -/
def next (body : Run → List Run) (greedy : Bool) (t : Turn) : List Turn :=
  if t.isOver then [t]
  else
    let later := (body { t.toRun with marks := [] }).map fun r => { r with : Turn }
    let stopped := { t with isOver := true }
    if greedy then later ++ [stopped] else stopped :: later

theorem take_eq (l : List Turn) :
    take body greedy l =
      firstToEach (fun t => (t.position, t.isOver)) [] (l.flatMap (next body greedy)) := rfl

theorem position_le_of_mem_next (hbody : Run.IsForward body) (t : Turn) :
    ∀ u ∈ next body greedy t, t.position ≤ u.position := by
  have hlater : ∀ u ∈ (body { t.toRun with marks := [] }).map fun r => { r with : Turn },
      t.position ≤ u.position := by
    intro u hu
    obtain ⟨r, hr, rfl⟩ := List.mem_map.1 hu
    exact (hbody _ r hr).1
  intro u hu
  rw [next] at hu
  split at hu
  · exact (List.mem_singleton.1 hu) ▸ Nat.le_refl _
  · split at hu
    · rcases List.mem_append.1 hu with hu | hu
      · exact hlater u hu
      · exact (List.mem_singleton.1 hu) ▸ Nat.le_refl _
    · rcases List.mem_cons.1 hu with rfl | hu
      · exact Nat.le_refl _
      · exact hlater u hu

theorem alikeBefore_map {l m : List Run} (h : Run.AlikeBefore n k l m) :
    AlikeBefore n k (l.map fun r => { r with : Turn }) (m.map fun r => { r with : Turn }) :=
  h.map (fun _ => rfl) (fun _ => rfl) fun _ _ hrs => ⟨hrs, rfl⟩

theorem alikeBefore_next (halike : Run.IsAlike n k body) {t u : Turn} (h : Alike n k t u) :
    AlikeBefore n k (next body greedy t) (next body greedy u) := by
  obtain ⟨hrun, hover⟩ := h
  have hlater := alikeBefore_map (halike _ _ (hrun.setMarks []))
  have hstopped : AlikeBefore n k [{ t with isOver := true }] [{ u with isOver := true }] :=
    .singleton ⟨hrun, rfl⟩ hrun.position
  rw [next, next, hover]
  split
  · exact .singleton ⟨hrun, hover⟩ hrun.position
  · split
    · exact hlater.append hstopped
    · exact hstopped.append hlater

theorem alikeBefore_take (hbody : Run.IsForward body) (halike : Run.IsAlike n k body)
    {l m : List Turn} (h : AlikeBefore n k l m) :
    AlikeBefore n k (take body greedy l) (take body greedy m) := by
  rw [take_eq, take_eq]
  refine CorrespondBefore.firstToEach (φ := fun x => (x.1 + n, x.2)) ?_ ?_ ?_
    (h.flatMap (position_le_of_mem_next hbody) fun _ _ => alikeBefore_next halike)
  · rintro ⟨p, a⟩ ⟨q, b⟩ hpq
    simpa using hpq
  · rintro t u ⟨hrun, hover⟩
    rw [hrun.position, hover]
  · exact fun t u htu => congrArg Prod.fst htu

end Turn

theorem Run.alikeBefore_takeTurns {n k : Nat} {body : Run → List Run} {greedy : Bool}
    (hbody : IsForward body) (halike : IsAlike n k body) (turns : Nat) {r s : Run}
    (h : Alike n k r s) :
    AlikeBefore n k (takeTurns body greedy turns r) (takeTurns body greedy turns s) := by
  have hturns : Turn.AlikeBefore n k (turns.repeat (Turn.take body greedy) [{ r with }])
      (turns.repeat (Turn.take body greedy) [{ s with }]) := by
    induction turns with
    | zero => exact .singleton ⟨h, rfl⟩ h.position
    | succ turns ih => exact Turn.alikeBefore_take hbody halike ih
  rw [takeTurns, takeTurns]
  exact AlikeBefore.distinct (hturns.map (fun _ => rfl) (fun _ => rfl) fun _ _ htu => htu.1)

/-! ## All patterns -/

namespace Pattern

variable {n k : Nat}

theorem isForward_runs (p : Pattern) : Run.IsForward p.runs := fun _ _ => follows_of_mem_runs

/-- **What a pattern can do before the horizon depends on the text before the horizon.**  In
two texts that agree up to there, the runs that stay before the horizon correspond one by one,
in the same order of preference and with the same groups. -/
theorem alikeBefore_runs (p : Pattern) {r s : Run} (h : Run.Alike n k r s) :
    Run.AlikeBefore n k (p.runs r) (p.runs s) := by
  induction p generalizing r s with
  | empty => exact h.alikeBefore_singleton
  | one set =>
      by_cases hk : r.position < k
      · rcases h.rest_cases hk with ⟨hr, hs⟩ | ⟨c, u, v, hr, hs, hadvance⟩
        · simp only [runs, hr, hs]
          exact .nil
        · simp only [runs, hr, hs]
          split
          · exact hadvance.alikeBefore_singleton
          · exact .nil
      · exact (isForward_runs (one set)).alikeBefore h (by omega)
  | anchor a =>
      by_cases hk : r.position < k
      · rw [runs, runs, h.holds_eq hk]
        split
        · exact h.alikeBefore_singleton
        · exact .nil
      · exact (isForward_runs (anchor a)).alikeBefore h (by omega)
  | seq p q ihp ihq =>
      exact (ihp h).flatMap (fun r s hs => (isForward_runs q r s hs).1) fun _ _ => ihq
  | alt p q ihp ihq => exact (ihp h).append (ihq h)
  | many greedy set =>
      have hmany := Run.alikeBefore_readMany set rfl h
      rw [runs, runs]
      split
      · -- greedy: the runs come longest first
        rw [Run.AlikeBefore, CorrespondBefore, List.filter_reverse, List.filter_reverse,
          List.forall₂_reverse_iff]
        exact hmany
      · exact hmany
  | loop greedy p ih =>
      -- the fuel is the length of the rest, which differs between the texts
      have hfuel (t : Run) : Run.HasFuel (t.rest.length + 1) [] t := .inr (Nat.lt_succ_self _)
      exact (Run.alikeFound_repeatBody (isForward_runs p) (fun _ _ => ih) h (by simp) (hfuel r)
        (hfuel s)).1
  | upTo greedy turns p ih =>
      exact Run.alikeBefore_takeTurns (isForward_runs p) (fun _ _ => ih) turns h
  | group number p ih =>
      exact (ih h).map (fun _ => rfl) (fun _ => rfl) fun _ _ htu => h.record htu number
  | mark id =>
      rw [runs, runs, h.marks]
      split
      · exact .nil
      · exact (h.setMarks (id :: r.marks)).alikeBefore_singleton
  | distinct p ih => exact (ih h).distinct

end Pattern

/-! ## Matches -/

/-- The match moved to the right by a number of characters. -/
def Captures.shift (c : Captures) (n : Nat) : Captures where
  span := c.span.shift n
  groups := c.groups.map fun g => (g.1, g.2.shift n)

/-- Two places, the second one further right by a fixed number of characters, from which the
texts agree up to a horizon. -/
structure Cursor.Alike (shift horizon : Nat) (a b : Cursor) : Prop where
  position : b.position = a.position + shift
  previous : b.previous = a.previous
  rest : b.rest.take (horizon - a.position) = a.rest.take (horizon - a.position)

namespace Pattern

variable {n k : Nat} {a b : Cursor} {p : Pattern} {c d : Captures}

theorem alikeBefore_runs_of_cursor (p : Pattern) (h : a.Alike n k b) :
    Run.AlikeBefore n k (p.runs { a with }) (p.runs { b with }) :=
  p.alikeBefore_runs ⟨h.position, h.previous, h.rest, rfl, rfl⟩

theorem exists_matchHere? (h : p.runs { a with } ≠ []) : ∃ c, p.matchHere? a = some c := by
  obtain ⟨r, hr⟩ := Option.ne_none_iff_exists'.1 (mt List.head?_eq_none_iff.1 h)
  exact ⟨_, Option.map_eq_some_iff.2 ⟨r, hr, rfl⟩⟩

/-- Where a match stays before the horizon, there is a match in the other text. -/
theorem exists_matchHere?_of_lt (h : a.Alike n k b) (hc : p.matchHere? a = some c)
    (hk : c.span.stop < k) : ∃ d, p.matchHere? b = some d := by
  obtain ⟨r, hr, rfl⟩ := Option.map_eq_some_iff.1 hc
  exact exists_matchHere?
    ((p.alikeBefore_runs_of_cursor h).ne_nil_right (List.mem_of_mem_head? hr) hk)

/-- The same with the roles of the texts exchanged. -/
theorem exists_matchHere?_of_lt_add (h : a.Alike n k b) (hd : p.matchHere? b = some d)
    (hk : d.span.stop < k + n) : ∃ c, p.matchHere? a = some c := by
  obtain ⟨s, hs, rfl⟩ := Option.map_eq_some_iff.1 hd
  exact exists_matchHere?
    ((p.alikeBefore_runs_of_cursor h).ne_nil_left (List.mem_of_mem_head? hs) hk)

/-- **Matches that stay before the horizon are the same in both texts**, groups included. -/
theorem eq_shift_of_matchHere? (h : a.Alike n k b) (hc : p.matchHere? a = some c)
    (hk : c.span.stop < k) (hd : p.matchHere? b = some d) (hk' : d.span.stop < k + n) :
    d = c.shift n := by
  obtain ⟨r, hr, rfl⟩ := Option.map_eq_some_iff.1 hc
  obtain ⟨s, hs, rfl⟩ := Option.map_eq_some_iff.1 hd
  have hrs : Run.Alike n k r s := (p.alikeBefore_runs_of_cursor h).head? hr hk hs hk'
  simp only [Captures.shift, Span.shift, h.position, hrs.position, hrs.groups]

end Pattern

end RuleCanon
