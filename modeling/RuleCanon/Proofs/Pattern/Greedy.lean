import RuleCanon.Pattern.Word
import RuleCanon.Proofs.Pattern.Search

/-!
# Patterns without a choice

Most parts of the built-in patterns read as much as they can and then something that they could
not have read.  The search tries shorter runs as well, but they come to nothing: what follows
refuses to start at a character that the part before it has left unread.  So such a pattern has
one run, which can be written down.

## Main Definitions

* `Run.read` — the run after it has read a text
* `Pattern.Refuses` — a pattern that cannot start with a character of a set
* `Pattern.ReadsMost` — a pattern whose first run goes as far as a set reaches
* `Pattern.afterRun?` — what is left behind a run of characters

## Main Statements

* `Pattern.runs_exactly` — the run of a word
* `Pattern.readsMost_many`, `Pattern.readsMost_someOf` — the first runs of greedy
  repetitions
* `Pattern.ReadsMost.runs_seq` — the other runs come to nothing if what follows refuses
-/

namespace RuleCanon

variable {u v w rest : List Char} {c : Char} {set other : CharSet}

/-! ## Reading a text -/

/-- The run after it has read a text, with `rest` still to come. -/
def Run.read (r : Run) (w rest : List Char) : Run where
  position := r.position + w.length
  previous := w.getLast?.or r.previous
  rest := rest
  groups := r.groups
  marks := if w = [] then r.marks else []

namespace Run

@[simp] theorem read_rest (r : Run) (w rest : List Char) : (r.read w rest).rest = rest := rfl

@[simp] theorem read_position (r : Run) (w rest : List Char) :
    (r.read w rest).position = r.position + w.length := rfl

@[simp] theorem read_previous (r : Run) (w rest : List Char) :
    (r.read w rest).previous = w.getLast?.or r.previous := rfl

@[simp] theorem read_groups (r : Run) (w rest : List Char) :
    (r.read w rest).groups = r.groups := rfl

@[simp] theorem record_rest (r : Run) (number start : Nat) :
    (r.record number start).rest = r.rest := rfl

@[simp] theorem record_position (r : Run) (number start : Nat) :
    (r.record number start).position = r.position := rfl

theorem read_nil (r : Run) : r.read [] r.rest = r := rfl

theorem advance_eq (r : Run) (c : Char) (rest : List Char) :
    r.advance c rest = r.read [c] rest := rfl

theorem read_read (r : Run) (u v mid rest : List Char) :
    (r.read u mid).read v rest = r.read (u ++ v) rest := by
  by_cases hv : v = []
  · subst hv
    rw [List.append_nil]
    rfl
  · simp [read, hv, Nat.add_assoc, Option.or_assoc]

end Run

namespace Pattern

/-! ## Words -/

theorem runs_one_of_mem {r : Run} (hrest : r.rest = c :: rest) (hc : set.mem c = true) :
    (one set).runs r = [r.read [c] rest] := by
  rw [runs, hrest]
  simp only [hc, if_true, Run.advance_eq]

theorem runs_one_of_not_mem {r : Run} (hrest : r.rest = c :: rest) (hc : set.mem c = false) :
    (one set).runs r = [] := by
  rw [runs, hrest]
  simp [hc]

/-- **A word is read as it is.** -/
theorem runs_exactly {r : Run} (hrest : r.rest = w ++ rest) :
    (exactly w).runs r = [r.read w rest] := by
  induction w generalizing r with
  | nil =>
      rw [List.nil_append] at hrest
      subst hrest
      rfl
  | cons c w ih =>
      have hone : (one (.oneOf [c])).runs r = [r.read [c] (w ++ rest)] :=
        runs_one_of_mem hrest (by simp [CharSet.mem])
      cases w with
      | nil => exact hone
      | cons d w =>
          show (seq (one (.oneOf [c])) (exactly (d :: w))).runs r = _
          rw [runs, hone, List.flatMap_singleton, ih rfl, Run.read_read]
          rfl

/-- One of several patterns: what each of them does, one after the other. -/
theorem runs_alts (ps : List Pattern) (r : Run) : (alts ps).runs r = ps.flatMap (·.runs r) := by
  induction ps with
  | nil =>
      cases hrest : r.rest with
      | nil => rw [alts, runs, hrest, List.flatMap_nil]
      | cons c rest => exact runs_one_of_not_mem hrest rfl
  | cons p ps ih =>
      cases ps with
      | nil => rw [List.flatMap_singleton, alts]
      | cons q ps => rw [List.flatMap_cons, ← ih]; rfl

/-- Behind a pattern with one run comes what the next pattern does. -/
theorem runs_seq_of_runs_eq {p q : Pattern} {r s : Run} (h : p.runs r = [s]) :
    (seq p q).runs r = q.runs s := by
  rw [runs, h, List.flatMap_singleton]

/-! ## Refusing to start -/

/-- No run of the pattern starts with a character of the set. -/
def Refuses (p : Pattern) (set : CharSet) : Prop :=
  ∀ r c rest, r.rest = c :: rest → set.mem c = true → p.runs r = []

theorem refuses_one (h : ∀ c, set.mem c = true → other.mem c = false) : (one other).Refuses set :=
  fun _ c _ hrest hc => runs_one_of_not_mem hrest (h c hc)

theorem Refuses.seq {p : Pattern} (h : p.Refuses set) (q : Pattern) : (seq p q).Refuses set := by
  intro r c rest hrest hc
  rw [runs, h r c rest hrest hc, List.flatMap_nil]

theorem refuses_someOf (h : ∀ c, set.mem c = true → other.mem c = false) :
    (someOf other).Refuses set :=
  (refuses_one h).seq _

/-! ## Reading as much as possible -/

/-- The first run from `r` is `s`, and all others have left a character of the set unread. -/
def ReadsMost (p : Pattern) (set : CharSet) (r s : Run) : Prop :=
  ∃ back, p.runs r = s :: back ∧ ∀ t ∈ back, ∃ c rest, t.rest = c :: rest ∧ set.mem c = true

namespace ReadsMost

variable {p q : Pattern} {r s t : Run}

theorem head?_runs (h : p.ReadsMost set r s) : (p.runs r).head? = some s := by
  obtain ⟨back, hruns, -⟩ := h
  rw [hruns, List.head?_cons]

/-- **The other runs come to nothing** if what follows refuses the characters they have left. -/
theorem runs_seq (h : p.ReadsMost set r s) (hq : q.Refuses set) : (seq p q).runs r = q.runs s := by
  obtain ⟨back, hruns, hback⟩ := h
  have hnone : back.flatMap q.runs = [] := by
    refine List.flatMap_eq_nil_iff.2 fun t ht => ?_
    obtain ⟨c, rest, hrest, hc⟩ := hback t ht
    exact hq t c rest hrest hc
  rw [runs, hruns, List.flatMap_cons, hnone, List.append_nil]

/-- A pattern with one run in front. -/
theorem seq_of_runs_eq (h : q.ReadsMost set s t) (hp : p.runs r = [s]) :
    (seq p q).ReadsMost set r t := by
  obtain ⟨back, hruns, hback⟩ := h
  exact ⟨back, (runs_seq_of_runs_eq hp).trans hruns, hback⟩

end ReadsMost

/-- Where a run of characters of a set ends. -/
def EndsRun (set : CharSet) (rest : List Char) : Prop :=
  ∀ c, rest.head? = some c → set.mem c = false

/-- At least one character, and all of them of a set. -/
def Fills (set : CharSet) (w : List Char) : Prop := w ≠ [] ∧ ∀ c ∈ w, set.mem c = true

/-- A run of characters of a set ends where one of a disjoint set begins. -/
theorem Fills.endsRun (h : Fills set w) (hdisjoint : ∀ c, set.mem c = true → other.mem c = false)
    (rest : List Char) : EndsRun other (w ++ rest) := by
  obtain ⟨hne, hw⟩ := h
  obtain ⟨a, w, rfl⟩ := List.exists_cons_of_ne_nil hne
  intro c hc
  rw [← Option.some.inj hc]
  exact hdisjoint a (hw a List.mem_cons_self)

/-- The shorter runs of a repetition leave a character of the set unread. -/
theorem readMany_eq {r : Run} (hrest : r.rest = w ++ rest) (hw : ∀ c ∈ w, set.mem c = true)
    (hend : EndsRun set rest) :
    ∃ front, Run.readMany set r.rest r = front ++ [r.read w rest] ∧
      ∀ t ∈ front, ∃ c rest, t.rest = c :: rest ∧ set.mem c = true := by
  induction w generalizing r with
  | nil =>
      rw [List.nil_append] at hrest
      subst hrest
      refine ⟨[], ?_, by simp⟩
      rw [List.nil_append, Run.read_nil]
      cases hcons : r.rest with
      | nil => rw [Run.readMany]
      | cons c rest => rw [Run.readMany, hend c (by rw [hcons]; rfl)]; rfl
  | cons c w ih =>
      obtain ⟨hc, hw⟩ := List.forall_mem_cons.1 hw
      obtain ⟨front, hfront, hback⟩ := ih (r := r.read [c] (w ++ rest)) rfl hw
      rw [Run.read_rest, Run.read_read] at hfront
      refine ⟨r :: front, ?_, ?_⟩
      · rw [hrest, List.cons_append, Run.readMany, if_pos hc, Run.advance_eq, hfront]
        rfl
      · exact List.forall_mem_cons.2 ⟨⟨c, w ++ rest, hrest, hc⟩, hback⟩

/-- **A greedy repetition reads a run to its end.** -/
theorem readsMost_many {r : Run} (hrest : r.rest = w ++ rest) (hw : ∀ c ∈ w, set.mem c = true)
    (hend : EndsRun set rest) : (many true set).ReadsMost set r (r.read w rest) := by
  obtain ⟨front, hfront, hback⟩ := readMany_eq hrest hw hend
  refine ⟨front.reverse, ?_, fun t ht => hback t (List.mem_reverse.1 ht)⟩
  rw [runs, if_pos rfl, hfront, List.reverse_append]
  rfl

/-- A character and a repetition behind it. -/
theorem readsMost_seq_one_many {r : Run} (hrest : r.rest = c :: w ++ rest)
    (hc : other.mem c = true) (hw : ∀ c ∈ w, set.mem c = true) (hend : EndsRun set rest) :
    (seq (one other) (many true set)).ReadsMost set r (r.read (c :: w) rest) := by
  have hmany := readsMost_many (r := r.read [c] (w ++ rest)) rfl hw hend
  rw [Run.read_read] at hmany
  exact hmany.seq_of_runs_eq (runs_one_of_mem hrest hc)

theorem readsMost_someOf {r : Run} (hrest : r.rest = w ++ rest) (hw : Fills set w)
    (hend : EndsRun set rest) : (someOf set).ReadsMost set r (r.read w rest) := by
  obtain ⟨hne, hw⟩ := hw
  obtain ⟨c, w, rfl⟩ := List.exists_cons_of_ne_nil hne
  obtain ⟨hc, hw⟩ := List.forall_mem_cons.1 hw
  exact readsMost_seq_one_many hrest hc hw hend

/-! ## Words of words and runs -/

theorem spells_exactly_iff {previous : Option Char} : (exactly w).Spells previous u ↔ u = w := by
  induction w generalizing previous u with
  | nil => exact Iff.rfl
  | cons c w ih =>
      have hone (previous : Option Char) (u : List Char) :
          (one (.oneOf [c])).Spells previous u ↔ u = [c] := by
        simp [Spells, CharSet.mem]
      cases w with
      | nil => exact hone previous u
      | cons d w =>
          show (seq (one (.oneOf [c])) (exactly (d :: w))).Spells previous u ↔ _
          constructor
          · rintro ⟨a, b, rfl, ha, hb⟩
            rw [(hone _ _).1 ha, ih.1 hb]
            rfl
          · rintro rfl
            exact ⟨[c], d :: w, rfl, (hone _ _).2 rfl, ih.2 rfl⟩

/-- A word has no run where it does not stand. -/
theorem runs_exactly_eq_nil {r : Run} (h : ¬ w <+: r.rest) : (exactly w).runs r = [] := by
  refine List.eq_nil_iff_forall_not_mem.2 fun s hs => h ?_
  obtain ⟨v, hreads, hspells⟩ := spells_of_mem_runs hs
  obtain rfl := spells_exactly_iff.1 hspells
  exact ⟨s.rest, hreads.rest.symm⟩

theorem spells_someOf_iff {previous : Option Char} :
    (someOf set).Spells previous w ↔ Fills set w := by
  constructor
  · rintro ⟨a, b, rfl, ⟨c, hc, rfl⟩, hb⟩
    exact ⟨List.cons_ne_nil c b, List.forall_mem_cons.2 ⟨hc, hb⟩⟩
  · rintro ⟨hne, hw⟩
    obtain ⟨c, w, rfl⟩ := List.exists_cons_of_ne_nil hne
    obtain ⟨hc, hw⟩ := List.forall_mem_cons.1 hw
    exact ⟨[c], w, rfl, ⟨c, hc, rfl⟩, hw⟩

/-! ## Runs without a search -/

/-- What is left of a text behind a run of characters of a set that it starts with. -/
def afterRun? (set : CharSet) : List Char → Option (List Char)
  | [] => none
  | c :: rest => if set.mem c then some (rest.dropWhile set.mem) else none

theorem dropWhile_eq_self (h : EndsRun set rest) : rest.dropWhile set.mem = rest := by
  cases rest with
  | nil => rfl
  | cons c rest => rw [List.dropWhile_cons_of_neg (by simp [h c rfl])]

theorem endsRun_dropWhile (set : CharSet) (rest : List Char) :
    EndsRun set (rest.dropWhile set.mem) := by
  induction rest with
  | nil => exact fun c hc => by contradiction
  | cons a rest ih =>
      rw [List.dropWhile_cons]
      split
      · exact ih
      · next ha =>
        intro c hc
        rw [← Option.some.inj hc]
        simpa using ha

theorem afterRun?_append (hw : Fills set w) (rest : List Char) :
    afterRun? set (w ++ rest) = some (rest.dropWhile set.mem) := by
  obtain ⟨hne, hw⟩ := hw
  obtain ⟨c, w, rfl⟩ := List.exists_cons_of_ne_nil hne
  obtain ⟨hc, hw⟩ := List.forall_mem_cons.1 hw
  rw [List.cons_append, afterRun?, if_pos hc, List.dropWhile_append_of_pos hw]

theorem afterRun?_eq_some_iff {v : List Char} :
    afterRun? set u = some v ↔ ∃ w, Fills set w ∧ u = w ++ v ∧ EndsRun set v := by
  constructor
  · intro h
    cases u with
    | nil => contradiction
    | cons c u =>
        rw [afterRun?] at h
        split at h
        · next hc =>
          obtain rfl := Option.some.inj h
          refine ⟨c :: u.takeWhile set.mem, ⟨List.cons_ne_nil _ _, ?_⟩, ?_, endsRun_dropWhile set u⟩
          · exact List.forall_mem_cons.2 ⟨hc, List.all_eq_true.1 List.all_takeWhile⟩
          · rw [List.cons_append, List.takeWhile_append_dropWhile]
        · contradiction
  · rintro ⟨w, hw, rfl, hend⟩
    rw [afterRun?_append hw, dropWhile_eq_self hend]

end Pattern

end RuleCanon
