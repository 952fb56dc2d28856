import RuleCanon.Proofs.Pattern.Greedy
import RuleCanon.Proofs.Pattern.Groups
import RuleCanon.Proofs.Text.Slice

/-!
# Patterns of parts that are read in one way

Some patterns are a row of parts, each of which reads as much as it can and leaves nothing that the
next part could start with.  Such a pattern can be read without a search: part by part from left to
right, each part reading its word or failing for good.  The words say where the match ends and what
its groups hold.

## Main Definitions

* `Pattern.ReadsBy` — a pattern whose first run reads what a function of the text says
* `Pattern.Part`, `Pattern.readParts` — a part, and a row of parts read from left to right
* `Pattern.Fit` — parts of which each leaves nothing that the next could start with

## Main Statements

* `Pattern.Fit.head?_runs` — the first run of a row of parts
* `Pattern.Fit.matchHere?_eq` — the match of a row of parts
* `Pattern.textOf_matchOf` — what the groups of the match hold
-/

namespace RuleCanon

variable {t u w x y rest : List Char} {c : Char} {set left other : CharSet}

/-! ## Sets without a common character -/

/-- No character is in both sets. -/
def CharSet.Disjoint (set other : CharSet) : Prop := ∀ c, set.mem c = true → other.mem c = false

theorem CharSet.Disjoint.symm (h : set.Disjoint other) : other.Disjoint set := by
  intro c hc
  by_contra hmem
  rw [h c (by simpa using hmem)] at hc
  contradiction

theorem CharSet.disjoint_oneOf {l : List Char} (h : l.all (!set.mem ·) = true) :
    (CharSet.oneOf l).Disjoint set := by
  intro c hc
  rw [← Bool.not_eq_true']
  exact List.all_eq_true.1 h c (by simpa [CharSet.mem] using hc)

theorem mem_inlineBlank_iff : CharSet.inlineBlank.mem c = true ↔ c = ' ' ∨ c = '\t' := by
  simp [CharSet.inlineBlank, CharSet.mem]

/-- What is read at the start of a text, and what is left of it. -/
abbrev Reading := List Char → Option (List Char × List Char)

namespace Pattern

/-! ## One part -/

/-- **The pattern reads what the reading says**, or it has no run; its other runs have left a
character of the set unread. -/
structure ReadsBy (p : Pattern) (left : CharSet) (read : Reading) : Prop where
  fails : ∀ {r : Run}, read r.rest = none → p.runs r = []
  append : ∀ {t w rest}, read t = some (w, rest) → t = w ++ rest
  readsMost : ∀ {r : Run} {w rest}, read r.rest = some (w, rest) →
    p.ReadsMost left r (r.read w rest)

/-- A pattern with one run has no other runs. -/
theorem readsMost_of_runs_eq {p : Pattern} {r s : Run} (h : p.runs r = [s]) :
    p.ReadsMost left r s :=
  ⟨[], h, by simp⟩

/-- Reading one character of a set. -/
def readOne (set : CharSet) : Reading
  | [] => none
  | c :: rest => if set.mem c then some ([c], rest) else none

theorem readOne_eq_none (h : ∀ c, t.head? = some c → set.mem c = false) :
    readOne set t = none := by
  cases t with
  | nil => rfl
  | cons c t => rw [readOne, h c rfl]; rfl

theorem readOne_eq_some_iff :
    readOne set t = some (w, rest) ↔ ∃ c, set.mem c = true ∧ w = [c] ∧ t = c :: rest := by
  cases t with
  | nil => simp [readOne]
  | cons c t =>
      rw [readOne]
      constructor
      · intro h
        split at h
        · next hc =>
          cases h
          exact ⟨c, hc, rfl, rfl⟩
        · contradiction
      · rintro ⟨d, hd, rfl, heq⟩
        obtain ⟨rfl, rfl⟩ := List.cons.inj heq
        rw [if_pos hd]

theorem readsBy_one (set : CharSet) : (one set).ReadsBy .empty (readOne set) where
  fails {r} h := by
    cases hrest : r.rest with
    | nil => rw [runs, hrest]
    | cons c rest =>
        rw [hrest, readOne] at h
        split at h
        · contradiction
        · next hc => exact runs_one_of_not_mem hrest (by simpa using hc)
  append h := by
    obtain ⟨c, -, rfl, rfl⟩ := readOne_eq_some_iff.1 h
    rfl
  readsMost h := by
    obtain ⟨c, hc, rfl, hrest⟩ := readOne_eq_some_iff.1 h
    exact readsMost_of_runs_eq (runs_one_of_mem hrest hc)

/-- Reading as many characters of a set as there are. -/
def readMany (set : CharSet) : Reading := fun t =>
  some (t.takeWhile set.mem, t.dropWhile set.mem)

theorem readMany_append (hw : ∀ c ∈ w, set.mem c = true) (hend : EndsRun set rest) :
    readMany set (w ++ rest) = some (w, rest) := by
  rw [readMany, List.takeWhile_append_of_pos hw, List.dropWhile_append_of_pos hw,
    dropWhile_eq_self hend]
  cases rest with
  | nil => rw [List.takeWhile_nil, List.append_nil]
  | cons c rest => rw [List.takeWhile_cons_of_neg (by simp [hend c rfl]), List.append_nil]

theorem readMany_eq_some_iff :
    readMany set t = some (w, rest) ↔
      (∀ c ∈ w, set.mem c = true) ∧ EndsRun set rest ∧ t = w ++ rest := by
  constructor
  · intro h
    cases h
    exact ⟨List.all_eq_true.1 List.all_takeWhile, endsRun_dropWhile set t,
      List.takeWhile_append_dropWhile.symm⟩
  · rintro ⟨hw, hend, rfl⟩
    exact readMany_append hw hend

theorem readsBy_many (set : CharSet) : (many true set).ReadsBy set (readMany set) where
  fails h := by contradiction
  append h := by
    cases h
    exact List.takeWhile_append_dropWhile.symm
  readsMost {r w rest} h := by
    cases h
    exact readsMost_many List.takeWhile_append_dropWhile.symm
      (List.all_eq_true.1 List.all_takeWhile) (endsRun_dropWhile set _)

/-- Reading one thing and then another, as one word. -/
def readBoth (first second : Reading) : Reading := fun t =>
  (first t).bind fun (u, t) => (second t).map fun (v, t) => (u ++ v, t)

theorem readBoth_eq_some_iff {first second : Reading} :
    readBoth first second t = some (w, rest) ↔
      ∃ u v t', w = u ++ v ∧ first t = some (u, t') ∧ second t' = some (v, rest) := by
  constructor
  · intro h
    obtain ⟨⟨u, t'⟩, hfirst, h⟩ := Option.bind_eq_some_iff.1 h
    obtain ⟨⟨v, t''⟩, hsecond, heq⟩ := Option.map_eq_some_iff.1 h
    cases heq
    exact ⟨u, v, t', rfl, hfirst, hsecond⟩
  · rintro ⟨u, v, t', rfl, hfirst, hsecond⟩
    simp only [readBoth, hfirst, Option.bind_some, hsecond, Option.map_some]

/-- **Two patterns are read one after the other** if the second one refuses what the first one's
other runs leave. -/
theorem ReadsBy.seq {p q : Pattern} {first second : Reading} (hp : p.ReadsBy other first)
    (hq : q.ReadsBy left second) (hrefuses : q.Refuses other) :
    (seq p q).ReadsBy left (readBoth first second) where
  fails {r} h := by
    rw [readBoth] at h
    cases hfirst : first r.rest with
    | none => rw [runs, hp.fails hfirst, List.flatMap_nil]
    | some e =>
        obtain ⟨u, t⟩ := e
        rw [hfirst, Option.bind_some, Option.map_eq_none_iff] at h
        rw [(hp.readsMost hfirst).runs_seq hrefuses, hq.fails h]
  append h := by
    obtain ⟨u, v, t', rfl, hfirst, hsecond⟩ := readBoth_eq_some_iff.1 h
    rw [hp.append hfirst, hq.append hsecond, List.append_assoc]
  readsMost {r w rest} h := by
    obtain ⟨u, v, t', rfl, hfirst, hsecond⟩ := readBoth_eq_some_iff.1 h
    obtain ⟨back, hruns, hback⟩ := hq.readsMost (r := r.read u t') hsecond
    rw [Run.read_read] at hruns
    exact ⟨back, ((hp.readsMost hfirst).runs_seq hrefuses).trans hruns, hback⟩

theorem refuses_empty (p : Pattern) : p.Refuses .empty := by
  intro r c rest hrest hc
  simp [CharSet.empty, CharSet.mem] at hc

/-- Reading a character of one set and as many of another one as there are. -/
def readRun (first set : CharSet) : Reading := readBoth (readOne first) (readMany set)

theorem readsBy_seq_one_many (first set : CharSet) :
    (seq (one first) (many true set)).ReadsBy set (readRun first set) :=
  (readsBy_one first).seq (readsBy_many set) (refuses_empty _)

theorem readRun_eq_some_iff {first : CharSet} :
    readRun first set t = some (w, rest) ↔ ∃ c v, w = c :: v ∧ first.mem c = true ∧
      (∀ a ∈ v, set.mem a = true) ∧ EndsRun set rest ∧ t = w ++ rest := by
  rw [readRun, readBoth_eq_some_iff]
  constructor
  · rintro ⟨u, v, t', rfl, hfirst, hmany⟩
    obtain ⟨c, hc, rfl, rfl⟩ := readOne_eq_some_iff.1 hfirst
    cases hmany
    refine ⟨c, _, rfl, hc, List.all_eq_true.1 List.all_takeWhile, endsRun_dropWhile set t', ?_⟩
    simp
  · rintro ⟨c, v, rfl, hc, hv, hend, rfl⟩
    exact ⟨[c], v, v ++ rest, rfl, readOne_eq_some_iff.2 ⟨c, hc, rfl, rfl⟩,
      readMany_append hv hend⟩

/-- A run of characters of one set. -/
theorem readRun_self_eq_some_iff :
    readRun set set t = some (w, rest) ↔ Fills set w ∧ EndsRun set rest ∧ t = w ++ rest := by
  rw [readRun_eq_some_iff]
  constructor
  · rintro ⟨c, v, rfl, hc, hv, hend, rfl⟩
    exact ⟨⟨List.cons_ne_nil c v, List.forall_mem_cons.2 ⟨hc, hv⟩⟩, hend, rfl⟩
  · rintro ⟨⟨hne, hw⟩, hend, rfl⟩
    obtain ⟨c, v, rfl⟩ := List.exists_cons_of_ne_nil hne
    obtain ⟨hc, hv⟩ := List.forall_mem_cons.1 hw
    exact ⟨c, v, rfl, hc, hv, hend, rfl⟩

/-- Reading blanks, at least one of them. -/
def readBlanks : Reading := readRun .inlineBlank .inlineBlank

/-- Reading a name. -/
def readName : Reading := readRun .nameStart .nameRest

/-- What a name is: a letter or low line, and then letters, numbers and low lines. -/
def IsName (w : List Char) : Prop :=
  ∃ c v, w = c :: v ∧ CharSet.nameStart.mem c = true ∧ ∀ a ∈ v, CharSet.nameRest.mem a = true

theorem readName_eq_some_iff :
    readName t = some (w, rest) ↔ IsName w ∧ EndsRun .nameRest rest ∧ t = w ++ rest := by
  rw [readName, readRun_eq_some_iff, IsName]
  constructor
  · rintro ⟨c, v, hw, hc, hv, hend, hsplit⟩
    exact ⟨⟨c, v, hw, hc, hv⟩, hend, hsplit⟩
  · rintro ⟨⟨c, v, hw, hc, hv⟩, hend, hsplit⟩
    exact ⟨c, v, hw, hc, hv, hend, hsplit⟩

theorem endsRun_cons (hc : set.mem c = false) (t : List Char) : EndsRun set (c :: t) := by
  intro a ha
  rwa [← Option.some.inj ha]

/-- A blank is no part of a name. -/
theorem nameRest_of_inlineBlank (c : Char) (hc : CharSet.inlineBlank.mem c = true) :
    CharSet.nameRest.mem c = false := by
  rcases mem_inlineBlank_iff.1 hc with rfl | rfl <;> decide +kernel

/-- A name starts with no blank. -/
theorem IsName.endsRun (h : IsName w) (rest : List Char) : EndsRun .inlineBlank (w ++ rest) := by
  obtain ⟨c, v, rfl, hc, -⟩ := h
  refine endsRun_cons ?_ _
  by_contra hblank
  rcases mem_inlineBlank_iff.1 (by simpa using hblank) with rfl | rfl <;>
    exact absurd hc (by decide +kernel)

/-- Other runs may be said to leave more characters than they do. -/
theorem ReadsBy.mono {p : Pattern} {read : Reading} (h : p.ReadsBy left read)
    (hle : ∀ c, left.mem c = true → other.mem c = true) : p.ReadsBy other read where
  fails := h.fails
  append := h.append
  readsMost hread := by
    obtain ⟨back, hruns, hback⟩ := h.readsMost hread
    refine ⟨back, hruns, fun t ht => ?_⟩
    obtain ⟨c, rest, hrest, hc⟩ := hback t ht
    exact ⟨c, rest, hrest, hle c hc⟩

/-- **The match at a place** covers what is read there. -/
theorem ReadsBy.matchAt?_eq {p : Pattern} {read : Reading} (h : p.ReadsBy left read)
    (x y : List Char) : p.matchAt? (x ++ y) x.length =
      (read y).map fun e => ⟨⟨x.length, x.length + e.1.length⟩, []⟩ := by
  rw [matchAt?, matchHere?, List.drop_left]
  cases hread : read y with
  | none => rw [h.fails hread]; rfl
  | some e => rw [(h.readsMost hread).head?_runs]; rfl

/-- Reading a word. -/
def readWord (w : List Char) : Reading := fun t =>
  if w.isPrefixOf t then some (w, t.drop w.length) else none

theorem readWord_eq_some_iff : readWord w t = some (u, rest) ↔ u = w ∧ t = w ++ rest := by
  rw [readWord]
  constructor
  · intro h
    split at h
    · next hw =>
      cases h
      exact ⟨rfl, (List.prefix_iff_eq_append.1 (List.isPrefixOf_iff_prefix.1 hw)).symm⟩
    · contradiction
  · rintro ⟨rfl, rfl⟩
    simp

theorem readWord_eq_none_iff : readWord w t = none ↔ ¬ w <+: t := by
  rw [readWord, ite_eq_right_iff, ← List.isPrefixOf_iff_prefix]
  simp

theorem readsBy_exactly (w : List Char) : (exactly w).ReadsBy .empty (readWord w) where
  fails h := runs_exactly_eq_nil (readWord_eq_none_iff.1 h)
  append h := by
    obtain ⟨rfl, heq⟩ := readWord_eq_some_iff.1 h
    exact heq
  readsMost h := by
    obtain ⟨rfl, heq⟩ := readWord_eq_some_iff.1 h
    exact readsMost_of_runs_eq (runs_exactly heq)

/-- Reading one thing or another. -/
def readEither (first second : Reading) : Reading := fun t => (first t).or (second t)

/-- **One pattern or another is read**, if there is no text that both can read. -/
theorem ReadsBy.alt {p q : Pattern} {first second : Reading} (hp : p.ReadsBy left first)
    (hq : q.ReadsBy left second) (hone : ∀ t, first t ≠ none → second t = none) :
    (alt p q).ReadsBy left (readEither first second) where
  fails h := by
    obtain ⟨hfirst, hsecond⟩ := Option.or_eq_none_iff.1 h
    rw [runs, hp.fails hfirst, hq.fails hsecond, List.append_nil]
  append h := by
    rcases Option.or_eq_some_iff.1 h with hfirst | ⟨-, hsecond⟩
    · exact hp.append hfirst
    · exact hq.append hsecond
  readsMost {r w rest} h := by
    rcases Option.or_eq_some_iff.1 h with hfirst | ⟨hfirst, hsecond⟩
    · have hother : q.runs r = [] := hq.fails (hone _ (by simp [hfirst]))
      obtain ⟨back, hruns, hback⟩ := hp.readsMost hfirst
      exact ⟨back, by rw [runs, hruns, hother, List.append_nil], hback⟩
    · obtain ⟨back, hruns, hback⟩ := hq.readsMost hsecond
      exact ⟨back, by rw [runs, hp.fails hfirst, hruns, List.nil_append], hback⟩

/-! ## A row of parts -/

/-- A part of a pattern, with what it reads. -/
structure Part where
  /-- The number under which its word is recorded, if it is. -/
  number : Option Nat
  /-- The pattern of the part. -/
  pattern : Pattern
  /-- The characters that its other runs leave unread. -/
  left : CharSet
  /-- What the part reads. -/
  read : Reading
  /-- It does read that. -/
  readsBy : pattern.ReadsBy left read

namespace Part

/-- The pattern with its group. -/
def toPattern (a : Part) : Pattern := a.number.elim a.pattern (group · a.pattern)

/-- The run with the word of the part recorded, if it is. -/
def record (a : Part) (r : Run) (start : Nat) : Run :=
  a.number.elim r (r.record · start)

theorem record_rest (a : Part) (r : Run) (start : Nat) : (a.record r start).rest = r.rest := by
  rw [record]
  cases a.number <;> rfl

theorem record_position (a : Part) (r : Run) (start : Nat) :
    (a.record r start).position = r.position := by
  rw [record]
  cases a.number <;> rfl

/-- The part with its word recorded under a number. -/
def numbered (a : Part) (number : Nat) : Part := { a with number := number }

/-- One character of a set. -/
def mark (set : CharSet) : Part := ⟨none, one set, .empty, readOne set, readsBy_one set⟩

/-- As many characters of a set as there are. -/
def fill (set : CharSet) : Part := ⟨none, many true set, set, readMany set, readsBy_many set⟩

/-- A character of one set and as many of another one as there are. -/
def run (first set : CharSet) : Part :=
  ⟨none, seq (one first) (many true set), set, readRun first set, readsBy_seq_one_many first set⟩

/-- A word. -/
def word (w : List Char) : Part := ⟨none, exactly w, .empty, readWord w, readsBy_exactly w⟩

end Part

/-- The parts read from left to right: the word of each, and what is left. -/
def readParts : List Part → List Char → Option (List (List Char) × List Char)
  | [], t => some ([], t)
  | a :: parts, t =>
    (a.read t).bind fun (w, t) => (readParts parts t).map fun (words, t) => (w :: words, t)

section

variable {α : Type} (f : List (List Char) × List Char → α)

theorem map_readParts_nil (t : List Char) : (readParts [] t).map f = some (f ([], t)) := rfl

/-- What is made of the words is made when the first one has been read. -/
theorem map_readParts_cons (a : Part) (parts : List Part) (t : List Char) :
    (readParts (a :: parts) t).map f =
      (a.read t).bind fun e => (readParts parts e.2).map fun r => f (e.1 :: r.1, r.2) := by
  rw [readParts, Option.map_bind]
  exact Option.bind_congr fun e _ => Option.map_map ..

end

/-- The pattern of the parts. -/
def ofParts (parts : List Part) : Pattern := seqs (parts.map (·.toPattern))

/-- Each part leaves nothing that the next parts could start with. -/
def Fit : List Part → Prop
  | [] => True
  | a :: parts => (parts ≠ [] → (ofParts parts).Refuses a.left) ∧ Fit parts

/-- What refuses to start as the first part refuses to start at all. -/
theorem refuses_ofParts_cons {a : Part} (h : a.pattern.Refuses set) (parts : List Part) :
    (ofParts (a :: parts)).Refuses set := by
  have hfirst : a.toPattern.Refuses set := by
    intro r c rest hrest hc
    rw [Part.toPattern]
    cases a.number with
    | none => exact h r c rest hrest hc
    | some n => rw [Option.elim_some, runs, h r c rest hrest hc, List.map_nil]
  cases parts with
  | nil => exact hfirst
  | cons b parts => exact hfirst.seq (ofParts (b :: parts))

/-- A part that may read nothing leaves it to the next ones. -/
theorem refuses_ofParts_fill {b : Part} {parts : List Part}
    (hdisjoint : ∀ c, set.mem c = true → other.mem c = false)
    (h : (ofParts (b :: parts)).Refuses set) :
    (ofParts (.fill other :: b :: parts)).Refuses set := by
  intro r c rest hrest hc
  have hfirst : (many true other).runs r = [r] := by
    rw [runs, hrest, Run.readMany, hdisjoint c hc]
    rfl
  show (seq (many true other) (ofParts (b :: parts))).runs r = []
  rw [runs_seq_of_runs_eq hfirst, h r c rest hrest hc]

/-- The run after it has read a word for each part, with `rest` still to come. -/
def ofWords : List Part → List (List Char) → List Char → Run → Run
  | a :: parts, w :: words, rest, r =>
    ofWords parts words rest (a.record (r.read w (words.flatten ++ rest)) r.position)
  | _, _, _, r => r

/-- A row of parts reads what its first part reads and then what the others read. -/
theorem exists_of_readParts_cons {a : Part} {parts : List Part} {words : List (List Char)}
    (h : readParts (a :: parts) t = some (words, rest)) :
    ∃ w u words', words = w :: words' ∧ a.read t = some (w, u) ∧
      readParts parts u = some (words', rest) := by
  obtain ⟨⟨w, u⟩, hread, h⟩ := Option.bind_eq_some_iff.1 h
  obtain ⟨⟨words', rest'⟩, hparts, heq⟩ := Option.map_eq_some_iff.1 h
  cases heq
  exact ⟨w, u, words', rfl, hread, hparts⟩

namespace Fit

variable {a : Part} {parts : List Part} {words : List (List Char)}

theorem append (h : Fit parts) (hread : readParts parts t = some (words, rest)) :
    t = words.flatten ++ rest := by
  induction parts generalizing t words with
  | nil =>
      cases hread
      rfl
  | cons a parts ih =>
      obtain ⟨w, u, words, rfl, hfirst, hparts⟩ := exists_of_readParts_cons hread
      rw [a.readsBy.append hfirst, ih h.2 hparts, List.flatten_cons, List.append_assoc]

/-- Without the first part there is no run. -/
theorem runs_cons_of_none (h : Fit (a :: parts)) {r : Run} (hread : a.read r.rest = none) :
    (ofParts (a :: parts)).runs r = [] := by
  have hfirst : a.toPattern.runs r = [] := by
    rw [Part.toPattern]
    cases a.number with
    | none => exact a.readsBy.fails hread
    | some n => rw [Option.elim_some, runs, a.readsBy.fails hread, List.map_nil]
  cases parts with
  | nil => exact hfirst
  | cons b parts =>
      show (seq a.toPattern (ofParts (b :: parts))).runs r = []
      rw [runs, hfirst, List.flatMap_nil]

/-- The first run goes on behind the word of the first part. -/
theorem head?_runs_cons (h : Fit (a :: parts)) {r : Run} {w : List Char}
    (hread : a.read r.rest = some (w, rest)) :
    ((ofParts (a :: parts)).runs r).head? =
      ((ofParts parts).runs (a.record (r.read w rest) r.position)).head? := by
  have hfirst : a.toPattern.ReadsMost a.left r (a.record (r.read w rest) r.position) := by
    rw [Part.toPattern, Part.record]
    cases a.number with
    | none => exact a.readsBy.readsMost hread
    | some n =>
        obtain ⟨back, hruns, hback⟩ := a.readsBy.readsMost hread
        refine ⟨back.map (·.record n r.position), ?_, List.forall_mem_map.2 hback⟩
        rw [Option.elim_some, runs, hruns, List.map_cons]
        rfl
  cases parts with
  | nil => exact hfirst.head?_runs
  | cons b parts =>
      show ((seq a.toPattern (ofParts (b :: parts))).runs r).head? = _
      rw [hfirst.runs_seq (h.1 (List.cons_ne_nil b parts))]

/-- **The first run of a row of parts** reads the word of each. -/
theorem head?_runs (h : Fit parts) (r : Run) :
    ((ofParts parts).runs r).head? =
      (readParts parts r.rest).map fun e => ofWords parts e.1 e.2 r := by
  induction parts generalizing r with
  | nil => rfl
  | cons a parts ih =>
      rw [readParts]
      cases hread : a.read r.rest with
      | none => rw [h.runs_cons_of_none hread]; rfl
      | some e =>
          obtain ⟨w, u⟩ := e
          rw [h.head?_runs_cons hread, ih h.2, Option.bind_some, Option.map_map,
            Part.record_rest, Run.read_rest]
          refine Option.map_congr fun e he => ?_
          rw [Function.comp_apply, ofWords, h.2.append he]

end Fit

/-! ## Groups -/

/-- The groups after words for the parts from a position on. -/
def groupsOf : List Part → List (List Char) → Nat → List (Nat × Span) → List (Nat × Span)
  | a :: parts, w :: words, i, groups =>
    groupsOf parts words (i + w.length)
      (a.number.elim groups fun n => completeGroup n ⟨i, i + w.length⟩ groups)
  | _, _, _, groups => groups

/-- The match of words for the parts from a position on. -/
def matchOf (parts : List Part) (words : List (List Char)) (position : Nat) : Captures where
  span := ⟨position, position + words.flatten.length⟩
  groups := groupsOf parts words position []

/-- The word that is recorded under a number. -/
def wordOf? (number : Nat) : List Part → List (List Char) → Option (List Char)
  | a :: parts, w :: words =>
    (wordOf? number parts words).or (if a.number = some number then some w else none)
  | _, _ => none

/-- What is recorded under a number, or nothing. -/
def recorded (parts : List Part) (words : List (List Char)) (number : Nat) : List Char :=
  (wordOf? number parts words).getD []

/-- What is recorded is among the words. -/
theorem recorded_subset (parts : List Part) (words : List (List Char)) (number : Nat) :
    recorded parts words number ⊆ words.flatten := by
  rw [recorded]
  induction parts generalizing words with
  | nil => exact List.nil_subset _
  | cons a parts ih =>
      cases words with
      | nil => exact List.nil_subset _
      | cons w words =>
          rw [wordOf?, List.flatten_cons]
          cases hlast : wordOf? number parts words with
          | some v =>
              have hlater := ih words
              rw [hlast] at hlater
              exact fun c hc => List.mem_append_right w (hlater hc)
          | none =>
              rw [Option.none_or]
              split
              · exact List.subset_append_left w _
              · exact List.nil_subset _

section Words

variable {parts : List Part} {words : List (List Char)}

theorem ofWords_groups (parts : List Part) (words : List (List Char)) (rest : List Char)
    (r : Run) : (ofWords parts words rest r).groups = groupsOf parts words r.position r.groups := by
  induction parts generalizing words r with
  | nil => rw [ofWords, groupsOf] <;> simp
  | cons a parts ih =>
      cases words with
      | nil => rw [ofWords, groupsOf] <;> simp
      | cons w words =>
          rw [ofWords, ih, groupsOf, Part.record_position, Run.read_position, Part.record]
          cases a.number <;> rfl

theorem ofWords_position (hread : readParts parts t = some (words, rest)) (r : Run) :
    (ofWords parts words rest r).position = r.position + words.flatten.length := by
  induction parts generalizing t words r with
  | nil =>
      cases hread
      rfl
  | cons a parts ih =>
      obtain ⟨w, u, words, rfl, -, hparts⟩ := exists_of_readParts_cons hread
      rw [ofWords, ih hparts, Part.record_position, Run.read_position, List.flatten_cons,
        List.length_append, Nat.add_assoc]

/-- **The match of a row of parts** is that of the words they read. -/
theorem Fit.matchHere?_eq (h : Fit parts) (c : Cursor) :
    (ofParts parts).matchHere? c =
      (readParts parts c.rest).map fun e => matchOf parts e.1 c.position := by
  rw [matchHere?, h.head?_runs, Option.map_map]
  refine Option.map_congr fun e he => ?_
  rw [Function.comp_apply, ofWords_groups, ofWords_position he]
  rfl

/-- The text of a group among others. -/
def textIn (text : List Char) (number : Nat) (groups : List (Nat × Span)) : List Char :=
  match groups.lookup number with
  | some g => slice text g.start g.stop
  | none => []

theorem textIn_groupsOf (number : Nat) (hlength : words.length = parts.length)
    (x rest : List Char) (groups : List (Nat × Span)) :
    textIn (x ++ (words.flatten ++ rest)) number (groupsOf parts words x.length groups) =
      (wordOf? number parts words).getD (textIn (x ++ (words.flatten ++ rest)) number groups) := by
  induction parts generalizing words x groups with
  | nil =>
      obtain rfl := List.length_eq_zero_iff.1 hlength
      rfl
  | cons a parts ih =>
      obtain ⟨w, words, rfl⟩ := List.exists_cons_of_length_eq_add_one hlength
      have hsplit : x ++ ((w :: words).flatten ++ rest) = (x ++ w) ++ (words.flatten ++ rest) := by
        simp
      have hlength : words.length = parts.length := by simpa using hlength
      have hlater := ih hlength (x ++ w)
        (a.number.elim groups fun n => completeGroup n ⟨x.length, x.length + w.length⟩ groups)
      rw [List.length_append] at hlater
      rw [groupsOf, wordOf?, hsplit, hlater]
      cases hlast : wordOf? number parts words with
      | some v => rfl
      | none =>
          rw [Option.none_or, Option.getD_none]
          by_cases hnumber : a.number = some number
          · rw [if_pos hnumber, hnumber, Option.elim_some, textIn, lookup_completeGroup_self,
              Option.getD_some, List.append_assoc]
            exact slice_between x w _
          · rw [if_neg hnumber, Option.getD_none]
            cases hn : a.number with
            | none => rfl
            | some n =>
                have hne : number ≠ n := fun heq => hnumber (heq ▸ hn)
                rw [Option.elim_some, textIn, lookup_completeGroup_of_ne hne, textIn]

theorem length_of_readParts (hread : readParts parts t = some (words, rest)) :
    words.length = parts.length := by
  induction parts generalizing t words with
  | nil =>
      cases hread
      rfl
  | cons a parts ih =>
      obtain ⟨w, u, words, rfl, -, hparts⟩ := exists_of_readParts_cons hread
      rw [List.length_cons, List.length_cons, ih hparts]

/-- **A group of the match holds the word that is recorded under its number.** -/
theorem textOf_matchOf (hread : readParts parts t = some (words, rest)) (x : List Char)
    {number : Nat} (hnumber : number ≠ 0) :
    (matchOf parts words x.length).textOf (x ++ (words.flatten ++ rest)) number =
      recorded parts words number := by
  rw [Captures.textOf, Captures.group?, if_neg hnumber]
  exact textIn_groupsOf number (length_of_readParts hread) x rest []

end Words

end Pattern

end RuleCanon
