import RuleCanon.Pattern.CharSet
import RuleCanon.Literal.Outside

/-!
# Patterns

A pattern describes stretches of text.  Its meaning is the list of all the ways in which it can
be run from a place in a text, most preferred first: an alternative prefers its left branch, a
greedy repetition prefers to go on, a reluctant one prefers to stop.  A search takes the
leftmost place from which the pattern can be run and there the most preferred run.

## Main Definitions

* `Anchor` — conditions on a place in a text
* `Pattern` — patterns, with `Pattern.runs` as their meaning
* `Pattern.find` — the leftmost most preferred match
* `Pattern.matcher` — the search as a `Matcher`

## Design Notes

A repetition whose body reads one character has a constructor of its own, `many`, which needs
no bookkeeping.  In the general repetition, `loop`, a place that was reached once is not
explored again: going on from there could only give the same places, less preferred.

A repetition with a limit, `upTo`, takes its turns one level at a time: of the runs that come to
one place after the same number of turns only the most preferred goes on.

A body that can be run without reading anything could be run forever at one place.  `mark`
forbids that: it refuses a place where the same mark was passed since the last character was
read.
-/

namespace RuleCanon

/-- A place in a text: what was read last and what comes next. -/
structure Cursor where
  /-- The number of characters before the place. -/
  position : Nat
  /-- The character before the place. -/
  previous : Option Char
  /-- The characters after the place. -/
  rest : List Char
deriving DecidableEq, Repr

/-- A condition on a place in a text. -/
inductive Anchor where
  /-- The start of the text. -/
  | textStart
  /-- The end of the text. -/
  | textEnd
  /-- The start of the text or the place after a line feed. -/
  | lineStart
  /-- The end of the text or the place before a line feed. -/
  | lineEnd
  /-- The start of a line, where a carriage return, a line feed and the pair of them all end
  lines. -/
  | anyLineStart
  /-- The end of a line, where a carriage return, a line feed and the pair of them all end
  lines. -/
  | anyLineEnd
  /-- A place with a word character on one side only. -/
  | wordBorder
  /-- A place with a word character on both sides or on neither. -/
  | noWordBorder
  /-- A place where a word starts. -/
  | wordStart
  /-- A place where a word ends. -/
  | wordEnd
  /-- A place with no word character before it. -/
  | wordStartHalf
  /-- A place with no word character after it. -/
  | wordEndHalf
deriving DecidableEq, Repr

/-- Whether the neighbour of a place is a word character. -/
def isWordNeighbour : Option Char → Bool
  | some c => Unicode.isWord c
  | none => false

/-- Whether the condition holds at a place. -/
def Anchor.holds (a : Anchor) (c : Cursor) : Bool :=
  let before := c.previous
  let after := c.rest.head?
  match a with
  | textStart => before == none
  | textEnd => after == none
  | lineStart => before == none || before == some '\n'
  | lineEnd => after == none || after == some '\n'
  | anyLineStart =>
    before == none || before == some '\n' || (before == some '\r' && after != some '\n')
  | anyLineEnd =>
    after == none || after == some '\r' || (after == some '\n' && before != some '\r')
  | wordBorder => isWordNeighbour before != isWordNeighbour after
  | noWordBorder => isWordNeighbour before == isWordNeighbour after
  | wordStart => !isWordNeighbour before && isWordNeighbour after
  | wordEnd => isWordNeighbour before && !isWordNeighbour after
  | wordStartHalf => !isWordNeighbour before
  | wordEndHalf => !isWordNeighbour after

/-- A run of a pattern that is under way. -/
structure Run extends Cursor where
  /-- The groups that were completed, the latest first. -/
  groups : List (Nat × Span) := []
  /-- The marks that were passed since the last character was read. -/
  marks : List Nat := []
deriving DecidableEq, Repr

namespace Run

/-- The run after it has read the character `c`, with `rest` still to come. -/
def advance (r : Run) (c : Char) (rest : List Char) : Run where
  position := r.position + 1
  previous := some c
  rest := rest
  groups := r.groups

/-- The run with one more group completed. -/
def record (r : Run) (number start : Nat) : Run :=
  { r with groups := (number, ⟨start, r.position⟩) :: r.groups.filter (·.1 != number) }

end Run

/-- A description of stretches of text. -/
inductive Pattern where
  /-- Nothing at all. -/
  | empty
  /-- One character of a set. -/
  | one (set : CharSet)
  /-- No character, where the condition holds. -/
  | anchor (a : Anchor)
  /-- One pattern and then the other. -/
  | seq (p q : Pattern)
  /-- One pattern or else the other. -/
  | alt (p q : Pattern)
  /-- Any number of characters of a set; greedy means as many as possible. -/
  | many (greedy : Bool) (set : CharSet)
  /-- Any number of runs of a pattern; greedy means as many as possible. -/
  | loop (greedy : Bool) (p : Pattern)
  /-- At most so many runs of a pattern, each of them without the marks of the one before it. -/
  | upTo (greedy : Bool) (turns : Nat) (p : Pattern)
  /-- A pattern whose stretch is recorded under a number. -/
  | group (number : Nat) (p : Pattern)
  /-- No character, where the mark was not passed since the last character was read. -/
  | mark (id : Nat)
  /-- A pattern, of whose runs to one place only the most preferred counts. -/
  | distinct (p : Pattern)
deriving DecidableEq, Repr

/-- The runs that read ever more characters of a set, the shortest first. -/
def Run.readMany (set : CharSet) : List Char → Run → List Run
  | [], r => [r]
  | c :: rest, r => if set.mem c then r :: readMany set rest (r.advance c rest) else [r]

/-- Repeats a body from a run on, depth first, and leaves alone the places in `seen`.  Gives the
runs at which the repetition can stop, most preferred first, and the places reached by then.
The fuel bounds the number of repetitions; each of them reaches a new place, so one more than
the number of characters to come is enough. -/
def Run.repeatBody (body : Run → List Run) (greedy : Bool) :
    Nat → List Nat → Run → List Run × List Nat
  | 0, seen, _ => ([], seen)
  | fuel + 1, seen, r =>
    if seen.contains r.position then ([], seen)
    else
      let (later, seen) := (body r).foldl
        (fun (found, seen) next =>
          let (more, seen) := repeatBody body greedy fuel seen next
          (found ++ more, seen))
        ([], r.position :: seen)
      (if greedy then later ++ [r] else r :: later, seen)

/-- The first member for each key that is not among those `seen`. -/
def firstToEach {α κ : Type} [BEq κ] (key : α → κ) : List κ → List α → List α
  | _, [] => []
  | seen, a :: rest =>
    if seen.contains (key a) then firstToEach key seen rest
    else a :: firstToEach key (key a :: seen) rest

/-- The first of the runs to each place. -/
def Run.distinct (l : List Run) : List Run := firstToEach (·.position) [] l

/-- A run that is to take turns with a body, or that has stopped doing so. -/
structure Turn extends Run where
  /-- Whether the run takes no more turns. -/
  isOver : Bool := false

/-- The runs after one more turn, most preferred first. -/
def Turn.take (body : Run → List Run) (greedy : Bool) (l : List Turn) : List Turn :=
  firstToEach (fun t => (t.position, t.isOver)) [] <| l.flatMap fun t =>
    if t.isOver then [t]
    else
      let later := (body { t.toRun with marks := [] }).map fun r => { r with : Turn }
      let stopped := { t with isOver := true }
      if greedy then later ++ [stopped] else stopped :: later

/-- The runs after at most so many turns from a run on, most preferred first. -/
def Run.takeTurns (body : Run → List Run) (greedy : Bool) (turns : Nat) (r : Run) : List Run :=
  Run.distinct ((turns.repeat (Turn.take body greedy) [{ r with }]).map (·.toRun))

namespace Pattern

/-- All the ways to run the pattern from a place, most preferred first. -/
def runs : Pattern → Run → List Run
  | empty, r => [r]
  | one set, r =>
    match r.rest with
    | [] => []
    | c :: rest => if set.mem c then [r.advance c rest] else []
  | anchor a, r => if a.holds r.toCursor then [r] else []
  | seq p q, r => (p.runs r).flatMap q.runs
  | alt p q, r => p.runs r ++ q.runs r
  | many greedy set, r =>
    if greedy then (Run.readMany set r.rest r).reverse else Run.readMany set r.rest r
  | loop greedy p, r => (Run.repeatBody p.runs greedy (r.rest.length + 1) [] r).1
  | upTo greedy turns p, r => Run.takeTurns p.runs greedy turns r
  | group number p, r => (p.runs r).map (·.record number r.position)
  | mark id, r => if r.marks.contains id then [] else [{ r with marks := id :: r.marks }]
  | distinct p, r => Run.distinct (p.runs r)

/-- One pattern after the other. -/
def seqs : List Pattern → Pattern
  | [] => empty
  | [p] => p
  | p :: rest => seq p (seqs rest)

/-- At least one character of a set, as many as possible. -/
def someOf (set : CharSet) : Pattern := seq (one set) (many true set)

/-- The given characters in their order. -/
def exactly (chars : List Char) : Pattern := seqs (chars.map fun c => one (.oneOf [c]))

/-- The first of several patterns that can be run. -/
def alts : List Pattern → Pattern
  | [] => one .empty
  | [p] => p
  | p :: rest => alt p (alts rest)

/-- The most preferred run from a place, as a match. -/
def matchHere? (p : Pattern) (c : Cursor) : Option Captures :=
  (p.runs { c with }).head?.map fun r => ⟨⟨c.position, r.position⟩, r.groups⟩

/-- The match at the leftmost place that has one, at the given place or further right. -/
def search (p : Pattern) (position : Nat) (previous : Option Char) :
    List Char → Option Captures
  | [] => p.matchHere? ⟨position, previous, []⟩
  | c :: rest =>
    match p.matchHere? ⟨position, previous, c :: rest⟩ with
    | some found => some found
    | none => search p (position + 1) (some c) rest

/-- The leftmost match in a text from a position on, and of those at one place the most
preferred. -/
def find (p : Pattern) (text : List Char) (position : Nat) : Option Captures :=
  if position ≤ text.length then
    p.search position (text.take position).getLast? (text.drop position)
  else none

/-! ## Searches stay in range -/

end Pattern

theorem mem_of_mem_firstToEach {α κ : Type} [BEq κ] {key : α → κ} {seen : List κ}
    {l : List α} {a : α} (h : a ∈ firstToEach key seen l) : a ∈ l := by
  induction l generalizing seen with
  | nil => exact h
  | cons b l ih =>
    rw [firstToEach] at h
    split at h
    · exact List.mem_cons_of_mem _ (ih h)
    · rcases List.mem_cons.1 h with rfl | h
      · exact List.mem_cons_self
      · exact List.mem_cons_of_mem _ (ih h)

/-! ### Relations that repetition keeps -/

section Repetition

variable {body : Run → List Run} {greedy : Bool} {R : Run → Run → Prop}

/-- A relation that holds between a run and each run of the body holds between a run and each
run at which the repetition can stop. -/
theorem Run.rel_of_mem_repeatBody (hrefl : ∀ r, R r r) (htrans : ∀ {r s t}, R r s → R s t → R r t)
    (hbody : ∀ r, ∀ s ∈ body r, R r s) {fuel : Nat} {seen : List Nat} {r s : Run}
    (h : s ∈ (Run.repeatBody body greedy fuel seen r).1) : R r s := by
  induction fuel generalizing seen r s with
  | zero => simp [Run.repeatBody] at h
  | succ fuel ih =>
    have onward {seen : List Nat} {n t : Run}
        (ht : t ∈ (Run.repeatBody body greedy fuel seen n).1) : R n t := ih ht
    -- the relation leads to every run that the fold collects, by one of those it goes through
    have collected (nexts : List Run) (hnexts : ∀ n ∈ nexts, R r n)
        (acc : List Run × List Nat) (hacc : ∀ t ∈ acc.1, R r t) :
        ∀ t ∈ (nexts.foldl (fun x next =>
          let y := Run.repeatBody body greedy fuel x.2 next
          (x.1 ++ y.1, y.2)) acc).1, R r t := by
      induction nexts generalizing acc with
      | nil => exact hacc
      | cons n nexts ihn =>
        refine ihn (fun m hm => hnexts m (List.mem_cons_of_mem _ hm)) _ fun t ht => ?_
        rcases List.mem_append.1 ht with ht | ht
        · exact hacc t ht
        · exact htrans (hnexts n List.mem_cons_self) (onward ht)
    have later := collected (body r) (hbody r) ([], r.position :: seen) (by simp)
    simp only [Run.repeatBody] at h
    split at h
    · simp at h
    · split at h
      · rcases List.mem_append.1 h with h | h
        · exact later s h
        · rw [List.mem_singleton] at h
          exact h ▸ hrefl r
      · rcases List.mem_cons.1 h with rfl | h
        · exact hrefl _
        · exact later s h

theorem Turn.rel_of_mem_take (htrans : ∀ {r s t}, R r s → R s t → R r t)
    (hbody : ∀ r : Run, ∀ s ∈ body { r with marks := [] }, R r s) {r : Run} {l : List Turn}
    (hl : ∀ t ∈ l, R r t.toRun) : ∀ t ∈ Turn.take body greedy l, R r t.toRun := by
  intro t ht
  obtain ⟨u, hu, ht⟩ := List.mem_flatMap.1 (mem_of_mem_firstToEach ht)
  have hfollows : R r u.toRun := hl u hu
  split at ht
  · rw [List.mem_singleton] at ht
    exact ht ▸ hfollows
  · have hlater : ∀ v ∈ (body { u.toRun with marks := [] }).map fun r => { r with : Turn },
        R r v.toRun := by
      intro v hv
      obtain ⟨s, hs, rfl⟩ := List.mem_map.1 hv
      exact htrans hfollows (hbody _ s hs)
    split at ht
    · rcases List.mem_append.1 ht with ht | ht
      · exact hlater t ht
      · rw [List.mem_singleton] at ht
        exact ht ▸ hfollows
    · rcases List.mem_cons.1 ht with rfl | ht
      · exact hfollows
      · exact hlater t ht

/-- The same for a limited number of turns, of which each starts without the marks of the one
before it. -/
theorem Run.rel_of_mem_takeTurns (hrefl : ∀ r, R r r)
    (htrans : ∀ {r s t}, R r s → R s t → R r t)
    (hbody : ∀ r : Run, ∀ s ∈ body { r with marks := [] }, R r s) {turns : Nat} {r s : Run}
    (h : s ∈ Run.takeTurns body greedy turns r) : R r s := by
  obtain ⟨t, ht, rfl⟩ := List.mem_map.1 (mem_of_mem_firstToEach h)
  have hall : ∀ t ∈ turns.repeat (Turn.take body greedy) [{ r with }], R r t.toRun := by
    clear ht h
    induction turns with
    | zero =>
      intro t ht
      rw [Nat.repeat, List.mem_singleton] at ht
      exact ht ▸ hrefl r
    | succ turns ih => exact Turn.rel_of_mem_take (R := R) htrans hbody ih
  exact hall t ht

end Repetition

/-- A run that comes after another one in the same text. -/
def Run.Follows (r s : Run) : Prop :=
  s.position ≤ r.position ∧ r.position + r.rest.length = s.position + s.rest.length

namespace Run.Follows

theorem refl (r : Run) : r.Follows r := ⟨Nat.le_refl _, rfl⟩

theorem trans {r s t : Run} (h₁ : r.Follows s) (h₂ : s.Follows t) : r.Follows t :=
  ⟨Nat.le_trans h₂.1 h₁.1, h₁.2.trans h₂.2⟩

theorem advance {r : Run} {c : Char} {rest : List Char} (h : r.rest = c :: rest) :
    (r.advance c rest).Follows r := by
  refine ⟨Nat.le_succ _, ?_⟩
  simp only [Run.advance, h, List.length_cons]
  omega

theorem of_mem_readMany {set : CharSet} {rest : List Char} {r s : Run} (hrest : r.rest = rest)
    (h : s ∈ Run.readMany set rest r) : s.Follows r := by
  induction rest generalizing r with
  | nil =>
    rw [Run.readMany, List.mem_singleton] at h
    exact h ▸ refl r
  | cons c rest ih =>
    rw [Run.readMany] at h
    split at h
    · rcases List.mem_cons.1 h with rfl | h
      · exact refl _
      · exact (ih rfl h).trans (advance hrest)
    · rw [List.mem_singleton] at h
      exact h ▸ refl r

theorem of_mem_distinct {l : List Run} {r : Run} (h : r ∈ Run.distinct l) : r ∈ l :=
  mem_of_mem_firstToEach h

end Run.Follows

namespace Pattern

/-- A run of a pattern goes on in the same text and never back. -/
theorem follows_of_mem_runs {p : Pattern} {r s : Run} (h : s ∈ p.runs r) : s.Follows r := by
  induction p generalizing r s with
  | empty =>
    rw [runs, List.mem_singleton] at h
    exact h ▸ .refl r
  | one set =>
    rw [runs] at h
    split at h
    · simp at h
    · next hrest =>
      split at h
      · rw [List.mem_singleton] at h
        exact h ▸ .advance hrest
      · simp at h
  | anchor a =>
    rw [runs] at h
    split at h
    · rw [List.mem_singleton] at h
      exact h ▸ .refl r
    · simp at h
  | seq p q ihp ihq =>
    rw [runs, List.mem_flatMap] at h
    obtain ⟨t, ht, hs⟩ := h
    exact (ihq hs).trans (ihp ht)
  | alt p q ihp ihq =>
    rw [runs, List.mem_append] at h
    exact h.elim ihp ihq
  | many greedy set =>
    rw [runs] at h
    split at h
    · exact .of_mem_readMany rfl (List.mem_reverse.1 h)
    · exact .of_mem_readMany rfl h
  | loop greedy p ih =>
    rw [runs] at h
    exact Run.rel_of_mem_repeatBody (R := fun r s => s.Follows r) .refl (fun h₁ h₂ => h₂.trans h₁)
      (fun _ _ => ih) h
  | upTo greedy turns p ih =>
    rw [runs] at h
    exact Run.rel_of_mem_takeTurns (R := fun r s => s.Follows r) .refl
      (fun h₁ h₂ => h₂.trans h₁) (fun r s hs => (ih hs : s.Follows { r with marks := [] })) h
  | group number p ih =>
    rw [runs, List.mem_map] at h
    obtain ⟨t, ht, rfl⟩ := h
    have hfollows : t.Follows r := ih ht
    exact hfollows
  | mark id =>
    rw [runs] at h
    split at h
    · simp at h
    · rw [List.mem_singleton] at h
      exact h ▸ ⟨Nat.le_refl _, rfl⟩
  | distinct p ih =>
    rw [runs] at h
    exact ih (Run.Follows.of_mem_distinct h)

theorem within_of_matchHere? {p : Pattern} {place : Cursor} {c : Captures}
    (h : p.matchHere? place = some c) :
    c.span.Within place.position (place.position + place.rest.length) := by
  obtain ⟨r, hr, rfl⟩ := Option.map_eq_some_iff.1 h
  have hfollows := follows_of_mem_runs (List.mem_of_mem_head? hr)
  exact ⟨Nat.le_refl _, hfollows.1, Nat.le.intro hfollows.2⟩

theorem within_of_search {p : Pattern} {rest : List Char} {position : Nat}
    {previous : Option Char} {c : Captures} (h : p.search position previous rest = some c) :
    c.span.Within position (position + rest.length) := by
  induction rest generalizing position previous with
  | nil => exact within_of_matchHere? h
  | cons a rest ih =>
    rw [search] at h
    split at h
    · next hhere =>
      exact within_of_matchHere? (hhere.trans h)
    · obtain ⟨h₁, h₂, h₃⟩ := ih h
      refine ⟨Nat.le_of_succ_le h₁, h₂, ?_⟩
      simp only [List.length_cons]
      omega

theorem within_of_find {p : Pattern} {text : List Char} {position : Nat} {c : Captures}
    (h : p.find text position = some c) : c.span.Within position text.length := by
  unfold find at h
  split at h
  · obtain ⟨h₁, h₂, h₃⟩ := within_of_search h
    refine ⟨h₁, h₂, ?_⟩
    rw [List.length_drop] at h₃
    omega
  · contradiction

/-- The search for a pattern. -/
def matcher (p : Pattern) : Matcher where
  find := p.find
  find_within := within_of_find

end Pattern

end RuleCanon
