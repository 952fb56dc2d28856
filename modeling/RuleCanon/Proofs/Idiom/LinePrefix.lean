import RuleCanon.Proofs.Idiom.Lines
import RuleCanon.Proofs.Literal.LineStart

/-!
# How assignments and results are read

The patterns for assignments and results are rows of parts, and each of their parts leaves nothing
that the next one could start with.  So a line that opens with one is read from left to right, and
what takes the place of the opening is made of what was read.  The new opening has a canonical
keyword behind the indentation, where the old one had a Chinese word, so it is not replaced again.

## Main Definitions

* `assignmentAt?`, `resultAt?` — the opening of a line, read from left to right
* `Assignment.IsOpeningOf`, `Result.IsOpeningOf` — what it is to be the opening of a line
* `Assignment.opening`, `Result.opening` — what takes its place

## Main Statements

* `assignmentAt?_eq_some_iff`, `resultAt?_eq_some_iff` — what is read is the opening of the line
* `opens_assignmentPattern`, `opens_resultPattern` — what the patterns find is what is read
* `openLine_openAssignment?`, `openLine_openResult?` — a new opening is not replaced again
-/

namespace RuleCanon

open Pattern

variable {text rest : List Char}

/-! ## Assignments -/

/-- The opening of an assignment. -/
structure Assignment where
  /-- The blanks in front. -/
  indentation : List Char
  /-- The name that is bound. -/
  name : List Char
  /-- What is left of the line. -/
  rest : List Char

/-- Reads the opening of an assignment. -/
def assignmentAt? (text : List Char) : Option Assignment := do
  let (indentation, text) ← readMany .inlineBlank text
  let (_, text) ← readOne (.oneOf ['将']) text
  let (_, text) ← readBlanks text
  let (name, text) ← readName text
  let (_, text) ← readBlanks text
  let (_, text) ← readWord ['设', '为'] text
  let (_, rest) ← readBlanks text
  return ⟨indentation, name, rest⟩

/-- The line opens with the assignment. -/
structure Assignment.IsOpeningOf (a : Assignment) (line : List Char) : Prop where
  indentation : ∀ c ∈ a.indentation, CharSet.inlineBlank.mem c = true
  name : IsName a.name
  rest : EndsRun .inlineBlank a.rest
  split : ∃ gap gap' gap'', Fills .inlineBlank gap ∧ Fills .inlineBlank gap' ∧
    Fills .inlineBlank gap'' ∧ line = a.indentation ++ '将' :: (gap ++ (a.name ++
      (gap' ++ '设' :: '为' :: (gap'' ++ a.rest))))

/-- **What is read is the opening of the line.** -/
theorem assignmentAt?_eq_some_iff {a : Assignment} :
    assignmentAt? text = some a ↔ a.IsOpeningOf text := by
  constructor
  · intro h
    simp only [assignmentAt?, Option.bind_eq_bind, Option.bind_eq_some_iff] at h
    obtain ⟨⟨_, t₁⟩, h₁, ⟨_, t₂⟩, h₂, ⟨gap, t₃⟩, h₃, ⟨_, t₄⟩, h₄, ⟨gap', t₅⟩, h₅, ⟨_, t₆⟩, h₆,
      ⟨gap'', t₇⟩, h₇, heq⟩ := h
    cases heq
    obtain ⟨hindentation, -, rfl⟩ := readMany_eq_some_iff.1 h₁
    obtain ⟨c, hc, -, rfl⟩ := readOne_eq_some_iff.1 h₂
    obtain ⟨hgap, -, rfl⟩ := readRun_self_eq_some_iff.1 h₃
    obtain ⟨hname, -, rfl⟩ := readName_eq_some_iff.1 h₄
    obtain ⟨hgap', -, rfl⟩ := readRun_self_eq_some_iff.1 h₅
    obtain ⟨-, rfl⟩ := readWord_eq_some_iff.1 h₆
    obtain ⟨hgap'', hend, rfl⟩ := readRun_self_eq_some_iff.1 h₇
    obtain rfl : c = '将' := by simpa [CharSet.mem] using hc
    exact ⟨hindentation, hname, hend, gap, gap', gap'', hgap, hgap', hgap'', rfl⟩
  · rintro ⟨hindentation, hname, hend, gap, gap', gap'', hgap, hgap', hgap'', rfl⟩
    simp only [assignmentAt?, Option.bind_eq_bind, Option.bind_eq_some_iff]
    exact ⟨_, readMany_append hindentation (endsRun_cons (by decide) _),
      _, readOne_eq_some_iff.2 ⟨'将', by decide, rfl, rfl⟩,
      _, readRun_self_eq_some_iff.2 ⟨hgap, hname.endsRun _, rfl⟩,
      _, readName_eq_some_iff.2 ⟨hname, hgap'.endsRun nameRest_of_inlineBlank _, rfl⟩,
      _, readRun_self_eq_some_iff.2 ⟨hgap', endsRun_cons (by decide) _, rfl⟩,
      _, readWord_eq_some_iff.2 ⟨rfl, rfl⟩,
      _, readRun_self_eq_some_iff.2 ⟨hgap'', hend, rfl⟩, rfl⟩

/-- The canonical opening of an assignment. -/
def Assignment.opening (a : Assignment) : List Char :=
  a.indentation ++ TokenKind.letName.canonical.toList ++ ' ' :: a.name ++
    ' ' :: TokenKind.beValue.canonical.toList ++ [' ']

theorem Assignment.newline_not_mem_opening {a : Assignment} (hindentation : '\n' ∉ a.indentation)
    (hname : '\n' ∉ a.name) : '\n' ∉ a.opening := by
  have hwords : '\n' ∉ TokenKind.letName.canonical.toList ∧
      '\n' ∉ TokenKind.beValue.canonical.toList := by decide
  simp [opening, hindentation, hname, hwords]

/-- What takes the place of the opening of an assignment, and what is left of the line. -/
def openAssignment? : List Char → Option (List Char × List Char) :=
  openBy assignmentAt? (·.opening) (·.rest)

/-- The parts of an assignment behind the indentation. -/
def assignmentParts : List Part :=
  [.mark (.oneOf ['将']), .run .inlineBlank .inlineBlank,
    (Part.run .nameStart .nameRest).numbered 2, .run .inlineBlank .inlineBlank,
    .word ['设', '为'], .run .inlineBlank .inlineBlank]

theorem assignmentPattern_eq :
    assignmentPattern = seqs (indentation 1 :: assignmentParts.map (·.toPattern)) := rfl

theorem fit_assignmentParts : Fit (indentationPart 1 :: assignmentParts) := by
  have hword : CharSet.inlineBlank.Disjoint (.oneOf ['将']) := CharSet.disjoint_oneOf (by decide)
  have hname : CharSet.inlineBlank.Disjoint .nameStart :=
    CharSet.disjoint_oneOf (by decide +kernel)
  have hrest : CharSet.inlineBlank.Disjoint .nameRest :=
    CharSet.disjoint_oneOf (by decide +kernel)
  have hlink : CharSet.inlineBlank.Disjoint (.oneOf ['设']) := CharSet.disjoint_oneOf (by decide)
  exact ⟨fun _ => refuses_ofParts_cons (refuses_one hword) _, fun _ => refuses_empty _,
    fun _ => refuses_ofParts_cons ((refuses_one hname).seq _) _,
    fun _ => refuses_ofParts_cons ((refuses_one hrest.symm).seq _) _,
    fun _ => refuses_ofParts_cons ((refuses_one hlink).seq _) _, fun _ => refuses_empty _,
    fun hmore => absurd rfl hmore, trivial⟩

theorem assignmentAt?_eq (text : List Char) :
    assignmentAt? text = (readParts (indentationPart 1 :: assignmentParts) text).map fun e =>
      let word := recorded (indentationPart 1 :: assignmentParts) e.1
      ⟨word 1, word 2, e.2⟩ := by
  simp [assignmentAt?, assignmentParts, map_readParts_cons, map_readParts_nil, indentationPart,
    Part.numbered, Part.mark, Part.run, Part.word, Part.fill, recorded, wordOf?, readBlanks,
    readName]

/-- **What the pattern finds is what is read.** -/
theorem opens_assignmentPattern :
    assignmentPattern.Opens assignmentReplacement openAssignment? := by
  rw [assignmentPattern_eq]
  refine opens_of_parts fit_assignmentParts (fun word t => ⟨word 1, word 2, t⟩) assignmentAt?_eq
    (fun _ _ => rfl) (fun hword _ => ?_)
    fun _ hword => Assignment.newline_not_mem_opening (hword 1) (hword 2)
  rw [assignmentReplacement, hword 1 (by decide), hword 2 (by decide)]
  rfl

theorem assignmentAt?_eq_none (h : startOf? text ≠ some '将') : assignmentAt? text = none := by
  have hnone : readOne (.oneOf ['将']) (text.dropWhile CharSet.inlineBlank.mem) = none := by
    refine readOne_eq_none fun c hc => ?_
    rw [startOf?, hc] at h
    simpa [CharSet.mem] using h
  simp [assignmentAt?, readMany, hnone]

/-- The new opening is a canonical keyword behind blanks. -/
theorem Assignment.startOf?_opening {a : Assignment} (h : assignmentAt? text = some a)
    (rest : List Char) : startOf? (a.opening ++ rest) = some 'L' := by
  simp only [assignmentAt?, readMany, Option.bind_eq_bind, Option.bind_some,
    Option.bind_eq_some_iff] at h
  obtain ⟨_, -, _, -, _, -, _, -, _, -, _, -, heq⟩ := h
  cases heq
  simp only [opening, List.append_assoc]
  rw [startOf?_append (inlineBlank_takeWhile text)]
  rfl

/-- **A new opening is not replaced again.** -/
theorem openLine_openAssignment? (text : List Char) :
    openLine openAssignment? (openLine openAssignment? text) = openLine openAssignment? text :=
  openLine_openBy (by decide) assignmentAt?_eq_none Assignment.startOf?_opening text

theorem openLine_openAssignment?_eq_self_iff (text : List Char) :
    openLine openAssignment? text = text ↔ assignmentAt? text = none :=
  openLine_openBy_eq_self_iff (by decide) assignmentAt?_eq_none Assignment.startOf?_opening text

/-! ## Results -/

/-- The opening of a result. -/
structure Result where
  /-- The blanks in front. -/
  indentation : List Char
  /-- What is left of the line. -/
  rest : List Char

/-- Reads the opening of a result. -/
def resultAt? (text : List Char) : Option Result := do
  let (indentation, text) ← readMany .inlineBlank text
  let (_, text) ← readWord ['结', '果', '为'] text
  let (_, rest) ← readBlanks text
  return ⟨indentation, rest⟩

/-- The line opens with the result. -/
structure Result.IsOpeningOf (a : Result) (line : List Char) : Prop where
  indentation : ∀ c ∈ a.indentation, CharSet.inlineBlank.mem c = true
  rest : EndsRun .inlineBlank a.rest
  split : ∃ gap, Fills .inlineBlank gap ∧
    line = a.indentation ++ '结' :: '果' :: '为' :: (gap ++ a.rest)

/-- **What is read is the opening of the line.** -/
theorem resultAt?_eq_some_iff {a : Result} : resultAt? text = some a ↔ a.IsOpeningOf text := by
  constructor
  · intro h
    simp only [resultAt?, Option.bind_eq_bind, Option.bind_eq_some_iff] at h
    obtain ⟨⟨_, t₁⟩, h₁, ⟨_, t₂⟩, h₂, ⟨gap, t₃⟩, h₃, heq⟩ := h
    cases heq
    obtain ⟨hindentation, -, rfl⟩ := readMany_eq_some_iff.1 h₁
    obtain ⟨-, rfl⟩ := readWord_eq_some_iff.1 h₂
    obtain ⟨hgap, hend, rfl⟩ := readRun_self_eq_some_iff.1 h₃
    exact ⟨hindentation, hend, gap, hgap, rfl⟩
  · rintro ⟨hindentation, hend, gap, hgap, rfl⟩
    simp only [resultAt?, Option.bind_eq_bind, Option.bind_eq_some_iff]
    exact ⟨_, readMany_append hindentation (endsRun_cons (by decide) _),
      _, readWord_eq_some_iff.2 ⟨rfl, rfl⟩,
      _, readRun_self_eq_some_iff.2 ⟨hgap, hend, rfl⟩, rfl⟩

/-- The canonical opening of a result. -/
def Result.opening (a : Result) : List Char :=
  a.indentation ++ TokenKind.returnValue.canonical.toList ++ [' ']

theorem Result.newline_not_mem_opening {a : Result} (hindentation : '\n' ∉ a.indentation) :
    '\n' ∉ a.opening := by
  have hkeyword : '\n' ∉ TokenKind.returnValue.canonical.toList := by decide
  simp [opening, hindentation, hkeyword]

/-- What takes the place of the opening of a result, and what is left of the line. -/
def openResult? : List Char → Option (List Char × List Char) :=
  openBy resultAt? (·.opening) (·.rest)

/-- The parts of a result behind the indentation. -/
def resultParts : List Part := [.word ['结', '果', '为'], .run .inlineBlank .inlineBlank]

theorem resultPattern_eq :
    resultPattern = seqs (indentation 1 :: resultParts.map (·.toPattern)) := rfl

theorem fit_resultParts : Fit (indentationPart 1 :: resultParts) := by
  have hword : CharSet.inlineBlank.Disjoint (.oneOf ['结']) := CharSet.disjoint_oneOf (by decide)
  exact ⟨fun _ => refuses_ofParts_cons ((refuses_one hword).seq _) _, fun _ => refuses_empty _,
    fun hmore => absurd rfl hmore, trivial⟩

theorem resultAt?_eq (text : List Char) :
    resultAt? text = (readParts (indentationPart 1 :: resultParts) text).map fun e =>
      ⟨recorded (indentationPart 1 :: resultParts) e.1 1, e.2⟩ := by
  simp [resultAt?, resultParts, map_readParts_cons, map_readParts_nil, indentationPart,
    Part.numbered, Part.run, Part.word, Part.fill, recorded, wordOf?, readBlanks]

/-- **What the pattern finds is what is read.** -/
theorem opens_resultPattern : resultPattern.Opens resultReplacement openResult? := by
  rw [resultPattern_eq]
  refine opens_of_parts fit_resultParts (fun word t => ⟨word 1, t⟩) resultAt?_eq (fun _ _ => rfl)
    (fun hword _ => ?_) fun _ hword => Result.newline_not_mem_opening (hword 1)
  rw [resultReplacement, hword 1 (by decide)]
  rfl

theorem resultAt?_eq_none (h : startOf? text ≠ some '结') : resultAt? text = none := by
  have hnone : readWord ['结', '果', '为'] (text.dropWhile CharSet.inlineBlank.mem) = none := by
    refine readWord_eq_none_iff.2 ?_
    rintro ⟨rest, hrest⟩
    rw [startOf?, ← hrest] at h
    exact h rfl
  simp [resultAt?, readMany, hnone]

/-- The new opening is a canonical keyword behind blanks. -/
theorem Result.startOf?_opening {a : Result} (h : resultAt? text = some a) (rest : List Char) :
    startOf? (a.opening ++ rest) = some 'R' := by
  simp only [resultAt?, readMany, Option.bind_eq_bind, Option.bind_some,
    Option.bind_eq_some_iff] at h
  obtain ⟨_, -, _, -, heq⟩ := h
  cases heq
  simp only [opening, List.append_assoc]
  rw [startOf?_append (inlineBlank_takeWhile text)]
  rfl

/-- **A new opening is not replaced again.** -/
theorem openLine_openResult? (text : List Char) :
    openLine openResult? (openLine openResult? text) = openLine openResult? text :=
  openLine_openBy (by decide) resultAt?_eq_none Result.startOf?_opening text

theorem openLine_openResult?_eq_self_iff (text : List Char) :
    openLine openResult? text = text ↔ resultAt? text = none :=
  openLine_openBy_eq_self_iff (by decide) resultAt?_eq_none Result.startOf?_opening text

end RuleCanon
