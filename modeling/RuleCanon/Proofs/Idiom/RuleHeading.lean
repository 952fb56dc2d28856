import RuleCanon.Proofs.Idiom.Lines
import RuleCanon.Proofs.Literal.LineStart
import RuleCanon.Stage.Builtin

/-!
# How headings of rules are read

The pattern for headings is a row of parts like those for assignments and results, and a line that
opens with a heading is read from left to right.  But the canonical heading starts with a word that
the pattern reads as well, so a second run reads it again up to the name.  What decides is what
stands behind the name: the keyword `given` if there are parameters, and otherwise what stood behind
the parameter list.  If that is another parameter list, then the second run takes it for the list of
the heading.

## Main Definitions

* `parametersAt?`, `headingAt?` — a parameter list and a heading, read from left to right
* `Heading.opening` — the canonical heading
* `Stretch.ListsTwice` — lines with a heading that has a second parameter list behind a blank one

## Main Statements

* `opens_headingPattern` — what the pattern finds is what is read
* `headingAt?_opening` — what is read where a canonical heading stands
* `functionSyntax_twice_eq_iff` — when a second run of the stage changes nothing
-/

namespace RuleCanon

open Pattern

variable {c : Char} {text rest tail p w : List Char}

/-! ## Reading a heading -/

/-- The marks that open a parameter list. -/
def listOpening : CharSet := .oneOf ['(', '（']

/-- The marks that close a parameter list. -/
def listClosing : CharSet := .oneOf [')', '）']

/-- What can stand in a parameter list. -/
def listInside : CharSet := .compl (.oneOf [')', '）', '\r', '\n'])

/-- Reads a parameter list and the blanks behind it: what is in the list, and what is left. -/
def parametersAt? (text : List Char) : Option (List Char × List Char) := do
  let (_, text) ← readOne listOpening text
  let (parameters, text) ← readMany listInside text
  let (_, text) ← readOne listClosing text
  let (_, rest) ← readMany .inlineBlank text
  return (parameters, rest)

/-- The heading of a rule. -/
structure Heading where
  /-- The blanks in front. -/
  indentation : List Char
  /-- The name of the rule. -/
  name : List Char
  /-- What is in the parameter list. -/
  parameters : List Char
  /-- What is left of the line. -/
  rest : List Char

/-- What a parameter list with the blanks behind it is. -/
structure IsParameterList (text parameters rest : List Char) : Prop where
  inside : ∀ c ∈ parameters, listInside.mem c = true
  ends : EndsRun .inlineBlank rest
  split : ∃ opening closing gap, listOpening.mem opening = true ∧
    listClosing.mem closing = true ∧ (∀ c ∈ gap, CharSet.inlineBlank.mem c = true) ∧
    text = opening :: (parameters ++ closing :: (gap ++ rest))

theorem listInside_of_listClosing : listClosing.Disjoint listInside :=
  CharSet.disjoint_oneOf (by decide)

theorem inlineBlank_of_listOpening : listOpening.Disjoint .inlineBlank :=
  CharSet.disjoint_oneOf (by decide)

theorem nameRest_of_listOpening : listOpening.Disjoint .nameRest :=
  CharSet.disjoint_oneOf (by decide +kernel)

/-- A parameter list starts with no character that is disjoint from its marks. -/
theorem IsParameterList.endsRun {set : CharSet} (h : IsParameterList text p rest)
    (hset : listOpening.Disjoint set) : EndsRun set text := by
  obtain ⟨o, c, gap, ho, -, -, rfl⟩ := h.split
  exact endsRun_cons (hset o ho) _

theorem parametersAt?_eq_some_iff :
    parametersAt? text = some (p, rest) ↔ IsParameterList text p rest := by
  constructor
  · intro h
    simp only [parametersAt?, Option.bind_eq_bind, Option.bind_eq_some_iff] at h
    obtain ⟨⟨_, t₁⟩, h₁, ⟨_, t₂⟩, h₂, ⟨_, t₃⟩, h₃, ⟨gap, t₄⟩, h₄, heq⟩ := h
    cases heq
    obtain ⟨o, ho, -, rfl⟩ := readOne_eq_some_iff.1 h₁
    obtain ⟨hp, -, rfl⟩ := readMany_eq_some_iff.1 h₂
    obtain ⟨c, hc, -, rfl⟩ := readOne_eq_some_iff.1 h₃
    obtain ⟨hgap, hend, rfl⟩ := readMany_eq_some_iff.1 h₄
    exact ⟨hp, hend, o, c, gap, ho, hc, hgap, rfl⟩
  · rintro ⟨hp, hend, o, c, gap, ho, hc, hgap, rfl⟩
    simp only [parametersAt?, Option.bind_eq_bind, Option.bind_eq_some_iff]
    exact ⟨_, readOne_eq_some_iff.2 ⟨o, ho, rfl, rfl⟩,
      _, readMany_append hp (endsRun_cons (listInside_of_listClosing c hc) _),
      _, readOne_eq_some_iff.2 ⟨c, hc, rfl, rfl⟩, _, readMany_append hgap hend, rfl⟩

/-- Reads the word that opens a heading. -/
def readRuleWord : Reading := readEither (readWord ['规', '则']) (readWord ['R', 'u', 'l', 'e'])

/-- Reads a heading. -/
def headingAt? (text : List Char) : Option Heading := do
  let (indentation, text) ← readMany .inlineBlank text
  let (_, text) ← readRuleWord text
  let (_, text) ← readBlanks text
  let (name, text) ← readName text
  let (_, text) ← readMany .inlineBlank text
  let (parameters, rest) ← parametersAt? text
  return ⟨indentation, name, parameters, rest⟩

/-- The line opens with the heading. -/
structure Heading.IsOpeningOf (h : Heading) (line : List Char) : Prop where
  indentation : ∀ c ∈ h.indentation, CharSet.inlineBlank.mem c = true
  name : IsName h.name
  split : ∃ word gap gap' list, word ∈ ["规则".toList, "Rule".toList] ∧ Fills .inlineBlank gap ∧
    (∀ c ∈ gap', CharSet.inlineBlank.mem c = true) ∧
    IsParameterList list h.parameters h.rest ∧
    line = h.indentation ++ (word ++ (gap ++ (h.name ++ (gap' ++ list))))

theorem readRuleWord_eq_some_iff :
    readRuleWord text = some (w, rest) ↔
      w ∈ ["规则".toList, "Rule".toList] ∧ text = w ++ rest := by
  rw [readRuleWord, readEither, Option.or_eq_some_iff, readWord_eq_some_iff, readWord_eq_some_iff,
    readWord_eq_none_iff, List.mem_cons, List.mem_singleton]
  constructor
  · rintro (⟨rfl, rfl⟩ | ⟨-, rfl, rfl⟩)
    · exact ⟨.inl rfl, rfl⟩
    · exact ⟨.inr rfl, rfl⟩
  · rintro ⟨rfl | rfl, rfl⟩
    · exact .inl ⟨rfl, rfl⟩
    · refine .inr ⟨?_, rfl, rfl⟩
      rintro ⟨t, ht⟩
      exact absurd (List.cons.inj ht).1 (by decide)

/-- **What is read is the opening of the line.** -/
theorem headingAt?_eq_some_iff {h : Heading} : headingAt? text = some h ↔ h.IsOpeningOf text := by
  constructor
  · intro hread
    simp only [headingAt?, Option.bind_eq_bind, Option.bind_eq_some_iff] at hread
    obtain ⟨⟨_, t₁⟩, h₁, ⟨word, t₂⟩, h₂, ⟨gap, t₃⟩, h₃, ⟨_, t₄⟩, h₄, ⟨gap', t₅⟩, h₅, ⟨_, t₆⟩, h₆,
      heq⟩ := hread
    cases heq
    obtain ⟨hindentation, -, rfl⟩ := readMany_eq_some_iff.1 h₁
    obtain ⟨hword, rfl⟩ := readRuleWord_eq_some_iff.1 h₂
    obtain ⟨hgap, -, rfl⟩ := readRun_self_eq_some_iff.1 h₃
    obtain ⟨hname, -, rfl⟩ := readName_eq_some_iff.1 h₄
    obtain ⟨hgap', -, rfl⟩ := readMany_eq_some_iff.1 h₅
    exact ⟨hindentation, hname, word, gap, gap', t₅, hword, hgap, hgap',
      parametersAt?_eq_some_iff.1 h₆, rfl⟩
  · rintro ⟨hindentation, hname, word, gap, gap', list, hword, hgap, hgap', hlist, rfl⟩
    have hwords : EndsRun .inlineBlank (word ++ (gap ++ (h.name ++ (gap' ++ list)))) := by
      rcases List.mem_pair.1 hword with rfl | rfl <;> exact endsRun_cons (by decide) _
    have hafter : EndsRun .nameRest (gap' ++ list) := by
      by_cases hne : gap' = []
      · rw [hne]
        exact hlist.endsRun nameRest_of_listOpening
      · exact Fills.endsRun ⟨hne, hgap'⟩ nameRest_of_inlineBlank _
    have hbefore := hlist.endsRun inlineBlank_of_listOpening
    simp only [headingAt?, Option.bind_eq_bind, Option.bind_eq_some_iff]
    exact ⟨_, readMany_append hindentation hwords,
      _, readRuleWord_eq_some_iff.2 ⟨hword, rfl⟩,
      _, readRun_self_eq_some_iff.2 ⟨hgap, hname.endsRun _, rfl⟩,
      _, readName_eq_some_iff.2 ⟨hname, hafter, rfl⟩,
      _, readMany_append hgap' hbefore, _, parametersAt?_eq_some_iff.2 hlist, rfl⟩

/-- The canonical heading up to the name. -/
def Heading.front (h : Heading) : List Char :=
  h.indentation ++ TokenKind.ruleDef.canonical.toList ++ ' ' :: h.name

/-- The parameters with the keyword that introduces them, if there are any. -/
def Heading.givens (h : Heading) : List Char :=
  if trim h.parameters = [] then []
  else ' ' :: TokenKind.given.canonical.toList ++ ' ' :: trim h.parameters

/-- The space between a heading and what follows it, where it is needed. -/
def Heading.gap (h : Heading) : List Char := if needsSeparator h.rest.head? then [' '] else []

/-- The canonical heading. -/
def Heading.opening (h : Heading) : List Char := h.front ++ h.givens ++ h.gap

theorem Heading.newline_not_mem_opening {h : Heading} (hindentation : '\n' ∉ h.indentation)
    (hname : '\n' ∉ h.name) (hparameters : '\n' ∉ h.parameters) : '\n' ∉ h.opening := by
  have hwords : '\n' ∉ TokenKind.ruleDef.canonical.toList ∧
      '\n' ∉ TokenKind.given.canonical.toList := by decide
  have htrim : '\n' ∉ trim h.parameters := fun hmem => hparameters (trim_subset _ hmem)
  have hgivens : '\n' ∉ h.givens := by
    rw [givens]
    split
    · exact List.not_mem_nil
    · simp [hwords, htrim]
  have hgap : '\n' ∉ h.gap := by
    rw [gap]
    split <;> simp
  simp [opening, front, hindentation, hname, hwords, hgivens, hgap]

/-- What takes the place of a heading, and what is left of the line. -/
def openHeading? : List Char → Option (List Char × List Char) :=
  openBy headingAt? (·.opening) (·.rest)

/-! ## The pattern -/

theorem readsBy_ruleWord :
    (alt (exactly ['规', '则']) (exactly ['R', 'u', 'l', 'e'])).ReadsBy .empty readRuleWord := by
  refine (readsBy_exactly _).alt (readsBy_exactly _) fun t ht => ?_
  obtain ⟨⟨w, rest⟩, hread⟩ := Option.ne_none_iff_exists'.1 ht
  obtain ⟨-, rfl⟩ := readWord_eq_some_iff.1 hread
  rfl

/-- The parts of a heading behind the indentation. -/
def headingParts : List Part :=
  [⟨none, _, .empty, readRuleWord, readsBy_ruleWord⟩, .run .inlineBlank .inlineBlank,
    (Part.run .nameStart .nameRest).numbered 2, .fill .inlineBlank, .mark listOpening,
    (Part.fill listInside).numbered 3, .mark listClosing, .fill .inlineBlank]

theorem headingPattern_eq :
    headingPattern = seqs (indentation 1 :: headingParts.map (·.toPattern)) := rfl

theorem fit_headingParts : Fit (indentationPart 1 :: headingParts) := by
  have hname : CharSet.inlineBlank.Disjoint .nameStart :=
    CharSet.disjoint_oneOf (by decide +kernel)
  have hrest : CharSet.inlineBlank.Disjoint .nameRest :=
    CharSet.disjoint_oneOf (by decide +kernel)
  have hwords : (alt (exactly ['规', '则']) (exactly ['R', 'u', 'l', 'e'])).Refuses
      .inlineBlank := by
    intro r c rest hrest hc
    refine readsBy_ruleWord.fails ?_
    rcases mem_inlineBlank_iff.1 hc with rfl | rfl <;> rw [hrest] <;> rfl
  have hopening := refuses_one nameRest_of_listOpening.symm
  have hlist := refuses_one inlineBlank_of_listOpening.symm
  have hclosing := refuses_one listInside_of_listClosing.symm
  exact ⟨fun _ => refuses_ofParts_cons hwords _, fun _ => refuses_empty _,
    fun _ => refuses_ofParts_cons ((refuses_one hname).seq _) _,
    fun _ => refuses_ofParts_fill hrest.symm (refuses_ofParts_cons hopening _),
    fun _ => refuses_ofParts_cons hlist _, fun _ => refuses_empty _,
    fun _ => refuses_ofParts_cons hclosing _, fun _ => refuses_empty _,
    fun hmore => absurd rfl hmore, trivial⟩

theorem headingAt?_eq (text : List Char) :
    headingAt? text = (readParts (indentationPart 1 :: headingParts) text).map fun e =>
      let word := recorded (indentationPart 1 :: headingParts) e.1
      ⟨word 1, word 2, word 3, e.2⟩ := by
  simp [headingAt?, parametersAt?, headingParts, map_readParts_cons, map_readParts_nil,
    indentationPart, Part.numbered, Part.mark, Part.run, Part.fill, recorded, wordOf?, readBlanks,
    readName, Option.bind_assoc]

/-- **What the pattern finds is what is read.** -/
theorem opens_headingPattern : headingPattern.Opens headingReplacement openHeading? := by
  rw [headingPattern_eq]
  refine opens_of_parts fit_headingParts (fun word t => ⟨word 1, word 2, word 3, t⟩)
    headingAt?_eq (fun _ _ => rfl) (fun hword hafter => ?_)
    fun _ hword => Heading.newline_not_mem_opening (hword 1) (hword 2) (hword 3)
  rw [headingReplacement, hword 1 (by decide), hword 2 (by decide), hword 3 (by decide), hafter]
  rfl

/-! ## Reading a canonical heading -/

/-- What is known of a heading that was read. -/
structure Heading.IsRead (h : Heading) : Prop where
  indentation : ∀ c ∈ h.indentation, CharSet.inlineBlank.mem c = true
  name : IsName h.name
  rest : EndsRun .inlineBlank h.rest

theorem isRead_of_headingAt? {h : Heading} (hread : headingAt? text = some h) : h.IsRead := by
  obtain ⟨hindentation, hname, _, _, _, list, -, -, -, hlist, -⟩ := headingAt?_eq_some_iff.1 hread
  exact ⟨hindentation, hname, hlist.ends⟩

/-- What stands in front of a parameter list is read again. -/
theorem Heading.IsRead.headingAt?_front {h : Heading} (hread : h.IsRead)
    (htail : EndsRun .nameRest tail) :
    headingAt? (h.front ++ tail) =
      (parametersAt? (tail.dropWhile CharSet.inlineBlank.mem)).map fun e =>
        ⟨h.indentation, h.name, e.1, e.2⟩ := by
  have hword : EndsRun .inlineBlank ('R' :: 'u' :: 'l' :: 'e' :: ' ' :: (h.name ++ tail)) :=
    endsRun_cons (by decide) _
  have hfront : h.front ++ tail =
      h.indentation ++ 'R' :: 'u' :: 'l' :: 'e' :: ' ' :: (h.name ++ tail) := by
    simp [Heading.front, TokenKind.canonical]
  have hspace : readBlanks (' ' :: (h.name ++ tail)) = some ([' '], h.name ++ tail) :=
    readRun_self_eq_some_iff.2
      ⟨⟨by simp, List.forall_mem_singleton.2 (by decide)⟩, hread.name.endsRun tail, rfl⟩
  have hnames : readName (h.name ++ tail) = some (h.name, tail) :=
    readName_eq_some_iff.2 ⟨hread.name, htail, rfl⟩
  have hrule : readRuleWord ('R' :: 'u' :: 'l' :: 'e' :: ' ' :: (h.name ++ tail)) =
      some (['R', 'u', 'l', 'e'], ' ' :: (h.name ++ tail)) := rfl
  rw [headingAt?, hfront, readMany_append hread.indentation hword]
  simp only [Option.bind_eq_bind, Option.bind_some, hrule, hspace, hnames, readMany,
    Option.map_eq_bind]
  rfl

/-- No parameter list is read at another character. -/
theorem parametersAt?_cons (hc : listOpening.mem c = false) (t : List Char) :
    parametersAt? (c :: t) = none := by
  have hnone : readOne listOpening (c :: t) = none := readOne_eq_none (by rintro _ ⟨⟩; exact hc)
  simp [parametersAt?, hnone]

/-- What needs no space in front does not go on with a name. -/
theorem nameRest_of_not_needsSeparator (h : needsSeparator rest.head? = false) :
    EndsRun .nameRest rest := by
  intro c hc
  rw [hc, needsSeparator, Bool.not_eq_false'] at h
  have hall : ['\r', '\n', ':', '：', ',', '，', '.', '。', ';', '；'].all
      (!CharSet.nameRest.mem ·) = true := by
    decide +kernel
  rw [← Bool.not_eq_true']
  exact List.all_eq_true.1 hall c (List.contains_iff_mem.1 h)

/-- **What is read where a canonical heading stands.**  If it introduces parameters, nothing is;
otherwise a heading is read if what stood behind the parameter list is another one. -/
theorem headingAt?_opening {h : Heading} (hread : h.IsRead) :
    headingAt? (h.opening ++ h.rest) =
      if trim h.parameters = [] then
        (parametersAt? h.rest).map fun e => ⟨h.indentation, h.name, e.1, e.2⟩
      else none := by
  have hspace (t : List Char) : EndsRun .nameRest (' ' :: t) :=
    endsRun_cons (nameRest_of_inlineBlank _ (by decide)) t
  have hskip (t : List Char) : (' ' :: t).dropWhile CharSet.inlineBlank.mem =
      t.dropWhile CharSet.inlineBlank.mem := List.dropWhile_cons_of_pos (by decide)
  rw [Heading.opening, List.append_assoc, List.append_assoc, Heading.givens]
  split
  · -- the name is followed by what followed the parameter list, up to a space
    rw [List.nil_append, Heading.gap]
    split
    · rw [List.singleton_append, hread.headingAt?_front (hspace h.rest), hskip,
        dropWhile_eq_self hread.rest]
    · next hneeds =>
      rw [List.nil_append, hread.headingAt?_front
        (nameRest_of_not_needsSeparator (by simpa using hneeds)), dropWhile_eq_self hread.rest]
  · -- the name is followed by a keyword
    rw [List.cons_append, List.cons_append, List.append_assoc,
      hread.headingAt?_front (hspace _), hskip]
    have hkeyword (t : List Char) : parametersAt?
        ((TokenKind.given.canonical.toList ++ t).dropWhile CharSet.inlineBlank.mem) = none :=
      parametersAt?_cons (by decide) _
    rw [hkeyword, Option.map_none]

/-! ## A second run -/

/-- If there is a parameter list behind a blank one, then the canonical heading changes. -/
theorem Heading.opening_ne {h : Heading} (hrest : parametersAt? h.rest = some (p, rest))
    (hblank : trim h.parameters = []) :
    (Heading.mk h.indentation h.name p rest).opening ++ rest ≠ h.opening ++ h.rest := by
  obtain ⟨o, c, gap, ho, -, -, hsplit⟩ := (parametersAt?_eq_some_iff.1 hrest).split
  have hseparator : h.gap = [' '] := by
    have hall : ['(', '（'].all (needsSeparator ∘ some) = true := by decide
    have hneeds : needsSeparator (some o) = true :=
      List.all_eq_true.1 hall o (List.contains_iff_mem.1 ho)
    rw [Heading.gap, hsplit, List.head?_cons, hneeds, if_pos rfl]
  have hopening : h.opening ++ h.rest = h.front ++ ' ' :: o :: (p ++ c :: (gap ++ rest)) := by
    rw [Heading.opening, Heading.givens, if_pos hblank, List.append_nil, hseparator, hsplit,
      List.append_assoc, List.singleton_append]
  intro heq
  rw [hopening, Heading.opening, List.append_assoc, List.append_assoc] at heq
  have htail := List.append_cancel_left heq
  rw [Heading.givens] at htail
  split at htail
  · -- the second list is blank as well and has been left out
    have hlength := congrArg List.length htail
    have hgap : (Heading.mk h.indentation h.name p rest).gap.length ≤ 1 := by
      rw [Heading.gap]
      split <;> simp
    simp only [List.nil_append, List.length_append, List.length_cons] at hlength
    omega
  · -- the keyword for parameters stands where a list was opened
    have hkeyword : 'g' = o := (List.cons.inj (List.cons.inj htail).2).1
    rw [← hkeyword] at ho
    contradiction

/-- A second run changes a line again just if there is another parameter list behind a blank
one. -/
theorem openLine_openHeading?_eq_iff (text : List Char) :
    openLine openHeading? (openLine openHeading? text) = openLine openHeading? text ↔
      ∀ h, headingAt? text = some h → trim h.parameters = [] → parametersAt? h.rest = none := by
  cases hread : headingAt? text with
  | none =>
      have hnone : openHeading? text = none := openBy_of_none hread
      simp [openLine_of_none hnone]
  | some h =>
      have hsome : openHeading? text = some (h.opening, h.rest) := openBy_of_some hread
      have hagain := headingAt?_opening (isRead_of_headingAt? hread)
      rw [openLine_of_some hsome]
      constructor
      · rintro hsame h' heq hblank
        obtain rfl := Option.some.inj heq
        rw [if_pos hblank] at hagain
        by_contra hlist
        obtain ⟨⟨p, rest⟩, hlist⟩ := Option.ne_none_iff_exists'.1 hlist
        rw [hlist, Option.map_some] at hagain
        have hchanged : openHeading? (h.opening ++ h.rest) =
            some ((Heading.mk h.indentation h.name p rest).opening, rest) := openBy_of_some hagain
        rw [openLine_of_some hchanged] at hsame
        exact Heading.opening_ne hlist hblank hsame
      · intro hlist
        refine openLine_of_none ?_
        rw [openHeading?, openBy, hagain]
        split
        · next hblank => rw [hlist h rfl hblank, Option.map_none, Option.map_none]
        · rfl

/-! ## The stage -/

open Lexicon Segmenter

/-- Lines with a heading that has another parameter list behind a blank one. -/
def Stretch.ListsTwice (l : Stretch) : Prop :=
  ∃ h, headingAt? l.ahead = some h ∧ trim h.parameters = [] ∧ parametersAt? h.rest ≠ none

/-- **The stage run again.**  A second run changes nothing just if no line that starts outside a
literal has a heading with another parameter list behind a blank one. -/
theorem functionSyntax_twice_eq_iff (text : List Char) :
    let run := Stage.functionSyntax.apply chinese.segmenter
    run (run text) = run text ↔
      ∀ r ∈ chinese.segmenter.stretches text, ∀ l ∈ r.lines, l.before = none →
        ¬ l.ListsTwice := by
  refine (replaceOutside_twice_eq_iff isSingle_chinese isSealed_headingPattern
    isTame_headingReplacement (fun _ _ => by simp [headingReplacement])
    rewritesLines_headingPattern opens_headingPattern newline_not_mem_fences text).trans ?_
  refine forall₂_congr fun r _ => forall₂_congr fun l _ => forall_congr' fun _ => ?_
  rw [openLine_openHeading?_eq_iff, Stretch.ListsTwice]
  simp only [not_exists, not_and, not_not]

/-- The second run takes a list of arguments for the parameters of the rule. -/
theorem functionSyntax_not_idempotent :
    let run := Stage.functionSyntax.apply chinese.segmenter
    run "规则 f()(a)".toList = "Rule f (a)".toList ∧
      run (run "规则 f()(a)".toList) = "Rule f given a".toList := by
  decide +kernel

end RuleCanon
