import RuleCanon.Text.Width

/-!
# Line breaking

A line may be broken after blanks, around ideographs and after some marks, but not where a mark
would be torn from the word that it belongs to.

## Main Definitions

* `BreakClass` — the roles of characters in line breaking, with `BreakClass.ofChar`
* `mayBreak` — whether a line may be broken between two characters
* `breakUnits` — the pieces of a line between which it may be broken

## Main Statements

* `flatten_breakUnits` — the pieces make up the line
-/

namespace RuleCanon

/-- The role of a character in line breaking. -/
inductive BreakClass where
  /-- Letters and symbols, which make up words. -/
  | word
  /-- Digits. -/
  | digit
  /-- Ideographs and other wide characters, each of which stands alone. -/
  | ideograph
  /-- Opening brackets. -/
  | opening
  /-- Opening brackets of the wide kind. -/
  | wideOpening
  /-- Closing brackets of the wide kind, and closing marks. -/
  | closing
  /-- Closing brackets. -/
  | closingBracket
  /-- Quotes, which belong to what is on either side. -/
  | quote
  /-- Marks that end a sentence. -/
  | exclamation
  /-- Marks that divide a number. -/
  | separator
  /-- The slash. -/
  | slash
  /-- The hyphen. -/
  | hyphen
  /-- Marks after which a line may be broken. -/
  | breakAfter
  /-- Marks that do not start a line. -/
  | nonStarter
  /-- Marks before a number. -/
  | beforeNumber
  /-- Marks after a number. -/
  | afterNumber
  /-- Dots that stick together. -/
  | inseparable
  /-- Characters that tie what is on either side together. -/
  | glue
  /-- Characters that belong to the one before them. -/
  | combining
deriving DecidableEq, Repr

/-- The role of a character. -/
def BreakClass.ofChar (c : Char) : BreakClass :=
  if "([\x7b".toList.contains c then .opening
  else if "（「『【《〈〔［｛".toList.contains c then .wideOpening
  else if ")]".toList.contains c then .closingBracket
  else if "\x7d）」』】》〉〕］｝、。，．".toList.contains c then .closing
  else if "\"'‘’“”«»".toList.contains c then .quote
  else if "!?！？".toList.contains c then .exclamation
  else if ",.:;".toList.contains c then .separator
  else if c == '/' then .slash
  else if c == '-' then .hyphen
  else if "\t|\u2013\u3000".toList.contains c then .breakAfter
  else if "：；・ー々ぁぃぅぇぉっゃゅょァィゥェォッャュョ".toList.contains c then .nonStarter
  else if "$+\\£¥№±".toList.contains c then .beforeNumber
  else if "%¢°‰％".toList.contains c then .afterNumber
  else if "\u2024\u2025\u2026".toList.contains c then .inseparable
  else if "\u00A0\u2007\u202F\u2060\uFEFF".toList.contains c then .glue
  else if charWidth c == 0 then .combining
  else if Unicode.Category.nd.mem c then .digit
  else if isWide c then .ideograph
  else .word

/-- Whether a line may be broken between two characters.  When there are `blanks` between them
the break comes after the blanks. -/
def mayBreak (before : BreakClass) (blanks : Bool) (after : BreakClass) : Bool :=
  match before, after with
  | _, .closing | _, .closingBracket | _, .exclamation | _, .separator | _, .slash => false
  | .opening, _ | .wideOpening, _ => false
  | .quote, .opening | .quote, .wideOpening => false
  | .closing, .nonStarter | .closingBracket, .nonStarter => false
  | before, after =>
    blanks ||
    match before, after with
    | _, .combining | .glue, _ => false
    | before, .glue => before == .breakAfter || before == .hyphen
    | _, .quote | .quote, _ => false
    | _, .breakAfter | _, .hyphen | _, .nonStarter | _, .inseparable => false
    | .word, .word | .word, .digit | .digit, .word | .digit, .digit => false
    | .beforeNumber, .ideograph | .ideograph, .afterNumber => false
    | .beforeNumber, .word | .afterNumber, .word => false
    | .word, .beforeNumber | .word, .afterNumber => false
    | .closing, .beforeNumber | .closing, .afterNumber => false
    | .closingBracket, .beforeNumber | .closingBracket, .afterNumber => false
    | .digit, .beforeNumber | .digit, .afterNumber => false
    | .beforeNumber, .opening | .beforeNumber, .digit => false
    | .beforeNumber, .wideOpening | .afterNumber, .wideOpening => false
    | .afterNumber, .opening | .afterNumber, .digit => false
    | .hyphen, .digit | .separator, .digit | .slash, .digit => false
    | .separator, .word => false
    | .word, .opening | .digit, .opening => false
    | .closingBracket, .word | .closingBracket, .digit => false
    | _, _ => true

/-- Puts a character in front of the first unit. -/
def consUnit (c : Char) : List (List Char) → List (List Char)
  | [] => [[c]]
  | unit :: rest => (c :: unit) :: rest

@[simp]
theorem flatten_consUnit (c : Char) (units : List (List Char)) :
    (consUnit c units).flatten = c :: units.flatten := by
  cases units <;> rfl

/-- The pieces of a line that goes on after a character of the given class and, perhaps, blanks.
A line is not broken after a hyphen here, as a hyphen may also start a word. -/
def breakUnitsAfter (before : BreakClass) (blanks : Bool) : List Char → List (List Char)
  | [] => []
  | c :: rest =>
    if c = ' ' then consUnit c (breakUnitsAfter before true rest)
    else
      let after := BreakClass.ofChar c
      let here := if after = .combining then (if blanks then .word else before) else after
      let units := consUnit c (breakUnitsAfter here false rest)
      if mayBreak before blanks after && !(before == .hyphen && !blanks) then [] :: units
      else units

theorem flatten_breakUnitsAfter (before : BreakClass) (blanks : Bool) (line : List Char) :
    (breakUnitsAfter before blanks line).flatten = line := by
  induction line generalizing before blanks with
  | nil => rfl
  | cons c rest ih =>
    simp only [breakUnitsAfter]
    split
    · rw [flatten_consUnit, ih]
    · split <;> simp only [List.flatten_cons, List.nil_append, flatten_consUnit, ih]

/-- Whether a character may stand beside a hyphen that ends a piece. -/
def isWordChar (c : Char) : Bool := Unicode.isLetter c || Unicode.isNumber c

/-- Cuts a piece after the hyphens inside of words. -/
def cutAtHyphens : List Char → List (List Char)
  | a :: '-' :: b :: rest =>
    if isWordChar a && isWordChar b then [a, '-'] :: cutAtHyphens (b :: rest)
    else consUnit a (cutAtHyphens ('-' :: b :: rest))
  | c :: rest => consUnit c (cutAtHyphens rest)
  | [] => []

theorem flatten_cutAtHyphens (unit : List Char) : (cutAtHyphens unit).flatten = unit := by
  fun_induction cutAtHyphens unit with
  | case1 a b rest hword ih => simp [ih]
  | case2 a b rest hword ih => rw [flatten_consUnit, ih]
  | case3 c rest hrest ih => rw [flatten_consUnit, ih]
  | case4 => rfl

/-- The pieces of a line between which it may be broken. -/
def breakUnits (line : List Char) : List (List Char) :=
  (breakUnitsAfter .glue false line).flatMap cutAtHyphens

/-- Cutting pieces further loses nothing if no single piece loses anything. -/
theorem flatten_flatMap_of_flatten {cut : List Char → List (List Char)}
    (hcut : ∀ unit, (cut unit).flatten = unit) (units : List (List Char)) :
    (units.flatMap cut).flatten = units.flatten := by
  induction units with
  | nil => rfl
  | cons unit units ih =>
    rw [List.flatMap_cons, List.flatten_append, hcut, ih, List.flatten_cons]

/-- Breaking a line loses nothing. -/
theorem flatten_breakUnits (line : List Char) : (breakUnits line).flatten = line := by
  rw [breakUnits, flatten_flatMap_of_flatten flatten_cutAtHyphens, flatten_breakUnitsAfter]

end RuleCanon
