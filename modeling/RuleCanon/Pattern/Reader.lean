import RuleCanon.Pattern.Expression

/-!
# The written form of patterns

Patterns are written in the common notation for regular expressions: characters, classes in
brackets, escapes, groups, alternatives, repetitions and flags.  Reading is strict: an escape
without meaning, an unmatched bracket or a misplaced repetition makes the whole text invalid.

This is one compiler of patterns, and it reads a part of the notation.  It refuses the following
as if they were malformed, though other compilers accept them:

* properties other than the general categories, white space and the scripts named in
  `Unicode.Property.ofScriptName?`, such as `\p{Alphabetic}`, `\p{Thai}` or `\p{scx=Han}`
* the flag `u` turned off, as in `(?-u)a`

Its bound on the size of a pattern, `Regex.sizeLimit`, counts parts and not the memory that an
automaton would take, and it has no bound on the depth of groups, so other compilers draw the
line elsewhere.  What is to hold for all patterns that users may write is said for every
`PatternCompiler`.

## Main Definitions

* `ReadFlags` — what the flags `i`, `m`, `s`, `x`, `U` and `R` change
* `readEscape`, `readClass` — escapes and classes
* `Regex.read?` — the pattern of a text, or `none` if the text is refused
* `Regex.compiler` — the compiler that reads patterns in this way

## Design Notes

A reader takes the characters that are left and returns what it has read together with the
characters that are then left.  The readers that call themselves take a bound on their calls,
which is computed from the length of the text: each call reads at least one character.
-/

namespace RuleCanon

/-- The state of the flags at a place of a pattern. -/
structure ReadFlags where
  /-- Flag `i`: letters stand for all their case forms. -/
  ignoreCase : Bool := false
  /-- Flag `m`: `^` and `$` stand for the ends of lines. -/
  multiLine : Bool := false
  /-- Flag `s`: a dot stands for line ends as well. -/
  dotAll : Bool := false
  /-- Flag `U`: repetitions are reluctant, and greedy with a question mark. -/
  swapGreed : Bool := false
  /-- Flag `R`: a carriage return and the pair of it and a line feed end a line as well. -/
  anyLineEnd : Bool := false
  /-- Flag `x`: blanks and comments have no meaning. -/
  ignoreBlanks : Bool := false
deriving DecidableEq, Repr

/-! ## Characters and blanks -/

/-- Skips blanks and comments, which reach from a number sign to the end of the line. -/
def skipBlanks (inComment : Bool) : List Char → List Char
  | [] => []
  | c :: rest =>
    if inComment then skipBlanks (c != '\n') rest
    else if Unicode.isWhiteSpace c then skipBlanks false rest
    else if c = '#' then skipBlanks true rest
    else c :: rest

namespace ReadFlags

/-- Skips what has no meaning under the flags. -/
def skip (f : ReadFlags) (text : List Char) : List Char :=
  if f.ignoreBlanks then skipBlanks false text else text

/-- The set with all case forms, if case is ignored. -/
def caseSet (f : ReadFlags) (s : CharSet) : CharSet := if f.ignoreCase then .anyCase s else s

/-- The set that a literal character stands for. -/
def charSet (f : ReadFlags) (c : Char) : CharSet := f.caseSet (.oneOf [c])

/-- The set with all case forms, if case is ignored, and then with all other characters in its
place, if it is negated. -/
def finishSet (f : ReadFlags) (negated : Bool) (s : CharSet) : CharSet :=
  if negated then .compl (f.caseSet s) else f.caseSet s

/-- The set that a dot stands for. -/
def dot (f : ReadFlags) : CharSet :=
  if f.dotAll then .full
  else if f.anyLineEnd then .compl (.oneOf ['\r', '\n'])
  else .compl (.oneOf ['\n'])

/-- The condition that `^` stands for. -/
def startAnchor (f : ReadFlags) : Anchor :=
  if f.multiLine then (if f.anyLineEnd then .anyLineStart else .lineStart) else .textStart

/-- The condition that `$` stands for. -/
def endAnchor (f : ReadFlags) : Anchor :=
  if f.multiLine then (if f.anyLineEnd then .anyLineEnd else .lineEnd) else .textEnd

end ReadFlags

/-! ## Numbers -/

/-- The value of an ASCII character as a hexadecimal digit. -/
def hexDigit? (c : Char) : Option Nat :=
  if c.isDigit then some (c.toNat - '0'.toNat)
  else if 'a' ≤ c ∧ c ≤ 'f' then some (c.toNat - 'a'.toNat + 10)
  else if 'A' ≤ c ∧ c ≤ 'F' then some (c.toNat - 'A'.toNat + 10)
  else none

/-- The character with that code point, if there is one. -/
def scalar? (n : Nat) : Option Char :=
  if h : n.isValidChar then some (Char.ofNatAux n h) else none

/-- Reads a number of hexadecimal digits that start right here, each followed by what has no
meaning. -/
def readHexDigits (f : ReadFlags) (value : Nat) : Nat → List Char → Option (Nat × List Char)
  | 0, text => some (value, text)
  | n + 1, c :: rest => do
    let d ← hexDigit? c
    readHexDigits f (16 * value + d) n (f.skip rest)
  | _ + 1, [] => none

/-- The value of hexadecimal digits, at least one of them. -/
def hexValue? (digits : List Char) : Option Nat :=
  if digits = [] then none
  else digits.foldlM (fun n c => (hexDigit? c).map (16 * n + ·)) 0

/-- Reads up to a closing brace, which is left out, skipping what has no meaning. -/
def readBraced (f : ReadFlags) : Nat → List Char → Option ((List Char) × List Char)
  | 0, _ => none
  | fuel + 1, text =>
    match f.skip text with
    | [] => none
    | '}' :: rest => some ([], rest)
    | c :: rest => (readBraced f fuel rest).map fun (inside, rest) => (c :: inside, rest)

/-- Reads a decimal number, with blanks before and after it. -/
def readDecimal (f : ReadFlags) (text : List Char) : Option (Nat × List Char) :=
  let start := text.dropWhile Unicode.isWhiteSpace
  let (digits, rest) := digitsOf start.length start
  if digits = [] then none
  else
    let value := digits.foldl (fun n c => 10 * n + (c.toNat - '0'.toNat)) 0
    if value < 0x100000000 then some (value, f.skip (rest.dropWhile Unicode.isWhiteSpace)) else none
where
  /-- The digits at the start of the text, and what follows them. -/
  digitsOf : Nat → List Char → List Char × List Char
    | fuel + 1, c :: rest =>
      if c.isDigit then
        let (digits, rest) := digitsOf fuel (f.skip rest)
        (c :: digits, rest)
      else ([], c :: rest)
    | _, text => ([], text)

/-! ## Escapes -/

/-- What an escape or a single character stands for. -/
inductive Atom where
  /-- A character that stands for itself. -/
  | char (c : Char)
  /-- A set of characters. -/
  | set (s : CharSet)
  /-- A condition on the place. -/
  | anchor (a : Anchor)
deriving DecidableEq, Repr

/-- The set of decimal digits. -/
def digitSet : CharSet := .property (.category .nd)

/-- The set of blank characters. -/
def blankSet : CharSet := .property .whiteSpace

/-- The set of word characters. -/
def wordSet : CharSet := .property .word

/-- The set that a property in braces or of one letter stands for.  Before `=`, `:` or `!=`
stands the kind of property, after it the value. -/
def propertySet? (text : List Char) : Option CharSet :=
  match text.span (fun c => c != '=' && c != ':' && c != '!') with
  | (kind, '!' :: '=' :: value) => (valued kind value).map (.compl ·)
  | (kind, '=' :: value) => valued kind value
  | (kind, ':' :: value) => valued kind value
  | _ => (Unicode.Property.ofName? (Unicode.Property.normalizeName text)).map (.property ·)
where
  /-- The set of a kind of property and a value. -/
  valued (kind value : List Char) : Option CharSet :=
    let value := Unicode.Property.normalizeName value
    match Unicode.Property.normalizeName kind with
    | "generalcategory" | "gc" => (Unicode.Property.ofCategoryName? value).map (.property ·)
    | "script" | "sc" => (Unicode.Property.ofScriptName? value).map (.property ·)
    | _ => none

/-- Reads the rest of an escape for a property, after its letter. -/
def readProperty (f : ReadFlags) (negated : Bool) (text : List Char) : Option (CharSet × List Char) :=
  match f.skip text with
  | [] => none
  | '{' :: rest => do
    let (name, rest) ← readBraced f (rest.length + 1) rest
    let s ← propertySet? name
    some (f.finishSet negated s, rest)
  | '\\' :: _ => none
  | c :: rest => do
    let s ← Unicode.Property.ofCategoryName? (Unicode.Property.normalizeName [c])
    some (f.finishSet negated (.property s), f.skip rest)

/-- Reads the rest of an escape for a character by its code point, after its letter. -/
def readCodePoint (f : ReadFlags) (digits : Nat) (text : List Char) : Option (Char × List Char) :=
  match f.skip text with
  | [] => none
  | '{' :: rest => do
    let (inside, rest) ← readBraced f (rest.length + 1) rest
    let c ← (hexValue? inside).bind scalar?
    some (c, f.skip rest)
  | text => do
    let (n, rest) ← readHexDigits f 0 digits text
    let c ← scalar? n
    some (c, rest)

/-- Reads the kind of word border that may stand in braces after `\b`.  The brace may also open
the count of a repetition; there is no kind to read then. -/
def readBorder (f : ReadFlags) (text : List Char) : Option (Anchor × List Char) :=
  match text with
  | '{' :: rest =>
    match f.skip rest with
    | [] => none
    | c :: rest =>
      if isKindChar c then do
        let (kind, rest) ← readBraced f (rest.length + 2) (c :: rest)
        let a ← anchorOf kind
        some (a, rest)
      else some (.wordBorder, text)
  | _ => some (.wordBorder, text)
where
  /-- Characters that the name of a kind is made of. -/
  isKindChar (c : Char) : Bool := c.isAlpha || c == '-'
  /-- The condition that a kind stands for. -/
  anchorOf (kind : List Char) : Option Anchor :=
    match String.ofList kind with
    | "start" => some .wordStart
    | "end" => some .wordEnd
    | "start-half" => some .wordStartHalf
    | "end-half" => some .wordEndHalf
    | _ => none

/-- ASCII characters other than letters, digits and angle brackets stand for themselves after a
backslash. -/
def isEscapable (c : Char) : Bool :=
  c.toNat < 0x80 && !c.isAlphanum && c != '<' && c != '>'

/-- Reads an escape, after its backslash. -/
def readEscape (f : ReadFlags) : List Char → Option (Atom × List Char)
  | [] => none
  | c :: rest =>
    match c with
    | 'x' => (readCodePoint f 2 rest).map fun (c, rest) => (.char c, rest)
    | 'u' => (readCodePoint f 4 rest).map fun (c, rest) => (.char c, rest)
    | 'U' => (readCodePoint f 8 rest).map fun (c, rest) => (.char c, rest)
    | 'p' => (readProperty f false rest).map fun (s, rest) => (.set s, rest)
    | 'P' => (readProperty f true rest).map fun (s, rest) => (.set s, rest)
    | 'd' => some (.set digitSet, rest)
    | 'D' => some (.set (.compl digitSet), rest)
    | 's' => some (.set blankSet, rest)
    | 'S' => some (.set (.compl blankSet), rest)
    | 'w' => some (.set wordSet, rest)
    | 'W' => some (.set (.compl wordSet), rest)
    | 'a' => some (.char '\x07', rest)
    | 'f' => some (.char '\x0C', rest)
    | 't' => some (.char '\t', rest)
    | 'n' => some (.char '\n', rest)
    | 'r' => some (.char '\r', rest)
    | 'v' => some (.char '\x0B', rest)
    | 'A' => some (.anchor .textStart, rest)
    | 'z' => some (.anchor .textEnd, rest)
    | 'b' => (readBorder f rest).map fun (a, rest) => (.anchor a, rest)
    | 'B' => some (.anchor .noWordBorder, rest)
    | '<' => some (.anchor .wordStart, rest)
    | '>' => some (.anchor .wordEnd, rest)
    | c => if isEscapable c then some (.char c, rest) else none

/-! ## Classes -/

/-- The set of ASCII characters with that name. -/
def asciiSet? (name : List Char) : Option CharSet :=
  match String.ofList name with
  | "alnum" => some (.unions [digits, upper, lower])
  | "alpha" => some (.unions [upper, lower])
  | "ascii" => some (.range '\x00' '\x7F')
  | "blank" => some (.oneOf ['\t', ' '])
  | "cntrl" => some (.union (.range '\x00' '\x1F') (.oneOf ['\x7F']))
  | "digit" => some digits
  | "graph" => some (.range '!' '~')
  | "lower" => some lower
  | "print" => some (.range ' ' '~')
  | "punct" => some (.unions [.range '!' '/', .range ':' '@', .range '[' '\x60', .range '\x7B' '~'])
  | "space" => some (.oneOf ['\t', '\n', '\x0B', '\x0C', '\r', ' '])
  | "upper" => some upper
  | "word" => some (.unions [digits, upper, lower, .oneOf ['_']])
  | "xdigit" => some (.unions [digits, .range 'A' 'F', .range 'a' 'f'])
  | _ => none
where
  /-- The ASCII digits. -/
  digits : CharSet := .range '0' '9'
  /-- The ASCII capitals. -/
  upper : CharSet := .range 'A' 'Z'
  /-- The ASCII small letters. -/
  lower : CharSet := .range 'a' 'z'

/-- Reads a named set such as `[:digit:]`, after its opening bracket. -/
def readNamedSet (f : ReadFlags) (text : List Char) : Option (CharSet × List Char) :=
  match text with
  | ':' :: rest =>
    let (negated, rest) := match rest with
      | '^' :: rest => (true, rest)
      | _ => (false, rest)
    match rest.span (· != ':') with
    | (name, ':' :: ']' :: rest) => (asciiSet? name).map fun s => (f.finishSet negated s, rest)
    | _ => none
  | _ => none

/-- How two parts of a class are combined. -/
inductive SetOperation where
  /-- What is in both parts. -/
  | inter
  /-- What is in the first part only. -/
  | diff
  /-- What is in one part only. -/
  | symmDiff
deriving DecidableEq, Repr

/-- The set that an operation makes of two parts. -/
def SetOperation.apply (op : SetOperation) (f : ReadFlags) (a b : CharSet) : CharSet :=
  let a := f.caseSet a
  let b := f.caseSet b
  match op with
  | inter => .inter a b
  | diff => a.diff b
  | symmDiff => a.symmDiff b

/-- The class made of what stands before the last operation, if there is one, and after it. -/
def closeOperation (f : ReadFlags) (before : Option (SetOperation × CharSet)) (after : CharSet) :
    CharSet :=
  match before with
  | some (op, a) => op.apply f a after
  | none => after

/-- Reads one end of a range in a class, or a set. -/
def readClassItem (f : ReadFlags) : List Char → Option (Atom × List Char)
  | [] => none
  | '\\' :: rest => readEscape f rest
  | c :: rest => some (.char c, rest)

/-- Reads a character, a range or a set in a class. -/
def readClassRange (f : ReadFlags) (text : List Char) : Option (CharSet × List Char) := do
  let (first, rest) ← readClassItem f text
  let single : Option (CharSet × List Char) := match first with
    | .char c => some (.oneOf [c], f.skip rest)
    | .set s => some (s, f.skip rest)
    | .anchor _ => none
  match f.skip rest with
  | [] => none
  | '-' :: rest =>
    match f.skip rest with
    | [] => none
    | ']' :: _ | '-' :: _ => single
    | rest => do
      let (last, rest) ← readClassItem f rest
      match first, last with
      | .char a, .char b => if a ≤ b then some (.range a b, rest) else none
      | _, _ => none
  | _ => single

/-- Reads what may stand right after the opening bracket of a class: a negation, and hyphens and
a closing bracket that stand for themselves. -/
def readClassStart (f : ReadFlags) (text : List Char) : Bool × CharSet × List Char :=
  let (negated, text) := match f.skip text with
    | '^' :: rest => (true, f.skip rest)
    | text => (false, text)
  let (found, text) := hyphens text.length text
  if found then (negated, .oneOf ['-'], text)
  else
    match text with
    | ']' :: rest => (negated, .oneOf [']'], f.skip rest)
    | text => (negated, .empty, text)
where
  /-- Skips hyphens and says whether there were any. -/
  hyphens : Nat → List Char → Bool × List Char
    | fuel + 1, '-' :: rest => (true, (hyphens fuel (f.skip rest)).2)
    | _, text => (false, text)

/-- Reads the rest of a class up to its closing bracket: `sofar` has been read since the last
operation, `before` stands before it. -/
def readClassBody (f : ReadFlags) :
    Nat → CharSet → Option (SetOperation × CharSet) → List Char → Option (CharSet × List Char)
  | 0, _, _, _ => none
  | fuel + 1, sofar, before, text =>
    let operation (op : SetOperation) (rest : List Char) : Option (CharSet × List Char) :=
      readClassBody f fuel .empty (some (op, closeOperation f before sofar)) rest
    match f.skip text with
    | [] => none
    | ']' :: rest => some (closeOperation f before sofar, rest)
    | '&' :: '&' :: rest => operation .inter rest
    | '-' :: '-' :: rest => operation .diff rest
    | '~' :: '~' :: rest => operation .symmDiff rest
    | '[' :: rest =>
      match readNamedSet f rest with
      | some (s, rest) => readClassBody f fuel (.union sofar s) before rest
      | none =>
        let (negated, start, rest) := readClassStart f rest
        match readClassBody f fuel start none rest with
        | none => none
        | some (s, rest) =>
          readClassBody f fuel (.union sofar (f.finishSet negated s)) before rest
    | text =>
      match readClassRange f text with
      | none => none
      | some (s, rest) => readClassBody f fuel (.union sofar s) before rest

/-- Reads a class, after its opening bracket. -/
def readClass (f : ReadFlags) (text : List Char) : Option (CharSet × List Char) := do
  let (negated, start, rest) := readClassStart f text
  let (s, rest) ← readClassBody f (rest.length + 1) start none rest
  some (f.finishSet negated s, rest)

/-! ## Flags and group names -/

/-- The flags as the letter changes them. -/
def ReadFlags.set? (f : ReadFlags) (letter : Char) (on : Bool) : Option ReadFlags :=
  match letter with
  | 'i' => some { f with ignoreCase := on }
  | 'm' => some { f with multiLine := on }
  | 's' => some { f with dotAll := on }
  | 'U' => some { f with swapGreed := on }
  | 'R' => some { f with anyLineEnd := on }
  | 'x' => some { f with ignoreBlanks := on }
  | 'u' => if on then some f else none
  | _ => none

/-- Reads flags up to a colon or a closing parenthesis.  `used` are the letters and the hyphen
that have been read. -/
def readFlags (f : ReadFlags) (used : List Char) : List Char → Option (ReadFlags × List Char)
  | [] => none
  | c :: rest =>
    if c = ':' ∨ c = ')' then
      if used.head? = some '-' then none else some (f, c :: rest)
    else if used.contains c then none
    else if c = '-' then readFlags f (c :: used) rest
    else
      match f.set? c (!used.contains '-') with
      | some f => readFlags f (c :: used) rest
      | none => none

/-- Characters that can start the name of a group. -/
def isGroupNameStart (c : Char) : Bool :=
  c == '_' || Unicode.isLetter c || Unicode.Category.nl.mem c || Unicode.isEnclosedLetter c

/-- Characters that can go on with the name of a group. -/
def isGroupNameChar (c : Char) : Bool :=
  isGroupNameStart c || Unicode.isNumber c || Unicode.Category.mc.mem c || c == '.' || c == '[' ||
    c == ']'

/-- Reads the name of a group up to its closing angle bracket. -/
def readGroupName (text : List Char) : Option (String × List Char) :=
  match text.span (· != '>') with
  | (c :: name, '>' :: rest) =>
    if isGroupNameStart c && name.all isGroupNameChar then some (String.ofList (c :: name), rest)
    else none
  | _ => none

/-! ## Expressions -/

/-- What stands between two branches of an expression, the latest part first.  A setting of
flags is a part that stands for nothing, and cannot be repeated. -/
abbrev ReadParts := List (Option Expression)

/-- A group that is open, with all that was read before it at its level. -/
structure OpenGroup where
  /-- The number of the group, if it is recorded. -/
  number : Option Nat
  /-- The parts of the branch in which the group stands. -/
  parts : ReadParts
  /-- The branches before that one, the latest first. -/
  branches : List Expression
  /-- The flags that hold again after the group. -/
  flags : ReadFlags
deriving Repr

/-- How far the reading of a pattern has come. -/
structure ReadState where
  /-- The groups that are open, the innermost first. -/
  groups : List OpenGroup := []
  /-- The parts of the current branch. -/
  parts : ReadParts := []
  /-- The branches before the current one, the latest first. -/
  branches : List Expression := []
  /-- The current flags. -/
  flags : ReadFlags := {}
  /-- The number of groups that have been opened. -/
  groupCount : Nat := 0
  /-- The names of groups. -/
  names : List (String × Nat) := []
deriving Repr

namespace ReadState

/-- The expression of the current branch. -/
def branch (s : ReadState) : Expression := .seqs (s.parts.reverse.filterMap id)

/-- The expression of all branches at the current level. -/
def level (s : ReadState) : Expression := .alts ((s.branch :: s.branches).reverse)

/-- Adds a part to the current branch. -/
def add (s : ReadState) (a : Expression) : ReadState := { s with parts := some a :: s.parts }

/-- Adds an atom to the current branch. -/
def addAtom (s : ReadState) : Atom → ReadState
  | .char c => s.add (.one (s.flags.charSet c))
  | .set set => s.add (.one set)
  | .anchor a => s.add (.anchor a)

/-- Starts a new branch. -/
def startBranch (s : ReadState) : ReadState :=
  { s with branches := s.branch :: s.branches, parts := [] }

/-- Opens a group; `flags` hold inside it. -/
def openGroup (s : ReadState) (number : Option Nat) (flags : ReadFlags) : ReadState :=
  { s with
    groups := ⟨number, s.parts, s.branches, s.flags⟩ :: s.groups
    parts := [], branches := [], flags := flags }

/-- Opens a group that is recorded. -/
def openNumbered (s : ReadState) : ReadState :=
  { s.openGroup (some (s.groupCount + 1)) s.flags with groupCount := s.groupCount + 1 }

/-- Closes the innermost group. -/
def closeGroup? (s : ReadState) : Option ReadState :=
  match s.groups with
  | [] => none
  | g :: groups =>
    let inside := match g.number with
      | some n => .group n s.level
      | none => s.level
    some { s with
      groups := groups, parts := some inside :: g.parts, branches := g.branches,
      flags := g.flags }

/-- Repeats the last part, which must not be a setting of flags. -/
def repeatLast? (s : ReadState) (least : Nat) (most : Option Nat) (reluctant : Bool) :
    Option ReadState :=
  match s.parts with
  | some a :: parts =>
    some { s with parts := some (a.repeated least most (reluctant == s.flags.swapGreed)) :: parts }
  | _ => none

end ReadState

/-- Reads the question mark that makes a repetition reluctant. -/
def readReluctance : List Char → Bool × List Char
  | '?' :: rest => (true, rest)
  | rest => (false, rest)

/-- Reads the count of a repetition, after its opening brace. -/
def readCount (f : ReadFlags) (text : List Char) : Option ((Nat × Option Nat) × List Char) := do
  let (least, rest) ← readDecimal f (f.skip text)
  let (most, rest) ← match rest with
    | ',' :: rest =>
      match f.skip rest with
      | '}' :: rest => some (none, '}' :: rest)
      | rest => (readDecimal f rest).map fun (most, rest) => (some most, rest)
    | rest => some (some least, rest)
  match rest with
  | '}' :: rest => if least ≤ most.getD least then some ((least, most), f.skip rest) else none
  | _ => none

/-- Reads the start of a group, after its opening parenthesis, or a setting of flags. -/
def readGroupStart (s : ReadState) (text : List Char) : Option (ReadState × List Char) :=
  let named (rest : List Char) : Option (ReadState × List Char) := do
    let (name, rest) ← readGroupName rest
    if (s.names.lookup name).isSome then none
    else
      let opened := s.openNumbered
      some ({ opened with names := (name, opened.groupCount) :: opened.names }, rest)
  match s.flags.skip text with
  | '?' :: '=' :: _ | '?' :: '!' :: _ | '?' :: '<' :: '=' :: _ | '?' :: '<' :: '!' :: _ => none
  | '?' :: 'P' :: '<' :: rest => named rest
  | '?' :: '<' :: rest => named rest
  | '?' :: rest => do
    let (flags, after) ← readFlags s.flags [] rest
    match after with
    | ':' :: after => some (s.openGroup none flags, after)
    | ')' :: after =>
      if rest.head? = some ')' then none
      else some ({ s with flags := flags, parts := none :: s.parts }, after)
    | _ => none
  | rest => some (s.openNumbered, rest)

/-- Reads a pattern to its end. -/
def readExpression : Nat → ReadState → List Char → Option ReadState
  | 0, _, _ => none
  | fuel + 1, s, text =>
    let proceed (next : Option (ReadState × List Char)) : Option ReadState :=
      match next with
      | some (s, rest) => readExpression fuel s rest
      | none => none
    let repetition (least : Nat) (most : Option Nat) (rest : List Char) : Option ReadState :=
      let (reluctant, rest) := readReluctance rest
      proceed ((s.repeatLast? least most reluctant).map (·, rest))
    match s.flags.skip text with
    | [] => if s.groups.isEmpty then some s else none
    | '(' :: rest => proceed (readGroupStart s rest)
    | ')' :: rest => proceed (s.closeGroup?.map (·, rest))
    | '|' :: rest => proceed (some (s.startBranch, rest))
    | '[' :: rest => proceed ((readClass s.flags rest).map fun (set, rest) => (s.add (.one set), rest))
    | '?' :: rest => repetition 0 (some 1) rest
    | '*' :: rest => repetition 0 none rest
    | '+' :: rest => repetition 1 none rest
    | '{' :: rest =>
      match readCount s.flags rest with
      | some ((least, most), rest) => repetition least most rest
      | none => none
    | '\\' :: rest => proceed ((readEscape s.flags rest).map fun (a, rest) => (s.addAtom a, rest))
    | '.' :: rest => proceed (some (s.add (.one s.flags.dot), rest))
    | '^' :: rest => proceed (some (s.add (.anchor s.flags.startAnchor), rest))
    | '$' :: rest => proceed (some (s.add (.anchor s.flags.endAnchor), rest))
    | c :: rest => proceed (some (s.addAtom (.char c), rest))

namespace Regex

/-- The largest pattern that is accepted, in parts after counts have been spelled out.  The
number is a choice of this reader. -/
def sizeLimit : Nat := 100000

/-- Reads the written form of a pattern. -/
def read? (text : List Char) : Option Regex := do
  let s ← readExpression (text.length + 1) {} text
  if s.level.unfoldedSize ≤ sizeLimit then
    some ⟨s.level.toPattern, s.level.groupCount, s.names⟩
  else none

/-- The compiler of patterns that reads them with `Regex.read?`. -/
def compiler : PatternCompiler := fun text => (read? text).map compiled

end Regex

end RuleCanon
