import RuleCanon.Json.Basic

/-!
# Reading JSON

The strict grammar of JSON: no comments, no trailing commas, no raw control characters in
strings, nothing but blanks after the value.

## Main Definitions

* `Json.readString` — strings, by way of the code units that they spell
* `Json.readValue` — values
* `Json.read?` — a text that is one value

## Design Notes

Each reader takes the characters that are left and returns what it has read together with the
characters that are then left.  The bound on the number of calls is computed from the length of
the text: every call reads at least one character.
-/

namespace RuleCanon.Json

/-- Skips the blanks that may stand between the parts of a value. -/
def skipBlanks : List Char → List Char
  | [] => []
  | c :: rest => if c = ' ' ∨ c = '\t' ∨ c = '\n' ∨ c = '\r' then skipBlanks rest else c :: rest

/-! ## Strings -/

/-- The value of a hexadecimal digit. -/
def hexValue? (c : Char) : Option Nat :=
  if '0' ≤ c ∧ c ≤ '9' then some (c.toNat - '0'.toNat)
  else if 'a' ≤ c ∧ c ≤ 'f' then some (c.toNat - 'a'.toNat + 10)
  else if 'A' ≤ c ∧ c ≤ 'F' then some (c.toNat - 'A'.toNat + 10)
  else none

/-- The number that four hexadecimal digits spell. -/
def unit? (a b c d : Char) : Option Nat := do
  let a ← hexValue? a
  let b ← hexValue? b
  let c ← hexValue? c
  let d ← hexValue? d
  some (((16 * a + b) * 16 + c) * 16 + d)

/-- The character that a one-letter escape stands for. -/
def escaped? : Char → Option Char
  | '"' => some '"'
  | '\\' => some '\\'
  | '/' => some '/'
  | 'b' => some '\x08'
  | 'f' => some '\x0C'
  | 'n' => some '\n'
  | 'r' => some '\r'
  | 't' => some '\t'
  | _ => none

/-- Reads a string up to its closing quote, as code points and code units: a character gives its
code point, an escape by number gives that number. -/
def readUnits : List Char → Option (List Nat × List Char)
  | [] => none
  | '"' :: rest => some ([], rest)
  | '\\' :: 'u' :: a :: b :: c :: d :: rest =>
    match unit? a b c d, readUnits rest with
    | some n, some (units, after) => some (n :: units, after)
    | _, _ => none
  | '\\' :: c :: rest =>
    match escaped? c, readUnits rest with
    | some e, some (units, after) => some (e.toNat :: units, after)
    | _, _ => none
  | c :: rest =>
    if c.toNat < 0x20 ∨ c = '\\' then none
    else
      match readUnits rest with
      | some (units, after) => some (c.toNat :: units, after)
      | none => none

/-- Whether a number is the first half of a surrogate pair. -/
def isHighSurrogate (n : Nat) : Bool := 0xD800 ≤ n && n < 0xDC00

/-- Whether a number is the second half of a surrogate pair. -/
def isLowSurrogate (n : Nat) : Bool := 0xDC00 ≤ n && n < 0xE000

/-- The characters that code points and code units spell, unless half a surrogate pair is among
them. -/
def joinUnits : List Nat → Option (List Char)
  | [] => some []
  | n :: rest =>
    if isHighSurrogate n then
      match rest with
      | [] => none
      | m :: rest =>
        if isLowSurrogate m then
          (joinUnits rest).map
            (Char.ofNat (0x10000 + (n - 0xD800) * 0x400 + (m - 0xDC00)) :: ·)
        else none
    else if isLowSurrogate n then none
    else (joinUnits rest).map (Char.ofNat n :: ·)

/-- Reads a string, after its opening quote. -/
def readString (text : List Char) : Option (Option String × List Char) :=
  (readUnits text).map fun (units, rest) => ((joinUnits units).map String.ofList, rest)

/-! ## Numbers -/

/-- Splits off the digits at the start of a text. -/
def splitDigits (text : List Char) : List Char × List Char := text.span Char.isDigit

/-- The number that decimal digits spell. -/
def digitsValue (digits : List Char) : Nat :=
  digits.foldl (fun n c => 10 * n + (c.toNat - '0'.toNat)) 0

/-- Reads the exponent of a number, if it has one. -/
def readExponent (text : List Char) : Option (Int × List Char) :=
  match text with
  | c :: rest =>
    if c = 'e' ∨ c = 'E' then
      let (negative, rest) := match rest with
        | '-' :: rest => (true, rest)
        | '+' :: rest => (false, rest)
        | rest => (false, rest)
      match splitDigits rest with
      | ([], _) => none
      | (digits, rest) =>
        let value : Int := digitsValue digits
        some (if negative then -value else value, rest)
    else some (0, text)
  | [] => some (0, [])

/-- Reads a number: a zero or digits that do not start with one, then a fraction and an exponent
if there are any. -/
def readNumber (text : List Char) : Option (JsonNumber × List Char) := do
  let (negative, rest) := match text with
    | '-' :: rest => (true, rest)
    | rest => (false, rest)
  let (whole, rest) := splitDigits rest
  if whole = [] ∨ (whole.head? = some '0' ∧ whole.length ≠ 1) then none
  else
    let (fraction, rest) ← match rest with
      | '.' :: rest =>
        match splitDigits rest with
        | ([], _) => none
        | (fraction, rest) => some (fraction, rest)
      | rest => some ([], rest)
    let (exponent, rest) ← readExponent rest
    some (⟨negative, digitsValue (whole ++ fraction), exponent - fraction.length⟩, rest)

/-! ## Values -/

mutual

/-- Reads a value that starts right here. -/
def readValue : Nat → List Char → Option (Json × List Char)
  | 0, _ => none
  | fuel + 1, text =>
    match text with
    | '{' :: rest =>
      match skipBlanks rest with
      | '}' :: rest => some (object [], rest)
      | rest => (readFields fuel rest).map fun (fields, rest) => (object fields, rest)
    | '[' :: rest =>
      match skipBlanks rest with
      | ']' :: rest => some (array [], rest)
      | rest => (readItems fuel rest).map fun (items, rest) => (array items, rest)
    | '"' :: rest => (readString rest).map fun (s, rest) => (string s, rest)
    | 't' :: 'r' :: 'u' :: 'e' :: rest => some (bool true, rest)
    | 'f' :: 'a' :: 'l' :: 's' :: 'e' :: rest => some (bool false, rest)
    | 'n' :: 'u' :: 'l' :: 'l' :: rest => some (null, rest)
    | text => (readNumber text).map fun (n, rest) => (number n, rest)

/-- Reads the items of an array, at least one, and the closing bracket. -/
def readItems : Nat → List Char → Option (List Json × List Char)
  | 0, _ => none
  | fuel + 1, text =>
    match readValue fuel text with
    | none => none
    | some (item, rest) =>
      match skipBlanks rest with
      | ']' :: rest => some ([item], rest)
      | ',' :: rest =>
        (readItems fuel (skipBlanks rest)).map fun (items, rest) => (item :: items, rest)
      | _ => none

/-- Reads the fields of an object, at least one, and the closing brace. -/
def readFields : Nat → List Char → Option (List (Option String × Json) × List Char)
  | 0, _ => none
  | fuel + 1, text =>
    match text with
    | '"' :: rest =>
      match readString rest with
      | none => none
      | some (name, rest) =>
        match skipBlanks rest with
        | ':' :: rest =>
          match readValue fuel (skipBlanks rest) with
          | none => none
          | some (value, rest) =>
            match skipBlanks rest with
            | '}' :: rest => some ([(name, value)], rest)
            | ',' :: rest =>
              (readFields fuel (skipBlanks rest)).map fun (fields, rest) =>
                ((name, value) :: fields, rest)
            | _ => none
        | _ => none
    | _ => none

end

/-- Reads a text that is one value with blanks around it. -/
def read? (text : List Char) : Option Json :=
  match readValue (2 * text.length + 1) (skipBlanks text) with
  | some (j, rest) => if skipBlanks rest = [] then some j else none
  | none => none

end RuleCanon.Json
