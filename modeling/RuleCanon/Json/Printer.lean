import RuleCanon.Json.Basic

/-!
# Printing JSON

Values are printed over several lines: each item and each field on a line of its own, indented
by two blanks for each level.  An array or object without members takes no line of its own.

## Main Definitions

* `Json.quote` — the written form of a string
* `Json.pretty` — the written form of a value
-/

namespace RuleCanon.Json

/-- The hexadecimal digit of a number below sixteen, in small letters. -/
def hexDigit (n : Nat) : Char :=
  if n < 10 then Char.ofNat ('0'.toNat + n) else Char.ofNat ('a'.toNat + n - 10)

/-- How a character is written in a string: quotes, backslashes and control characters are
escaped, the latter by a letter if there is one. -/
def escapeChar (c : Char) : List Char :=
  if c = '"' then ['\\', '"']
  else if c = '\\' then ['\\', '\\']
  else if c = '\x08' then ['\\', 'b']
  else if c = '\x0C' then ['\\', 'f']
  else if c = '\n' then ['\\', 'n']
  else if c = '\r' then ['\\', 'r']
  else if c = '\t' then ['\\', 't']
  else if c.toNat < 0x20 then
    ['\\', 'u', '0', '0', hexDigit (c.toNat / 16), hexDigit (c.toNat % 16)]
  else [c]

/-- The written form of a string. -/
def quote (s : String) : List Char := '"' :: s.toList.flatMap escapeChar ++ ['"']

/-- The blanks at the start of a line of a level. -/
def indentation (level : Nat) : List Char := List.replicate (2 * level) ' '

/-- The written form of a number. -/
def numberText (n : JsonNumber) : List Char :=
  (if n.negative then ['-'] else []) ++ Nat.toDigits 10 n.digits ++
    (if n.exponent = 0 then [] else 'e' :: (toString n.exponent).toList)

/-- Lines between two brackets, which stand on lines of their own; without lines the brackets
touch. -/
def bracketed (opening closing : Char) (level : Nat) : List (List Char) → List Char
  | [] => [opening, closing]
  | lines =>
    opening :: '\n' :: [',', '\n'].intercalate lines ++ '\n' :: indentation level ++ [closing]

mutual

/-- The written form of a value at a level. -/
def prettyAt (level : Nat) : Json → List Char
  | null => "null".toList
  | bool true => "true".toList
  | bool false => "false".toList
  | number n => numberText n
  | string s => quote (s.getD "")
  | array items => bracketed '[' ']' level (itemLines (level + 1) items)
  | object fields => bracketed '{' '\x7D' level (fieldLines (level + 1) fields)

/-- The lines of the items of an array. -/
def itemLines (level : Nat) : List Json → List (List Char)
  | [] => []
  | j :: rest => (indentation level ++ j.prettyAt level) :: itemLines level rest

/-- The lines of the fields of an object. -/
def fieldLines (level : Nat) : List (Option String × Json) → List (List Char)
  | [] => []
  | (name, j) :: rest =>
    (indentation level ++ quote (name.getD "") ++ ':' :: ' ' :: j.prettyAt level) ::
      fieldLines level rest

end

/-- The written form of a value. -/
def pretty (j : Json) : List Char := j.prettyAt 0

end RuleCanon.Json
