import RuleCanon.Unicode.Property

/-!
# Quoted text

Text that is shown to people stands in double quotes, on one line, with everything visible:
what is not printable or would join the character before it is shown by its code point.

## Main Definitions

* `quoteChar` — how a character is shown
* `quoteText` — how a text is shown
-/

namespace RuleCanon

/-- How a character is shown in quotes. -/
def quoteChar (c : Char) : List Char :=
  if c = '\x00' then ['\\', '0']
  else if c = '\t' then ['\\', 't']
  else if c = '\r' then ['\\', 'r']
  else if c = '\n' then ['\\', 'n']
  else if c = '\\' then ['\\', '\\']
  else if c = '"' then ['\\', '"']
  else if Unicode.isPrintable c && !Unicode.isGraphemeExtend c then [c]
  else ['\\', 'u', '{'] ++ Nat.toDigits 16 c.toNat ++ ['\x7D']

/-- A text in quotes. -/
def quoteText (text : List Char) : List Char := '"' :: text.flatMap quoteChar ++ ['"']

end RuleCanon
