import RuleCanon.Unicode.Letter
import RuleCanon.Unicode.Mark
import RuleCanon.Unicode.Number
import RuleCanon.Unicode.Punctuation
import RuleCanon.Unicode.Symbol
import RuleCanon.Unicode.Separator

/-!
# General categories

Every character has one general category.  The tables list the members of each category but
two: a character in none of them is unassigned, and no character is a surrogate.

## Main Definitions

* `Category` — the general categories, with `Category.mem` as the membership test
* `Category.ofName?` — the short names `Lu`, `Nd`, … and the long names
* `majorClass?` — the categories that a one-letter name such as `L` or `N` gathers
-/

namespace RuleCanon.Unicode

/-- The general category of a character. -/
inductive Category where
  /-- Uppercase letter. -/
  | lu
  /-- Lowercase letter. -/
  | ll
  /-- Titlecase letter. -/
  | lt
  /-- Modifier letter. -/
  | lm
  /-- Other letter. -/
  | lo
  /-- Nonspacing mark. -/
  | mn
  /-- Spacing mark. -/
  | mc
  /-- Enclosing mark. -/
  | me
  /-- Decimal number. -/
  | nd
  /-- Letter number. -/
  | nl
  /-- Other number. -/
  | no
  /-- Connector punctuation. -/
  | pc
  /-- Dash punctuation. -/
  | pd
  /-- Open punctuation. -/
  | ps
  /-- Close punctuation. -/
  | pe
  /-- Initial punctuation. -/
  | pi
  /-- Final punctuation. -/
  | pf
  /-- Other punctuation. -/
  | po
  /-- Math symbol. -/
  | sm
  /-- Currency symbol. -/
  | sc
  /-- Modifier symbol. -/
  | sk
  /-- Other symbol. -/
  | so
  /-- Space separator. -/
  | zs
  /-- Line separator. -/
  | zl
  /-- Paragraph separator. -/
  | zp
  /-- Control. -/
  | cc
  /-- Format. -/
  | cf
  /-- Surrogate, a category without characters. -/
  | cs
  /-- Private use. -/
  | co
  /-- Unassigned. -/
  | cn
deriving DecidableEq, Repr

namespace Category

/-- The table of a category, for those that are given by one. -/
def table? : Category → Option CodeRanges
  | lu => some uppercaseLetter
  | ll => some lowercaseLetter
  | lt => some titlecaseLetter
  | lm => some modifierLetter
  | lo => some otherLetter
  | mn => some nonspacingMark
  | mc => some spacingMark
  | me => some enclosingMark
  | nd => some decimalNumber
  | nl => some letterNumber
  | no => some otherNumber
  | pc => some connectorPunctuation
  | pd => some dashPunctuation
  | ps => some openPunctuation
  | pe => some closePunctuation
  | pi => some initialPunctuation
  | pf => some finalPunctuation
  | po => some otherPunctuation
  | sm => some mathSymbol
  | sc => some currencySymbol
  | sk => some modifierSymbol
  | so => some otherSymbol
  | zs => some spaceSeparator
  | zl => some lineSeparator
  | zp => some paragraphSeparator
  | cc => some control
  | cf => some format
  | co => some privateUse
  | cs | cn => none

/-- The categories that a table gives. -/
def tabulated : List Category :=
  [lu, ll, lt, lm, lo, mn, mc, me, nd, nl, no, pc, pd, ps, pe, pi, pf, po, sm, sc, sk, so,
    zs, zl, zp, cc, cf, co]

/-- Whether a character belongs to a category that a table gives. -/
def inTable (k : Category) (c : Char) : Bool :=
  match k.table? with
  | some t => t.mem c.toNat
  | none => false

/-- Whether the character belongs to the category. -/
def mem (k : Category) (c : Char) : Bool :=
  match k with
  | cn => !tabulated.any (·.inTable c)
  | k => k.inTable c

/-- The names of the categories: the abbreviation, then the long names, all without case,
spaces, hyphens and low lines. -/
def names : List (Category × List String) :=
  [(lu, ["lu", "uppercaseletter"]), (ll, ["ll", "lowercaseletter"]),
    (lt, ["lt", "titlecaseletter"]), (lm, ["lm", "modifierletter"]), (lo, ["lo", "otherletter"]),
    (mn, ["mn", "nonspacingmark"]), (mc, ["mc", "spacingmark"]), (me, ["me", "enclosingmark"]),
    (nd, ["nd", "decimalnumber", "digit"]), (nl, ["nl", "letternumber"]),
    (no, ["no", "othernumber"]), (pc, ["pc", "connectorpunctuation"]),
    (pd, ["pd", "dashpunctuation"]), (ps, ["ps", "openpunctuation"]),
    (pe, ["pe", "closepunctuation"]), (pi, ["pi", "initialpunctuation"]),
    (pf, ["pf", "finalpunctuation"]), (po, ["po", "otherpunctuation"]),
    (sm, ["sm", "mathsymbol"]), (sc, ["sc", "currencysymbol"]), (sk, ["sk", "modifiersymbol"]),
    (so, ["so", "othersymbol"]), (zs, ["zs", "spaceseparator"]), (zl, ["zl", "lineseparator"]),
    (zp, ["zp", "paragraphseparator"]), (cc, ["cc", "control", "cntrl"]), (cf, ["cf", "format"]),
    (cs, ["cs", "surrogate"]), (co, ["co", "privateuse"]), (cn, ["cn", "unassigned"])]

/-- The category of that name, which has no capitals, spaces, hyphens or low lines. -/
def ofName? (name : String) : Option Category :=
  (names.find? (·.2.contains name)).map (·.1)

end Category

/-- The categories that a name for several of them gathers. -/
def majorClass? (name : String) : Option (List Category) :=
  (table.find? (·.1.contains name)).map (·.2)
where
  /-- Each group of categories under its names. -/
  table : List (List String × List Category) :=
    [(["l", "letter"], [.lu, .ll, .lt, .lm, .lo]),
      (["lc", "casedletter"], [.lu, .ll, .lt]),
      (["m", "mark", "combiningmark"], [.mn, .mc, .me]),
      (["n", "number"], [.nd, .nl, .no]),
      (["p", "punctuation", "punct"], [.pc, .pd, .ps, .pe, .pi, .pf, .po]),
      (["s", "symbol"], [.sm, .sc, .sk, .so]),
      (["z", "separator"], [.zs, .zl, .zp]),
      (["c", "other"], [.cc, .cf, .cs, .co, .cn])]

end RuleCanon.Unicode
