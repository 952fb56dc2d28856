import RuleCanon.Unicode.Category
import RuleCanon.Unicode.Script

/-!
# Derived character properties

The properties that the text rules and the patterns ask for.  Each is put together from the
general categories and a few single ranges.  They are a selection: of the scripts there are the
seven of the texts at hand, and of the binary properties only white space; names of others are
not known here.

## Main Definitions

* `isWhiteSpace`, `isLetter`, `isNumber`, `isWord`
* `isGraphemeExtend`, `isPrintable` — what decides how a character is shown in quoted text
* `Property` — the properties that a pattern can ask for by name here
-/

namespace RuleCanon.Unicode

/-- Blank characters: the property `White_Space`. -/
def isWhiteSpace (c : Char) : Bool :=
  memIntervals c.toNat
    [(0x9, 0xD), (0x20, 0x20), (0x85, 0x85), (0xA0, 0xA0), (0x1680, 0x1680), (0x2000, 0x200A),
      (0x2028, 0x2029), (0x202F, 0x202F), (0x205F, 0x205F), (0x3000, 0x3000)]

/-- Letters of any kind: the general categories that start with `L`. -/
def isLetter (c : Char) : Bool :=
  Category.lu.mem c || Category.ll.mem c || Category.lo.mem c || Category.lm.mem c ||
    Category.lt.mem c

/-- Numbers of any kind: the general categories that start with `N`. -/
def isNumber (c : Char) : Bool :=
  Category.nd.mem c || Category.nl.mem c || Category.no.mem c

/-- Letters in circles and squares, which are alphabetic symbols. -/
def isEnclosedLetter (c : Char) : Bool :=
  memIntervals c.toNat
    [(0x24B6, 0x24E9), (0x1F130, 0x1F149), (0x1F150, 0x1F169), (0x1F170, 0x1F189)]

/-- Characters that may stand in a word: letters, marks, decimal digits, letter numbers,
connectors, enclosed letters and the two joiners. -/
def isWord (c : Char) : Bool :=
  isLetter c || Category.nd.mem c || Category.mn.mem c || Category.mc.mem c ||
    Category.me.mem c || Category.nl.mem c || Category.pc.mem c || isEnclosedLetter c ||
    c.toNat == 0x200C || c.toNat == 0x200D

/-- Characters that extend the one before them. -/
def isGraphemeExtend (c : Char) : Bool :=
  Category.mn.mem c || Category.me.mem c || otherGraphemeExtend.mem c.toNat

/-- Characters that are shown as they are: all but controls, format characters, separators
other than the space, private use and unassigned code points. -/
def isPrintable (c : Char) : Bool :=
  c == ' ' ||
    [Category.lu, .ll, .lt, .lm, .lo, .mn, .mc, .me, .nd, .nl, .no, .pc, .pd, .ps, .pe, .pi,
      .pf, .po, .sm, .sc, .sk, .so].any (·.mem c)

/-- A property that a pattern can ask for by name.  There is no case for other scripts, for
script extensions and for other binary properties. -/
inductive Property where
  /-- One general category. -/
  | category (k : Category)
  /-- Several general categories. -/
  | anyOf (ks : List Category)
  /-- Letters of any kind. -/
  | letter
  /-- Numbers of any kind. -/
  | number
  /-- Characters that may stand in a word. -/
  | word
  /-- Blank characters. -/
  | whiteSpace
  /-- Chinese characters. -/
  | han
  /-- Hiragana. -/
  | hiragana
  /-- Katakana. -/
  | katakana
  /-- Hangul. -/
  | hangul
  /-- The Latin script. -/
  | latin
  /-- The Greek script. -/
  | greek
  /-- The Cyrillic script. -/
  | cyrillic
  /-- The first 128 code points. -/
  | ascii
  /-- Every character. -/
  | any
  /-- Every character that is assigned. -/
  | assigned
deriving DecidableEq, Repr

namespace Property

/-- Whether a character has the property. -/
def mem (p : Property) (c : Char) : Bool :=
  match p with
  | category k => k.mem c
  | anyOf ks => ks.any (·.mem c)
  | letter => isLetter c
  | number => isNumber c
  | word => isWord c
  | whiteSpace => isWhiteSpace c
  | han => scriptHan.mem c.toNat
  | hiragana => scriptHiragana.mem c.toNat
  | katakana => scriptKatakana.mem c.toNat
  | hangul => scriptHangul.mem c.toNat
  | latin => scriptLatin.mem c.toNat
  | greek => scriptGreek.mem c.toNat
  | cyrillic => scriptCyrillic.mem c.toNat
  | ascii => c.toNat < 0x80
  | any => true
  | assigned => !Category.cn.mem c

/-- The general category or group of categories of that name. -/
def ofCategoryName? (name : String) : Option Property :=
  match name with
  | "any" => some any
  | "assigned" => some assigned
  | "ascii" => some ascii
  | "l" | "letter" => some letter
  | "n" | "number" => some number
  | name => ((majorClass? name).map anyOf).or ((Category.ofName? name).map category)

/-- The script of that name, if it is one of the seven above. -/
def ofScriptName? (name : String) : Option Property :=
  match name with
  | "han" | "hani" => some han
  | "hiragana" | "hira" => some hiragana
  | "katakana" | "kana" => some katakana
  | "hangul" | "hang" => some hangul
  | "latin" | "latn" => some latin
  | "greek" | "grek" => some greek
  | "cyrillic" | "cyrl" => some cyrillic
  | _ => none

/-- The property of that name: white space, a category or one of the scripts. -/
def ofName? (name : String) : Option Property :=
  match name with
  | "whitespace" | "wspace" | "space" => some whiteSpace
  | name => (ofCategoryName? name).or (ofScriptName? name)

/-- The form in which names are compared: without a leading `is`, without spaces, low lines and
hyphens, without capitals and without what is not ASCII. -/
def normalizeName (name : List Char) : String :=
  let stem :=
    match name with
    | i :: s :: rest => if i.toLower = 'i' ∧ s.toLower = 's' then rest else name
    | _ => name
  String.ofList
    ((stem.filter fun c => c.toNat < 0x80 && c != ' ' && c != '_' && c != '-').map Char.toLower)

end Property

end RuleCanon.Unicode
