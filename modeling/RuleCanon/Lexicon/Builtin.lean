import RuleCanon.Lexicon.Basic

/-!
# Built-in lexicons

## Main Definitions

* `Lexicon.chinese` — simplified Chinese
* `Lexicon.english` — English, which canonical text is spelled in
-/

namespace RuleCanon

/-- The name of the stage for punctuation marks. -/
def StageName.punctuation : String := "chinese-punctuation"

/-- The name of the stage for member access. -/
def StageName.possessive : String := "chinese-possessive"

/-- The name of the stage for comparisons, branches and bindings. -/
def StageName.operator : String := "chinese-operator"

/-- The name of the stage for rule headings. -/
def StageName.functionSyntax : String := "chinese-function-syntax"

/-- The name of the stage for assignments. -/
def StageName.setTo : String := "chinese-set-to"

/-- The name of the stage for results. -/
def StageName.resultIs : String := "chinese-result-is"

/-- The name of the stage that replaces keywords. -/
def StageName.keywords : String := "keywords"

namespace Lexicon

/-- The Chinese spellings of keywords. -/
def chineseKeyword : TokenKind → Spellings
  | .moduleDecl => ⟨"模块", []⟩
  | .importDecl => ⟨"引用", ["导入"]⟩
  | .asName => ⟨"作为", []⟩
  | .ruleDef => ⟨"规则", []⟩
  | .given => ⟨"给定", []⟩
  | .produce => ⟨"产出", []⟩
  | .typeDef => ⟨"定义", []⟩
  | .withFields => ⟨"包含", []⟩
  | .ifBranch => ⟨"如果", ["若"]⟩
  | .otherwise => ⟨"否则", []⟩
  | .matchCases => ⟨"匹配", []⟩
  | .whenCase => ⟨"当", []⟩
  | .returnValue => ⟨"返回", []⟩
  | .letName => ⟨"令", []⟩
  | .beValue => ⟨"为", []⟩
  | .forEach => ⟨"对每个", []⟩
  | .inList => ⟨"在", []⟩
  | .trueValue => ⟨"真", []⟩
  | .falseValue => ⟨"假", []⟩
  | .nullValue => ⟨"空", []⟩
  | .andOp => ⟨"且", ["并且"]⟩
  | .orOp => ⟨"或", ["或者"]⟩
  | .notOp => ⟨"非", []⟩
  | .start => ⟨"启动", []⟩
  | .waitFor => ⟨"等待", []⟩

/-- Simplified Chinese. -/
def chinese : Lexicon where
  id := "zh-CN"
  name := "简体中文"
  direction := .leftToRight
  keyword := chineseKeyword
  punctuation := ⟨"。", "，", "：", "「", "」"⟩
  stages := [StageName.punctuation, StageName.possessive, StageName.operator,
    StageName.functionSyntax, StageName.setTo, StageName.resultIs, StageName.keywords]

/-- English, which spells everything in the canonical way. -/
def english : Lexicon where
  id := "en-US"
  name := "English (canonical)"
  direction := .leftToRight
  keyword k := ⟨k.canonical, []⟩
  punctuation := .canonical
  stages := [StageName.keywords]

/-- All built-in lexicons. -/
def builtin : List Lexicon := [chinese, english]

end Lexicon

end RuleCanon
