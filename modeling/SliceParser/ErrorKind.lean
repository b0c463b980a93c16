/-
ERROR KINDS: what a failed parser reports, in one table of names, codes and descriptions.

Codes are stable and never 0. `ErrorKind.ofCode?` undoes `ErrorKind.code` (`ofCode?_code`) and `ErrorKind.ofName?`
undoes `ErrorKind.name` (`ofName?_name`).
-/

namespace SliceParser

inductive ErrorKind where
  | tag | mapRes | mapOpt | alt | isNot | isA | separatedList | separatedNonEmptyList | many1 | count
  | takeUntilAndConsume | takeUntil | takeUntilEitherAndConsume | takeUntilEither | lengthValue | tagClosure
  | alpha | digit | alphaNumeric | space | multiSpace | lengthValueFn | eof | exprOpt | exprRes | condReduce
  | switch | tagBits | oneOf | noneOf | char | crLf | regexpMatch | regexpMatches | regexpFind | regexpCapture
  | regexpCaptures | takeWhile1 | complete | fix | escaped | escapedTransform | nonEmpty | manyMN | hexDigit
  | octDigit | many0 | not | permutation | manyTill | verify | takeTill1 | takeUntilAndConsume1 | takeWhileMN
  | parseTo | tooLarge | many0Count | many1Count
  deriving DecidableEq

namespace ErrorKind

structure Entry where
  name : String
  code : Nat
  description : String

def entry : ErrorKind → Entry
  | .tag => ⟨"Tag", 1, "Tag"⟩
  | .mapRes => ⟨"MapRes", 2, "Map on Result"⟩
  | .mapOpt => ⟨"MapOpt", 3, "Map on Option"⟩
  | .alt => ⟨"Alt", 4, "Alternative"⟩
  | .isNot => ⟨"IsNot", 5, "IsNot"⟩
  | .isA => ⟨"IsA", 6, "IsA"⟩
  | .separatedList => ⟨"SeparatedList", 7, "Separated list"⟩
  | .separatedNonEmptyList => ⟨"SeparatedNonEmptyList", 8, "Separated non empty list"⟩
  | .many1 => ⟨"Many1", 9, "Many1"⟩
  | .count => ⟨"Count", 10, "Count"⟩
  | .takeUntilAndConsume => ⟨"TakeUntilAndConsume", 11, "Take until and consume"⟩
  | .takeUntil => ⟨"TakeUntil", 12, "Take until"⟩
  | .takeUntilEitherAndConsume => ⟨"TakeUntilEitherAndConsume", 13, "Take until either and consume"⟩
  | .takeUntilEither => ⟨"TakeUntilEither", 14, "Take until either"⟩
  | .lengthValue => ⟨"LengthValue", 15, "Length followed by value"⟩
  | .tagClosure => ⟨"TagClosure", 16, "Tag closure"⟩
  | .alpha => ⟨"Alpha", 17, "Alphabetic"⟩
  | .digit => ⟨"Digit", 18, "Digit"⟩
  | .alphaNumeric => ⟨"AlphaNumeric", 19, "AlphaNumeric"⟩
  | .space => ⟨"Space", 20, "Space"⟩
  | .multiSpace => ⟨"MultiSpace", 21, "Multiple spaces"⟩
  | .lengthValueFn => ⟨"LengthValueFn", 22, "LengthValueFn"⟩
  | .eof => ⟨"Eof", 23, "End of file"⟩
  | .exprOpt => ⟨"ExprOpt", 24, "Evaluate Option"⟩
  | .exprRes => ⟨"ExprRes", 25, "Evaluate Result"⟩
  | .condReduce => ⟨"CondReduce", 26, "Condition reduce"⟩
  | .switch => ⟨"Switch", 27, "Switch"⟩
  | .tagBits => ⟨"TagBits", 28, "Tag on bitstream"⟩
  | .oneOf => ⟨"OneOf", 29, "OneOf"⟩
  | .noneOf => ⟨"NoneOf", 30, "NoneOf"⟩
  | .char => ⟨"Char", 40, "Char"⟩
  | .crLf => ⟨"CrLf", 41, "CrLf"⟩
  | .regexpMatch => ⟨"RegexpMatch", 42, "RegexpMatch"⟩
  | .regexpMatches => ⟨"RegexpMatches", 43, "RegexpMatches"⟩
  | .regexpFind => ⟨"RegexpFind", 44, "RegexpFind"⟩
  | .regexpCapture => ⟨"RegexpCapture", 45, "RegexpCapture"⟩
  | .regexpCaptures => ⟨"RegexpCaptures", 46, "RegexpCaptures"⟩
  | .takeWhile1 => ⟨"TakeWhile1", 47, "TakeWhile1"⟩
  | .complete => ⟨"Complete", 48, "Complete"⟩
  | .fix => ⟨"Fix", 49, "Fix"⟩
  | .escaped => ⟨"Escaped", 50, "Escaped"⟩
  | .escapedTransform => ⟨"EscapedTransform", 51, "EscapedTransform"⟩
  | .nonEmpty => ⟨"NonEmpty", 56, "NonEmpty"⟩
  | .manyMN => ⟨"ManyMN", 57, "Many(m, n)"⟩
  | .hexDigit => ⟨"HexDigit", 59, "Hexadecimal Digit"⟩
  | .octDigit => ⟨"OctDigit", 61, "Octal digit"⟩
  | .many0 => ⟨"Many0", 62, "Many0"⟩
  | .not => ⟨"Not", 63, "Negation"⟩
  | .permutation => ⟨"Permutation", 64, "Permutation"⟩
  | .manyTill => ⟨"ManyTill", 65, "ManyTill"⟩
  | .verify => ⟨"Verify", 66, "predicate verification"⟩
  | .takeTill1 => ⟨"TakeTill1", 67, "TakeTill1"⟩
  | .takeUntilAndConsume1 => ⟨"TakeUntilAndConsume1", 68, "Take at least 1 until and consume"⟩
  | .takeWhileMN => ⟨"TakeWhileMN", 69, "TakeWhileMN"⟩
  | .parseTo => ⟨"ParseTo", 70, "Parse string to the specified type"⟩
  | .tooLarge => ⟨"TooLarge", 71, "Needed data size is too large"⟩
  | .many0Count => ⟨"Many0Count", 72, "Count occurrence of >=0 patterns"⟩
  | .many1Count => ⟨"Many1Count", 73, "Count occurrence of >=1 patterns"⟩

def name (kind : ErrorKind) : String := kind.entry.name

def code (kind : ErrorKind) : Nat := kind.entry.code

def description (kind : ErrorKind) : String := kind.entry.description

/-- every kind, by code -/
def all : List ErrorKind := [
  .tag, .mapRes, .mapOpt, .alt, .isNot, .isA, .separatedList, .separatedNonEmptyList, .many1, .count,
  .takeUntilAndConsume, .takeUntil, .takeUntilEitherAndConsume, .takeUntilEither, .lengthValue, .tagClosure,
  .alpha, .digit, .alphaNumeric, .space, .multiSpace, .lengthValueFn, .eof, .exprOpt, .exprRes, .condReduce,
  .switch, .tagBits, .oneOf, .noneOf, .char, .crLf, .regexpMatch, .regexpMatches, .regexpFind, .regexpCapture,
  .regexpCaptures, .takeWhile1, .complete, .fix, .escaped, .escapedTransform, .nonEmpty, .manyMN, .hexDigit,
  .octDigit, .many0, .not, .permutation, .manyTill, .verify, .takeTill1, .takeUntilAndConsume1, .takeWhileMN,
  .parseTo, .tooLarge, .many0Count, .many1Count]

def ofCode? (code : Nat) : Option ErrorKind :=
  all.find? (·.code = code)

def ofName? (name : String) : Option ErrorKind :=
  all.find? (·.name = name)

theorem ofCode?_code (kind : ErrorKind) : ofCode? kind.code = some kind := by
  cases kind <;> rfl

theorem ofName?_name (kind : ErrorKind) : ofName? kind.name = some kind := by
  cases kind <;> decide

end ErrorKind

end SliceParser
