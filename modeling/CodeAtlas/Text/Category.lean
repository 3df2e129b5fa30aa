import CodeAtlas.Text.Category.Letters
import CodeAtlas.Text.Category.Marks
import CodeAtlas.Text.Category.Numbers
import CodeAtlas.Text.Category.Punctuation
import CodeAtlas.Text.Category.Separators
import CodeAtlas.Text.Category.Symbols

/-!
# General categories

The general category of a character, as the Unicode standard assigns it, and the classes of
characters that are defined through it: words and identifiers.
-/

namespace CodeAtlas.Text

/-- The general categories. -/
inductive Category where
  | upper
  | lower
  | title
  | modifierLetter
  | otherLetter
  | nonspacingMark
  | spacingMark
  | enclosingMark
  | digit
  | letterNumber
  | otherNumber
  | connector
  | dash
  | opening
  | closing
  | initialQuote
  | finalQuote
  | otherPunctuation
  | mathSymbol
  | currency
  | modifierSymbol
  | otherSymbol
  | spaceSeparator
  | lineSeparator
  | paragraphSeparator
  | control
  | format
  | surrogate
  | privateUse
  | unassigned
  deriving DecidableEq, Repr

namespace Category

/-- The categories that hold assigned characters. -/
def assigned : List Category := [
  upper, lower, title, modifierLetter, otherLetter, nonspacingMark, spacingMark, enclosingMark,
  digit, letterNumber, otherNumber, connector, dash, opening, closing, initialQuote, finalQuote,
  otherPunctuation, mathSymbol, currency, modifierSymbol, otherSymbol, spaceSeparator,
  lineSeparator, paragraphSeparator, control, format, surrogate, privateUse]

/-- The runs of code points of a category; unassigned code points are in no run. -/
def runs : Category → List (Nat × Nat)
  | upper => upperRuns
  | lower => lowerRuns
  | title => titleRuns
  | modifierLetter => modifierLetterRuns
  | otherLetter => otherLetterRuns
  | nonspacingMark => nonspacingMarkRuns
  | spacingMark => spacingMarkRuns
  | enclosingMark => enclosingMarkRuns
  | digit => digitRuns
  | letterNumber => letterNumberRuns
  | otherNumber => otherNumberRuns
  | connector => connectorRuns
  | dash => dashRuns
  | opening => openingRuns
  | closing => closingRuns
  | initialQuote => initialQuoteRuns
  | finalQuote => finalQuoteRuns
  | otherPunctuation => otherPunctuationRuns
  | mathSymbol => mathSymbolRuns
  | currency => currencyRuns
  | modifierSymbol => modifierSymbolRuns
  | otherSymbol => otherSymbolRuns
  | spaceSeparator => spaceSeparatorRuns
  | lineSeparator => lineSeparatorRuns
  | paragraphSeparator => paragraphSeparatorRuns
  | control => controlRuns
  | format => formatRuns
  | surrogate => surrogateRuns
  | privateUse => privateUseRuns
  | unassigned => []

/-- The runs in which every second code point is of a category. -/
def alternating : Category → List (Nat × Nat)
  | upper => upperAlternating
  | lower => lowerAlternating
  | otherLetter => otherLetterAlternating
  | opening => openingAlternating
  | closing => closingAlternating
  | _ => []

/-- Whether the runs of a category hold the code point `n`. -/
def holds (category : Category) (n : Nat) : Bool :=
  category.runs.any (fun run => run.1 ≤ n && n ≤ run.2) ||
    category.alternating.any (fun run => run.1 ≤ n && n ≤ run.2 && (n - run.1) % 2 == 0)

end Category

/-- Whether `c` is of the general category. -/
def hasCategory (c : Char) (category : Category) : Bool :=
  match category with
  | .unassigned => !Category.assigned.any (fun k => k.holds c.toNat)
  | k => k.holds c.toNat

/-- Whether `c` is a letter or a number written with letters. -/
def isLetter (c : Char) : Bool :=
  if c.toNat < 128 then c.isAlpha
  else
    [Category.lower, .upper, .otherLetter, .modifierLetter, .title, .letterNumber].any
      (fun k => k.holds c.toNat)

/-- Whether `c` is a mark that combines with the character before it. -/
def isMark (c : Char) : Bool :=
  [Category.nonspacingMark, .spacingMark, .enclosingMark].any (fun k => k.holds c.toNat)

/-- Whether `c` is a decimal digit of some script. -/
def isDecimalDigit (c : Char) : Bool :=
  if c.toNat < 128 then c.isDigit else Category.digit.holds c.toNat

/-- Whether `c` may be part of a word: letters, marks, digits, connectors and joiners. -/
def isWordChar (c : Char) : Bool :=
  let n := c.toNat
  if n < 128 then c.isAlphanum || c == '_'
  else
    isLetter c || isMark c || isDecimalDigit c || Category.connector.holds n ||
      (0x24B6 ≤ n && n ≤ 0x24E9) || (0x1F130 ≤ n && n ≤ 0x1F149) ||
      (0x1F150 ≤ n && n ≤ 0x1F169) || (0x1F170 ≤ n && n ≤ 0x1F189) || n == 0x200C || n == 0x200D

/-- Letters that no identifier starts with, because their compatibility form is no letter. -/
def identifierStartExcluded : List (Nat × Nat) := [
  (0x37A, 0x37A), (0xE33, 0xE33), (0xEB3, 0xEB3), (0x2E2F, 0x2E2F), (0xFC5E, 0xFC63),
  (0xFDFA, 0xFDFB), (0xFE70, 0xFE70), (0xFE72, 0xFE72), (0xFE74, 0xFE74), (0xFE76, 0xFE76),
  (0xFE78, 0xFE78), (0xFE7A, 0xFE7A), (0xFE7C, 0xFE7C), (0xFE7E, 0xFE7E), (0xFF9E, 0xFF9F)]

/-- Whether an identifier may start with `c`. -/
def isIdentifierStart (c : Char) : Bool :=
  let n := c.toNat
  if n < 128 then c.isAlpha || c == '_'
  else
    (isLetter c && !identifierStartExcluded.any (fun run => run.1 ≤ n && n ≤ run.2)) ||
      n == 0x1885 || n == 0x1886 || n == 0x2118 || n == 0x212E

/-- Whether an identifier may go on with `c`. -/
def isIdentifierChar (c : Char) : Bool :=
  let n := c.toNat
  if n < 128 then c.isAlphanum || c == '_'
  else
    isIdentifierStart c || Category.nonspacingMark.holds n || Category.spacingMark.holds n ||
      Category.digit.holds n || Category.connector.holds n ||
      n == 0xB7 || n == 0x387 || n == 0xE33 || n == 0xEB3 || (0x1369 ≤ n && n ≤ 0x1371) ||
      n == 0x19DA || n == 0xFF9E || n == 0xFF9F

end CodeAtlas.Text
