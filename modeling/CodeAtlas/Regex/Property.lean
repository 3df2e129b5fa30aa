import CodeAtlas.Regex.CharSet
import CodeAtlas.Text.Script

/-!
# Named sets of characters

The sets that a pattern may name: general categories, scripts and a few properties of the Unicode
standard, and the classes of ASCII characters.

Names of the standard are compared without regard to case, blanks, hyphens and underscores, and a
leading `is` does not count.
-/

namespace CodeAtlas.Regex

open Text (Category)

/-- A name as it is compared. -/
def normalizeName (name : List Char) : List Char :=
  let cs := Text.asciiLowercase (name.filter (fun c => c != ' ' && c != '_' && c != '-'))
  match cs with
  | ['i', 's', 'c'] => ['i', 's', 'c']
  | 'i' :: 's' :: rest => rest
  | _ => cs

/-- The general categories by their short and long names. -/
def categoriesByName : List (String × List Category) := [
  ("l", [.upper, .lower, .title, .modifierLetter, .otherLetter]),
  ("letter", [.upper, .lower, .title, .modifierLetter, .otherLetter]),
  ("lc", [.upper, .lower, .title]), ("casedletter", [.upper, .lower, .title]),
  ("lu", [.upper]), ("uppercaseletter", [.upper]),
  ("ll", [.lower]), ("lowercaseletter", [.lower]),
  ("lt", [.title]), ("titlecaseletter", [.title]),
  ("lm", [.modifierLetter]), ("modifierletter", [.modifierLetter]),
  ("lo", [.otherLetter]), ("otherletter", [.otherLetter]),
  ("m", [.nonspacingMark, .spacingMark, .enclosingMark]),
  ("mark", [.nonspacingMark, .spacingMark, .enclosingMark]),
  ("combiningmark", [.nonspacingMark, .spacingMark, .enclosingMark]),
  ("mn", [.nonspacingMark]), ("nonspacingmark", [.nonspacingMark]),
  ("mc", [.spacingMark]), ("spacingmark", [.spacingMark]),
  ("me", [.enclosingMark]), ("enclosingmark", [.enclosingMark]),
  ("n", [.digit, .letterNumber, .otherNumber]), ("number", [.digit, .letterNumber, .otherNumber]),
  ("nd", [.digit]), ("decimalnumber", [.digit]), ("digit", [.digit]),
  ("nl", [.letterNumber]), ("letternumber", [.letterNumber]),
  ("no", [.otherNumber]), ("othernumber", [.otherNumber]),
  ("p", [.connector, .dash, .opening, .closing, .initialQuote, .finalQuote, .otherPunctuation]),
  ("punctuation",
    [.connector, .dash, .opening, .closing, .initialQuote, .finalQuote, .otherPunctuation]),
  ("punct", [.connector, .dash, .opening, .closing, .initialQuote, .finalQuote, .otherPunctuation]),
  ("pc", [.connector]), ("connectorpunctuation", [.connector]),
  ("pd", [.dash]), ("dashpunctuation", [.dash]),
  ("ps", [.opening]), ("openpunctuation", [.opening]),
  ("pe", [.closing]), ("closepunctuation", [.closing]),
  ("pi", [.initialQuote]), ("initialpunctuation", [.initialQuote]),
  ("pf", [.finalQuote]), ("finalpunctuation", [.finalQuote]),
  ("po", [.otherPunctuation]), ("otherpunctuation", [.otherPunctuation]),
  ("s", [.mathSymbol, .currency, .modifierSymbol, .otherSymbol]),
  ("symbol", [.mathSymbol, .currency, .modifierSymbol, .otherSymbol]),
  ("sm", [.mathSymbol]), ("mathsymbol", [.mathSymbol]),
  ("sc", [.currency]), ("currencysymbol", [.currency]),
  ("sk", [.modifierSymbol]), ("modifiersymbol", [.modifierSymbol]),
  ("so", [.otherSymbol]), ("othersymbol", [.otherSymbol]),
  ("z", [.spaceSeparator, .lineSeparator, .paragraphSeparator]),
  ("separator", [.spaceSeparator, .lineSeparator, .paragraphSeparator]),
  ("zs", [.spaceSeparator]), ("spaceseparator", [.spaceSeparator]),
  ("zl", [.lineSeparator]), ("lineseparator", [.lineSeparator]),
  ("zp", [.paragraphSeparator]), ("paragraphseparator", [.paragraphSeparator]),
  ("c", [.control, .format, .surrogate, .privateUse, .unassigned]),
  ("other", [.control, .format, .surrogate, .privateUse, .unassigned]),
  ("cc", [.control]), ("control", [.control]), ("cntrl", [.control]),
  ("cf", [.format]), ("format", [.format]),
  ("co", [.privateUse]), ("privateuse", [.privateUse]),
  ("cn", [.unassigned]), ("unassigned", [.unassigned])]

/-- The set of cased letters with the case that the categories and the runs give. -/
def casedSet (categories : List Category) (extra : List (Nat × Nat)) : CharSet :=
  .union (.category categories) (.runs extra)

/-- Other properties by name. -/
def propertiesByName : List (String × CharSet) := [
  ("any", .all), ("ascii", .range 0 127),
  ("assigned", .compl (.category [.unassigned])),
  ("alphabetic", .diff .word (.category [.digit, .connector, .enclosingMark])),
  ("alpha", .diff .word (.category [.digit, .connector, .enclosingMark])),
  ("uppercase", casedSet [.upper] [(0x2160, 0x216F), (0x24B6, 0x24CF)]),
  ("upper", casedSet [.upper] [(0x2160, 0x216F), (0x24B6, 0x24CF)]),
  ("lowercase", casedSet [.lower] [(0xAA, 0xAA), (0xBA, 0xBA), (0x2170, 0x217F), (0x24D0, 0x24E9)]),
  ("lower", casedSet [.lower] [(0xAA, 0xAA), (0xBA, 0xBA), (0x2170, 0x217F), (0x24D0, 0x24E9)]),
  ("whitespace", .blank), ("wspace", .blank), ("space", .blank),
  ("asciihexdigit", .runs [(48, 57), (65, 70), (97, 102)]),
  ("ahex", .runs [(48, 57), (65, 70), (97, 102)])]

/-- The value of a name in a list. -/
def lookupName {α : Type} (name : List Char) (names : List (String × α)) : Option α :=
  (names.find? (fun e => e.1.toList == name)).map Prod.snd

/-- The set of a general category or of a script. -/
def categorySet (name : List Char) : Option CharSet :=
  (lookupName name categoriesByName).map CharSet.category

/-- The set of a script. -/
def scriptSet (name : List Char) : Option CharSet :=
  (lookupName name Text.Script.byName).map CharSet.runs

/-- The set that a name stands for on its own. -/
def namedSet (name : List Char) : Option CharSet :=
  let n := normalizeName name
  ((lookupName n propertiesByName).or (categorySet n)).or (scriptSet n)

/-- The set of the characters for which a property has a value. -/
def valueSet (property value : List Char) : Option CharSet :=
  let p := String.ofList (normalizeName property)
  let v := normalizeName value
  if p = "gc" ∨ p = "generalcategory" then
    (categorySet v).or (lookupName v (propertiesByName.take 3))
  else if p = "sc" ∨ p = "script" ∨ p = "scx" ∨ p = "scriptextensions" then scriptSet v
  else none

/-- The classes of ASCII characters by name. -/
def asciiByName : List (String × CharSet) := [
  ("alnum", .runs [(48, 57), (65, 90), (97, 122)]), ("alpha", .runs [(65, 90), (97, 122)]),
  ("ascii", .range 0 127), ("blank", .runs [(9, 9), (32, 32)]),
  ("cntrl", .runs [(0, 31), (127, 127)]), ("digit", .range 48 57), ("graph", .range 33 126),
  ("lower", .range 97 122), ("print", .range 32 126),
  ("punct", .runs [(33, 47), (58, 64), (91, 96), (123, 126)]),
  ("space", .runs [(9, 13), (32, 32)]), ("upper", .range 65 90),
  ("word", .runs [(48, 57), (65, 90), (95, 95), (97, 122)]),
  ("xdigit", .runs [(48, 57), (65, 70), (97, 102)])]

/-- The word characters of ASCII. -/
def asciiWord : CharSet := .runs [(48, 57), (65, 90), (95, 95), (97, 122)]

end CodeAtlas.Regex
