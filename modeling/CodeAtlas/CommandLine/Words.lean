/-!
# Words of a command line

A word with two dashes in front names an option in full, one with a single dash gives the letters of
options, and every other word is an operand or the value of an option. Two dashes alone say that only
operands follow. An option is given once at most.

Main statements:

* `Given.add_of_given`: an option that is given already is not accepted again;
* `readWords_of_operands`: words without a dash in front are operands.
-/

namespace CodeAtlas.CommandLine

/-- A word of a command line. -/
inductive Word where
  /-- Two dashes alone: only operands follow. -/
  | operandsFollow
  /-- The name of an option, with the value behind an equals sign. -/
  | option (name : String) (value : Option String)
  | letters (all : List Char)
  | operand (text : String)
  deriving DecidableEq, Repr

/-- What a word is. A dash alone is an operand. -/
def Word.ofString (word : String) : Word :=
  match word.toList with
  | ['-', '-'] => .operandsFollow
  | '-' :: '-' :: rest =>
    let name := String.ofList (rest.takeWhile (· ≠ '='))
    match rest.dropWhile (· ≠ '=') with
    | [] => .option name none
    | _ :: value => .option name (some (String.ofList value))
  | '-' :: c :: more => .letters (c :: more)
  | _ => .operand word

/-- Why words are no command. -/
inductive UsageError where
  | missingCommand
  | unknownCommand (word : String)
  | unknownOption (name : String)
  | repeatedOption (name : String)
  | missingValue (option : String)
  | needlessValue (option : String)
  | unfitValue (option value : String)
  | missingOperand (name : String)
  | unfitOperand (name : String)
  | furtherOperand (word : String)
  deriving DecidableEq, Repr

/-- The wording of the error. -/
def UsageError.message : UsageError → String
  | missingCommand => "a command is missing"
  | unknownCommand word => "there is no command '" ++ word ++ "'"
  | unknownOption name => "there is no option '" ++ name ++ "'"
  | repeatedOption name => "the option '" ++ name ++ "' is given twice"
  | missingValue option => "the option '" ++ option ++ "' needs a value"
  | needlessValue option => "the option '" ++ option ++ "' takes no value"
  | unfitValue option value => "'" ++ value ++ "' is no value of the option '" ++ option ++ "'"
  | missingOperand name => "the " ++ name ++ " is missing"
  | unfitOperand name => "the " ++ name ++ " must not be empty"
  | furtherOperand word => "the word '" ++ word ++ "' is one too many"

/-- An option that is understood. -/
structure OptionForm where
  name : String
  letter : Option Char := none
  /-- The values that the option accepts, if it takes one. -/
  accepts : Option (String → Bool) := none
  /-- Whether the words behind the option do not matter. -/
  endsReading : Bool := false

/-- The options, each with its value, and the operands that are given. -/
structure Given where
  options : List (String × String) := []
  operands : List String := []
  deriving DecidableEq, Repr

namespace Given

/-- Whether an option is given. -/
def has (g : Given) (name : String) : Bool := g.options.any (fun o => o.1 == name)

/-- The value of an option. -/
def value? (g : Given) (name : String) : Option String :=
  (g.options.find? (fun o => o.1 == name)).map Prod.snd

/-- One more option. -/
def add (g : Given) (name value : String) : Except UsageError Given :=
  if g.has name then .error (.repeatedOption name)
  else .ok { g with options := g.options ++ [(name, value)] }

/-- One more option with a value, which it has to accept. -/
def addValue (g : Given) (name : String) (accepts : String → Bool) (value : String) :
    Except UsageError Given :=
  if accepts value then g.add name value else .error (.unfitValue name value)

/-- More operands. -/
def addOperands (g : Given) (words : List String) : Given :=
  { g with operands := g.operands ++ words }

theorem add_of_given {g : Given} {name : String} (h : g.has name = true) (value : String) :
    g.add name value = .error (.repeatedOption name) := by
  simp [add, h]

end Given

/-- Whether a word may be the value of the option in front of it. -/
def mayBeValue (word : String) : Bool :=
  match Word.ofString word with
  | .operand _ => true
  | _ => false

/-- Reads options that are given by their letters, and says whether reading goes on. Options with a
value have no letter. -/
def readLetters (forms : List OptionForm) (g : Given) : List Char → Except UsageError (Given × Bool)
  | [] => .ok (g, true)
  | c :: rest =>
    match forms.find? (fun f => f.letter == some c) with
    | none => .error (.unknownOption (String.ofList ['-', c]))
    | some f => do
      let g ← g.add f.name ""
      if f.endsReading then return (g, false) else readLetters forms g rest

/-- Reads words and gives the words that are left. In front of a command, the first word that is no
option stays with those behind it. -/
def readWords (forms : List OptionForm) (beforeCommand : Bool) (g : Given) :
    List String → Except UsageError (Given × List String)
  | [] => .ok (g, [])
  | word :: rest =>
    match Word.ofString word with
    | .operandsFollow =>
      if beforeCommand then .ok (g, word :: rest) else .ok (g.addOperands rest, [])
    | .operand text =>
      if beforeCommand then .ok (g, word :: rest)
      else readWords forms beforeCommand (g.addOperands [text]) rest
    | .letters letters => do
      let (g, goesOn) ← readLetters forms g letters
      if goesOn then readWords forms beforeCommand g rest else return (g, [])
    | .option name value =>
      match forms.find? (fun f => f.name == name) with
      | none => .error (.unknownOption word)
      | some f =>
        match f.accepts, value with
        | none, some _ => .error (.needlessValue name)
        | none, none => do
          let g ← g.add name ""
          if f.endsReading then return (g, []) else readWords forms beforeCommand g rest
        | some accepts, some v => do
          readWords forms beforeCommand (← g.addValue name accepts v) rest
        | some accepts, none =>
          match rest with
          | [] => .error (.missingValue name)
          | v :: others =>
            if mayBeValue v then do
              readWords forms beforeCommand (← g.addValue name accepts v) others
            else .error (.missingValue name)

theorem readWords_of_operands (forms : List OptionForm) (g : Given) {words : List String}
    (h : ∀ w ∈ words, Word.ofString w = .operand w) :
    readWords forms false g words = .ok (g.addOperands words, []) := by
  induction words generalizing g with
  | nil => simp [readWords, Given.addOperands]
  | cons w rest ih =>
    have rest_operands : ∀ v ∈ rest, Word.ofString v = .operand v :=
      fun v hv => h v (List.mem_cons_of_mem w hv)
    simp [readWords, h w List.mem_cons_self, ih _ rest_operands, Given.addOperands]

end CodeAtlas.CommandLine
