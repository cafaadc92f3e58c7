import SessionDirectory.Decimal.Numeral

/-!
# Grammars of command lines

Which options and operands a command line may have, and what can be wrong with one.

## Main definitions

* `Option.Rule`, `Operand.Rule`: one option, one operand
* `Grammar`: all of them, and the commands that may follow
* `UsageError`: what is wrong with a command line
-/

set_option autoImplicit false

namespace SessionDirectory.CommandLine

/-- What an option stands for and whether a value comes with it. -/
inductive OptionKind where
  /-- It is there or not. -/
  | switch
  /-- It has a text. -/
  | text
  /-- It has a text that may not be empty. -/
  | path
  /-- It has a whole number from zero to a limit. -/
  | number (limit : Nat)
  /-- It asks for help. -/
  | help
  /-- It asks for the version. -/
  | version
  deriving DecidableEq, Repr

/-- Whether a value comes with the option. -/
def OptionKind.hasValue : OptionKind → Bool
  | .text | .path | .number _ => true
  | .switch | .help | .version => false

/-- An option: its name after two dashes, its letter after one, and its kind. -/
structure OptionRule where
  name : String
  letter : Option Char
  kind : OptionKind
  deriving DecidableEq, Repr

/-- An operand: one argument, or as many as are given in one place, with the least number. -/
inductive OperandRule where
  | one (name : String)
  | several (name : String) (least : Nat)
  deriving DecidableEq, Repr

/-- The name of an operand. -/
def OperandRule.name : OperandRule → String
  | .one name => name
  | .several name _ => name

/-- Which options and operands a command line may have, and the commands that may follow. -/
structure Grammar where
  options : List OptionRule
  operands : List OperandRule
  commands : List String

/-- The option of a name. -/
def Grammar.named? (g : Grammar) (name : String) : Option OptionRule :=
  g.options.find? fun rule => rule.name = name

/-- The option of a letter. -/
def Grammar.lettered? (g : Grammar) (letter : Char) : Option OptionRule :=
  g.options.find? fun rule => rule.letter = some letter

/-- What is wrong with a command line; a request for help or for the version also ends it. -/
inductive UsageError where
  | helpAsked
  | versionAsked
  /-- The command line is empty. -/
  | nothingGiven
  /-- There are options but no command. -/
  | missingCommand
  | unknownCommand (name : String)
  | unknownArgument (argument : String)
  | missingOperand (name : String)
  /-- An option has no value, or an empty path. -/
  | missingValue (option : String)
  /-- An option that takes no value has one. -/
  | unexpectedValue (option : String)
  /-- Of an operand fewer are given than are needed. -/
  | tooFewOperands (name : String)
  /-- A value is no whole number within the limits. -/
  | invalidNumber (option : String) (value : String)
  | repeatedOption (option : String)
  deriving DecidableEq, Repr

/-- What is wrong, in words. -/
def UsageError.message : UsageError → String
  | .helpAsked => "help asked for"
  | .versionAsked => "version asked for"
  | .nothingGiven => "a command is required"
  | .missingCommand => "a command is required"
  | .unknownCommand name => "unrecognized command '" ++ name ++ "'"
  | .unknownArgument argument => "unexpected argument '" ++ argument ++ "'"
  | .missingOperand name => "the argument <" ++ name ++ "> is required"
  | .missingValue option => "a value is required for '--" ++ option ++ "'"
  | .unexpectedValue option => "no value is expected for '--" ++ option ++ "'"
  | .tooFewOperands name => "more values are required for <" ++ name ++ ">"
  | .invalidNumber option value =>
    "invalid value '" ++ value ++ "' for '--" ++ option ++ "'"
  | .repeatedOption option => "the argument '--" ++ option ++ "' cannot be used multiple times"

end SessionDirectory.CommandLine
