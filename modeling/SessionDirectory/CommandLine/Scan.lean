import SessionDirectory.CommandLine.Grammar

/-!
# Scanning command lines

Arguments are read from left to right. An option's value may be attached to it or be the next
argument, as long as that does not start with a dash; after two dashes alone everything is an
operand. What has been read is checked when the next option or operand begins, so of two faults
the one on the left is found, except where an unknown argument hides the one before it.

## Main definitions

* `Scan`: what has been read
* `Scan.settle`: the check of what was read last
* `Scan.step`: reading one argument
* `Scan.readAll`: reading a command line up to its end or its command
-/

set_option autoImplicit false

namespace SessionDirectory.CommandLine

/-- What was read last and is not checked yet. -/
inductive Pending where
  | nothing
  /-- An option whose value is still to come. -/
  | awaiting (rule : OptionRule)
  /-- An option with its value. -/
  | option (rule : OptionRule) (value : String)
  /-- An operand given once. -/
  | operand (name : String) (value : String)
  /-- Operands of one name side by side, and the least number of them. -/
  | operands (name : String) (least : Nat) (values : List String)
  deriving DecidableEq, Repr

/-- What has been read of a command line. -/
structure Scan where
  /-- Names of options and operands with their values, in order. -/
  found : List (String × List String)
  pending : Pending
  /-- The operands still to be filled. -/
  unfilled : List OperandRule
  /-- Whether everything from here on is an operand. -/
  escaped : Bool

namespace Scan

/-- The start of a command line. -/
def start (g : Grammar) : Scan := ⟨[], .nothing, g.operands, false⟩

/-- Whether an option or operand has been found. -/
def has (s : Scan) (name : String) : Bool := s.found.any fun f => f.1 = name

/-- Writes down an option or operand. -/
def record (s : Scan) (name : String) (values : List String) : Scan :=
  { s with found := s.found ++ [(name, values)], pending := .nothing }

/-- Reads a whole number from zero to a limit; a sign is allowed, before zero even a minus. -/
def readNumber? (limit : Nat) (s : String) : Option Nat :=
  match s.toList with
  | '-' :: digits => if !digits.isEmpty && digits.all (· = '0') then some 0 else none
  | _ => (Decimal.readUnsigned limit s).toOption

/-- Checks the value of an option. -/
def checkValue (rule : OptionRule) (value : String) : Except UsageError Unit :=
  match rule.kind with
  | .path => if value.isEmpty then .error (.missingValue rule.name) else .ok ()
  | .number limit =>
    if (readNumber? limit value).isSome then .ok () else .error (.invalidNumber rule.name value)
  | _ => .ok ()

/-- Takes an option with its values; none may be given twice. -/
def take (s : Scan) (rule : OptionRule) (values : List String) : Except UsageError Scan :=
  if s.has rule.name then .error (.repeatedOption rule.name)
  else do
    values.forM (checkValue rule)
    return s.record rule.name values

/-- Checks and takes what was read last. -/
def settle (s : Scan) : Except UsageError Scan :=
  match s.pending with
  | .nothing => .ok s
  | .awaiting rule => .error (.missingValue rule.name)
  | .option rule value => s.take rule [value]
  | .operand name value => .ok (s.record name [value])
  | .operands name least values =>
    if values.length < least then .error (.tooFewOperands name) else .ok (s.record name values)

/-- Reads an option without a value. -/
def switchOn (s : Scan) (rule : OptionRule) : Except UsageError Scan := do
  let s ← s.settle
  match rule.kind with
  | .help => throw .helpAsked
  | .version => throw .versionAsked
  | _ => s.take rule []

/-- Reads an option with the value attached to it, if there is one. -/
def readOption (s : Scan) (rule : OptionRule) (attached : Option String) : Except UsageError Scan := do
  let s ← s.settle
  match attached with
  | some value => s.take rule [value]
  | none => return { s with pending := .awaiting rule }

/-- Reads an option by its name, the text after two dashes. -/
def readNamed (g : Grammar) (s : Scan) (text : List Char) : Except UsageError Scan :=
  let name := String.ofList (text.takeWhile (· ≠ '='))
  let attached := match text.dropWhile (· ≠ '=') with
    | _ :: value => some (String.ofList value)
    | [] => none
  match g.named? name with
  | none => .error (.unknownArgument ("--" ++ name))
  | some rule =>
    if rule.kind.hasValue then s.readOption rule attached
    else if attached.isSome then .error (.unexpectedValue rule.name)
    else s.switchOn rule

/-- Reads options by their letters, the text after one dash. A value takes the rest of the text,
without an equals sign before it. -/
def readLettered (g : Grammar) (s : Scan) : List Char → Except UsageError Scan
  | [] => .ok s
  | letter :: rest =>
    match g.lettered? letter with
    | none => .error (.unknownArgument (String.ofList ['-', letter]))
    | some rule =>
      if rule.kind.hasValue then
        s.readOption rule <| match rest with
          | [] => none
          | '=' :: value => some (String.ofList value)
          | value => some (String.ofList value)
      else do readLettered g (← s.switchOn rule) rest

/-- Reads an operand. -/
def readOperand (g : Grammar) (s : Scan) (argument : String) : Except UsageError Scan :=
  match s.unfilled with
  | [] =>
    if g.commands.isEmpty || (s.escaped && g.commands.contains argument) then
      .error (.unknownArgument argument)
    else .error (.unknownCommand argument)
  | .one name :: rest => do
    let s ← s.settle
    return { s with pending := .operand name argument, unfilled := rest }
  | .several name least :: _ =>
    match s.pending with
    | .operands _ _ values =>
      .ok { s with pending := .operands name least (values ++ [argument]) }
    | _ => do
      let s ← s.settle
      return { s with pending := .operands name least [argument] }

/-- Reads one argument. -/
def step (g : Grammar) (s : Scan) (argument : String) : Except UsageError Scan :=
  if s.escaped then s.readOperand g argument
  else match argument.toList with
    | ['-', '-'] => .ok { s with escaped := true }
    | '-' :: '-' :: text => s.readNamed g text
    | '-' :: letter :: rest => s.readLettered g (letter :: rest)
    | _ =>
      match s.pending with
      | .awaiting rule => .ok { s with pending := .option rule argument }
      | _ => s.readOperand g argument

/-- Whether an argument is a command here. -/
def meetsCommand (g : Grammar) (s : Scan) (argument : String) : Bool :=
  !s.escaped && g.commands.contains argument &&
    match s.pending with
    | .awaiting _ => false
    | _ => true

/-- Reads arguments up to the end or up to a command, which is returned with what follows it. -/
def readAll (g : Grammar) : Scan → List String →
    Except UsageError (Scan × Option (String × List String))
  | s, [] => .ok (s, none)
  | s, argument :: rest =>
    if s.meetsCommand g argument then .ok (s, some (argument, rest))
    else do readAll g (← s.step g argument) rest

/-- The values of an option or operand, all that were given. -/
def values (s : Scan) (name : String) : List String :=
  (s.found.filter fun f => f.1 = name).flatMap (·.2)

/-- The value of an option or operand. -/
def value? (s : Scan) (name : String) : Option String := (s.values name).getLast?

/-- The value of a number option. -/
def number? (s : Scan) (name : String) (limit : Nat) : Option Nat :=
  (s.value? name).bind (readNumber? limit)

/-- The value of an operand that has to be there. -/
def operand (s : Scan) (name : String) : Except UsageError String :=
  match s.value? name with
  | some value => .ok value
  | none => .error (.missingOperand name)

end Scan

end SessionDirectory.CommandLine
