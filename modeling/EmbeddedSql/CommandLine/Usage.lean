/-
**Arguments of the command line.**

Options and operands may be mixed.  An option takes the next argument as its value, or what stands
after an equals sign; after a double dash everything is an operand.

* `Usage.Error` — what is wrong with the arguments;
* `Usage.Options` — the options that a command knows;
* `Usage.Parsed`, `Usage.Options.parse` — arguments sorted into options and operands.
-/

import EmbeddedSql.Text.Quoted

set_option relaxedAutoImplicit false
set_option autoImplicit false

namespace EmbeddedSql.Usage

/-- What is wrong with the arguments. -/
inductive Error where
  | noSuchCommand (name : String)
  | noSuchOption (name : String)
  | noValue (option : String)
  | needlessValue (option : String)
  | missingOperand (name : String)
  | noFile (operand path : String)
  | isDirectory (operand path : String)
  | notInteger (option text : String)
  | tooMany (operands : List String)
  deriving Repr, DecidableEq

/-- The display of a text. -/
def display (s : String) : String :=
  String.ofList (Text.quoted s.toList)

/-- The wording of an error. -/
def Error.message : Error → String
  | .noSuchCommand name => "No such command " ++ display name ++ "."
  | .noSuchOption name => "No such option " ++ display name ++ "."
  | .noValue option => "Option " ++ display option ++ " requires an argument."
  | .needlessValue option => "Option " ++ display option ++ " does not take a value."
  | .missingOperand name => "Missing argument " ++ display name ++ "."
  | .noFile operand path =>
    "Invalid value for " ++ display operand ++ ": File " ++ display path ++ " does not exist."
  | .isDirectory operand path =>
    "Invalid value for " ++ display operand ++ ": File " ++ display path ++ " is a directory."
  | .notInteger option text =>
    "Invalid value for " ++ display option ++ ": " ++ display text ++ " is not a valid integer."
  | .tooMany operands =>
    "Got unexpected extra argument" ++ (if operands.length = 1 then "" else "s") ++ " (" ++
      " ".intercalate operands ++ ")"

/-- The options of a command: flags, and options with a value. -/
structure Options where
  flags : List String
  valued : List String
  deriving Repr, DecidableEq

/-- Arguments, sorted. -/
structure Parsed where
  flags : List String := []
  values : List (String × String) := []
  operands : List String := []
  deriving Repr, DecidableEq

namespace Parsed

/-- Whether a flag was given. -/
def flag (p : Parsed) (name : String) : Bool :=
  p.flags.contains name

/-- The value of an option; of several values the last one counts. -/
def value? (p : Parsed) (name : String) : Option String :=
  p.values.reverse.lookup name

/-- Puts a flag in front. -/
def consFlag (name : String) (p : Parsed) : Parsed :=
  { p with flags := name :: p.flags }

/-- Puts an option with its value in front. -/
def consValue (name value : String) (p : Parsed) : Parsed :=
  { p with values := (name, value) :: p.values }

/-- Puts an operand in front. -/
def consOperand (operand : String) (p : Parsed) : Parsed :=
  { p with operands := operand :: p.operands }

end Parsed

/-- What an argument is. -/
inductive Shape where
  /-- The double dash. -/
  | separator
  /-- A long option, with the value after its equals sign. -/
  | long (name : String) (value : Option String)
  /-- Letters after a single dash. -/
  | short (name : String)
  | operand
  deriving Repr, DecidableEq

/-- The shape of an argument. -/
def shape (argument : String) : Shape :=
  match argument.toList with
  | ['-', '-'] => .separator
  | '-' :: '-' :: rest =>
    let name := rest.takeWhile (· ≠ '=')
    let value := (rest.drop name.length).tail
    .long (String.ofList ('-' :: '-' :: name))
      (if rest.contains '=' then some (String.ofList value) else none)
  | '-' :: letter :: _ => .short (String.ofList ['-', letter])
  | _ => .operand

namespace Options

/-- Sorts arguments. -/
def parse (o : Options) : List String → Except Error Parsed
  | [] => .ok {}
  | argument :: rest =>
    match shape argument with
    | .separator => .ok { operands := rest }
    | .short name => .error (.noSuchOption name)
    | .operand => (o.parse rest).map (Parsed.consOperand argument)
    | .long name value =>
      if o.flags.contains name then
        if value.isSome then .error (.needlessValue name)
        else (o.parse rest).map (Parsed.consFlag name)
      else if o.valued.contains name then
        match value with
        | some v => (o.parse rest).map (Parsed.consValue name v)
        | none =>
          match rest with
          | v :: after => (o.parse after).map (Parsed.consValue name v)
          | [] => .error (.noValue name)
      else .error (.noSuchOption name)

end Options

end EmbeddedSql.Usage
