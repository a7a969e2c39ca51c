/-! # Options and operands

A command takes options, with or without a value, and one operand. Options may stand on either side
of the operand, and `--` ends them.
-/

namespace BeanClass.CommandLine

/-- Why arguments do not give a command to run. -/
inductive Usage where
  | invalid
  | help
  | version
  deriving DecidableEq, Repr

structure OptionSpec where
  long : String
  short : Option Char := none
  takesValue : Bool := false
  /-- Whether the option may be given more than once. -/
  repeatable : Bool := false
  accepts : String → Bool := fun _ => true

structure Grammar where
  options : List OptionSpec
  acceptsOperand : String → Bool

/-- The options in the order in which they were given, by their long names; a flag has an empty
value. -/
structure Arguments where
  options : List (String × String)
  operand : Option String
  deriving DecidableEq, Repr

namespace Arguments

def empty : Arguments := ⟨[], none⟩

def has (arguments : Arguments) (long : String) : Bool :=
  arguments.options.any (·.1 == long)

def values (arguments : Arguments) (long : String) : List String :=
  arguments.options.filterMap fun (name, value) => if name == long then some value else none

def value? (arguments : Arguments) (long : String) : Option String :=
  (arguments.values long).head?

def addOption (arguments : Arguments) (spec : OptionSpec) (value : String) :
    Except Usage Arguments :=
  if !spec.accepts value || (!spec.repeatable && arguments.has spec.long) then .error .invalid
  else .ok { arguments with options := arguments.options ++ [(spec.long, value)] }

def addOperand (grammar : Grammar) (arguments : Arguments) (value : String) :
    Except Usage Arguments :=
  if arguments.operand.isSome || !grammar.acceptsOperand value then .error .invalid
  else .ok { arguments with operand := some value }

end Arguments

namespace Grammar

/-- Reads the letters behind a single dash. What follows an option with a value is the value, behind
an equals sign or not; if nothing follows, the option waits for the next argument. -/
def readShorts (grammar : Grammar) :
    Arguments → List Char → Except Usage (Arguments × Option OptionSpec)
  | arguments, [] => .ok (arguments, none)
  | arguments, c :: rest =>
    match grammar.options.find? (·.short == some c) with
    | none => .error (if c = 'h' then .help else .invalid)
    | some spec =>
      if spec.takesValue then
        match rest with
        | [] => .ok (arguments, some spec)
        | '=' :: value => do
          let arguments ← arguments.addOption spec (String.ofList value)
          .ok (arguments, none)
        | value => do
          let arguments ← arguments.addOption spec (String.ofList value)
          .ok (arguments, none)
      else do
        let arguments ← arguments.addOption spec ""
        readShorts grammar arguments rest

/-- Reads the name behind two dashes, and a value behind an equals sign. -/
def readLong (grammar : Grammar) (arguments : Arguments) (text : List Char) :
    Except Usage (Arguments × Option OptionSpec) :=
  let name := String.ofList (text.takeWhile (· != '='))
  match grammar.options.find? (·.long == name), text.dropWhile (· != '=') with
  | none, [] => .error (if name = "help" then .help else .invalid)
  | none, _ => .error .invalid
  | some spec, [] =>
    if spec.takesValue then .ok (arguments, some spec)
    else do
      let arguments ← arguments.addOption spec ""
      .ok (arguments, none)
  | some spec, _ :: value =>
    if spec.takesValue then do
      let arguments ← arguments.addOption spec (String.ofList value)
      .ok (arguments, none)
    else .error .invalid

/-- Reads arguments behind those found before; `waiting` is an option whose value comes next, which
may not look like an option. -/
def read (grammar : Grammar) :
    (waiting : Option OptionSpec) → Arguments → List String → Except Usage Arguments
  | none, arguments, [] => .ok arguments
  | some _, _, [] => .error .invalid
  | waiting, arguments, text :: rest =>
    match text.toList, waiting with
    | ['-', '-'], none => rest.foldlM (Arguments.addOperand grammar) arguments
    | '-' :: '-' :: name, none => do
      let (arguments, waiting) ← grammar.readLong arguments name
      read grammar waiting arguments rest
    | '-' :: c :: letters, none => do
      let (arguments, waiting) ← grammar.readShorts arguments (c :: letters)
      read grammar waiting arguments rest
    | _, none => do
      let arguments ← arguments.addOperand grammar text
      read grammar none arguments rest
    | '-' :: _ :: _, some _ => .error .invalid
    | _, some spec => do
      let arguments ← arguments.addOption spec text
      read grammar none arguments rest

end Grammar

end BeanClass.CommandLine
