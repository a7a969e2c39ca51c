import BeanClass.CommandLine.Options

/-! # Commands -/

namespace BeanClass.CommandLine

structure CompileOptions where
  output : Option String
  verbose : Bool
  target : Option UInt16
  noVerify : Bool
  knownTypes : List String
  deriving DecidableEq, Repr

inductive Command where
  | compile (input : String) (options : CompileOptions)
  | parse (input : String) (detailed : Bool)
  | resolve (expr : String) (imports parameters : List String)
  | inspect (input : String) (constants : Bool)
  deriving DecidableEq, Repr

/-- Decimal digits behind an optional sign, with a value of at most 65535. -/
def readWord? (text : String) : Option UInt16 :=
  let (negative, digits) :=
    match text.toList with
    | '-' :: digits => (true, digits)
    | '+' :: digits => (false, digits)
    | digits => (false, digits)
  if digits.isEmpty || !digits.all Char.isDigit then none
  else
    let value := digits.foldl (fun n c => 10 * n + (c.toNat - '0'.toNat)) 0
    if 65535 < value || (negative && value != 0) then none else some (UInt16.ofNat value)

def isPath (text : String) : Bool :=
  !text.isEmpty

def compileGrammar : Grammar where
  options := [
    { long := "output", short := some 'o', takesValue := true, accepts := isPath },
    { long := "verbose", short := some 'v' },
    { long := "target", takesValue := true, accepts := fun text => (readWord? text).isSome },
    { long := "no-verify" },
    { long := "known-type", takesValue := true, repeatable := true }]
  acceptsOperand := isPath

def parseGrammar : Grammar where
  options := [{ long := "detailed", short := some 'd' }]
  acceptsOperand := isPath

def resolveGrammar : Grammar where
  options := [
    { long := "import", takesValue := true, repeatable := true },
    { long := "param", takesValue := true, repeatable := true }]
  acceptsOperand _ := true

def inspectGrammar : Grammar where
  options := [{ long := "constants", short := some 'c' }]
  acceptsOperand := isPath

/-- Reads the arguments of a command that needs its operand. -/
def readWith (grammar : Grammar) (arguments : List String)
    (command : String → Arguments → Command) : Except Usage Command := do
  let found ← grammar.read none .empty arguments
  match found.operand with
  | none => .error .invalid
  | some operand => .ok (command operand found)

/-- Help is given on the whole program or on one command, `help` included. -/
def isHelpTopic : List String → Bool
  | [] => true
  | [name] => ["compile", "parse", "resolve", "inspect", "help"].contains name
  | _ => false

def Command.read : List String → Except Usage Command
  | "compile" :: rest => readWith compileGrammar rest fun input a =>
    .compile input
      { output := a.value? "output"
        verbose := a.has "verbose"
        target := (a.value? "target").bind readWord?
        noVerify := a.has "no-verify"
        knownTypes := a.values "known-type" }
  | "parse" :: rest => readWith parseGrammar rest fun input a => .parse input (a.has "detailed")
  | "resolve" :: rest => readWith resolveGrammar rest fun expr a =>
    .resolve expr (a.values "import") (a.values "param")
  | "inspect" :: rest => readWith inspectGrammar rest fun input a =>
    .inspect input (a.has "constants")
  | "--version" :: _ => .error .version
  | "--help" :: _ => .error .help
  | "help" :: topic => .error (if isHelpTopic topic then .help else .invalid)
  | text :: _ =>
    match text.toList with
    | '-' :: 'V' :: _ => .error .version
    | '-' :: 'h' :: _ => .error .help
    | _ => .error .invalid
  | [] => .error .invalid

end BeanClass.CommandLine
