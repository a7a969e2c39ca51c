/-! # Faults of a source -/

namespace BeanClass

/-- What is wrong with a line. -/
inductive LineFault where
  | expectedPackage
  | invalidPackage (name : String)
  | invalidImport (name : String)
  | unterminatedParameters
  | invalidParameter (name : String)
  | duplicateParameter (name : String)
  | invalidClass (name : String)
  | malformedAttribute (text : String)
  | invalidAttribute (name : String)
  | duplicateAttribute (name descriptor : String)
  | rejectedNull (name : String)
  | accessorClash (name descriptor : String)
  /-- A fault that the caller words itself. -/
  | other (message : String)
  deriving DecidableEq, Repr

def LineFault.message : LineFault → String
  | expectedPackage => "expected package declaration"
  | invalidPackage name => s!"invalid package name '{name}'"
  | invalidImport name => s!"invalid import '{name}'"
  | unterminatedParameters => "unterminated type parameter list"
  | invalidParameter name => s!"invalid type parameter '{name}'"
  | duplicateParameter name => s!"duplicate type parameter '{name}'"
  | invalidClass name => s!"invalid class name '{name}'"
  | malformedAttribute text => s!"malformed attribute '{text}'"
  | invalidAttribute name => s!"invalid attribute name '{name}'"
  | duplicateAttribute name descriptor => s!"duplicate attribute '{name}' of type {descriptor}"
  | rejectedNull name => s!"null constraint on primitive attribute '{name}'"
  | accessorClash name descriptor =>
    s!"accessor {name}{descriptor} clashes with an earlier attribute"
  | other message => message

/-- Why a source cannot be read; line 0 stands for a line that is not known yet. -/
inductive SourceError where
  | invalid (line : Nat) (fault : LineFault)
  | unexpectedEnd (line : Nat)
  deriving DecidableEq, Repr

def SourceError.message : SourceError → String
  | invalid line fault => s!"Syntax error on line {line}: {fault.message}"
  | unexpectedEnd line => s!"Unexpected end of file after line {line}"

end BeanClass
