import BeanClass.Source.Fault
import BeanClass.Types.Expr
import BeanClass.Verification.ClassFile

/-! # Diagnostics

Everything that can keep a source from being compiled.
-/

namespace BeanClass

/-- Why a file or directory cannot be used. -/
inductive FileError where
  | notFound
  | notDirectory
  | isDirectory
  | alreadyExists
  | nameTooLong
  | invalidUtf8
  | other (message : String)
  deriving DecidableEq, Repr

def FileError.message : FileError → String
  | notFound => "No such file or directory (os error 2)"
  | notDirectory => "Not a directory (os error 20)"
  | isDirectory => "Is a directory (os error 21)"
  | alreadyExists => "File exists (os error 17)"
  | nameTooLong => "File name too long (os error 36)"
  | invalidUtf8 => "stream did not contain valid UTF-8"
  | other message => message

inductive EncodingFault where
  | lowering (error : EncodeError)
  | verification (error : Verification.VerifyError)
  /-- A fault that the caller words itself. -/
  | other (message : String)
  deriving DecidableEq, Repr

def EncodingFault.message : EncodingFault → String
  | lowering error => error.message
  | verification error => s!"class file verify failed: {error.message}"
  | other message => message

inductive ConfigFault where
  | unsupportedMajor (major : UInt16)
  | notFilePath (path : String)
  /-- A fault that the caller words itself. -/
  | other (message : String)
  deriving DecidableEq, Repr

def ConfigFault.message : ConfigFault → String
  | unsupportedMajor major =>
    s!"unsupported class file major version {major} " ++
      s!"(expected {Verification.minMajor}..={Verification.maxMajor})"
  | notFilePath path => s!"not a file path: {path}"
  | other message => message

inductive Diagnostic where
  | file (error : FileError)
  | source (error : SourceError)
  /-- Line 0 stands for a line that is not known yet. -/
  | type (line : Nat) (error : TypeError)
  | encoding (fault : EncodingFault)
  | config (fault : ConfigFault)
  deriving DecidableEq, Repr

namespace Diagnostic

def message : Diagnostic → String
  | file error => s!"IO error: {error.message}"
  | source error => error.message
  | type line (.unresolved expr) => s!"Type not resolved on line {line}: {expr}"
  | type line (.primitiveArgument expr) =>
    s!"Primitive type '{expr}' cannot be used as a type argument (line {line})"
  | encoding fault => s!"Error compiling binary class: {fault.message}"
  | config fault => s!"Configuration error: {fault.message}"

/-- Enters the line of a fault that has none yet. -/
def atLine (line : Nat) : Diagnostic → Diagnostic
  | source (.invalid 0 fault) => source (.invalid line fault)
  | type 0 error => type line error
  | d => d

/-- The line that a diagnostic points at, if it knows one. -/
def line? : Diagnostic → Option Nat
  | source (.invalid line _) | source (.unexpectedEnd line) | type line _ =>
    if line = 0 then none else some line
  | _ => none

end Diagnostic

end BeanClass
