import BeanClass.CommandLine.Run

/-! # The command line program -/

namespace BeanClass.CommandLine

/-- The number of a system error, which some operations give negated. -/
def errorNumber (code : UInt32) : UInt32 :=
  if code < 0x80000000 then code else 0 - code

def fileError (e : IO.Error) : FileError :=
  match e with
  | .noFileOrDirectory .. => .notFound
  | .alreadyExists .. => .alreadyExists
  | .inappropriateType _ code _ => if errorNumber code = 20 then .notDirectory else .isDirectory
  | .invalidArgument _ code _ => if errorNumber code = 36 then .nameTooLong else .other (toString e)
  | _ => .other (toString e)

def attempt {α : Type} (action : IO α) : IO (Except FileError α) := do
  try return .ok (← action)
  catch e => return .error (fileError e)

/-- Access to the files of the system. -/
def systemFiles : FileAccess IO where
  read path := attempt do return (← IO.FS.readBinFile path).toList
  createDirectories path := attempt (IO.FS.createDirAll path)
  write path content := attempt (IO.FS.writeBinFile path ⟨content.toArray⟩)

end BeanClass.CommandLine

open BeanClass.CommandLine in
def main (arguments : List String) : IO UInt32 := do
  let environment ← IO.getEnv "GETSET_KNOWN_TYPES"
  let outcome ← run systemFiles environment arguments
  IO.print outcome.stdout
  match outcome.report with
  | some report => IO.eprint report.render
  | none => pure ()
  return UInt32.ofNat outcome.exitCode
