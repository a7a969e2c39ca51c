import BeanClass.Name
import BeanClass.Source.Declaration
import BeanClass.Source.Fault

/-! # Reading declarations

Each kind of line has its own reader. A class source is a package line, import lines up to the
first other line, the class header, and attributes to the end.
-/

namespace BeanClass

open Text

def PackageLine.parse (line : Line) : Except SourceError PackageLine :=
  match line.text.toList with
  | '>' :: '>' :: rest =>
    let name := trim rest
    if name.isEmpty || Name.isQualified name then .ok ⟨String.ofList name, line.number⟩
    else .error (.invalid line.number (.invalidPackage (String.ofList name)))
  | _ => .error (.invalid line.number .expectedPackage)

/-- Reads import lines; the first other line is handed back beside them. The second component
holds the lines that were not looked at. -/
def ImportLine.parseAll (lineCount : Nat) :
    List ImportLine → List Line → Except SourceError (List ImportLine × Line) × List Line
  | _, [] => (.error (.unexpectedEnd lineCount), [])
  | found, line :: rest =>
    match line.text.toList with
    | '<' :: '<' :: text =>
      let name := trim text
      if Name.isQualified name then
        parseAll lineCount (⟨String.ofList name, line.number⟩ :: found) rest
      else (.error (.invalid line.number (.invalidImport (String.ofList name))), rest)
    | _ => (.ok (found.reverse, line), rest)

/-- Checks the type parameters from left to right against the ones before them. -/
def HeaderLine.checkParameters : List String → List (List Char) → Except LineFault (List String)
  | seen, [] => .ok seen.reverse
  | seen, piece :: pieces =>
    let name := String.ofList piece
    if !Name.isIdentifier piece then .error (.invalidParameter name)
    else if name ∈ seen then .error (.duplicateParameter name)
    else checkParameters (name :: seen) pieces

/-- The parts of a header: the name, and what stands between the first `<` and a `>` at the end. -/
def HeaderLine.parts (text : List Char) : Except LineFault (List Char × List String) :=
  match text.dropWhile (· != '<') with
  | [] => .ok (text, [])
  | _ :: rest =>
    if rest.getLast? = some '>' then do
      let parameters ← checkParameters [] ((rest.dropLast.splitOn ',').map trim)
      .ok (trim (text.takeWhile (· != '<')), parameters)
    else .error .unterminatedParameters

def HeaderLine.parse (line : Line) : Except SourceError HeaderLine :=
  match parts line.text.toList with
  | .error fault => .error (.invalid line.number fault)
  | .ok (name, parameters) =>
    if Name.isIdentifier name then .ok ⟨String.ofList name, parameters, line.number⟩
    else .error (.invalid line.number (.invalidClass (String.ofList name)))

namespace AttributeLine

def isOperator (c : Char) : Bool :=
  c == ':' || c == '!'

/-- The operator at the start of a text and what follows it. -/
def cutOperator? : List Char → Option (Nullability × List Char)
  | ':' :: rest => some (.nullable, rest)
  | '!' :: '!' :: rest => some (.neverNull, rest)
  | '!' :: rest => some (.notNull, rest)
  | _ => none

/-- A text without the white space around it; of a text that is all white space the last
character remains. -/
def core (s : List Char) : List Char :=
  if (trim s).isEmpty then s.drop (s.length - 1) else trim s

/-- The name, the null rule and the type of an attribute text, if it has that shape. -/
def parts? (text : List Char) : Option (List Char × Nullability × List Char) :=
  let name := text.takeWhile (!isOperator ·)
  match cutOperator? (text.dropWhile (!isOperator ·)) with
  | some (nullability, type) =>
    if name.isEmpty || type.isEmpty || type.any isOperator then none
    else some (core name, nullability, core type)
  | none => none

def parse (line : Line) : Except SourceError AttributeLine :=
  match parts? line.text.toList with
  | none => .error (.invalid line.number (.malformedAttribute line.text))
  | some (name, nullability, type) =>
    if Name.isIdentifier name then
      .ok ⟨String.ofList name, String.ofList type, nullability, line.number⟩
    else .error (.invalid line.number (.invalidAttribute (String.ofList name)))

end AttributeLine

namespace ClassSource

/-- Reads the significant lines of a source that has `lineCount` physical lines. -/
def ofLines (lineCount : Nat) : List Line → Except SourceError ClassSource
  | [] => .error (.unexpectedEnd lineCount)
  | first :: lines => do
    let package ← PackageLine.parse first
    let (found, rest) := ImportLine.parseAll lineCount [] lines
    let (imports, headerLine) ← found
    let header ← HeaderLine.parse headerLine
    let attributes ← rest.mapM AttributeLine.parse
    return { package, imports, header, attributes }

def parse (source : String) : Except SourceError ClassSource :=
  ofLines (lineCount source) (significantLines source)

end ClassSource

end BeanClass
