import BeanClass.Text.Blank
import BeanClass.Text.Cut

/-! # Significant lines

A source is read line by line. Blank lines and comments count for the numbering and are skipped.
-/

namespace BeanClass

/-- A trimmed line with its number in the source, counted from one. -/
structure Line where
  number : Nat
  text : String
  deriving DecidableEq, Repr

/-- Empty lines and lines that start with `#` carry no declaration. -/
def isSignificant : List Char → Bool
  | [] => false
  | c :: _ => c != '#'

/-- The number of physical lines. -/
def lineCount (source : String) : Nat :=
  (Text.lines source.toList).length

def significantLines (source : String) : List Line :=
  ((Text.lines source.toList).zipIdx 1).filterMap fun (raw, number) =>
    let text := Text.trim raw
    if isSignificant text then some ⟨number, String.ofList text⟩ else none

end BeanClass
