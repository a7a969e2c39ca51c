import BeanClass.Text.Cut

/-! # Paths

Paths are texts; names in them are separated by slashes, `.` stays and `..` goes up.
-/

namespace BeanClass.Path

/-- The most bytes that a name has. -/
def maxName : Nat := 255

/-- The most bytes that a path has. -/
def maxPath : Nat := 4095

/-- The pieces between slashes, empty ones included. -/
def pieces (path : String) : List String :=
  (path.toList.splitOn '/').map String.ofList

def ofPieces (pieces : List String) : String :=
  String.intercalate "/" pieces

def isAbsolute (path : String) : Bool :=
  path.toList.head? == some '/'

/-- The names to follow from the start of the path; a slash at the end follows `.`. -/
def steps (path : String) : List String :=
  let names := (pieces path).filter (!·.isEmpty)
  if (pieces path).getLast? == some "" && !names.isEmpty then names ++ ["."] else names

/-- Drops slashes from the end, but not from its start. -/
def withoutSlashes (path : String) : String :=
  match path.toList with
  | [] => path
  | c :: s => String.ofList (c :: (s.reverse.dropWhile (· == '/')).reverse)

/-- The pieces in reverse order, without those at the end that stay in place. -/
def reversedPieces (path : String) : List String :=
  (pieces path).reverse.dropWhile fun piece => piece.isEmpty || piece == "."

/-- The last name, unless the path ends by going up. -/
def fileName? (path : String) : Option String :=
  match reversedPieces path with
  | [] => none
  | name :: _ => if name = ".." then none else some name

/-- A name without what follows its last dot; a dot at its start does not count. -/
def stem (name : String) : String :=
  let reversed := name.toList.reverse
  match reversed.dropWhile (· != '.') with
  | [] | [_] => name
  | _ :: rest => String.ofList rest.reverse

/-- The length of what follows the last dot of a name; a dot at its start does not count. -/
def extensionLength (name : String) : Nat :=
  let reversed := name.toList.reverse
  match reversed.dropWhile (· != '.') with
  | [] | [_] => 0
  | _ => (reversed.takeWhile (· != '.')).length

/-- A path without as many characters at its end as the extension of its last name has. -/
def withoutExtension (path : String) : String :=
  match fileName? path with
  | none => path
  | some name => String.ofList (path.toList.take (path.length - extensionLength name))

/-- Puts an extension behind the stem of the last name. -/
def extendStem (path extension : String) : String :=
  match reversedPieces path with
  | [] => path
  | name :: rest =>
    if name = ".." then path
    else ofPieces ((stem name ++ "." ++ extension) :: rest).reverse

/-- Replaces the extension of the last name. The old one is cut off first, and a path that then ends
by going up stays so: the name `..x` becomes `..`. -/
def withExtension (path extension : String) : String :=
  extendStem (withoutExtension path) extension

/-- The path of a name in a directory. -/
def join (directory name : String) : String :=
  if directory.isEmpty || directory.toList.getLast? == some '/' then directory ++ name
  else directory ++ "/" ++ name

/-- The names of a path without those that stay in place, of which only one at the start is kept. -/
def components (path : String) : List String :=
  match steps path with
  | [] => []
  | first :: rest =>
    let rest := rest.filter (· != ".")
    if first == "." && isAbsolute path then rest else first :: rest

/-- The paths of the directories above, the nearest one first. -/
def parents (path : String) : List String :=
  let names := components path
  (List.range names.length).reverse.map fun n =>
    (if isAbsolute path then "/" else "") ++ ofPieces (names.take n)

end BeanClass.Path
