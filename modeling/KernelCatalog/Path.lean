import KernelCatalog.Text.Split

/-!
# Paths

A path is a text of components with `/` between them. Two paths are the same when their components
are: repeated and trailing separators and inner `.` components do not count, while `..` is a
component like any other. Taking a path apart keeps the text of what is left.
-/

namespace KernelCatalog

/-- A path, as it is written. -/
structure Path where
  text : String
  deriving DecidableEq, Repr

namespace Path

/-- One component of a path. -/
inductive Component where
  /-- The root directory, in front of an absolute path. -/
  | root
  /-- A `.` in front of a relative path. -/
  | current
  /-- A name, or `..`. -/
  | name (text : List Char)
  deriving DecidableEq, Repr

/-- What a path starts with, and the characters behind it. -/
def headBody (cs : List Char) : Option Component × List Char :=
  match cs with
  | '/' :: rest => (some .root, rest)
  | ['.'] => (some .current, [])
  | '.' :: '/' :: rest => (some .current, '/' :: rest)
  | _ => (none, cs)

/-- The characters that a first component is written with. -/
def headChars : Option Component → List Char
  | some .root => ['/']
  | some .current => ['.']
  | _ => []

/-- Whether a piece between separators is a component. -/
def isName (piece : List Char) : Bool := piece != [] && piece != ['.']

/-- The components behind the first one. -/
def bodyNames (body : List Char) : List (List Char) := (Text.pieces '/' body).filter isName

/-- The components of a path. -/
def components (path : Path) : List Component :=
  let (head, body) := headBody path.text.toList
  head.toList ++ (bodyNames body).map .name

/-- Whether two paths have the same components. -/
def same (a b : Path) : Bool := a.components == b.components

/-- Whether a path starts at the root directory. -/
def isAbsolute (path : Path) : Bool := path.text.toList.head? == some '/'

/-- A path behind another one; an absolute path replaces what is in front of it. -/
def join (path : Path) (other : String) : Path :=
  if (Path.mk other).isAbsolute then ⟨other⟩
  else
    match path.text.toList.getLast? with
    | none | some '/' => ⟨path.text ++ other⟩
    | some _ => ⟨path.text ++ "/" ++ other⟩

/-- The characters from the first component on. -/
def trimFront : List Char → List Char
  | [] => []
  | '/' :: rest => trimFront rest
  | ['.'] => []
  | '.' :: '/' :: rest => trimFront rest
  | c :: rest => c :: rest

/-- The characters up to the end of the last component. -/
def trimBack (cs : List Char) : List Char := (trimFront cs.reverse).reverse

/-- The characters behind the first component. -/
def dropName (cs : List Char) : List Char := (trimFront cs).dropWhile (· ≠ '/')

/-- The characters behind the first `count` components. -/
def dropNames : Nat → List Char → List Char
  | 0, cs => cs
  | count + 1, cs => dropNames count (dropName cs)

/-- The text of a path behind its first `count` components. -/
def dropComponents (count : Nat) (path : Path) : Path :=
  let (head, body) := headBody path.text.toList
  if count = 0 then ⟨String.ofList (headChars head ++ trimBack body)⟩
  else ⟨String.ofList (trimBack (trimFront (dropNames (count - head.toList.length) body)))⟩

/-- What is left of a path behind `base`, if `base` is at its front component by component. -/
def relativeTo? (path base : Path) : Option Path :=
  if base.components.isPrefixOf path.components then
    some (path.dropComponents base.components.length)
  else none

/-- The path without its last component; the root and the empty path have none. -/
def parent? (path : Path) : Option Path :=
  let (head, body) := headBody path.text.toList
  if (bodyNames body).isEmpty then
    match head with
    | some .current => some ⟨""⟩
    | _ => none
  else
    let front := (trimFront body.reverse).dropWhile (· ≠ '/')
    some ⟨String.ofList (headChars head ++ trimBack front.reverse)⟩

/-- The last component, if it is a name other than `..`. -/
def fileName? (path : Path) : Option String :=
  match path.components.getLast? with
  | some (.name text) => if text = ['.', '.'] then none else some (String.ofList text)
  | _ => none

/-- What stands behind the last point of the last component, where something stands in front of
it. -/
def extension? (path : Path) : Option String :=
  match path.fileName? with
  | none => none
  | some name =>
    let back := name.toList.reverse
    match back.dropWhile (· ≠ '.') with
    | [] | ['.'] => none
    | _ :: _ => some (String.ofList (back.takeWhile (· ≠ '.')).reverse)

end Path

end KernelCatalog
