import KernelCatalog.Text.Blank

/-!
# Identifiers of generated source

Each kernel gets a constant in the generated source. `Identifier.sanitize` turns any name into a
legal identifier, and `Identifier.assign` numbers the repetitions, so that the identifiers of one
source are distinct and differ from the names that the source declares itself.
-/

namespace KernelCatalog.Identifier

/-- The name of the constant that holds the side of the source. -/
def sideConstant : String := "SIDE"

/-- The name of the constant that lists every kernel. -/
def tableConstant : String := "KERNELS"

/-- The words that are no identifiers. -/
def keywords : List String :=
  ["as", "async", "await", "break", "const", "continue", "crate", "dyn", "else", "enum", "extern",
   "false", "fn", "for", "gen", "if", "impl", "in", "let", "loop", "match", "mod", "move", "mut",
   "pub", "ref", "return", "self", "Self", "static", "struct", "super", "trait", "true", "try",
   "type", "unsafe", "use", "where", "while", "abstract", "become", "box", "do", "final", "macro",
   "override", "priv", "typeof", "unsized", "virtual", "yield", "union", "_"]

/-- Whether a character may stand in an identifier. -/
def isWord (c : Char) : Bool := c.isAlphanum || c == '_'

/-- The characters with an underscore in place of those that may not stand in an identifier. -/
def wordChars (cs : List Char) : List Char := cs.map fun c => if isWord c then c else '_'

/-- Characters that start with no digit: an underscore is put in front where one is needed. -/
def leadChars : List Char → List Char
  | [] => ['_']
  | c :: rest => if c.isDigit then '_' :: c :: rest else c :: rest

/-- The legal identifier made of a name. -/
def sanitize (name : String) : String :=
  let ident := String.ofList (leadChars (wordChars name.toList))
  if keywords.contains ident then ident ++ "_" else ident

/-- The first of `base_n`, `base_(n+1)`, … that is not taken. One of the first `fuel` is free when
fewer than `fuel` names are taken. -/
def numbered (taken : List String) (base : String) : (fuel n : Nat) → String
  | 0, n => base ++ "_" ++ toString n
  | fuel + 1, n =>
    let candidate := base ++ "_" ++ toString n
    if taken.contains candidate then numbered taken base fuel (n + 1) else candidate

/-- The base itself if it is not taken, and otherwise the first free numbered form from `_2` on. -/
def free (taken : List String) (base : String) : String :=
  if taken.contains base then numbered taken base taken.length 2 else base

/-- The identifiers of a list of names, where the given ones are taken already. -/
def assignFrom (taken : List String) : List String → List String
  | [] => []
  | name :: rest =>
    let ident := free taken (sanitize name)
    ident :: assignFrom (ident :: taken) rest

/-- The identifiers of a list of names, in order. -/
def assign (names : List String) : List String := assignFrom [sideConstant, tableConstant] names

end KernelCatalog.Identifier
