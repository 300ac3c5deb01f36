import KernelCatalog.Text.Split

/-!
# Options on a command line

A command has named options, some of which take a value, and a number of plain arguments. An option
is written `--name value` or `--name=value`; behind `--` everything is a plain argument. An option
that is given twice is refused unless it collects its values.
-/

namespace KernelCatalog.CommandLine

/-- How an option is used. -/
inductive Arity where
  /-- It has no value. -/
  | flag
  /-- It has one value. -/
  | single
  /-- It may be given several times; each time it has a value. -/
  | many
  deriving DecidableEq, Repr

/-- An option of a command. -/
structure OptionSpec where
  name : String
  arity : Arity
  short : Option Char := none
  /-- Whether its value may start with a dash. -/
  dashes : Bool := false
  deriving DecidableEq, Repr

/-- What is given on a command line: the options with their values, in order, and the arguments. -/
structure Given where
  options : List (String × String) := []
  arguments : List String := []
  deriving DecidableEq, Repr

namespace Given

/-- Whether an option is given. -/
def has (given : Given) (name : String) : Bool := given.options.any fun entry => entry.1 == name

/-- The values of an option, in order. -/
def values (given : Given) (name : String) : List String :=
  (given.options.filter fun entry => entry.1 == name).map (·.2)

/-- The value of an option. -/
def value? (given : Given) (name : String) : Option String := (given.values name).head?

/-- The command line with an option added, unless it is one that may be given once only and is given
already. -/
def addOption? (given : Given) (option : OptionSpec) (value : String) : Option Given :=
  if option.arity != .many && given.has option.name then none
  else some { given with options := given.options ++ [(option.name, value)] }

def addArgument (given : Given) (text : String) : Given :=
  { given with arguments := given.arguments ++ [text] }

/-- The command line with the flags of the given letters. -/
def addLetters? (table : List OptionSpec) (given : Given) : List Char → Option Given
  | [] => some given
  | c :: rest =>
    match table.find? fun option => option.short == some c && option.arity == .flag with
    | none => none
    | some option => (given.addOption? option "").bind fun given => given.addLetters? table rest

/-- Whether a text can be the value of an option. -/
def canBeValue (option : OptionSpec) (text : String) : Bool :=
  option.dashes || text == "-" || text.toList.head? != some '-'

/-- Reads a command line. -/
def read? (table : List OptionSpec) (given : Given) : List String → Option Given
  | [] => some given
  | text :: rest =>
    match text.toList with
    | ['-', '-'] => some { given with arguments := given.arguments ++ rest }
    | '-' :: '-' :: long =>
      let (name, behind) := long.span (· ≠ '=')
      match table.find? fun option => option.name == String.ofList name with
      | none => none
      | some option =>
        match option.arity, behind, rest with
        | .flag, [], rest => (given.addOption? option "").bind fun given => given.read? table rest
        | .flag, _ :: _, _ => none
        | _, _ :: value, rest =>
          (given.addOption? option (String.ofList value)).bind fun given => given.read? table rest
        | _, [], [] => none
        | _, [], value :: rest =>
          if canBeValue option value then
            (given.addOption? option value).bind fun given => given.read? table rest
          else none
    | '-' :: c :: letters =>
      (given.addLetters? table (c :: letters)).bind fun given => given.read? table rest
    | _ => (given.addArgument text).read? table rest

end Given

end KernelCatalog.CommandLine
