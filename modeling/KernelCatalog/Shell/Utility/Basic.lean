import KernelCatalog.Files.Access
import KernelCatalog.Text.Decimal

/-!
# Utilities

A utility is a program that does one thing to the files it is given. It takes its arguments, its
input and the files, and gives its exit code, what it prints, and the files it leaves. Options are
letters behind a hyphen, or words behind two.
-/

namespace KernelCatalog.Shell

/-- Where a utility prints to. -/
inductive Outlet where
  /-- Nowhere, since there is nothing to print to. -/
  | closed
  /-- The file at a place. -/
  | file (location : Location)
  | other
  deriving DecidableEq, Repr

/-- What a utility is called with. -/
structure Call where
  name : String
  args : List String
  input : Bytes
  files : Files
  /-- The names and values that it is given. -/
  environment : List (String × String)
  outlet : Outlet := .other

/-- What a utility leaves behind. -/
structure Finish where
  /-- The name that its messages start with. -/
  name : String
  files : Files
  code : Nat := 0
  /-- What it prints, in order, each piece to its errors or not. -/
  printed : List (Bool × Bytes) := []
  /-- How much of its input it leaves unread, if it reads any. -/
  left : Option Nat := none

/-- A program that does one thing. -/
abbrev Utility := Call → Finish

/-- The words of a failure, without its number. -/
def reason : FileError → String
  | .notFound => "No such file or directory"
  | .notDirectory => "Not a directory"
  | .isDirectory => "Is a directory"
  | .alreadyExists => "File exists"
  | .permissionDenied => "Permission denied"
  | .nameTooLong => "File name too long"
  | .notExecutable => "Exec format error"
  | .notEmpty => "Directory not empty"
  | .tooManyLinks => "Too many levels of symbolic links"
  | .busy => "Device or resource busy"
  | _ => "Invalid argument"

namespace Finish

/-- The end of a utility after it has printed bytes. -/
def print (finish : Finish) (bytes : Bytes) : Finish :=
  { finish with printed := finish.printed ++ [(false, bytes)] }

/-- The end of a utility after it has printed a line. -/
def line (finish : Finish) (text : String) : Finish := finish.print (Text.toBytes (text ++ "\n"))

/-- The end of a utility with a message and an exit code. -/
def fail (finish : Finish) (message : String) (code : Nat := 1) : Finish :=
  { finish with
    code := max code finish.code
    printed := finish.printed ++ [(true, Text.toBytes (finish.name ++ ": " ++ message ++ "\n"))] }

end Finish

namespace Call

/-- A utility that has done nothing yet. -/
def start (call : Call) : Finish := { name := call.name, files := call.files }

/-- Refuses what a utility is called with. -/
def refuse (call : Call) (message : String) (code : Nat := 1) : Finish :=
  call.start.fail (message ++ "\nTry '" ++ call.name ++ " --help' for more information.") code

end Call

/-! ## Quoted names -/

/-- A byte as messages write it where it cannot be shown. -/
def shownByte (b : UInt8) : String :=
  match [(0x07, "\\a"), (0x08, "\\b"), (0x09, "\\t"), (0x0a, "\\n"), (0x0b, "\\v"), (0x0c, "\\f"),
      (0x0d, "\\r")].lookup b.toNat with
  | some text => text
  | none => "\\" ++ Text.padLeft '0' 3 (String.ofList (Nat.toDigits 8 b.toNat))

/-- Whether a byte can be shown as it is. -/
def isShown (b : UInt8) : Bool := 0x20 ≤ b && b ≤ 0x7e

/-- Bytes up to a closing quote. Those that cannot be shown stand between quotes of their own; the
flag says which quotes are open. -/
def quoteBytes : (shown : Bool) → Bytes → String
  | _, [] => "'"
  | true, b :: rest =>
    if b == 0x27 then "'\\''" ++ quoteBytes true rest
    else if isShown b then (Char.ofNat b.toNat).toString ++ quoteBytes true rest
    else "'$'" ++ shownByte b ++ quoteBytes false rest
  | false, b :: rest =>
    if isShown b then
      "''" ++ (if b == 0x27 then "'\\''" else (Char.ofNat b.toNat).toString)
        ++ quoteBytes true rest
    else shownByte b ++ quoteBytes false rest

/-- A name as messages quote it: so that the shell would read it back. -/
def quotedName (name : String) : String :=
  let cs := name.toList
  let plain := (Text.toBytes name).all isShown
  if plain && cs.contains '\'' && !(cs.any fun c => "\"$\x60\\".toList.contains c) then
    "\"" ++ name ++ "\""
  else "'" ++ quoteBytes true (Text.toBytes name)

/-- A name as messages quote it where they can do without. -/
def maybeQuoted (name : String) : String :=
  let isPlain (c : Char) : Bool := c.isAlphanum || "_-./:,+@%=".toList.contains c
  if name.isEmpty || !name.toList.all isPlain then quotedName name else name

/-! ## Options -/

/-- The options that a utility has. -/
structure OptionList where
  /-- The letters of those without a value. -/
  flags : String
  /-- The letters of those with a value. -/
  valued : String := ""
  /-- The letters that words stand for. -/
  words : List (String × Char) := []

/-- The options and the other arguments of a call. -/
structure Arguments where
  options : List (Char × String) := []
  others : List String := []

namespace Arguments

/-- Whether an option is given. -/
def has (arguments : Arguments) (letter : Char) : Bool :=
  arguments.options.any fun option => option.1 == letter

/-- The last value that an option is given. -/
def value? (arguments : Arguments) (letter : Char) : Option String :=
  arguments.options.reverse.lookup letter

/-- The arguments with an option in front. -/
def withOption (letter : Char) (value : String) (arguments : Arguments) : Arguments :=
  { arguments with options := (letter, value) :: arguments.options }

end Arguments

namespace OptionList

/-- The options that letters behind a hyphen give: what is wrong with them, or whether the last one
takes the next argument. -/
def cluster (list : OptionList) : List Char → Except Char (List (Char × String) × Option Char)
  | [] => .ok ([], none)
  | c :: rest =>
    if list.valued.toList.contains c then
      if rest.isEmpty then .ok ([], some c) else .ok ([(c, String.ofList rest)], none)
    else if list.flags.toList.contains c then do
      let (options, pending) ← list.cluster rest
      .ok ((c, "") :: options, pending)
    else .error c

/-- The options and other arguments, or what is said about a wrong one. -/
def parse (list : OptionList) : List String → Except String Arguments
  | [] => .ok {}
  | arg :: rest =>
    match arg.toList with
    | ['-', '-'] => .ok { others := rest }
    | '-' :: '-' :: cs =>
      let word := String.ofList (cs.takeWhile (· ≠ '='))
      match list.words.find? fun entry => word.isPrefixOf entry.1 with
      | none => .error ("unrecognized option '" ++ arg ++ "'")
      | some (_, letter) => do
        let value := String.ofList ((cs.dropWhile (· ≠ '=')).drop 1)
        if list.valued.toList.contains letter && !cs.contains '=' then
          match rest with
          | [] => .error ("option '" ++ arg ++ "' requires an argument")
          | next :: rest => .ok ((← list.parse rest).withOption letter next)
        else .ok ((← list.parse rest).withOption letter value)
    | '-' :: c :: cs =>
      match list.cluster (c :: cs) with
      | .error letter => .error ("invalid option -- '" ++ letter.toString ++ "'")
      | .ok (options, none) => do
        let arguments ← list.parse rest
        .ok { arguments with options := options ++ arguments.options }
      | .ok (options, some letter) =>
        match rest with
        | [] => .error ("option requires an argument -- '" ++ letter.toString ++ "'")
        | value :: rest => do
          let arguments ← list.parse rest
          .ok { arguments with options := options ++ (letter, value) :: arguments.options }
    | _ => do
      let arguments ← list.parse rest
      .ok { arguments with others := arg :: arguments.others }

end OptionList

/-- A utility with options. -/
def withOptions (list : OptionList) (run : Call → Arguments → Finish) (code : Nat := 1) : Utility :=
  fun call =>
    match list.parse call.args with
    | .error message => call.refuse message code
    | .ok arguments => run call arguments

end KernelCatalog.Shell
