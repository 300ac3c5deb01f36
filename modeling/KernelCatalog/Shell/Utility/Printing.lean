import KernelCatalog.Shell.Utility.Basic

/-!
# Printing

The texts of `echo`, in which escapes are replaced, and those of `printf`, which are made by a
format.
-/

namespace KernelCatalog.Shell.Printing

/-- The number that up to `count` octal digits write, and the characters behind them. -/
def readOctal : (count : Nat) → (sofar : Nat) → List Char → Nat × List Char
  | 0, n, cs => (n, cs)
  | count + 1, n, c :: rest =>
    if '0' ≤ c && c ≤ '7' then readOctal count (n * 8 + (c.toNat - '0'.toNat)) rest
    else (n, c :: rest)
  | _, n, [] => (n, [])

/-- The byte that an escaped letter stands for. -/
def escaped? (c : Char) : Option UInt8 :=
  [('n', 10), ('t', 9), ('r', 13), ('a', 7), ('b', 8), ('e', 27), ('f', 12), ('v', 11),
    ('\\', 92)].lookup c

def charBytes (c : Char) : Bytes := Text.toBytes c.toString

/-- The bytes that an escape stands for, given what is behind its backslash, and what is left. -/
def escape (cs : List Char) : Bytes × List Char :=
  match cs with
  | [] => ([92], [])
  | c :: rest =>
    if '0' ≤ c && c ≤ '7' then
      let (n, left) := readOctal 3 0 cs
      ([UInt8.ofNat n], left)
    else
      match escaped? c with
      | some b => ([b], rest)
      | none => ([92], cs)

/-- The bytes of a text with its escapes replaced, and whether one of them ended it. An octal
number may have a zero in front. -/
def unescape : (fuel : Nat) → List Char → Bytes × Bool
  | 0, _ | _, [] => ([], false)
  | fuel + 1, '\\' :: rest =>
    match rest with
    | 'c' :: _ => ([], true)
    | _ =>
      let (bytes, left) := match rest with
        | '0' :: digits =>
          let (n, left) := readOctal 3 0 digits
          ([UInt8.ofNat n], left)
        | _ => escape rest
      let (more, stopped) := unescape fuel left
      (bytes ++ more, stopped)
  | fuel + 1, c :: rest =>
    let (more, stopped) := unescape fuel rest
    (charBytes c ++ more, stopped)

/-- What `echo` prints. -/
def echo (args : List String) : Bytes :=
  let (words, ending) : List String × Bytes := match args with
    | "-n" :: rest => (rest, [])
    | all => (all, [10])
  let text := (Text.join " " words).toList
  let (bytes, stopped) := unescape (text.length + 1) text
  if stopped then bytes else bytes ++ ending

/-- What `echo` prints where escapes are replaced only if that is asked for. -/
def plainEcho (args : List String) : Bytes :=
  let isOption (arg : String) : Bool :=
    match arg.toList with
    | '-' :: c :: cs => (c :: cs).all fun c => "neE".toList.contains c
    | _ => false
  let letters := (args.takeWhile isOption).flatMap fun arg => arg.toList.drop 1
  let text := (Text.join " " (args.dropWhile isOption)).toList
  let ending : Bytes := if letters.contains 'n' then [] else [10]
  if (letters.filter fun c => c != 'n').getLast? == some 'e' then
    let (bytes, stopped) := unescape (text.length + 1) text
    if stopped then bytes else bytes ++ ending
  else Text.toBytes (String.ofList text) ++ ending

/-! ## Formats -/

/-- What a format directive asks for. -/
structure Directive where
  flags : List Char := []
  width : Nat := 0
  precision : Option Nat := none
  kind : Char

/-- The state of printing by a format. -/
structure Progress where
  printed : Bytes := []
  args : List String
  warnings : List String := []
  /-- Whether an argument has been asked for. -/
  used : Bool := false
  /-- Whether printing has ended. -/
  stopped : Bool := false
  /-- Whether the format is wrong. -/
  failed : Bool := false

/-- Bytes filled up to the width of a directive. -/
def padded (directive : Directive) (bytes : Bytes) : Bytes :=
  let missing := directive.width - bytes.length
  if directive.flags.contains '-' then bytes ++ List.replicate missing 32
  else List.replicate missing 32 ++ bytes

/-- A number filled up by a directive, given its sign and digits. -/
def paddedNumber (directive : Directive) (sign digits : String) : Bytes :=
  let digits := match directive.precision with
    | some n => if n = 0 ∧ digits = "0" then "" else Text.padLeft '0' n digits
    | none =>
      if directive.flags.contains '0' && !directive.flags.contains '-' then
        Text.padLeft '0' (directive.width - sign.length) digits
      else digits
  padded directive (Text.toBytes (sign ++ digits))

/-- The number that an argument is, with what is said if it is none. -/
def numberOf (text : String) : Int × Option String :=
  match text.toList with
  | '"' :: c :: _ | '\'' :: c :: _ => ((Text.toBytes c.toString).headD 0 |>.toNat, none)
  | cs =>
    let isBlank (c : Char) : Bool := c == ' ' || ('\t' ≤ c && c ≤ '\r')
    let trimmed := cs.dropWhile isBlank
    let (negative, body) := match trimmed with
      | '-' :: rest => (true, rest)
      | '+' :: rest => (false, rest)
      | cs => (false, cs)
    let hex (rest : List Char) : Nat × List Char :=
      if (rest.head?.bind Text.hexDigit?).isSome then (16, rest) else (8, body)
    let (base, digits) := match body with
      | '0' :: 'x' :: rest | '0' :: 'X' :: rest => hex rest
      | '0' :: _ => (8, body)
      | _ => (10, body)
    let isDigit (c : Char) : Bool := ((Text.hexDigit? c).map fun d => decide (d < base)).getD false
    let (valid, behind) := digits.span isDigit
    let n := valid.foldl (fun n c => n * base + (Text.hexDigit? c).getD 0) 0
    let value : Int := if negative then -n else n
    let limit : Int := 0x7fffffffffffffff
    if cs.isEmpty then (0, none)
    else if valid.isEmpty then (0, some (text ++ ": expected numeric value"))
    else if value > limit ∨ value < -limit - 1 then
      (if negative then -limit - 1 else limit,
        some (text ++ ": Numerical result out of range"))
    else if !behind.isEmpty then (value, some (text ++ ": not completely converted"))
    else (value, none)

/-- The text of a number by a directive. -/
def number (directive : Directive) (value : Int) : Bytes :=
  let word := (value.emod 0x10000000000000000).toNat
  let digits (base : Nat) : String := String.ofList (Nat.toDigits base word)
  let special := directive.flags.contains '#'
  match directive.kind with
  | 'x' => paddedNumber directive (if special && word != 0 then "0x" else "") (digits 16)
  | 'X' =>
    paddedNumber directive (if special && word != 0 then "0X" else "")
      (String.ofList ((digits 16).toList.map Char.toUpper))
  | 'o' => paddedNumber directive (if special then "0" else "") (digits 8)
  | 'u' => paddedNumber directive "" (digits 10)
  | _ =>
    let sign := if value < 0 then "-" else if directive.flags.contains '+' then "+"
      else if directive.flags.contains ' ' then " " else ""
    paddedNumber directive sign (toString value.natAbs)

/-- The progress after one argument has been taken, and this argument. -/
def nextArg (progress : Progress) : Option String × Progress :=
  match progress.args with
  | [] => (none, { progress with used := true })
  | arg :: rest => (some arg, { progress with args := rest, used := true })

/-- A number of a width or a precision, which an asterisk takes from the arguments, and what is left
of the format. -/
def readCount (cs : List Char) (progress : Progress) : Option Int × List Char × Progress :=
  match cs with
  | '*' :: left =>
    let (arg, progress) := nextArg progress
    let (value, warning) := numberOf (arg.getD "")
    (some value, left, { progress with warnings := progress.warnings ++ warning.toList })
  | cs =>
    let (digits, left) := cs.span Char.isDigit
    let number := if digits.isEmpty then none else (Text.digits? 0 digits).map fun n => (n : Int)
    (number, left, progress)

/-- The progress at a format that is wrong. -/
def Progress.fail (progress : Progress) (message : String) : Progress :=
  { progress with stopped := true, failed := true, warnings := progress.warnings ++ [message] }

/-- The progress after bytes have been printed. -/
def Progress.print (progress : Progress) (bytes : Bytes) : Progress :=
  { progress with printed := progress.printed ++ bytes }

/-- Follows a directive. -/
def follow (directive : Directive) (progress : Progress) : Progress :=
  let cutTo (bytes : Bytes) : Bytes := match directive.precision with
    | some n => bytes.take n
    | none => bytes
  let (arg, progress) := nextArg progress
  let text := arg.getD ""
  match directive.kind with
  | 's' => progress.print (padded directive (cutTo (Text.toBytes text)))
  | 'c' => progress.print (padded directive ((Text.toBytes text).take 1))
  | 'b' =>
    let (bytes, stopped) := unescape (text.length + 1) text.toList
    { progress.print (padded directive (cutTo bytes)) with stopped }
  | _ =>
    let (value, warning) := match arg with
      | none => ((0 : Int), none)
      | some text => numberOf text
    { progress.print (number directive value) with
      warnings := progress.warnings ++ warning.toList }

/-- One pass of a format over arguments. -/
def pass : (fuel : Nat) → List Char → Progress → Progress
  | 0, _, progress | _, [], progress => progress
  | fuel + 1, c :: rest, progress =>
    if progress.stopped then progress
    else if c == '\\' then
      let (bytes, left) := escape rest
      pass fuel left (progress.print bytes)
    else if c != '%' then pass fuel rest (progress.print (charBytes c))
    else
      match rest with
      | '%' :: left => pass fuel left (progress.print [37])
      | _ =>
        let (flags, left) := rest.span fun c => "#-+ 0".toList.contains c
        let (width, left, progress) := readCount left progress
        let (precision, left, progress) := match left with
          | '.' :: left =>
            let (n, left, progress) := readCount left progress
            (some (n.getD 0).toNat, left, progress)
          | _ => (none, left, progress)
        let width := width.getD 0
        let flags := if width < 0 then '-' :: flags else flags
        match left with
        | [] => progress.fail "missing format character"
        | kind :: left =>
          if "diouxXscb".toList.contains kind then
            pass fuel left (follow ⟨flags, width.natAbs, precision, kind⟩ progress)
          else progress.fail ("%" ++ kind.toString ++ ": invalid directive")

/-- A format applied again and again until no arguments are left. -/
def passes (format : List Char) : (fuel : Nat) → Progress → Progress
  | 0, progress => progress
  | fuel + 1, progress =>
    let progress := pass (format.length + 1) format progress
    if progress.stopped || !progress.used || progress.args.isEmpty then progress
    else passes format fuel progress

/-- What `printf` prints, what it warns of, and its exit code. -/
def printf (format : String) (args : List String) : Bytes × List String × Nat :=
  let progress := passes format.toList (args.length + 1) { args }
  let code := if progress.failed then 2 else if progress.warnings.isEmpty then 0 else 1
  (progress.printed, progress.warnings, code)

end KernelCatalog.Shell.Printing
