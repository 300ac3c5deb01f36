import KernelCatalog.Bytes.Digest
import KernelCatalog.Shell.Utility.Basic

/-!
# Lines and bytes

The utilities that read files or their input and print some of it, in another order or form, or
count it. A line keeps the line break at its end.
-/

namespace KernelCatalog.Shell

/-- The lines of bytes. -/
def linesOf : Bytes → List Bytes
  | [] => []
  | b :: rest =>
    if b == 10 then [b] :: linesOf rest
    else
      match linesOf rest with
      | first :: others => (b :: first) :: others
      | [] => [[b]]

/-- A line without its line break. -/
def bareLine (line : Bytes) : Bytes := line.filter (· ≠ 10)

/-- A bare line with its line break. -/
def fullLine (line : Bytes) : Bytes := line ++ [10]

/-- The order of bytes. -/
def bytesLe : Bytes → Bytes → Bool
  | [], _ => true
  | _ :: _, [] => false
  | a :: as, b :: bs => a < b || (a == b && bytesLe as bs)

/-- What a file or, for a hyphen, the input holds. -/
def sourceOf (call : Call) (path : String) : Except FileError Bytes :=
  if path == "-" then .ok call.input else call.files.read ⟨path⟩

/-- Whether a utility reads its input. -/
def readsInput (paths : List String) : Bool := paths.isEmpty || paths.contains "-"

/-- A utility that has read all of its input, if it reads it. -/
def Call.startReading (call : Call) (paths : List String) : Finish :=
  { call.start with left := if readsInput paths then some 0 else none }

/-- Goes through the sources of a utility, the input if there are none. What cannot be read is
complained about. -/
def forSources (call : Call) (paths : List String) (complain : String → FileError → String)
    (step : Finish → String → Bytes → Finish) (code : Nat := 1) : Finish :=
  (if paths.isEmpty then ["-"] else paths).foldl (fun finish path =>
    match sourceOf call path with
    | .ok bytes => step finish path bytes
    | .error e => finish.fail (complain path e) code) (call.startReading paths)

/-- The usual complaint about a source. -/
def plainComplaint (path : String) (e : FileError) : String := maybeQuoted path ++ ": " ++ reason e

/-- The lines of some bytes with their numbers in front. -/
def numbered (first : Nat) (bytes : Bytes) : Bytes :=
  (linesOf bytes).zipIdx.flatMap fun (line, i) =>
    Text.toBytes (Text.padLeft ' ' 6 (toString (first + i)) ++ "\t") ++ line

/-- Whether a source is the file that a utility prints to, and is not empty. -/
def isOutlet (call : Call) (path : String) (bytes : Bytes) : Bool :=
  match call.outlet, call.files.locate ⟨path⟩ with
  | .file location, .ok place => path != "-" && place == location && !bytes.isEmpty
  | _, _ => false

def cat : Utility :=
  withOptions
    { flags := "nuAbeEstTv", words := [("number", 'n')] }
    fun call arguments =>
      let all := forSources call arguments.others plainComplaint fun finish path bytes =>
        if isOutlet call path bytes then
          finish.fail (maybeQuoted path ++ ": input file is output file")
        else finish.print bytes
      if call.outlet == .closed then call.start.fail "standard output: Bad file descriptor"
      else if !arguments.has 'n' then all
      else
        let bytes := (all.printed.filter fun piece => !piece.1).flatMap (·.2)
        { all with
          printed := (false, numbered 1 bytes) :: all.printed.filter fun piece => piece.1 }

/-- A count, and whether a plus or a minus stands in front of it. -/
def count? (text : String) : Option (Option Char × Nat) :=
  let (sign, cs) : Option Char × List Char := match text.toList with
    | '+' :: rest => (some '+', rest)
    | '-' :: rest => (some '-', rest)
    | rest => (none, rest)
  if cs.isEmpty then none else (Text.digits? 0 cs).map fun n => (sign, n)

/-- Arguments of which the first may be a count behind a hyphen. -/
def withCount (args : List String) : List String :=
  match args with
  | first :: rest =>
    match first.toList with
    | '-' :: c :: cs =>
      if (c :: cs).all Char.isDigit then "-n" :: String.ofList (c :: cs) :: rest else args
    | _ => args
  | [] => []

/-- The front of some bytes. -/
def front (byLines : Bool) (sign : Option Char) (count : Nat) (bytes : Bytes) : Bytes :=
  if byLines then
    let lines := linesOf bytes
    (lines.take (if sign == some '-' then lines.length - count else count)).flatten
  else bytes.take (if sign == some '-' then bytes.length - count else count)

/-- The end of some bytes. -/
def back (byLines : Bool) (sign : Option Char) (count : Nat) (bytes : Bytes) : Bytes :=
  if byLines then
    let lines := linesOf bytes
    (lines.drop (if sign == some '+' then count - 1 else lines.length - count)).flatten
  else bytes.drop (if sign == some '+' then count - 1 else bytes.length - count)

/-- A utility that prints one end of its sources. -/
def oneEnd (cut : Bool → Option Char → Nat → Bytes → Bytes) : Utility := fun call =>
  withOptions
    { flags := "fFqvz", valued := "cn"
      words := [("lines", 'n'), ("bytes", 'c'), ("quiet", 'q'), ("verbose", 'v')] }
    (fun call arguments =>
      let byLines := (arguments.value? 'c').isNone
      let text := ((arguments.value? 'c').orElse fun _ => arguments.value? 'n').getD "10"
      match count? text with
      | none =>
        call.start.fail
          ("invalid number of " ++ (if byLines then "lines" else "bytes") ++ ": "
            ++ quotedName text)
      | some (sign, count) =>
        let titled := (1 < arguments.others.length && !arguments.has 'q') || arguments.has 'v'
        let complain (path : String) (e : FileError) : String :=
          (if e == .isDirectory then "error reading " ++ quotedName path
            else "cannot open " ++ quotedName path ++ " for reading") ++ ": " ++ reason e
        forSources call arguments.others complain fun finish path bytes =>
          let isFirst := finish.printed.all fun piece => piece.1
          let title := (if isFirst then "" else "\n") ++ "==> "
            ++ (if path == "-" then "standard input" else path) ++ " <=="
          (if titled then finish.line title else finish).print (cut byLines sign count bytes))
    1 { call with args := withCount call.args }

/-- The utility that prints the front of files. It leaves the rest of its input. -/
def head : Utility := fun call =>
  let finish := oneEnd front call
  match finish.left, finish.printed with
  | some 0, [(false, bytes)] => { finish with left := some (call.input.length - bytes.length) }
  | _, _ => finish

/-- The utility that prints the end of files. -/
def tail : Utility := oneEnd back

def isSpaceByte (b : UInt8) : Bool := b == 0x20 || (0x09 ≤ b && b ≤ 0x0d)

def wordCount : (inWord : Bool) → Bytes → Nat
  | _, [] => 0
  | inWord, b :: rest =>
    if isSpaceByte b then wordCount false rest
    else (if inWord then 0 else 1) + wordCount true rest

/-- The utility that counts lines, words and bytes. -/
def wc : Utility :=
  withOptions
    { flags := "clmwL", words := [("bytes", 'c'), ("lines", 'l'), ("words", 'w'), ("chars", 'm')] }
    fun call arguments =>
      let all := arguments.options.isEmpty
      let counts (bytes : Bytes) : List Nat :=
        (if all || arguments.has 'l' then [bytes.count 10] else [])
          ++ (if all || arguments.has 'w' then [wordCount false bytes] else [])
          ++ (if arguments.has 'm' then [bytes.length] else [])
          ++ (if all || arguments.has 'c' then [bytes.length] else [])
      let paths := arguments.others
      let known := (if paths.isEmpty then ["-"] else paths).filterMap fun path =>
        (sourceOf call path).toOption
      let total := counts known.flatten
      let isWide := readsInput paths || paths.any fun path => call.files.isDirectory ⟨path⟩
      let width :=
        if paths.length ≤ 1 && total.length ≤ 1 then 1
        else max (if isWide then 7 else 1) (toString known.flatten.length).length
      let row (counts : List Nat) (name : Option String) : String :=
        Text.join " " (counts.map fun n => Text.padLeft ' ' width (toString n))
          ++ (match name with
            | some name => " " ++ name
            | none => "")
      let told (finish : Finish) (path : String) (bytes : Bytes) : Finish :=
        finish.line (row (counts bytes) (if paths.isEmpty then none else some path))
      let listed := (if paths.isEmpty then ["-"] else paths).foldl (fun finish path =>
        match sourceOf call path with
        | .ok bytes => told finish path bytes
        | .error e =>
          let failed := finish.fail (plainComplaint path e)
          if e == .isDirectory then told failed path [] else failed) (call.startReading paths)
      if 1 < paths.length then listed.line (row total (some "total")) else listed

/-- The value of the digits at the front of a line. -/
def leadingNumber (line : Bytes) : Int :=
  let rest := line.dropWhile isSpaceByte
  let (negative, rest) := match rest with
    | 0x2d :: rest => (true, rest)
    | rest => (false, rest)
  let n : Nat := (rest.takeWhile fun b => 0x30 ≤ b && b ≤ 0x39).foldl
    (fun n b => n * 10 + (b.toNat - 0x30)) 0
  if negative then -(n : Int) else n

def sort : Utility :=
  withOptions
    { flags := "bdfgiMnhrRsuVz", valued := "kotT"
      words := [("reverse", 'r'), ("unique", 'u'), ("numeric-sort", 'n'), ("output", 'o')] }
    (fun call arguments =>
      let broken := arguments.others.find? fun path => !(sourceOf call path).isOk
      match broken with
      | some path =>
        let e := match sourceOf call path with
          | .error e => e
          | .ok _ => .notFound
        call.start.fail
          ((if e == .isDirectory then "read failed: " else "cannot read: ")
            ++ maybeQuoted path ++ ": " ++ reason e) 2
      | none =>
        let paths := if arguments.others.isEmpty then ["-"] else arguments.others
        let lines := paths.flatMap fun path =>
          (linesOf ((sourceOf call path).toOption.getD [])).map bareLine
        let numeric := arguments.has 'n'
        let le (a b : Bytes) : Bool :=
          if numeric && leadingNumber a ≠ leadingNumber b then leadingNumber a < leadingNumber b
          else bytesLe a b
        let sorted := lines.mergeSort fun a b => if arguments.has 'r' then le b a else le a b
        let chosen := if arguments.has 'u' then
            (sorted.zipIdx.filter fun (line, i) => i == 0 || sorted[i - 1]? != some line).map (·.1)
          else sorted
        let bytes := (chosen.map fullLine).flatten
        let start := call.startReading arguments.others
        match arguments.value? 'o' with
        | none => start.print bytes
        | some path =>
          match call.files.write ⟨path⟩ bytes with
          | .ok files => { start with files }
          | .error e =>
            start.fail ("open failed: " ++ maybeQuoted path ++ ": " ++ reason e) 2)
    2

/-- Lines that follow each other and are the same, with how many they are. -/
def groups : List Bytes → List (Bytes × Nat)
  | [] => []
  | line :: rest =>
    match groups rest with
    | (same, n) :: others =>
      if same == line then (line, n + 1) :: others else (line, 1) :: (same, n) :: others
    | [] => [(line, 1)]

def uniq : Utility :=
  withOptions
    { flags := "cdu", words := [("count", 'c'), ("repeated", 'd'), ("unique", 'u')] }
    fun call arguments =>
      forSources call (arguments.others.take 1) plainComplaint fun finish _ bytes =>
        let found := (groups ((linesOf bytes).map bareLine)).filter fun (_, n) =>
          (!arguments.has 'd' || 1 < n) && (!arguments.has 'u' || n == 1)
        finish.print (found.flatMap fun (line, n) =>
          (if arguments.has 'c' then Text.toBytes (Text.padLeft ' ' 7 (toString n) ++ " ") else [])
            ++ fullLine line)

/-- The bytes that a set of characters stands for. -/
def byteSet : (fuel : Nat) → List Char → Bytes
  | 0, _ | _, [] => []
  | fuel + 1, '\\' :: c :: rest =>
    let b : Char := ([('n', '\n'), ('t', '\t'), ('r', '\r'), ('0', '\x00')].lookup c).getD c
    UInt8.ofNat b.toNat :: byteSet fuel rest
  | fuel + 1, '[' :: ':' :: rest =>
    let name := String.ofList (rest.takeWhile (· ≠ ':'))
    let behind := (rest.dropWhile (· ≠ ':')).drop 2
    let isIn (c : Char) : Bool := match name with
      | "upper" => c.isUpper
      | "lower" => c.isLower
      | "alpha" => c.isAlpha
      | "digit" => c.isDigit
      | "alnum" => c.isAlphanum
      | "space" => isSpaceByte (UInt8.ofNat c.toNat)
      | _ => false
    ((List.range 128).filter fun n => isIn (Char.ofNat n)).map UInt8.ofNat ++ byteSet fuel behind
  | fuel + 1, a :: '-' :: b :: rest =>
    if a ≤ b then
      (List.range (b.toNat - a.toNat + 1)).map (fun i => UInt8.ofNat (a.toNat + i))
        ++ byteSet fuel rest
    else byteSet fuel rest
  | fuel + 1, c :: rest => Text.toBytes c.toString ++ byteSet fuel rest

/-- Bytes with those of a set squeezed to one where they repeat. -/
def squeeze (set : Bytes) : Bytes → Bytes
  | [] => []
  | b :: rest =>
    match squeeze set rest with
    | c :: more => if b == c && set.contains b then c :: more else b :: c :: more
    | [] => [b]

def tr : Utility :=
  withOptions
    { flags := "cCdst", words := [("delete", 'd'), ("squeeze-repeats", 's'), ("complement", 'c')] }
    fun call arguments =>
      let set (text : String) : Bytes := byteSet (text.length + 1) text.toList
      let chosen (text : String) : Bytes :=
        if arguments.has 'c' || arguments.has 'C' then
          ((List.range 256).map UInt8.ofNat).filter fun b => !(set text).contains b
        else set text
      let start := call.startReading []
      match arguments.others with
      | [] => call.refuse "missing operand"
      | [first] =>
        if arguments.has 'd' then
          start.print (call.input.filter fun b => !(chosen first).contains b)
        else if arguments.has 's' then start.print (squeeze (chosen first) call.input)
        else
          call.refuse ("missing operand after " ++ quotedName first
            ++ "\nTwo strings must be given when translating.")
      | first :: second :: _ =>
        let listed := chosen first
        let images := set second
        let image (b : UInt8) : UInt8 :=
          match listed.zipIdx.reverse.lookup b with
          | some i => (images[i]?).getD (images.getLastD b)
          | none => b
        let mapped := if arguments.has 'd' then call.input.filter fun b => !listed.contains b
          else call.input.map image
        start.print (if arguments.has 's' then squeeze images mapped else mapped)

/-- The ranges of a list such as `1,3-5`; an open end is none. -/
def ranges (text : String) : List (Nat × Option Nat) :=
  (Text.pieces ',' text.toList).map fun piece =>
    match Text.pieces '-' piece with
    | [only] => let n := (Text.digits? 0 only).getD 0; (n, some n)
    | low :: high :: _ =>
      (max 1 ((Text.digits? 0 low).getD 0), if high.isEmpty then none else Text.digits? 0 high)
    | [] => (0, some 0)

/-- Whether a number is in one of some ranges. -/
def inRanges (list : List (Nat × Option Nat)) (n : Nat) : Bool :=
  list.any fun (low, high) => low ≤ n && (match high with
    | some high => n ≤ high
    | none => true)

def cut : Utility :=
  withOptions
    { flags := "sn", valued := "bcdf"
      words := [("bytes", 'b'), ("characters", 'c'), ("delimiter", 'd'), ("fields", 'f'),
        ("only-delimited", 's')] }
    fun call arguments =>
      let places := (arguments.value? 'b').orElse fun _ => arguments.value? 'c'
      match places, arguments.value? 'f' with
      | none, none =>
        call.refuse "you must specify a list of bytes, characters, or fields"
      | some text, _ =>
        forSources call arguments.others plainComplaint fun finish _ bytes =>
          finish.print ((linesOf bytes).flatMap fun line =>
            let kept := (bareLine line).zipIdx.filter fun (_, i) => inRanges (ranges text) (i + 1)
            fullLine (kept.map (·.1)))
      | none, some text =>
        let delimiter := ((arguments.value? 'd').getD "\t").toList.headD '\t'
        let mark := UInt8.ofNat delimiter.toNat
        forSources call arguments.others plainComplaint fun finish _ bytes =>
          finish.print ((linesOf bytes).flatMap fun line =>
            let bare := bareLine line
            if !bare.contains mark then (if arguments.has 's' then [] else fullLine bare)
            else
              let fields := (bare.splitOn mark).zipIdx.filter fun (_, i) =>
                inRanges (ranges text) (i + 1)
              fullLine ((fields.map (·.1)).intersperse [mark]).flatten)

/-- The utility that prints its input and writes it to files. -/
def tee : Utility :=
  withOptions
    { flags := "aip", words := [("append", 'a')] }
    fun call arguments =>
      arguments.others.foldl (fun finish path =>
        let old := if arguments.has 'a' then (finish.files.read ⟨path⟩).toOption.getD [] else []
        match finish.files.write ⟨path⟩ (old ++ call.input) with
        | .ok files => { finish with files }
        | .error e => finish.fail (plainComplaint path e))
        ((call.startReading []).print call.input)

/-- The utility that prints its input in lines from the last to the first. -/
def tac : Utility :=
  withOptions { flags := "" } fun call arguments =>
    forSources call arguments.others plainComplaint fun finish _ bytes =>
      finish.print (linesOf bytes).reverse.flatten

/-- A whole number. -/
def whole? (text : String) : Option Int :=
  match text.toList with
  | '-' :: cs => if cs.isEmpty then none else (Text.digits? 0 cs).map fun n => -(n : Int)
  | '+' :: cs | cs => if cs.isEmpty then none else (Text.digits? 0 cs).map fun n => (n : Int)

def seq : Utility := fun call =>
  let broken := call.args.find? fun arg => (whole? arg).isNone
  match call.args, broken with
  | [], _ => call.refuse "missing operand"
  | _, some arg => call.refuse ("invalid floating point argument: " ++ quotedName arg)
  | args, none =>
    let (low, step, high) : Int × Int × Int := match args.filterMap whole? with
      | [high] => (1, 1, high)
      | [low, high] => (low, 1, high)
      | low :: step :: high :: _ => (low, step, high)
      | [] => (1, 1, 0)
    if step == 0 then
      call.refuse ("invalid Zero increment value: " ++ quotedName (args.getD 1 ""))
    else
      let count := if 0 < step then (high - low) / step + 1 else (low - high) / (-step) + 1
      let numbers := (List.range count.toNat).map fun (i : Nat) => low + step * (i : Int)
      call.start.print (numbers.flatMap fun n => Text.toBytes (toString n ++ "\n"))

/-- The utility that prints the digests of files. -/
def digest : Utility :=
  withOptions { flags := "bt" } fun call arguments =>
    forSources call arguments.others plainComplaint fun finish path bytes =>
      finish.line (Digest.sha256Hex bytes ++ "  " ++ path)

end KernelCatalog.Shell
