import KernelCatalog.Shell.Utility.Entries
import KernelCatalog.Shell.Utility.Lines

/-!
# Copying with changes

The utilities that copy a file with a given mode, that copy some blocks of it, that change its size,
and that compare it with another one.
-/

namespace KernelCatalog.Shell

/-! ## Installing -/

def installOne (permissions : Permissions) (around verbose : Bool) (finish : Finish)
    (source target : String) : Finish :=
  match targetAt finish.files source with
  | .error e => finish.fail ("cannot stat " ++ quotedName source ++ ": " ++ reason e)
  | .ok (_, .directory) => finish.fail ("omitting directory " ++ quotedName source)
  | .ok (origin, node) =>
    let made := if around then
        (directoriesAround (target.length + 1) target).head?.elim finish (makeTree false finish)
      else finish
    let style : CopyStyle :=
      { recursive := false, followed := true, kept := false, forced := true, verbose,
        linked := false }
    let copied := copyNode style made source target origin node
    if copied.code ≠ finish.code then copied
    else
      match copied.files.setPermissions ⟨target⟩ permissions with
      | .ok files => { copied with files }
      | .error _ => copied

/-- The utility that copies files with a mode, or makes directories. -/
def install : Utility :=
  withOptions
    { flags := "bcCdDpsTv", valued := "gmotS"
      words := [("directory", 'd'), ("mode", 'm'), ("target-directory", 't'), ("verbose", 'v'),
        ("no-target-directory", 'T')] }
    fun call arguments =>
      let mode := (arguments.value? 'm').getD "755"
      match changeMode false mode .none with
      | none => call.start.fail ("invalid mode " ++ quotedName mode)
      | some mode =>
        if arguments.has 'd' then
          forOperands call "missing file operand" arguments.others (makeTree false)
        else
          match goalOf call (arguments.value? 't') (!arguments.has 'T') arguments.others with
          | .error finish => finish
          | .ok goal =>
            goal.run (installOne mode.permissions (arguments.has 'D') (arguments.has 'v'))
              call.start

/-! ## Sizes -/

/-- A number of bytes, with a letter for a power of 1024 behind it or not. -/
def size? (text : String) : Option Nat :=
  let (digits, unit) := text.toList.span Char.isDigit
  let factor : Option Nat := match unit with
    | [] | ['c'] | ['B'] => some 1
    | ['b'] => some 512
    | ['k'] | ['K'] => some 1024
    | ['M'] => some (1024 * 1024)
    | _ => none
  if digits.isEmpty then none
  else do
    let n ← Text.digits? 0 digits
    let factor ← factor
    some (n * factor)

def truncate : Utility :=
  withOptions
    { flags := "co", valued := "sr", words := [("size", 's'), ("no-create", 'c')] }
    fun call arguments =>
      match arguments.value? 's' with
      | none => call.refuse "you must specify either '--size' or '--reference'"
      | some text =>
        let (sign, digits) : Option Char × String := match text.toList with
          | '+' :: cs => (some '+', String.ofList cs)
          | '-' :: cs => (some '-', String.ofList cs)
          | _ => (none, text)
        match size? digits with
        | none => call.start.fail ("Invalid number: " ++ quotedName text)
        | some n =>
          forOperands call "missing file operand" arguments.others fun finish path =>
            if arguments.has 'c' && !(finish.files.stat ⟨path⟩).isOk then finish
            else
              let old := (finish.files.read ⟨path⟩).toOption.getD []
              let size := match sign with
                | some '+' => old.length + n
                | some _ => old.length - n
                | none => n
              let new := old.take size ++ List.replicate (size - old.length) 0
              match finish.files.write ⟨path⟩ new with
              | .ok files => { finish with files }
              | .error e =>
                finish.fail
                  ("cannot open " ++ quotedName path ++ " for writing: " ++ reason e)

/-! ## Blocks -/

/-- The operands that copying blocks knows. -/
def blockOperands : List String :=
  ["if", "of", "bs", "ibs", "obs", "cbs", "count", "skip", "seek", "conv", "iflag", "oflag",
    "status"]

/-- The utility that copies blocks. -/
def dd : Utility := fun call =>
  let operands := call.args.map fun arg =>
    let (name, behind) := arg.toList.span (· ≠ '=')
    (arg, String.ofList name, if behind.isEmpty then none else some (String.ofList (behind.drop 1)))
  let wrong := operands.find? fun (_, name, value) =>
    value.isNone || !blockOperands.contains name
  let value? (name : String) : Option String :=
    operands.reverse.findSome? fun (_, other, value) => if other == name then value else none
  let numbers := ["bs", "count", "skip", "seek"].filterMap value?
  match wrong, numbers.find? fun text => (size? text).isNone with
  | some (arg, _), _ => call.refuse ("unrecognized operand " ++ quotedName arg)
  | none, some text => call.start.fail ("invalid number: " ++ quotedName text)
  | none, none =>
    let number (name : String) (default : Nat) : Nat :=
      ((value? name).bind size?).getD default
    let block := max 1 (number "bs" 512)
    let source : Except FileError Bytes := match value? "if" with
      | some path => call.files.read ⟨path⟩
      | none => .ok call.input
    let start : Finish := { call.start with left := if (value? "if").isNone then some 0 else none }
    let cut (bytes : Bytes) : Bytes :=
      let rest := bytes.drop (block * number "skip" 0)
      match (value? "count").bind size? with
      | some count => rest.take (block * count)
      | none => rest
    let place := block * number "seek" 0
    let kept := ((value? "conv").getD "").toList
    let old (path : String) : Bytes :=
      let all := (call.files.read ⟨path⟩).toOption.getD []
      if Text.pieces ',' kept |>.contains "notrunc".toList then all else all.take place
    let put (finish : Finish) (bytes : Bytes) : Finish :=
      match value? "of" with
      | none => finish.print bytes
      | some path =>
        let content := old path
        let front := content.take place ++ List.replicate (place - content.length) 0
        match call.files.write ⟨path⟩ (front ++ bytes ++ content.drop (place + bytes.length)) with
        | .ok files => { finish with files }
        | .error e => finish.fail ("failed to open " ++ quotedName path ++ ": " ++ reason e)
    match source with
    | .error .isDirectory =>
      (put start []).fail ("error reading " ++ quotedName ((value? "if").getD "") ++ ": "
        ++ reason .isDirectory)
    | .error e =>
      start.fail ("failed to open " ++ quotedName ((value? "if").getD "") ++ ": " ++ reason e)
    | .ok bytes =>
      let chosen := cut bytes
      let done := put start chosen
      if value? "status" == some "none" || done.code ≠ 0 then done
      else
        let whole := toString (chosen.length / block) ++ "+"
          ++ (if chosen.length % block = 0 then "0" else "1")
        let told := whole ++ " records in\n" ++ whole ++ " records out\n"
          ++ toString chosen.length ++ " bytes copied\n"
        { done with printed := done.printed ++ [(true, Text.toBytes told)] }

/-! ## Comparing -/

/-- Compares bytes: the place at which they differ first, with how many lines end in front of it. -/
def difference? (place lines : Nat) : Bytes → Bytes → Option (Nat × Nat)
  | a :: as, b :: bs =>
    if a == b then difference? (place + 1) (if a == 10 then lines + 1 else lines) as bs
    else some (place, lines)
  | _, _ => none

/-- The utility that compares two files. -/
def cmp : Utility :=
  withOptions
    { flags := "bls", valued := "in", words := [("silent", 's'), ("quiet", 's')] }
    (fun call arguments =>
      match arguments.others with
      | [] | [_] =>
        let last := arguments.others.getLastD call.name
        if arguments.others.isEmpty then
          (call.start.fail ("missing operand after " ++ quotedName last) 2).fail
            ("Try '" ++ call.name ++ " --help' for more information.") 2
        else compare call arguments last "-"
      | a :: b :: _ => compare call arguments a b)
    2
where
  /-- Compares what is at two paths. -/
  compare (call : Call) (arguments : Arguments) (a b : String) : Finish :=
    let paths := [a, b]
    let start := call.startReading paths
    let failed (path : String) (e : FileError) : Finish :=
      if arguments.has 's' && e == .notFound then { start with code := 2 }
      else start.fail (plainComplaint path e) 2
    match sourceOf call a, sourceOf call b with
    | .error e, _ => failed a e
    | _, .error e => failed b e
    | .ok left, .ok right =>
      if left == right then start
      else if arguments.has 's' then { start with code := 1 }
      else
        match difference? 1 1 left right with
        | some (place, line) =>
          { start.line (a ++ " " ++ b ++ " differ: char " ++ toString place ++ ", line "
              ++ toString line) with code := 1 }
        | none =>
          let (shorter, bytes) := if left.length < right.length then (a, left) else (b, right)
          if bytes.isEmpty then start.fail ("EOF on " ++ shorter ++ " which is empty")
          else
            let lines := bytes.count 10
            let ended := bytes.getLast? == some 10
            start.fail ("EOF on " ++ shorter ++ " after byte " ++ toString bytes.length
              ++ (if ended then ", line " ++ toString lines
                else ", in line " ++ toString (lines + 1)))

end KernelCatalog.Shell
