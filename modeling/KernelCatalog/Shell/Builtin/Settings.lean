import KernelCatalog.Shell.Builtin.Basic

/-!
# Builtins on names and options

The commands that give names their values, hand them to programs, protect or forget them, that turn
options of the shell on and off, and that take values from the input or from arguments.
-/

namespace KernelCatalog.Shell

/-- The options by their names and letters; some have no letter. -/
def optionNames : List (String × Option Char) :=
  [("errexit", some 'e'), ("noglob", some 'f'), ("ignoreeof", some 'I'),
    ("interactive", some 'i'), ("monitor", some 'm'), ("noexec", some 'n'), ("stdin", some 's'),
    ("xtrace", some 'x'), ("verbose", some 'v'), ("vi", some 'V'), ("emacs", some 'E'),
    ("noclobber", some 'C'), ("allexport", some 'a'), ("notify", some 'b'), ("nounset", some 'u'),
    ("privileged", some 'p'), ("nolog", none), ("debug", none)]

namespace Session

/-- The session with an option turned on or off. Options are kept in a fixed order. -/
def setOption (session : Session) (letter : Char) (value : Bool) : Session :=
  { session with
    options := optionNames.reverse.filterMap fun (_, known) =>
      known.bind fun c =>
        if (if c == letter then value else session.has c) then some c else none }

/-- The session with the options that letters behind a sign turn on or off; those that are given by
name take the next argument. Gives the arguments that are left, or what is wrong. -/
def setLetters (value : Bool) (args : List String) :
    List Char → Session → Except String (Session × List String)
  | [], session => .ok (session, args)
  | 'o' :: rest, session =>
    match args with
    | [] => setLetters value [] rest session
    | name :: args =>
      match optionNames.lookup name with
      | some (some letter) => setLetters value args rest (session.setOption letter value)
      | some none => setLetters value args rest session
      | none => .error ("Illegal option -o " ++ name)
  | letter :: rest, session =>
    if letter == 'c' || !(optionNames.any fun entry => entry.2 == some letter) then
      .error ("Illegal option -" ++ letter.toString)
    else setLetters value args rest (session.setOption letter value)

/-- The session with the options in front of other arguments, and these. Without other arguments
and without the sign that there are none, the last is `none`. -/
def setOptions : (fuel : Nat) → List String → Session →
    Except String (Session × Option (List String))
  | 0, _, session | _, [], session => .ok (session, none)
  | fuel + 1, arg :: rest, session =>
    match arg.toList with
    | ['-', '-'] => .ok (session, some rest)
    | ['-'] =>
      .ok ((session.setOption 'x' false).setOption 'v' false,
        if rest.isEmpty then none else some rest)
    | '-' :: cs => do
      let (session, rest) ← session.setLetters true rest cs
      session.setOptions fuel rest
    | '+' :: c :: cs => do
      let (session, rest) ← session.setLetters false rest (c :: cs)
      session.setOptions fuel rest
    | _ => .ok (session, some (arg :: rest))

/-- The lines that tell the settings of names, those of a kind only. -/
def settingLines (session : Session) (word : String) (chosen : Setting → Bool) : List String :=
  let names := ((session.settings.filter fun entry => chosen entry.2).map (·.1)).mergeSort
  names.map fun name =>
    word ++ name ++ (match session.value? name with
      | some value => "=" ++ Builtin.singleQuoted value
      | none => "")

/-- The name in front of an equality sign, and the value behind it. -/
def splitAssignment (text : String) : String × Option String :=
  let (name, behind) := text.toList.span (· ≠ '=')
  (String.ofList name, if behind.isEmpty then none else some (String.ofList (behind.drop 1)))

/-- Gives a name a mark, and a value if there is one. -/
def mark (session : Session) (text : String) (change : Setting → Setting) : Session :=
  let (name, value) := splitAssignment text
  if !isName name.toList then session.abort (name ++ ": bad variable name")
  else
    match value with
    | some value =>
      let assigned := session.assignChecked name value
      if assigned.isOn then assigned.put name (change (assigned.setting name)) else assigned
    | none => session.put name (change (session.setting name))

/-- Forgets a name. -/
def forget (session : Session) (name : String) : Session :=
  let bare := (splitAssignment name).1
  if !isName bare.toList then session.abort (bare ++ ": bad variable name")
  else if (session.setting name).readOnly then session.abort (name ++ ": is read only")
  else { session with settings := session.settings.filter fun entry => entry.1 != name }

/-- Does something for each argument as long as the session goes on. -/
def forArguments (step : Session → String → Session) : List String → Session → Session
  | [], session => session
  | arg :: rest, session =>
    if session.isOn then forArguments step rest (step session arg) else session

end Session

namespace Builtin

/-- Turns options on and off, and sets the arguments; tells all settings if it gets nothing. -/
def set : Builtin := fun args session =>
  let shown (letter : Option Char) : Bool := (letter.map session.has).getD false
  match args with
  | [] => printingLines "set" (session.settingLines "" fun setting => setting.value.isSome) session
  | ["-o"] =>
    printingLines "set" ("Current option settings" :: optionNames.map fun (name, letter) =>
      Text.padRight 16 name ++ (if shown letter then "on" else "off")) session
  | ["+o"] =>
    printingLines "set" (optionNames.map fun (name, letter) =>
      "set " ++ (if shown letter then "-o " else "+o ") ++ name) session
  | args =>
    match session.setOptions (args.length + 1) args with
    | .error message => session.abort message
    | .ok (session, none) => session.ended 0
    | .ok (session, some others) => { session.ended 0 with arguments := others }

/-- Gives names to programs, or protects them, or tells which. -/
def marking (name : String) (isMarked : Setting → Bool) (change : Setting → Setting) : Builtin :=
  withLetters "p" "" fun options args session =>
    if args.isEmpty || !options.isEmpty then
      printingLines name (session.settingLines (name ++ " ") isMarked) session
    else
      let marked := Session.forArguments (fun session arg => session.mark arg change) args session
      if marked.isOn then marked.ended 0 else marked

/-- Gives names to programs. -/
def publish : Builtin :=
  marking "export" (·.exported) fun setting => { setting with exported := true }

/-- Protects names. -/
def protect : Builtin :=
  marking "readonly" (·.readOnly) fun setting => { setting with readOnly := true }

/-- Forgets names or functions. -/
def forget : Builtin :=
  withLetters "vf" "" fun options args session =>
    if (options.getLast?.map (·.1)) == some 'f' then
      { session.ended 0 with
        functions := session.functions.filter fun entry => !args.contains entry.1 }
    else
      let done := Session.forArguments Session.forget args session
      if done.isOn then done.ended 0 else done

/-- Makes names local to the running function. -/
def localize : Builtin := fun args session =>
  match session.scopes with
  | [] => session.abort "not in a function"
  | _ =>
    let done := Session.forArguments (fun session arg =>
      let (name, value) := Session.splitAssignment arg
      if name == "-" then
        match session.scopes with
        | scope :: outer =>
          { session with
            scopes := (("-", some { value := some (String.ofList session.options) }) :: scope)
              :: outer }
        | [] => session
      else if !isName name.toList then session.abort (name ++ ": bad variable name")
      else
        match session.scopes with
        | scope :: outer =>
          let kept := if scope.any fun entry => entry.1 == name then scope
            else (name, session.settings.lookup name) :: scope
          let session := { session with scopes := kept :: outer }
          match value with
          | some value => session.assignChecked name value
          | none => session
        | [] => session) args session
    if done.isOn then done.ended 0 else done

/-! ## Values from the input -/

/-- One character of a line that is read, with whether it stands for itself only. -/
abbrev LineChar := Char × Bool

/-- Takes a line from bytes: its bytes, each with whether it stands for itself only; what is behind
it; and whether it has an end. A backslash joins lines and protects the next character, unless the
line is taken as it is. -/
def takeLine (raw : Bool) : (fuel : Nat) → Bytes → List (UInt8 × Bool) × Bytes × Bool
  | 0, rest => ([], rest, false)
  | _, [] => ([], [], false)
  | fuel + 1, b :: rest =>
    if b == 10 then ([], rest, true)
    else if b == 0 then takeLine raw fuel rest
    else if b == 0x5c && !raw then
      match rest with
      | 10 :: rest => takeLine raw fuel rest
      | c :: rest =>
        let (line, behind, ended) := takeLine raw fuel rest
        ((c, true) :: line, behind, ended)
      | [] => ([], [], false)
    else
      let (line, behind, ended) := takeLine raw fuel rest
      ((b, false) :: line, behind, ended)

/-- Whether a byte is a separator that is a blank. -/
def isBlankSeparator (separators : List Char) (byte : UInt8 × Bool) : Bool :=
  !byte.2 && isSpaceLike byte.1 && separators.contains (Char.ofNat byte.1.toNat)
where
  /-- Whether a byte is a blank. -/
  isSpaceLike (b : UInt8) : Bool := b == 0x20 || b == 0x09 || b == 0x0a

def isSeparator (separators : List Char) (byte : UInt8 × Bool) : Bool :=
  !byte.2 && separators.contains (Char.ofNat byte.1.toNat)

/-- A line without blanks that are separators at its end. -/
def trimEnd (separators : List Char) (line : List (UInt8 × Bool)) : List (UInt8 × Bool) :=
  (line.reverse.dropWhile (isBlankSeparator separators)).reverse

/-- Cuts a line into as many values as asked for; the last one takes all that is left. -/
def cutLine (separators : List Char) : (count : Nat) → List (UInt8 × Bool) → List Bytes
  | 0, _ => []
  | count + 1, line =>
    let line := line.dropWhile (isBlankSeparator separators)
    let (field, behind) := line.span fun byte => !isSeparator separators byte
    let rest := behind.dropWhile (isBlankSeparator separators)
    let rest := match rest with
      | byte :: more => if isSeparator separators byte then more else byte :: more
      | [] => []
    let restBare := rest.dropWhile (isBlankSeparator separators)
    if count = 0 then
      if restBare.isEmpty then [field.map (·.1)]
      else [(trimEnd separators line).map (·.1)]
    else field.map (·.1) :: cutLine separators count restBare

/-- Reads a line of the input into names. -/
def read : Builtin :=
  withLetters "r" "pt" fun options args session =>
    if args.isEmpty then session.abort "arg count"
    else
      let bytes := session.input 0
      let raw := options.any fun option => option.1 == 'r'
      let (line, behind, ended) := takeLine raw (bytes.length + 1) bytes
      let session := session.leave 0 behind.length
      let values := cutLine session.separators args.length line
      let code := if ended then 0 else 1
      let done := (args.zip values).foldl (fun (session : Session) (name, value) =>
        if !session.isOn then session
        else if !isName name.toList then session.abort (name ++ ": bad variable name")
        else session.assignChecked name (Text.ofBytesLenient value)) session
      if done.isOn then done.ended code else done

/-- Takes the next option from arguments: the place in them is kept in a setting, and the place in
a group of letters beside it. -/
def getopts : Builtin := fun args session =>
  match args with
  | wanted :: name :: given =>
    let given := if given.isEmpty then session.arguments else given
    let place := ((session.value? "OPTIND").bind fun text => Text.digits? 0 text.toList).getD 1
    let inner := ((session.value? "OPTOFF").bind fun text => Text.digits? 0 text.toList).getD 1
    let quiet := wanted.toList.head? == some ':'
    let put (key : String) (value : Option String) (session : Session) : Session :=
      match value with
      | some value => session.assign key value
      | none => { session with settings := session.settings.filter fun entry => entry.1 != key }
    let finish (option : String) (value : Option String) (next off : Nat) (code : Nat)
        (session : Session) : Session :=
      (put "OPTOFF" (if off ≤ 1 then none else some (toString off))
        (put "OPTIND" (some (toString next))
          (put "OPTARG" value (put name (some option) session)))).ended code
    match (given.drop (place - 1)).map String.toList with
    | ('-' :: c :: cs) :: behind =>
      if c == '-' && cs.isEmpty then finish "?" none (place + 1) 1 1 session
      else
        match (c :: cs).drop (inner - 1) with
        | [] => finish "?" none (place + 1) 1 1 session
        | letter :: more =>
          let (next, off) := if more.isEmpty then (place + 1, 1) else (place, inner + 1)
          match wanted.toList.dropWhile (· ≠ letter) with
          | _ :: after =>
            if after.head? != some ':' then finish letter.toString (some "") next off 0 session
            else if !more.isEmpty then
              finish letter.toString (some (String.ofList more)) (place + 1) 1 0 session
            else
              match behind with
              | value :: _ =>
                finish letter.toString (some (String.ofList value)) (place + 2) 1 0 session
              | [] =>
                if quiet then finish ":" (some letter.toString) (place + 1) 1 0 session
                else
                  finish "?" none (place + 1) 1 0
                    (session.say 2 ("No arg for -" ++ letter.toString ++ " option\n"))
          | [] =>
            if quiet then finish "?" (some letter.toString) next off 0 session
            else
              finish "?" none next off 0
                (session.say 2 ("Illegal option -" ++ letter.toString ++ "\n"))
    | _ => finish "?" none place 1 1 session
  | _ => session.abort "Usage: getopts optstring var [arg...]"

end Builtin

end KernelCatalog.Shell
