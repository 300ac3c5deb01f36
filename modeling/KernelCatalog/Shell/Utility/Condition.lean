import KernelCatalog.Shell.Utility.Basic

/-!
# Conditions

The conditions of `test`: on texts, on numbers and on files, joined by `-a`, `-o`, `!` and
parentheses.
-/

namespace KernelCatalog.Shell.Condition

/-- What an argument is taken for. -/
inductive Role where
  | unary
  | binary
  | negation
  | conjunction
  | disjunction
  | opening
  | closing
  | operand
  /-- There is no argument. -/
  | missing
  deriving DecidableEq, Repr

/-- The operators in front of one argument. -/
def unaries : List String :=
  ["-r", "-w", "-x", "-e", "-f", "-d", "-c", "-b", "-p", "-u", "-g", "-k", "-s", "-t", "-z", "-n",
    "-h", "-O", "-G", "-L", "-S"]

/-- The operators between two arguments. -/
def binaries : List String :=
  ["=", "!=", "<", ">", "-eq", "-ne", "-ge", "-gt", "-le", "-lt", "-nt", "-ot", "-ef"]

/-- What a text is as an operator. -/
def operator? (text : String) : Option Role :=
  if unaries.contains text then some .unary
  else if binaries.contains text then some .binary
  else [("!", Role.negation), ("-a", .conjunction), ("-o", .disjunction), ("(", .opening),
    (")", .closing)].lookup text

/-- Whether an operator in front of arguments is no operator. -/
def isOperand : List String → Bool
  | [] => true
  | [_] => false
  | next :: _ => operator? next == some .binary

/-- What the first of some arguments is taken for. -/
def role : List String → Role
  | [] => .missing
  | text :: rest =>
    match operator? text with
    | some .unary => if isOperand rest then .operand else .unary
    | some .opening => if rest.isEmpty then .operand else .opening
    | some role => role
    | none => .operand

/-- A decimal number with blanks around it. -/
def number (text : String) : Except String Int :=
  let isBlank (c : Char) : Bool := c == ' ' || ('\t' ≤ c && c ≤ '\r')
  let trimmed := text.toList.dropWhile isBlank
  let (negative, body) := match trimmed with
    | '-' :: rest => (true, rest)
    | '+' :: rest => (false, rest)
    | cs => (false, cs)
  let (digits, behind) := body.span Char.isDigit
  match Text.digits? 0 digits with
  | some n =>
    let value : Int := if negative then -n else n
    if digits.isEmpty || !behind.all isBlank || value.bmod 0x10000000000000000 ≠ value then
      .error ("Illegal number: " ++ text)
    else .ok value
  | none => .error ("Illegal number: " ++ text)

/-- Whether something of a kind is at a path. -/
def onFile (files : Files) (operator path : String) : Bool :=
  let found := (files.stat ⟨path⟩).toOption
  match operator with
  | "-f" => files.isFile ⟨path⟩
  | "-d" => files.isDirectory ⟨path⟩
  | "-e" | "-r" | "-O" | "-G" => found.isSome || path == "/dev/null"
  | "-w" =>
    match found with
    | some (.file _ permissions) => files.allows permissions
    | some _ => true
    | none => path == "/dev/null"
  | "-c" => path == "/dev/null"
  | "-x" =>
    match found with
    | some (.file _ permissions) => permissions.executable
    | some _ => true
    | none => false
  | "-s" =>
    match files.read ⟨path⟩ with
    | .ok bytes => !bytes.isEmpty
    | .error _ => files.isDirectory ⟨path⟩
  | "-h" | "-L" =>
    match files.around ⟨path⟩ with
    | .ok (directory, last, false) =>
      match (files.step directory last).toOption.bind files.get? with
      | some (.link _) => true
      | _ => false
    | _ => false
  | _ => false

/-- The value of an operator in front of an argument. -/
def unary (files : Files) (operator text : String) : Except String Bool :=
  match operator with
  | "-z" => .ok text.isEmpty
  | "-n" => .ok !text.isEmpty
  | "-t" => do
    let _ ← number text
    .ok false
  | _ => .ok (onFile files operator text)

/-- The value of an operator between two arguments. -/
def binary (files : Files) (operator a b : String) : Except String Bool :=
  let numbers (holds : Int → Int → Bool) : Except String Bool := do
    .ok (holds (← number a) (← number b))
  match operator with
  | "=" => .ok (a == b)
  | "!=" => .ok (a != b)
  | "<" => .ok (a < b)
  | ">" => .ok (b < a)
  | "-eq" => numbers (· == ·)
  | "-ne" => numbers (· != ·)
  | "-ge" => numbers (· ≥ ·)
  | "-gt" => numbers (· > ·)
  | "-le" => numbers (· ≤ ·)
  | "-lt" => numbers (· < ·)
  | "-ef" =>
    match files.locate ⟨a⟩, files.locate ⟨b⟩ with
    | .ok x, .ok y => .ok (x == y && (files.get? x).isSome)
    | _, _ => .ok false
  | _ => .ok false

/-- A value, and the arguments from the last one that belongs to it on. -/
abbrev Judged := Except String (Bool × List String)

mutual

/-- A condition of conditions joined by `-o`, given the arguments and what the first is taken
for. -/
def anyOf (files : Files) : (fuel : Nat) → Role → List String → Judged
  | 0, _, args => .ok (false, args)
  | fuel + 1, first, args => do
    let (value, left) ← allOf files fuel first args
    if role (left.drop 1) = .disjunction then
      let next := left.drop 2
      let (other, left) ← anyOf files fuel (role next) next
      .ok (value || other, left)
    else .ok (value, left)

/-- A condition of conditions joined by `-a`. -/
def allOf (files : Files) : (fuel : Nat) → Role → List String → Judged
  | 0, _, args => .ok (false, args)
  | fuel + 1, first, args => do
    let (value, left) ← negated files fuel first args
    if role (left.drop 1) = .conjunction then
      let next := left.drop 2
      let (other, left) ← allOf files fuel (role next) next
      .ok (value && other, left)
    else .ok (value, left)

/-- A condition with exclamation marks in front. -/
def negated (files : Files) : (fuel : Nat) → Role → List String → Judged
  | 0, _, args => .ok (false, args)
  | fuel + 1, first, args =>
    if first = .negation then do
      let next := args.drop 1
      let (value, left) ←
        negated files fuel (role next) (if role next = .missing then args else next)
      .ok (!value, left)
    else primary files fuel first args

/-- A condition of one operator, or in parentheses. -/
def primary (files : Files) : (fuel : Nat) → Role → List String → Judged
  | 0, _, args => .ok (false, args)
  | fuel + 1, first, args =>
    match first with
    | .missing => .ok (false, args)
    | .opening =>
      let next := args.drop 1
      if role next = .closing then .ok (false, next)
      else do
        let (value, left) ← anyOf files fuel (role next) next
        if role (left.drop 1) = .closing then .ok (value, left.drop 1)
        else .error "closing paren expected"
    | .unary =>
      match args with
      | operator :: text :: rest => do .ok (← unary files operator text, text :: rest)
      | operator :: _ => .error (operator ++ ": argument expected")
      | [] => .ok (false, args)
    | _ =>
      match args with
      | a :: operator :: rest =>
        if role (operator :: rest) = .binary then
          match rest with
          | b :: more => do .ok (← binary files operator a b, b :: more)
          | [] => .error (operator ++ ": argument expected")
        else .ok (!a.isEmpty, args)
      | [a] => .ok (!a.isEmpty, args)
      | [] => .ok (false, args)

end

/-- Whether a condition holds, or what is wrong with it. -/
def holds (files : Files) : (fuel : Nat) → List String → Except String Bool
  | 0, _ | _, [] => .ok false
  | fuel + 1, args => do
    let judge (first : Role) (args : List String) : Except String Bool := do
      let (value, left) ← anyOf files (4 * args.length + 8) first args
      match left with
      | text :: _ :: _ =>
        .error (if text.isEmpty then "unexpected operator" else text ++ ": unexpected operator")
      | _ => .ok value
    let ordinary := judge (role args) args
    let shortened : Except String Bool :=
      if args.head? = some "(" ∧ args.getLast? = some ")" then
        judge (role (args.drop 1).dropLast) (args.drop 1).dropLast
      else if args.head? = some "!" then do .ok !(← holds files fuel (args.drop 1))
      else ordinary
    match args with
    | [_, operator, _] =>
      if operator? operator = some .binary then judge .operand args else shortened
    | [_, _, _, _] => shortened
    | _ => ordinary

/-- The outcome of `test`, or of `[` with what stands between it and the closing bracket: an exit
code, and a message if there is something wrong. -/
def outcome (files : Files) (name : String) (args : List String) : Nat × Option String :=
  let result : Except String Bool :=
    if name.endsWith "[" then
      match args.getLast? with
      | some "]" => holds files (args.length + 2) args.dropLast
      | _ => .error "missing ]"
    else holds files (args.length + 2) args
  match result with
  | .ok true => (0, none)
  | .ok false => (1, none)
  | .error message => (2, some message)

end KernelCatalog.Shell.Condition
