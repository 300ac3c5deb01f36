import KernelCatalog.Shell.Script.Basic
import KernelCatalog.Text.Decimal

/-!
# Arithmetic

Expressions of signed numbers of sixty-four bits, with the operators of C except those that count up
or down. A name stands for the number that is its value. What is not chosen by `?`, `&&` or `||` has
no effect.
-/

namespace KernelCatalog.Shell.Arithmetic

/-- A piece of an expression. -/
inductive Piece where
  | number (n : Int)
  | name (text : String)
  | operator (text : String)
  deriving DecidableEq, Repr

/-- The number of sixty-four bits that an integer is cut down to. -/
def wrap (n : Int) : Int := n.bmod 0x10000000000000000

/-- The greatest number. -/
def greatest : Nat := 0x7fffffffffffffff

/-- The operators, the longer ones first. -/
def operators : List String :=
  ["<<=", ">>=", "<<", ">>", "<=", ">=", "==", "!=", "&&", "||", "+=", "-=", "*=", "/=", "%=", "&=",
    "^=", "|=", "<", ">", "=", "!", "~", "+", "-", "*", "/", "%", "&", "^", "|", "?", ":", "(", ")"]

/-- The digits of a base at the front of characters. -/
def digitsIn (base : Nat) (cs : List Char) : List Char :=
  cs.takeWhile fun c => ((Text.hexDigit? c).map fun d => decide (d < base)).getD false

/-- The value of digits, which does not exceed the greatest number. -/
def valueIn (base : Nat) (digits : List Char) : Nat :=
  min greatest (digits.foldl (fun n c => n * base + (Text.hexDigit? c).getD 0) 0)

/-- The number that characters start with, and how many of them write it. -/
def readNumber (cs : List Char) : Nat × Nat :=
  let hexed (rest : List Char) : Nat × Nat :=
    let digits := digitsIn 16 rest
    if digits.isEmpty then (0, 1) else (valueIn 16 digits, digits.length + 2)
  match cs with
  | '0' :: 'x' :: rest | '0' :: 'X' :: rest => hexed rest
  | '0' :: _ =>
    let digits := digitsIn 8 cs
    (valueIn 8 digits, digits.length)
  | _ =>
    let digits := digitsIn 10 cs
    (valueIn 10 digits, digits.length)

/-- The pieces of an expression. A character that starts none is a piece of its own. -/
def pieces : (fuel : Nat) → List Char → List Piece
  | 0, _ | _, [] => []
  | fuel + 1, c :: rest =>
    if c == ' ' || c == '\t' || c == '\n' then pieces fuel rest
    else if c.isDigit then
      let (n, count) := readNumber (c :: rest)
      .number n :: pieces fuel ((c :: rest).drop count)
    else if isNameChar c then
      .name (String.ofList ((c :: rest).takeWhile isNameChar))
        :: pieces fuel ((c :: rest).dropWhile isNameChar)
    else
      match operators.find? fun text => text.toList.isPrefixOf (c :: rest) with
      | some text => .operator text :: pieces fuel ((c :: rest).drop text.length)
      | none => .operator c.toString :: pieces fuel rest

/-- Why an expression has no value. -/
inductive Trouble where
  /-- It is no expression, or divides by zero. -/
  | refused (message : String)
  /-- A name stands for no number. -/
  | illegalNumber (text : String)
  deriving DecidableEq, Repr

/-- What is left to read, and the names that have been given values, the latest first. -/
structure Progress where
  left : List Piece
  assigned : List (String × Int) := []

/-- Evaluation of an expression. -/
abbrev Evaluation := StateT Progress (Except Trouble)

/-- The number that the value of a name is. -/
def numberOf (text : String) : Except Trouble Int :=
  let blank (c : Char) : Bool := c == ' ' || ('\t' ≤ c && c ≤ '\r')
  let trimmed := text.toList.dropWhile blank
  if trimmed.isEmpty then .ok 0
  else
    let (negative, digits) := match trimmed with
      | '-' :: rest => (true, rest)
      | '+' :: rest => (false, rest)
      | cs => (false, cs)
    let (n, count) := readNumber digits
    if count == 0 || !(digits.drop count).all blank then .error (.illegalNumber text)
    else .ok (wrap (if negative then -n else n))

/-- The next piece, if it is an operator that passes a test; it is taken. -/
def takeOperator (wanted : String → Bool) : Evaluation (Option String) := do
  let progress ← get
  match progress.left with
  | .operator text :: rest =>
    if wanted text then
      set { progress with left := rest }
      return some text
    else return none
  | _ => return none

/-- The value of a name. -/
def valueOf (lookup : String → String) (name : String) : Evaluation Int := do
  match (← get).assigned.lookup name with
  | some n => return n
  | none =>
    match numberOf (lookup name) with
    | .ok n => return n
    | .error e => throw e

/-- How tightly the operators between two values bind. -/
def levels : List (List String) :=
  [["*", "/", "%"], ["+", "-"], ["<<", ">>"], ["<", "<=", ">", ">="], ["==", "!="], ["&"], ["^"],
    ["|"]]

/-- Two numbers as words of sixty-four bits under an operation on these. -/
def onWords (f : UInt64 → UInt64 → UInt64) (a b : Int) : Int :=
  (f (Int64.ofInt a).toUInt64 (Int64.ofInt b).toUInt64).toInt64.toInt

/-- The result of an operator between two values. -/
def apply (operator : String) (a b : Int) : Except Trouble Int :=
  let truth (p : Bool) : Except Trouble Int := .ok (if p then 1 else 0)
  match operator with
  | "*" => .ok (wrap (a * b))
  | "/" => if b = 0 then .error (.refused "division by zero") else .ok (wrap (a.tdiv b))
  | "%" => if b = 0 then .error (.refused "division by zero") else .ok (wrap (a.tmod b))
  | "+" => .ok (wrap (a + b))
  | "-" => .ok (wrap (a - b))
  | "<<" => .ok (onWords (fun x y => x <<< y) a b)
  | ">>" => .ok ((Int64.ofInt a) >>> (Int64.ofInt b)).toInt
  | "<" => truth (a < b)
  | "<=" => truth (a ≤ b)
  | ">" => truth (a > b)
  | ">=" => truth (a ≥ b)
  | "==" => truth (a == b)
  | "!=" => truth (a != b)
  | "&" => .ok (onWords (· &&& ·) a b)
  | "^" => .ok (onWords (· ^^^ ·) a b)
  | _ => .ok (onWords (· ||| ·) a b)

/-- The operators that assign, with those that they apply first. -/
def assigning : List (String × Option String) :=
  [("=", none), ("+=", some "+"), ("-=", some "-"), ("*=", some "*"), ("/=", some "/"),
    ("%=", some "%"), ("&=", some "&"), ("^=", some "^"), ("|=", some "|"), ("<<=", some "<<"),
    (">>=", some ">>")]

mutual

/-- A number, a name, or an expression in parentheses, with signs in front. -/
def primary (lookup : String → String) : (fuel : Nat) → (idle : Bool) → Evaluation Int
  | 0, _ => throw (.refused "expecting primary")
  | fuel + 1, idle => do
    let progress ← get
    match progress.left with
    | .number n :: rest =>
      set { progress with left := rest }
      return n
    | .name name :: rest =>
      set { progress with left := rest }
      if idle then return 0 else valueOf lookup name
    | .operator "(" :: rest =>
      set { progress with left := rest }
      let value ← assignment lookup fuel idle
      match ← takeOperator (· == ")") with
      | some _ => return value
      | none => throw (.refused "expecting ')'")
    | .operator "+" :: rest =>
      set { progress with left := rest }
      primary lookup fuel idle
    | .operator "-" :: rest =>
      set { progress with left := rest }
      return wrap (-(← primary lookup fuel idle))
    | .operator "!" :: rest =>
      set { progress with left := rest }
      return if (← primary lookup fuel idle) = 0 then 1 else 0
    | .operator "~" :: rest =>
      set { progress with left := rest }
      return -(← primary lookup fuel idle) - 1
    | _ => throw (.refused "expecting primary")

/-- Values with operators of the given levels between them, the loosest last. -/
def binary (lookup : String → String) :
    (fuel : Nat) → (levels : List (List String)) → (idle : Bool) → Evaluation Int
  | 0, _, _ => throw (.refused "expecting primary")
  | fuel + 1, [], idle => primary lookup fuel idle
  | fuel + 1, loosest :: tighter, idle => do
    let first ← binary lookup fuel tighter idle
    binaryRest lookup fuel loosest tighter first idle

/-- The further values with operators of one level between them. -/
def binaryRest (lookup : String → String) : (fuel : Nat) → (loosest : List String) →
    (tighter : List (List String)) → (first : Int) → (idle : Bool) → Evaluation Int
  | 0, _, _, first, _ => return first
  | fuel + 1, loosest, tighter, first, idle => do
    match ← takeOperator loosest.contains with
    | none => return first
    | some operator =>
      let second ← binary lookup fuel tighter idle
      let value ← if idle then pure 0
        else match apply operator first second with
          | .ok value => pure value
          | .error e => throw e
      binaryRest lookup fuel loosest tighter value idle

/-- Values joined by `&&`. -/
def conjunction (lookup : String → String) : (fuel : Nat) → (idle : Bool) → Evaluation Int
  | 0, _ => throw (.refused "expecting primary")
  | fuel + 1, idle => do
    let first ← binary lookup fuel levels.reverse idle
    match ← takeOperator (· == "&&") with
    | none => return first
    | some _ =>
      let second ← conjunction lookup fuel (idle || first == 0)
      return if first ≠ 0 ∧ second ≠ 0 then 1 else 0

/-- Values joined by `||`. -/
def disjunction (lookup : String → String) : (fuel : Nat) → (idle : Bool) → Evaluation Int
  | 0, _ => throw (.refused "expecting primary")
  | fuel + 1, idle => do
    let first ← conjunction lookup fuel idle
    match ← takeOperator (· == "||") with
    | none => return first
    | some _ =>
      let second ← disjunction lookup fuel (idle || first != 0)
      return if first ≠ 0 ∨ second ≠ 0 then 1 else 0

/-- One of two values, chosen by a third. -/
def choice (lookup : String → String) : (fuel : Nat) → (idle : Bool) → Evaluation Int
  | 0, _ => throw (.refused "expecting primary")
  | fuel + 1, idle => do
    let test ← disjunction lookup fuel idle
    match ← takeOperator (· == "?") with
    | none => return test
    | some _ =>
      let yes ← assignment lookup fuel (idle || test == 0)
      match ← takeOperator (· == ":") with
      | none => throw (.refused "expecting ':'")
      | some _ =>
        let no ← choice lookup fuel (idle || test != 0)
        return if test ≠ 0 then yes else no

/-- A value, which a name may be given. -/
def assignment (lookup : String → String) : (fuel : Nat) → (idle : Bool) → Evaluation Int
  | 0, _ => throw (.refused "expecting primary")
  | fuel + 1, idle => do
    let progress ← get
    match progress.left with
    | .name name :: .operator text :: rest =>
      match assigning.lookup text with
      | none => choice lookup fuel idle
      | some before =>
        set { progress with left := rest }
        let value ← assignment lookup fuel idle
        if idle then return value
        else
          let result ← match before with
            | none => pure value
            | some operator =>
              match apply operator (← valueOf lookup name) value with
              | .ok result => pure result
              | .error e => throw e
          modify fun progress => { progress with assigned := (name, result) :: progress.assigned }
          return result
    | _ => choice lookup fuel idle

end

/-- The value of an expression, and the names that it gives values, the latest first. -/
def evaluate (lookup : String → String) (text : List Char) :
    Except Trouble (Int × List (String × Int)) :=
  let left := pieces (text.length + 1) text
  match assignment lookup (16 * (left.length + 2)) false { left } with
  | .error e => .error e
  | .ok (value, progress) =>
    if progress.left.isEmpty then .ok (value, progress.assigned)
    else .error (.refused "expecting EOF")

/-- What the shell says about an expression without a value. -/
def Trouble.message (text : List Char) : Trouble → String
  | .refused message =>
    "arithmetic expression: " ++ message ++ ": \"" ++ String.ofList text ++ "\""
  | .illegalNumber value => "Illegal number: " ++ value

end KernelCatalog.Shell.Arithmetic
