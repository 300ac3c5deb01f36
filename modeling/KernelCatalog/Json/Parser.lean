import KernelCatalog.Json.Basic
import KernelCatalog.Text.Decimal

/-!
# Reading JSON

A strict reader: no comments, no trailing commas, no leading zeros and no raw control characters. A
string with an unpaired surrogate is kept as one that cannot be read. Each step returns what it read
and the characters behind it. Values nest, so the reader of values carries a bound on the steps
left; `parse?` supplies the length of the text, which always suffices because every step consumes a
character.
-/

namespace KernelCatalog.Json

/-- The characters behind leading blanks. -/
def skipBlanks (cs : List Char) : List Char :=
  cs.dropWhile fun c => c = ' ' || c = '\t' || c = '\n' || c = '\r'

/-- The number written by the first four characters, which are hexadecimal digits. -/
def readFour? : List Char → Option (Nat × List Char)
  | a :: b :: c :: d :: rest =>
    match Text.hexDigit? a, Text.hexDigit? b, Text.hexDigit? c, Text.hexDigit? d with
    | some a, some b, some c, some d => some (a * 4096 + b * 256 + c * 16 + d, rest)
    | _, _, _, _ => none
  | _ => none

/-- The character of an escape that is written by one letter. -/
def letterEscape? (c : Char) : Option Char :=
  if c = '"' then some '"'
  else if c = '\\' then some '\\'
  else if c = '/' then some '/'
  else if c = 'b' then some '\x08'
  else if c = 'f' then some '\x0c'
  else if c = 'n' then some '\n'
  else if c = 'r' then some '\r'
  else if c = 't' then some '\t'
  else none

/-- The character of an escape that is written by number, behind its `u`; a number that is half of
a surrogate pair needs the other half behind it, and is no character otherwise. -/
def readEscape? (cs : List Char) : Option (Option Char × List Char) :=
  match readFour? cs with
  | none => none
  | some (n, rest) =>
    if n < 0xd800 || 0xdfff < n then some (some (Char.ofNat n), rest)
    else if 0xdc00 ≤ n then some (none, rest)
    else
      match rest with
      | '\\' :: 'u' :: behind =>
        match readFour? behind with
        | some (m, left) =>
          if 0xdc00 ≤ m && m ≤ 0xdfff then
            some (some (Char.ofNat (0x10000 + (n - 0xd800) * 1024 + (m - 0xdc00))), left)
          else some (none, rest)
        | none => none
      | _ => some (none, rest)

/-- The text of a string up to its closing quote, if it is legible, and the characters behind it. -/
def readString? : (fuel : Nat) → List Char → Option (Option (List Char) × List Char)
  | 0, _ => none
  | _ + 1, [] => none
  | fuel + 1, c :: rest =>
    if c = '"' then some (some [], rest)
    else if c = '\\' then
      match rest with
      | [] => none
      | e :: behind =>
        let char? :=
          if e = 'u' then readEscape? behind else (letterEscape? e).map fun c => (some c, behind)
        match char? with
        | none => none
        | some (some c, more) =>
          (readString? fuel more).map fun (cs, left) => (cs.map (c :: ·), left)
        | some (none, more) => (readString? fuel more).map fun (_, left) => (none, left)
    else if c.toNat < 0x20 then none
    else (readString? fuel rest).map fun (cs, left) => (cs.map (c :: ·), left)

/-- The string of a text, if it is legible. -/
def ofText : Option (List Char) → Json
  | some cs => .str (String.ofList cs)
  | none => .illegible

/-- The object with the given members, if all their names are legible. -/
def ofMembers (members : List (Option (List Char) × Json)) : Json :=
  match members.mapM fun (name, value) => name.map fun cs => (String.ofList cs, value) with
  | some members => .obj members
  | none => .illegible

/-- The leading decimal digits, and the characters behind them. -/
def spanDigits (cs : List Char) : List Char × List Char := cs.span Char.isDigit

/-- A fraction: a point and at least one digit, or nothing. -/
def readFraction? (cs : List Char) : Option (List Char × List Char) :=
  match cs with
  | '.' :: rest =>
    match spanDigits rest with
    | ([], _) => none
    | (digits, left) => some ('.' :: digits, left)
  | _ => some ([], cs)

/-- An exponent: its letter, an optional sign and at least one digit, or nothing. -/
def readExponent? (cs : List Char) : Option (List Char × List Char) :=
  match cs with
  | c :: rest =>
    if c = 'e' || c = 'E' then
      let (sign, behind) := match rest with
        | s :: more => if s = '+' || s = '-' then ([s], more) else ([], rest)
        | [] => ([], [])
      match spanDigits behind with
      | ([], _) => none
      | (digits, left) => some (c :: (sign ++ digits), left)
    else some ([], cs)
  | [] => some ([], [])

/-- An unsigned whole number without leading zeros: its value and its digits. -/
def readWhole? (cs : List Char) : Option (Nat × List Char × List Char) :=
  match spanDigits cs with
  | ([], _) => none
  | ('0' :: _ :: _, _) => none
  | (digits, rest) => (Text.digits? 0 digits).map fun n => (n, digits, rest)

/-- A number. -/
def readNumber? (cs : List Char) : Option (JsonNumber × List Char) :=
  let (negative, body) := match cs with
    | '-' :: rest => (true, rest)
    | _ => (false, cs)
  match readWhole? body with
  | none => none
  | some (n, digits, rest) =>
    match readFraction? rest with
    | none => none
    | some (fraction, behind) =>
      match readExponent? behind with
      | none => none
      | some (exponent, left) =>
        if fraction.isEmpty && exponent.isEmpty && !(negative && n == 0) then
          some (if negative then .negative n else .whole n, left)
        else
          some (.other ((if negative then ['-'] else []) ++ digits ++ fraction ++ exponent), left)

mutual

/-- A value without blanks in front, and the characters behind it. -/
def readValue? : (fuel : Nat) → List Char → Option (Json × List Char)
  | 0, _ => none
  | _ + 1, [] => none
  | fuel + 1, c :: rest =>
    if c = '"' then
      (readString? (rest.length + 1) rest).map fun (cs, left) => (ofText cs, left)
    else if c = '[' then
      match skipBlanks rest with
      | ']' :: left => some (.arr [], left)
      | behind =>
        match readValue? fuel behind with
        | none => none
        | some (item, left) =>
          (readItems? fuel (skipBlanks left)).map fun (items, left) => (.arr (item :: items), left)
    else if c = '\x7b' then
      match skipBlanks rest with
      | '\x7d' :: left => some (.obj [], left)
      | behind =>
        match readMember? fuel behind with
        | none => none
        | some (member, left) =>
          (readMembers? fuel (skipBlanks left)).map fun (members, left) =>
            (ofMembers (member :: members), left)
    else if c = 'n' then
      match rest with
      | 'u' :: 'l' :: 'l' :: left => some (.null, left)
      | _ => none
    else if c = 't' then
      match rest with
      | 'r' :: 'u' :: 'e' :: left => some (.bool true, left)
      | _ => none
    else if c = 'f' then
      match rest with
      | 'a' :: 'l' :: 's' :: 'e' :: left => some (.bool false, left)
      | _ => none
    else (readNumber? (c :: rest)).map fun (n, left) => (.num n, left)

/-- The items behind the first one, up to the closing bracket. -/
def readItems? : (fuel : Nat) → List Char → Option (List Json × List Char)
  | 0, _ => none
  | fuel + 1, cs =>
    match cs with
    | ']' :: left => some ([], left)
    | ',' :: behind =>
      match readValue? fuel (skipBlanks behind) with
      | none => none
      | some (item, left) =>
        (readItems? fuel (skipBlanks left)).map fun (items, left) => (item :: items, left)
    | _ => none

/-- A name, a colon and a value. -/
def readMember? : (fuel : Nat) → List Char → Option ((Option (List Char) × Json) × List Char)
  | 0, _ => none
  | fuel + 1, cs =>
    match cs with
    | '"' :: rest =>
      match readString? (rest.length + 1) rest with
      | none => none
      | some (name, behind) =>
        match skipBlanks behind with
        | ':' :: more =>
          (readValue? fuel (skipBlanks more)).map fun (value, left) =>
            ((name, value), left)
        | _ => none
    | _ => none

/-- The members behind the first one, up to the closing brace. -/
def readMembers? : (fuel : Nat) → List Char →
    Option (List (Option (List Char) × Json) × List Char)
  | 0, _ => none
  | fuel + 1, cs =>
    match cs with
    | '\x7d' :: left => some ([], left)
    | ',' :: behind =>
      match readMember? fuel (skipBlanks behind) with
      | none => none
      | some (member, left) =>
        (readMembers? fuel (skipBlanks left)).map fun (members, left) => (member :: members, left)
    | _ => none

end

/-- The value written by a text that holds nothing else but blanks. -/
def parseChars? (cs : List Char) : Option Json :=
  match readValue? (cs.length + 1) (skipBlanks cs) with
  | some (value, left) => if (skipBlanks left).isEmpty then some value else none
  | none => none

/-- The value written by a text that holds nothing else but blanks. -/
def parse? (text : String) : Option Json := parseChars? text.toList

end KernelCatalog.Json
