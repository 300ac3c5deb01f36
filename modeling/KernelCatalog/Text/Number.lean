import KernelCatalog.Text.Decimal

/-!
# Numbers with a fraction

Formats that hold numbers refuse or reread one that is too great for a double-precision number. Only
the size matters here: such numbers are told apart from texts, and never calculated with.
-/

namespace KernelCatalog.Text

/-- The number that digits of a base of at most sixteen write. -/
def inBase? (base : Nat) (cs : List Char) : Option Nat :=
  if cs.isEmpty then none
  else
    (cs.mapM fun c => (hexDigit? c).filter (· < base)).map fun digits =>
      digits.foldl (fun n d => n * base + d) 0

/-- The least number that rounds to no double-precision number. -/
def doubleLimit : Nat := Nat.pow 2 1024 - Nat.pow 2 970

/-- A decimal number as it is written, without its sign. -/
structure Decimal where
  /-- The digits in front of the point. -/
  whole : List Char
  /-- The digits behind the point. -/
  fraction : List Char := []
  /-- The power of ten by which the number is scaled. -/
  exponent : Int := 0
  deriving DecidableEq, Repr

/-- The exponent behind a number, if that is all there is. -/
def exponent? : List Char → Option Int
  | [] => some 0
  | c :: rest =>
    if c == 'e' || c == 'E' then
      match rest with
      | '-' :: rest => (inBase? 10 rest).map fun n => -(n : Int)
      | '+' :: rest => (inBase? 10 rest).map Int.ofNat
      | rest => (inBase? 10 rest).map Int.ofNat
    else none

namespace Decimal

/-- The decimal number that characters write. -/
def parse? (cs : List Char) : Option Decimal :=
  let (whole, behind) := cs.span Char.isDigit
  let (fraction, left) := match behind with
    | '.' :: rest => rest.span Char.isDigit
    | _ => ([], behind)
  (exponent? left).map fun exponent => ⟨whole, fraction, exponent⟩

/-- Whether `digits` times ten to the exponent is small enough for a double-precision number. The
bounds on the exponent only save work: past them the answer is clear, or the quotient is zero. -/
def isSmall (digits : Nat) (exponent : Int) : Bool :=
  if digits = 0 then true
  else if exponent < 0 then digits / Nat.pow 10 (min (-exponent).toNat 4096) < doubleLimit
  else if 400 < exponent then false
  else digits * Nat.pow 10 exponent.toNat < doubleLimit

/-- Whether a number has digits and rounds to a double-precision number. -/
def rounds (d : Decimal) : Bool :=
  match inBase? 10 (d.whole ++ d.fraction) with
  | some digits => isSmall digits (d.exponent - d.fraction.length)
  | none => false

/-- The number nearest to `n` whose binary digits behind the first 53 are zeros; of two that are
equally near, the one that is an even multiple of its last digit. -/
def nearest (n : Nat) : Nat :=
  let unit := Nat.pow 2 (n.log2 + 1 - 53)
  let (quotient, rest) := (n / unit, n % unit)
  let up := unit < 2 * rest || (unit == 2 * rest && quotient % 2 == 1)
  (if up then quotient + 1 else quotient) * unit

/-- The number that digits write behind those of `sofar`, as far as it fits sixty-four bits, and the
digits that are left. -/
def takeWord (sofar : Nat) : List Char → Nat × List Char
  | [] => (sofar, [])
  | c :: rest =>
    let next := sofar * 10 + (digit? c).getD 0
    if next ≤ 0xffffffffffffffff then takeWord next rest else (sofar, c :: rest)

/-- Whether a number stays finite when it is calculated in double precision, as its leading digits
times a power of ten. Both factors are rounded first, so that some numbers do not which would round
to a double-precision number. -/
def staysFinite (d : Decimal) : Bool :=
  let (n, dropped) := takeWord 0 d.whole
  let (n, left) := takeWord n d.fraction
  let scale := d.exponent + dropped.length - (d.fraction.length - left.length : Nat)
  n == 0 || scale < 0 ||
    (scale ≤ 308 && nearest n * nearest (Nat.pow 10 scale.toNat) < doubleLimit)

end Decimal

/-- Whether characters are an unsigned decimal number, with or without a fraction and an exponent,
that rounds to a double-precision number. -/
def isDouble (cs : List Char) : Bool := ((Decimal.parse? cs).map Decimal.rounds).getD false

end KernelCatalog.Text
