/-!
# Binary64 numbers

A *binary64 number* is a signed whole coefficient times a power of two, an
infinity, or not a number.  Nothing here computes in floating point.  A decimal
is rounded to the nearest binary64 number by exact arithmetic on natural
numbers (`Binary64.ofDecimal`), and a binary64 number is written with the
fewest decimal digits that round back to it (`Binary64.shortest`).

Coefficients are below `2^53`.  Exponents lie between `leastExponent` and
`greatestExponent`.  A coefficient below `2^52` occurs only at the least
exponent, so each finite number has one form.

The fewest digits are found grid by grid.  The numbers that round to `c · 2^e`
form an interval, whose ends belong to it when `c` is even.  For one digit, two
digits and so on, the two neighbours of the number on that decimal grid are
tried.  The first grid with a neighbour inside the interval wins.  If both are
inside, the nearer wins, and a tie goes to the even one.

How the digits are laid out as text is a `Layout`.
-/

namespace QueryTree

/-- A binary64 number. -/
inductive Binary64 where
  /-- The number `coefficient · 2^exponent`, negated if `negative`. -/
  | finite (negative : Bool) (coefficient : Nat) (exponent : Int)
  /-- Positive or negative infinity. -/
  | infinite (negative : Bool)
  /-- Not a number. -/
  | nan
deriving DecidableEq, Repr, Inhabited

namespace Binary64

/-- The exponent of the subnormal numbers. -/
def leastExponent : Int := -1074

/-- The exponent of the largest finite number. -/
def greatestExponent : Int := 971

/-- Whether a number is a zero, of either sign. -/
def isZero : Binary64 → Bool
  | .finite _ c _ => c == 0
  | _ => false

/-! ## Rounding a quotient -/

/-- The quotient rounded to the nearest whole number, a half to the even one. -/
def divNearest (a b : Nat) : Nat :=
  let q := a / b
  let twice := 2 * (a % b)
  if twice < b then q else if b < twice then q + 1 else q + q % 2

/-- The quotient `num / den` in units of `2^e`, again as a quotient. -/
def inUnits (num den : Nat) : Int → Nat × Nat
  | .ofNat k => (num, den * Nat.pow 2 k)
  | .negSucc k => (num * Nat.pow 2 (k + 1), den)

/-- The binary64 number nearest to `num / den`, a half to the even coefficient. -/
def ofRatio (negative : Bool) (num den : Nat) : Binary64 :=
  if num = 0 then .finite negative 0 leastExponent
  else
    let guess : Int := (num.log2 : Int) - den.log2 - 52
    let atGuess := inUnits num den guess
    let fit := if atGuess.1 / atGuess.2 < Nat.pow 2 52 then guess - 1 else guess
    let e := max fit leastExponent
    let parts := inUnits num den e
    let c := divNearest parts.1 parts.2
    let rounded := if c = Nat.pow 2 53 then (Nat.pow 2 52, e + 1) else (c, e)
    if greatestExponent < rounded.2 then .infinite negative
    else .finite negative rounded.1 rounded.2

/-! ## Decimals -/

/-- The number of decimal digits, none for zero. -/
def digitCount (n : Nat) : Nat := if n = 0 then 0 else (Nat.toDigits 10 n).length

/-- The binary64 number nearest to `digits · 10^exponent`.  Far outside the
range the answer is known without the power of ten. -/
def ofDecimal (negative : Bool) (digits : Nat) (exponent : Int) : Binary64 :=
  let magnitude := (digitCount digits : Int) + exponent
  if digits = 0 || magnitude < -400 then ofRatio negative 0 1
  else if 400 < magnitude then .infinite negative
  else ofRatio negative (digits * Nat.pow 10 exponent.toNat) (Nat.pow 10 (-exponent).toNat)

/-- The whole number equal to a finite number, if there is one. -/
def toInt? : Binary64 → Option Int
  | .finite negative c e =>
    let parts := inUnits c 1 (-e)
    if parts.1 % parts.2 = 0 then
      let n : Int := (parts.1 / parts.2 : Nat)
      some (if negative then -n else n)
    else none
  | _ => none

/-! ## The fewest digits that round back -/

/-- The numbers that round to one binary64 number.  All three numerators stand
over `den`. -/
structure Interval where
  /-- The lower end. -/
  low : Nat
  /-- The binary64 number itself. -/
  value : Nat
  /-- The upper end. -/
  high : Nat
  /-- The common denominator. -/
  den : Nat
  /-- The ends round to the number too. -/
  closed : Bool

/-- The interval of `c · 2^e`, in quarters of the unit in the last place.  Below
a power of two the gap is half as wide. -/
def Interval.around (c : Nat) (e : Int) : Interval :=
  let up := Nat.pow 2 (e - 2).toNat
  let below := if c = Nat.pow 2 52 && leastExponent < e then 1 else 2
  { low := (4 * c - below) * up, value := 4 * c * up, high := (4 * c + 2) * up,
    den := Nat.pow 2 (2 - e).toNat, closed := c % 2 == 0 }

/-- The exponent of ten of the leading digit. -/
def Interval.leading (i : Interval) : Int :=
  if i.den ≤ i.value then (digitCount (i.value / i.den) : Int) - 1
  else -(digitCount ((i.den + i.value - 1) / i.value - 1) : Int)

/-- A neighbour of the number on the grid of multiples of `10^k` that lies in
the interval, the nearer one if both do. -/
def Interval.onGrid? (i : Interval) (k : Int) : Option Nat :=
  let up := Nat.pow 10 k.toNat * i.den
  let down := Nat.pow 10 (-k).toNat
  let below := i.value * down / up
  let inside (a : Nat) : Bool :=
    if i.closed then i.low * down ≤ a * up && a * up ≤ i.high * down
    else i.low * down < a * up && a * up < i.high * down
  let twice := 2 * i.value * down
  let middle := (2 * below + 1) * up
  match inside below, inside (below + 1) with
  | true, true =>
    some (if twice < middle then below else if middle < twice then below + 1
      else below + below % 2)
  | true, false => some below
  | false, true => some (below + 1)
  | false, false => none

/-- The fewest digits that round back to `c · 2^e`, with the exponent of ten of
the last one.  Seventeen digits always do. -/
def shortest (c : Nat) (e : Int) : Nat × Int :=
  let i := Interval.around c e
  let grid (n : Nat) : Int := i.leading - n
  ((List.range 17).findSome? fun n => (i.onGrid? (grid n)).map fun d => (d, grid n)).getD (0, 0)

/-! ## Text -/

/-- How binary64 numbers are spelled. -/
structure Layout where
  /-- The least exponent of the leading digit that is written without a power. -/
  positionalFrom : Int
  /-- The least exponent above those that is written with a power again. -/
  positionalBelow : Int
  /-- The spelling of infinity. -/
  infinity : String
  /-- The spelling of not-a-number. -/
  nan : String

/-- The digits of a power, at least two. -/
def powerDigits (n : Nat) : String :=
  let s := toString n
  if s.length < 2 then "0" ++ s else s

/-- Digits with their point.  `point` counts the digits before it and may fall
outside the digits.  At least one digit stands on either side. -/
def positional (digits : List Char) (point : Int) : String :=
  if point ≤ 0 then "0." ++ String.ofList (List.replicate (-point).toNat '0' ++ digits)
  else
    let whole := digits.take point.toNat
    let rest := digits.drop point.toNat
    let padded := whole ++ List.replicate (point.toNat - whole.length) '0'
    String.ofList padded ++ "." ++ (if rest.isEmpty then "0" else String.ofList rest)

/-- Digits with a power of ten, one digit before the point. -/
def scientific (digits : List Char) (exponent : Int) : String :=
  let fraction := digits.drop 1
  String.ofList (digits.take 1)
    ++ (if fraction.isEmpty then "" else "." ++ String.ofList fraction)
    ++ (if exponent < 0 then "e-" else "e+") ++ powerDigits exponent.natAbs

/-- The digits of a whole number without trailing zeros. -/
def significant (n : Nat) : List Char :=
  ((Nat.toDigits 10 n).reverse.dropWhile (· == '0')).reverse

/-- The text of a number without its sign. -/
def Layout.magnitude (l : Layout) (c : Nat) (e : Int) : String :=
  if c = 0 then "0.0"
  else
    let found := shortest c e
    let leading := found.2 + (Nat.toDigits 10 found.1).length - 1
    let digits := significant found.1
    if l.positionalFrom ≤ leading ∧ leading < l.positionalBelow then
      positional digits (leading + 1)
    else scientific digits leading

/-- The text of a binary64 number. -/
def Layout.write (l : Layout) : Binary64 → String
  | .finite negative c e => (if negative then "-" else "") ++ l.magnitude c e
  | .infinite negative => (if negative then "-" else "") ++ l.infinity
  | .nan => l.nan

end Binary64

end QueryTree
