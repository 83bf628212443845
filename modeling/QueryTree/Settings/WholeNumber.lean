import QueryTree.Json.Limit

/-!
# Whole numbers in texts

A setting that is a whole number may be given as a text.

*Strict form.*  A whole number is written with decimal digits and no leading
zero, after a minus sign if it is negative.  `readStrict` reads this form only.
A number of more than `Json.digitLimit` digits is not read at all.

*Loose form.*  A text that is not in the strict form is brought into it first.
`tidy` drops the blanks around the number, a plus sign, a point with only zeros
after it, leading zeros, and underscores that stand alone between two characters.
A minus sign keeps its place before what is left.  Whatever cannot be dropped
stays, so that `readStrict` refuses it.

Too many digits are told apart from other faults only in a text that is read as
it stands.  After tidying they are a fault like any other.

Leading zeros are dropped up to any other character, which may be a minus sign.
So `0-5` is a number, and `-0-5` is none.
-/

namespace QueryTree.WholeNumber

/-- What a text says. -/
inductive Reading where
  /-- A number. -/
  | number (i : Int)
  /-- A number with too many digits. -/
  | tooLong
  /-- No number. -/
  | malformed
deriving DecidableEq, Repr

/-! ## Strict form -/

/-- The digits after a minus sign, and whether there is one. -/
def splitSign : List Char → Bool × List Char
  | '-' :: rest => (true, rest)
  | cs => (false, cs)

/-- The number of a text in the strict form.  Too many digits are noticed before
anything that follows them. -/
def readStrict (cs : List Char) : Reading :=
  let (negative, rest) := splitSign cs
  let leading := rest.takeWhile Char.isDigit
  match leading with
  | [] => .malformed
  | '0' :: _ => if rest = ['0'] then .number 0 else .malformed
  | _ =>
    if leading.length > Json.digitLimit then .tooLong
    else if leading.length < rest.length then .malformed
    else .number (if negative then -(Json.digitsValue leading : Int) else Json.digitsValue leading)

/-! ## Loose form -/

/-- Whether a character is blank. -/
def isBlank (c : Char) : Bool :=
  let n := c.toNat
  (0x9 ≤ n && n ≤ 0xd) || (0x2000 ≤ n && n ≤ 0x200a)
    || [0x20, 0x85, 0xa0, 0x1680, 0x2028, 0x2029, 0x202f, 0x205f, 0x3000].contains n

/-- A text without the blanks around it. -/
def trimmed (cs : List Char) : List Char :=
  ((cs.dropWhile isBlank).reverse.dropWhile isBlank).reverse

/-- A text without a plus sign at its start.  No minus sign may follow it. -/
def withoutPlus : List Char → List Char
  | '+' :: '-' :: rest => '+' :: '-' :: rest
  | '+' :: rest => rest
  | cs => cs

/-- A text without its first point and what follows it, if that is some zeros and
nothing else. -/
def withoutDecimals (cs : List Char) : List Char :=
  match cs.dropWhile (· != '.') with
  | _ :: '0' :: decimals => if decimals.all (· == '0') then cs.takeWhile (· != '.') else cs
  | _ => cs

/-- A text without leading zeros and the underscores among them.  Of zeros alone
the last character stays. -/
def withoutZeros : List Char → List Char
  | '0' :: rest =>
    match rest.dropWhile fun c => c == '0' || c == '_' with
    | [] => [rest.getLastD '0']
    | tail => tail
  | cs => cs

/-- A text without its underscores, if none of them is at an end or beside
another one. -/
def withoutUnderscores (cs : List Char) : List Char :=
  if (List.zip ('_' :: cs) (cs ++ ['_'])).contains ('_', '_') then cs else cs.filter (· != '_')

/-- The digits of a number without a sign, in the strict form. -/
def tidyDigits (cs : List Char) : List Char :=
  withoutUnderscores (withoutZeros (withoutDecimals cs))

/-- A number in the strict form. -/
def tidy (cs : List Char) : List Char :=
  match withoutPlus (trimmed cs) with
  | '-' :: rest => '-' :: tidyDigits rest
  | rest => tidyDigits rest

/-- The number of a text in the loose form. -/
def readLoose (cs : List Char) : Reading :=
  match readStrict (tidy cs) with
  | .tooLong => .malformed
  | reading => reading

/-- The number of a text. -/
def read (s : String) : Reading :=
  match readStrict s.toList with
  | .malformed => readLoose s.toList
  | reading => reading

end QueryTree.WholeNumber
