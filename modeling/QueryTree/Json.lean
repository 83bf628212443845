import QueryTree.Value

/-!
# Reading JSON

`Json.read` turns a JSON text into a value.  Objects become maps in the order
written.  A key written twice keeps its first place and takes its last value.

A number with a point or a power is a binary64 number, and any other a whole
number of any size.  `NaN`, `Infinity` and `-Infinity` are numbers too.  Control
characters must be escaped in texts.  A surrogate escape is read only as half
of a pair, since a text has whole characters.

The reader goes down one level per bracket and along one step per item.  Every
second step consumes a character, so twice the length of the text bounds the
steps.
-/

namespace QueryTree.Json

/-- The four blank characters. -/
def isBlank (c : Char) : Bool := c == ' ' || c == '\t' || c == '\n' || c == '\r'

/-- The text after its leading blanks. -/
def skipBlank (cs : List Char) : List Char := cs.dropWhile isBlank

/-- The text after a word it begins with. -/
def after? : List Char → List Char → Option (List Char)
  | [], cs => some cs
  | w :: word, c :: cs => if w = c then after? word cs else none
  | _ :: _, [] => none

/-! ## Texts -/

/-- The value of a hexadecimal digit. -/
def hexValue? (c : Char) : Option Nat :=
  if '0' ≤ c ∧ c ≤ '9' then some (c.toNat - 48)
  else if 'a' ≤ c ∧ c ≤ 'f' then some (c.toNat - 87)
  else if 'A' ≤ c ∧ c ≤ 'F' then some (c.toNat - 55)
  else none

/-- The value of four hexadecimal digits. -/
def hexValue4? (a b c d : Char) : Option Nat := do
  let a ← hexValue? a
  let b ← hexValue? b
  let c ← hexValue? c
  let d ← hexValue? d
  pure (((a * 16 + b) * 16 + c) * 16 + d)

/-- Whether a code unit is the first half of a pair. -/
def isHighSurrogate (n : Nat) : Bool := 0xd800 ≤ n && n < 0xdc00

/-- Whether a code unit is the second half of a pair. -/
def isLowSurrogate (n : Nat) : Bool := 0xdc00 ≤ n && n < 0xe000

/-- The character of a pair of code units. -/
def joinSurrogates (high low : Nat) : Char :=
  Char.ofNat (0x10000 + (high - 0xd800) * 0x400 + (low - 0xdc00))

/-- The character of a short escape. -/
def shortEscape? (c : Char) : Option Char :=
  if c = '\x22' ∨ c = '\x5c' ∨ c = '/' then some c
  else if c = 'b' then some '\x08'
  else if c = 'f' then some '\x0c'
  else if c = 'n' then some '\n'
  else if c = 'r' then some '\r'
  else if c = 't' then some '\t'
  else none

/-- The characters up to the closing quote, and what follows it. -/
def text : List Char → Option (List Char × List Char)
  | [] => none
  | '\x22' :: rest => some ([], rest)
  | '\x5c' :: 'u' :: a :: b :: c :: d :: rest =>
    match hexValue4? a b c d with
    | none => none
    | some n =>
      if isHighSurrogate n then
        match rest with
        | '\x5c' :: 'u' :: e :: f :: g :: h :: rest =>
          match hexValue4? e f g h with
          | none => none
          | some m =>
            if isLowSurrogate m then
              (text rest).map fun r => (joinSurrogates n m :: r.1, r.2)
            else none
        | _ => none
      else if isLowSurrogate n then none
      else (text rest).map fun r => (Char.ofNat n :: r.1, r.2)
  | '\x5c' :: c :: rest =>
    match shortEscape? c with
    | none => none
    | some e => (text rest).map fun r => (e :: r.1, r.2)
  | c :: rest =>
    if c.toNat < 0x20 ∨ c = '\x5c' then none
    else (text rest).map fun r => (c :: r.1, r.2)

/-! ## Numbers -/

/-- The whole number some decimal digits denote. -/
def digitsValue (cs : List Char) : Nat :=
  cs.foldl (fun n c => n * 10 + (c.toNat - 48)) 0

/-- The leading decimal digits, and what follows them. -/
def digits (cs : List Char) : List Char × List Char :=
  (cs.takeWhile Char.isDigit, cs.dropWhile Char.isDigit)

/-- The digits after a point, and what follows them. -/
def fraction? : List Char → Option (List Char × List Char)
  | '.' :: c :: rest => if c.isDigit then some (digits (c :: rest)) else none
  | _ => none

/-- The power of ten after an `e`, and what follows it. -/
def power? : List Char → Option (Int × List Char)
  | e :: rest =>
    if e = 'e' ∨ e = 'E' then
      let signed : Bool × List Char := match rest with
        | '-' :: r => (true, r)
        | '+' :: r => (false, r)
        | r => (false, r)
      let found := digits signed.2
      if found.1.isEmpty then none
      else
        let n : Int := digitsValue found.1
        some (if signed.1 then -n else n, found.2)
    else none
  | [] => none

/-- A number, and what follows it. -/
def number (cs : List Char) : Option (Value × List Char) :=
  let signed : Bool × List Char := match cs with
    | '-' :: r => (true, r)
    | r => (false, r)
  let whole := digits signed.2
  match whole.1 with
  | [] =>
    (after? "Infinity".toList signed.2).map fun r => (.float (.infinite signed.1), r)
  | '0' :: _ :: _ => none
  | leading =>
    let afterPoint := (fraction? whole.2).getD ([], whole.2)
    let afterPower := (power? afterPoint.2).getD (0, afterPoint.2)
    if (fraction? whole.2).isNone ∧ (power? afterPoint.2).isNone then
      let n : Int := digitsValue leading
      some (.int (if signed.1 then -n else n), whole.2)
    else
      let coefficient := digitsValue (leading ++ afterPoint.1)
      let exponent := afterPower.1 - afterPoint.1.length
      some (.float (.ofDecimal signed.1 coefficient exponent), afterPower.2)

/-! ## Values -/

/-- A value without parts, and what follows it. -/
def scalar (cs : List Char) : Option (Value × List Char) :=
  match after? "null".toList cs, after? "true".toList cs, after? "false".toList cs,
      after? "NaN".toList cs with
  | some r, _, _, _ => some (.null, r)
  | _, some r, _, _ => some (.bool true, r)
  | _, _, some r, _ => some (.bool false, r)
  | _, _, _, some r => some (.float .nan, r)
  | _, _, _, _ => number cs

mutual

/-- A value, and what follows it. -/
def value : Nat → List Char → Option (Value × List Char)
  | 0, _ => none
  | n + 1, cs =>
    match skipBlank cs with
    | '\x22' :: rest => (text rest).map fun r => (.str (String.ofList r.1), r.2)
    | '[' :: rest =>
      match skipBlank rest with
      | ']' :: rest => some (.list [], rest)
      | rest => (items n rest).map fun r => (.list r.1, r.2)
    | '\x7b' :: rest =>
      match skipBlank rest with
      | '\x7d' :: rest => some (.map [], rest)
      | rest => (members n [] rest).map fun r => (.map r.1, r.2)
    | rest => scalar rest

/-- The items up to the closing bracket, and what follows it. -/
def items : Nat → List Char → Option (List Value × List Char)
  | 0, _ => none
  | n + 1, cs =>
    match value n cs with
    | none => none
    | some (v, rest) =>
      match skipBlank rest with
      | ',' :: rest => (items n rest).map fun r => (v :: r.1, r.2)
      | ']' :: rest => some ([v], rest)
      | _ => none

/-- The entries up to the closing brace, after those already read, and what
follows it. -/
def members : Nat → Fields → List Char → Option (Fields × List Char)
  | 0, _, _ => none
  | n + 1, done, cs =>
    match skipBlank cs with
    | '\x22' :: rest =>
      match text rest with
      | none => none
      | some (key, rest) =>
        match skipBlank rest with
        | ':' :: rest =>
          match value n rest with
          | none => none
          | some (v, rest) =>
            let done := done.set (String.ofList key) v
            match skipBlank rest with
            | ',' :: rest => members n done rest
            | '\x7d' :: rest => some (done, rest)
            | _ => none
        | _ => none
    | _ => none

end

/-- The value of a JSON text, if it is one. -/
def read (s : String) : Option Value :=
  match value (2 * s.length + 2) s.toList with
  | some (v, rest) => if (skipBlank rest).isEmpty then some v else none
  | none => none

end QueryTree.Json
