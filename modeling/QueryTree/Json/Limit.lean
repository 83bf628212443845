import QueryTree.Json

/-!
# Long whole numbers

A JSON text may hold whole numbers of any size.  Readers that accept no more than
`digitLimit` digits ask `overlong?` for the first number with more digits.

*First* means on the outermost level.  Numbers of one level come in the order of
the text.
-/

namespace QueryTree.Json

/-- The most digits of a whole number. -/
def digitLimit : Nat := 4300

/-- The number of decimal digits of a whole number. -/
def digitCount (i : Int) : Nat := (Nat.toDigits 10 i.natAbs).length

/-- The values a value holds on the next level. -/
def parts : Value → List Value
  | .list items => items
  | .map entries => entries.map (·.2)
  | _ => []

/-- The digits of a whole number, if there are too many. -/
def excess? : Value → Option Nat
  | .int i => if digitCount i > digitLimit then some (digitCount i) else none
  | _ => none

/-- The digits of the first overlong number among values and all levels below, as
many levels as the bound allows. -/
def firstExcess? : Nat → List Value → Option Nat
  | _, [] => none
  | 0, values => values.findSome? excess?
  | n + 1, values => values.findSome? excess? <|> firstExcess? n (values.flatMap parts)

/-- The digits of the first overlong number in the value of a text.  The value
has no more levels than the text has characters. -/
def overlong? (text : String) (v : Value) : Option Nat := firstExcess? text.length [v]

end QueryTree.Json
