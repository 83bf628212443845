import QueryTree.Text.LetterCase.Table
import QueryTree.Text.Printable

/-!
# Letter case

Full lower and upper casing of texts.

Lower casing maps each character on its own, with two exceptions.  A capital I
with a dot becomes an i and a combining dot.  A capital sigma becomes a final
sigma if a letter with case stands before it and none after it, where some
marks are passed over.

Upper casing maps each character on its own, some of them to several.
-/

namespace QueryTree.Text

/-- The character a run moves `n` to, if the run has it. -/
def CaseRun.image? (r : CaseRun) (n : Nat) : Option Char :=
  if r.first ≤ n ∧ n ≤ r.last ∧ (n - r.first) % r.stride = 0 then
    some (Char.ofNat ((n : Int) + r.shift).toNat)
  else none

/-- A character through the first run that has it, or as it is. -/
def mapCase (runs : List CaseRun) (c : Char) : Char :=
  (runs.findSome? (·.image? c.toNat)).getD c

/-- The capital sigma. -/
def capitalSigma : Char := Char.ofNat 0x3a3

/-- The capital I with a dot above. -/
def dottedCapitalI : Char := Char.ofNat 0x130

/-- Whether the first character that is not passed over is a letter with case. -/
def meetsLetter (cs : List Char) : Bool :=
  match cs.dropWhile fun c => inRanges caseIgnorableRanges c.toNat with
  | [] => false
  | c :: _ => inRanges casedRanges c.toNat

/-- Lower case of a text.  `before` holds the characters already passed, the
nearest first. -/
def lowerChars (before : List Char) : List Char → List Char
  | [] => []
  | c :: rest =>
    let here :=
      if c = capitalSigma then
        [Char.ofNat (if meetsLetter before && !meetsLetter rest then 0x3c2 else 0x3c3)]
      else if c = dottedCapitalI then ['i', Char.ofNat 0x307]
      else [mapCase lowerRuns c]
    here ++ lowerChars (c :: before) rest

/-- The text in lower case. -/
def lowerCase (s : String) : String := String.ofList (lowerChars [] s.toList)

/-- The upper case of one character. -/
def upperChar (c : Char) : List Char :=
  match upperExpansions.find? (·.1 == c.toNat) with
  | some (_, expansion) => expansion.map Char.ofNat
  | none => [mapCase upperRuns c]

/-- The text in upper case. -/
def upperCase (s : String) : String := String.ofList (s.toList.flatMap upperChar)

end QueryTree.Text
