import QueryTree.Text.Printable
import QueryTree.Value

/-!
# Values in messages

The *display form* of a value is how messages show it: `None`, `True`, numbers
in decimal, texts in quotes, `[a, b]` for lists, `(a, b)` and `(a,)` for tuples,
braces with colons for maps, and a node with its three parts.

A text is quoted with apostrophes, unless it holds an apostrophe and no
quotation mark.  A backslash stands before a backslash and before the quote in
use.  Line feed, carriage return and tab have short escapes.  Any other
unprintable character is written by its code point in hexadecimal, with two,
four or eight digits.  Bytes are quoted alike after a `b`, and there everything
outside ASCII has two digits.

The *plain form* of a text is the text itself, and the display form of anything
else.
-/

namespace QueryTree

namespace Text

/-- Lower case hexadecimal digits, filled up with zeros to a width. -/
def hexDigits (width n : Nat) : String :=
  let digits := Nat.toDigits 16 n
  String.ofList (List.replicate (width - digits.length) '0' ++ digits)

/-- The quote for a text: an apostrophe, unless there is one and no quotation
mark. -/
def quoteFor (cs : List Char) : Char :=
  if cs.contains '\x27' && !cs.contains '\x22' then '\x22' else '\x27'

/-- A character with a short escape, or the quote in use. -/
def shortEscape? (quote c : Char) : Option String :=
  if c = quote ∨ c = '\x5c' then some (String.ofList ['\x5c', c])
  else if c = '\n' then some "\\n"
  else if c = '\r' then some "\\r"
  else if c = '\t' then some "\\t"
  else none

/-- The escape of a code point by its number. -/
def codeEscape (n : Nat) : String :=
  if n < 0x100 then "\\x" ++ hexDigits 2 n
  else if n < 0x10000 then "\\u" ++ hexDigits 4 n
  else "\\U" ++ hexDigits 8 n

/-- A character inside quotes. -/
def quotedChar (quote c : Char) : String :=
  match shortEscape? quote c with
  | some escape => escape
  | none => if isPrintable c then c.toString else codeEscape c.toNat

/-- A text in quotes. -/
def quoted (s : String) : String :=
  let quote := quoteFor s.toList
  quote.toString ++ String.join (s.toList.map (quotedChar quote)) ++ quote.toString

/-- A byte inside quotes. -/
def quotedByte (quote : Char) (b : UInt8) : String :=
  let c := Char.ofNat b.toNat
  match shortEscape? quote c with
  | some escape => escape
  | none => if 0x20 ≤ b.toNat ∧ b.toNat < 0x7f then c.toString else codeEscape b.toNat

/-- Bytes in quotes. -/
def quotedBytes (bs : List UInt8) : String :=
  let quote := quoteFor (bs.map fun b => Char.ofNat b.toNat)
  "b" ++ quote.toString ++ String.join (bs.map (quotedByte quote)) ++ quote.toString

end Text

namespace Value

/-- Numbers in messages: positional from `1e-4` up to `1e16`. -/
def floatLayout : Binary64.Layout := ⟨-4, 16, "inf", "nan"⟩

/-- A tuple of display forms.  A comma follows the only item. -/
def displayTuple : List String → String
  | [item] => "(" ++ item ++ ",)"
  | items => "(" ++ ", ".intercalate items ++ ")"

/-- A map of display forms. -/
def displayMap (entries : List String) : String :=
  "\x7b" ++ ", ".intercalate entries ++ "\x7d"

mutual

/-- The display form of a value. -/
def display : Value → String
  | null => "None"
  | bool b => if b then "True" else "False"
  | int i => toString i
  | float x => floatLayout.write x
  | str s => Text.quoted s
  | bytes bs => Text.quotedBytes bs
  | list items => "[" ++ ", ".intercalate (displayItems items) ++ "]"
  | tuple items => displayTuple (displayItems items)
  | map entries => displayMap (displayEntries entries)
  | node tag args fields =>
    "Node(tag=" ++ Text.quoted tag ++ ", args=" ++ displayTuple (displayItems args)
      ++ ", fields=mappingproxy(" ++ displayMap (displayEntries fields) ++ "))"

/-- The display forms of some items. -/
def displayItems : List Value → List String
  | [] => []
  | v :: rest => display v :: displayItems rest

/-- The display forms of some entries. -/
def displayEntries : List (Value × Value) → List String
  | [] => []
  | (k, v) :: rest => (display k ++ ": " ++ display v) :: displayEntries rest

end

/-- The plain form of a value. -/
def plain : Value → String
  | str s => s
  | v => v.display

end Value

end QueryTree
