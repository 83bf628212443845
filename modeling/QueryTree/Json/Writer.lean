import QueryTree.Value.Printer

/-!
# Writing JSON

`Json.write` writes a value on one line in ASCII.  A comma and a colon are
followed by a space.  Quotation marks, backslashes and five control characters
have short escapes.  Everything else outside the printable ASCII range is
written in four hexadecimal digits, as a surrogate pair if it needs more.

Tuples are written as arrays.  Bytes and nodes have no form of their own and
are written as the text of their display form.
-/

namespace QueryTree.Json

/-- A code unit as an escape. -/
def unitEscape (n : Nat) : String := "\\u" ++ Text.hexDigits 4 n

/-- A character inside quotes. -/
def escaped (c : Char) : String :=
  if c = '\x22' then "\\\""
  else if c = '\x5c' then "\\\\"
  else if c = '\n' then "\\n"
  else if c = '\r' then "\\r"
  else if c = '\t' then "\\t"
  else if c = '\x08' then "\\b"
  else if c = '\x0c' then "\\f"
  else if 0x20 ≤ c.toNat ∧ c.toNat < 0x7f then c.toString
  else if c.toNat < 0x10000 then unitEscape c.toNat
  else
    let n := c.toNat - 0x10000
    unitEscape (0xd800 + n / 0x400) ++ unitEscape (0xdc00 + n % 0x400)

/-- A text in quotes. -/
def quoted (s : String) : String := "\"" ++ String.join (s.toList.map escaped) ++ "\""

/-- Numbers are spelled as in messages, infinity and not-a-number as names. -/
def floatLayout : Binary64.Layout := { Value.floatLayout with infinity := "Infinity", nan := "NaN" }

/-- The text of a key. -/
def keyText : Value → String
  | .str s => s
  | .bool b => if b then "true" else "false"
  | .null => "null"
  | .float x => floatLayout.write x
  | v => v.plain

mutual

/-- The JSON text of a value. -/
def write : Value → String
  | .null => "null"
  | .bool b => if b then "true" else "false"
  | .int i => toString i
  | .float x => floatLayout.write x
  | .str s => quoted s
  | .bytes bs => quoted (Text.quotedBytes bs)
  | .list items => "[" ++ ", ".intercalate (writeItems items) ++ "]"
  | .tuple items => "[" ++ ", ".intercalate (writeItems items) ++ "]"
  | .map entries => "\x7b" ++ ", ".intercalate (writeEntries entries) ++ "\x7d"
  | .node tag args fields => quoted (Value.display (.node tag args fields))

/-- The JSON texts of some items. -/
def writeItems : List Value → List String
  | [] => []
  | v :: rest => write v :: writeItems rest

/-- The JSON texts of some entries. -/
def writeEntries : List (Value × Value) → List String
  | [] => []
  | (k, v) :: rest => (quoted (keyText k) ++ ": " ++ write v) :: writeEntries rest

end

end QueryTree.Json
