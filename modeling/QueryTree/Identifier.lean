import QueryTree.Error

/-!
# Identifiers

A name has one or more *segments*, such as a schema, a table and a column.  The
last segment may be a star.  Each other segment may be quoted: it is put between
an opening and a closing quote, and every closing quote inside it is doubled.
Nothing is quoted if the closing quote is empty.  The star is never quoted.

Doubling reads from the left.  An occurrence of the closing quote that overlaps
an earlier one is not an occurrence.
-/

namespace QueryTree

/-- An opening and a closing quote. -/
structure Quotes where
  /-- The opening quote. -/
  opening : String
  /-- The closing quote. -/
  closing : String
deriving DecidableEq, Repr

/-- The quotes that quote nothing. -/
def Quotes.none : Quotes := ⟨"", ""⟩

namespace Identifier

/-- The segment that stands for every column. -/
def star : String := "*"

/-- A text with every occurrence of `quote` doubled.  `skip` characters belong
to an occurrence already doubled. -/
def doubledFrom (quote : List Char) : Nat → List Char → List Char
  | _, [] => []
  | skip + 1, _ :: rest => doubledFrom quote skip rest
  | 0, c :: rest =>
    if quote.isPrefixOf (c :: rest) then quote ++ quote ++ doubledFrom quote (quote.length - 1) rest
    else c :: doubledFrom quote 0 rest

/-- A text with every occurrence of a quote doubled. -/
def doubled (quote segment : String) : String :=
  String.ofList (doubledFrom quote.toList 0 segment.toList)

/-- A segment in quotes. -/
def quoteSegment (quotes : Quotes) (segment : String) : String :=
  if quotes.closing.isEmpty then segment
  else quotes.opening ++ doubled quotes.closing segment ++ quotes.closing

/-- The segments as texts, unless one is none. -/
def texts : List Value → Except Fault (List String)
  | [] => .ok []
  | .str s :: rest => (texts rest).map (s :: ·)
  | v :: _ => .error (.segmentNotText v)

/-- Segments in quotes, with separators between them. -/
def joined (quotes : Quotes) (separator : String) (segments : List String) : String :=
  separator.intercalate (segments.map (quoteSegment quotes))

/-- The text of a name. -/
def render (quotes : Quotes) (separator : String) (segments : List Value) :
    Except Fault String :=
  match texts segments with
  | .error fault => .error fault
  | .ok names =>
    match names.getLast? with
    | none => .error .nameEmpty
    | some last =>
      let init := names.dropLast
      if star ∈ init then .error (.starNotLast names)
      else if last ≠ star then .ok (joined quotes separator names)
      else if init.isEmpty then .ok star
      else .ok (joined quotes separator init ++ separator ++ star)

end Identifier

end QueryTree
