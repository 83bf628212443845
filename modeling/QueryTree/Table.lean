import QueryTree.Handler

/-!
# Dispatch tables

A *table* maps tags to handlers.  It lists its entries in the order of entry.  A
table is never changed.  A *layer* of further entries gives a new table: an entry
for a tag that is there replaces the handler and keeps the place, and any other
is added at the end.

A tag is a keyword or a word.  Only the listing of a table tells them apart.  A
replaced entry keeps the tag it was first entered with.

There are two built-in tables.  `Table.generic` serves trees, and
`Table.conditions` serves conditions.  The second is the first with a layer of
membership tests, literals, names, constants and one comparison per operator.
-/

namespace QueryTree

/-- A tag as it was entered. -/
inductive Label where
  /-- A built-in operation. -/
  | keyword (k : Keyword)
  /-- Any text. -/
  | word (text : String)
deriving DecidableEq, Repr

namespace Label

/-- The tag itself. -/
def tag : Label → String
  | keyword k => k.tag
  | word text => text

/-- How a listing shows a tag. -/
def display : Label → String
  | keyword k => "<Tag." ++ k.symbol ++ ": " ++ Text.quoted k.tag ++ ">"
  | word text => Text.quoted text

end Label

/-- Handlers under tags, in the order of entry. -/
structure Table where
  /-- The entries, one for each tag. -/
  entries : List (Label × Handler)
deriving DecidableEq, Repr

namespace Table

/-- The table without entries. -/
def empty : Table := ⟨[]⟩

/-- Entries with one more on top. -/
def enter : List (Label × Handler) → Label × Handler → List (Label × Handler)
  | [], new => [new]
  | (label, handler) :: rest, new =>
    if label.tag = new.1.tag then (label, new.2) :: rest else (label, handler) :: enter rest new

/-- A table with a layer of entries on top. -/
def layered (t : Table) (layer : List (Label × Handler)) : Table :=
  ⟨layer.foldl enter t.entries⟩

/-- A table of entries, the later over the earlier. -/
def ofList (entries : List (Label × Handler)) : Table := empty.layered entries

/-- The handler of a tag. -/
def lookup (t : Table) (tag : String) : Option Handler :=
  (t.entries.find? fun entry => entry.1.tag = tag).map (·.2)

/-- Whether a tag has a handler. -/
def contains (t : Table) (tag : String) : Bool := (t.lookup tag).isSome

/-- The number of tags. -/
def size (t : Table) : Nat := t.entries.length

/-- The tags in the order of entry. -/
def toList (t : Table) : List String := t.entries.map (·.1.tag)

/-- A label put into its place among labels ordered by tag. -/
def insertLabel (l : Label) : List Label → List Label
  | [] => [l]
  | m :: rest => if l.tag < m.tag then l :: m :: rest else m :: insertLabel l rest

/-- The labels in the order of their tags. -/
def labels (t : Table) : List Label := (t.entries.map (·.1)).foldl (fun done l => insertLabel l done) []

/-- The tags in order. -/
def tags (t : Table) : List String := t.labels.map (·.tag)

/-- The listing of a table. -/
def display (t : Table) : String :=
  "DispatchTable([" ++ ", ".intercalate (t.labels.map (·.display)) ++ "])"

/-! ## The built-in tables -/

/-- Keywords as labels. -/
def ofKeywords (entries : List (Keyword × Handler)) : List (Label × Handler) :=
  entries.map fun entry => (.keyword entry.1, entry.2)

/-- The table of trees. -/
def generic : Table := ofList (ofKeywords
  [(.select, .select), (.insert, .insert), (.update, .update), (.delete, .delete),
    (.whereClause, .whereClause), (.orderBy, .orderBy), (.groupBy, .groupBy), (.join, .join),
    (.list, .list), (.aliased, .aliased), (.name, .name), (.value, .literal), (.always, .always),
    (.never, .never)])

/-- The entries a table of conditions has besides those of trees. -/
def conditionLayer : List (Label × Handler) := ofKeywords
  [(.isIn, .membership), (.notIn, .membership), (.value, .literal), (.name, .name),
    (.always, .always), (.never, .never)]

/-- A table with the entries of conditions on top, and a comparison for each
operator over them. -/
def withConditions (t : Table) (operators : List String) : Table :=
  t.layered (ofList (conditionLayer ++ operators.map fun op => (.word op, .comparison))).entries

/-- The table of conditions. -/
def conditions : Table := generic.withConditions (defaultOperators.map (·.1))

end Table

end QueryTree
