import QueryTree.Identifier

/-!
# Settings

The settings fix how identifiers are quoted and separated, what stands between
the items of a list, what a placeholder looks like, how tightly the connectives
bind, and which token each operator has.

The two maps keep their order of entry, and each key once.
-/

namespace QueryTree

/-- The operators every map of tokens starts with. -/
def defaultOperators : List (String × String) :=
  [("==", "="), ("=", "="), ("!=", "!="), ("<>", "<>"), (">", ">"), (">=", ">="), ("<", "<"),
    ("<=", "<="), ("like", "LIKE"), ("not_like", "NOT LIKE"), ("ilike", "ILIKE"), ("is", "IS"),
    ("is_not", "IS NOT")]

/-- What rendering depends on besides the tables. -/
structure Settings where
  /-- The least level of messages that are logged. -/
  logLevel : String := "INFO"
  /-- Whether identifiers are quoted. -/
  quoteIdentifiers : Bool := false
  /-- The quotes of identifiers. -/
  quotes : Quotes := ⟨"\"", "\""⟩
  /-- What stands between the segments of a name. -/
  nameSeparator : String := "."
  /-- What stands between the items of a list. -/
  listSeparator : String := ", "
  /-- What stands for a bound literal. -/
  placeholder : String := "?"
  /-- The priorities of the connectives.  A group is put in parentheses if its
  number is greater than that of the group around it. -/
  priorities : List (String × Int) := [("and", 10), ("or", 50)]
  /-- The token of each binary operator. -/
  operators : List (String × String) := defaultOperators
deriving Repr

namespace Settings

/-- The quotes in use. -/
def activeQuotes (s : Settings) : Quotes := if s.quoteIdentifiers then s.quotes else .none

/-- The priority of a connective. -/
def rank (s : Settings) (c : Connective) : Option Int := s.priorities.lookup c.name

end Settings

end QueryTree
