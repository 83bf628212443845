import QueryTree.Value

/-!
# SQL with placeholders

A rendered clause is a list of *fragments*.  A fragment is a text or a
placeholder.  A placeholder remembers the literal it stands for, so the order of
the placeholders in the text can be compared with the order in which literals
were recorded.  `Sql.write` puts the same placeholder text everywhere.
-/

namespace QueryTree

/-- A piece of SQL. -/
inductive Fragment where
  /-- A text. -/
  | text (s : String)
  /-- A place for a bound literal. -/
  | placeholder (literal : Value)

/-- SQL as a list of fragments. -/
abbrev Sql := List Fragment

namespace Sql

/-- SQL that is a text. -/
def ofText (s : String) : Sql := [.text s]

/-- Pieces of SQL with a separator between them. -/
def joined (separator : String) : List Sql → Sql
  | [] => []
  | [s] => s
  | s :: rest => s ++ .text separator :: joined separator rest

/-- The text of a fragment. -/
def writeFragment (placeholder : String) : Fragment → String
  | .text s => s
  | .placeholder _ => placeholder

/-- The text of SQL with a placeholder text. -/
def write (placeholder : String) (s : Sql) : String :=
  String.join (s.map (writeFragment placeholder))

/-- The literals of the placeholders from left to right. -/
def literals (s : Sql) : List Value :=
  s.filterMap fun
    | .placeholder v => some v
    | .text _ => none

@[simp] theorem literals_ofText (s : String) : literals (ofText s) = [] := rfl

@[simp] theorem literals_append (s t : Sql) : literals (s ++ t) = literals s ++ literals t :=
  List.filterMap_append

end Sql

end QueryTree
