import QueryTree.Settings

/-!
# Dialects

A *dialect* is a named pair of quotes for one family of databases.  It changes
nothing else about how trees are rendered.  A SQL checker may know the dialect
under a name of its own, or treat it as its default.
-/

namespace QueryTree

/-- Named quotes for a family of databases. -/
structure Dialect where
  /-- The name. -/
  name : String
  /-- The quotes of identifiers. -/
  quotes : Quotes
  /-- The name a SQL checker knows it by, if it is not the checker's default. -/
  checkerName : Option String
deriving DecidableEq, Repr

namespace Dialect

/-- Settings with the quotes of a dialect, used or not. -/
def apply (d : Dialect) (s : Settings) (quote : Bool) : Settings :=
  { s with quoteIdentifiers := quote, quotes := d.quotes }

/-- Standard SQL. -/
def ansi : Dialect := ⟨"ansi", ⟨"\"", "\""⟩, none⟩

/-- PostgreSQL. -/
def postgres : Dialect := ⟨"postgres", ⟨"\"", "\""⟩, some "postgres"⟩

/-- SQLite. -/
def sqlite : Dialect := ⟨"sqlite", ⟨"\"", "\""⟩, some "sqlite"⟩

/-- MySQL and MariaDB. -/
def mysql : Dialect := ⟨"mysql", ⟨"`", "`"⟩, some "mysql"⟩

/-- SQL Server. -/
def tsql : Dialect := ⟨"tsql", ⟨"[", "]"⟩, some "tsql"⟩

end Dialect

end QueryTree
