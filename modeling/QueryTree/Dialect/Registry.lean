import QueryTree.Dialect
import QueryTree.Text.LetterCase

/-!
# The registry of dialects

A *registry* finds dialects by name.  A dialect is registered under its name as
written, and under aliases in lower case.  A look-up turns its name into lower
case, follows an alias if there is one, and takes the dialect of exactly the name
it then has.  A later registration of a name or an alias replaces an earlier one.

`Registry.builtin` has five dialects.
-/

namespace QueryTree

/-- Dialects by name, and names by alias. -/
structure Registry where
  /-- The dialects, each under its name. -/
  presets : List (String × Dialect)
  /-- The names that aliases in lower case stand for. -/
  aliases : List (String × String)
deriving Repr

/-- A name no dialect is found by, with the names there are. -/
structure UnknownDialect where
  /-- The name as it was asked for. -/
  name : String
  /-- The names of all dialects, in order. -/
  available : List String
deriving DecidableEq, Repr

/-- The wording of a failed look-up. -/
def UnknownDialect.message (e : UnknownDialect) : String :=
  "Unsupported dialect '" ++ e.name ++ "'. Available: " ++ ", ".intercalate e.available

namespace Registry

/-- The registry without dialects. -/
def empty : Registry := ⟨[], []⟩

/-- Entries with one set.  An entry that is there keeps its place. -/
def put {α : Type} (entries : List (String × α)) (key : String) (value : α) : List (String × α) :=
  match entries with
  | [] => [(key, value)]
  | (k, v) :: rest => if k = key then (k, value) :: rest else (k, v) :: put rest key value

/-- A registry with a dialect and its aliases. -/
def register (r : Registry) (d : Dialect) (aliases : List String) : Registry where
  presets := put r.presets d.name d
  aliases := aliases.foldl (fun done other => put done (Text.lowerCase other) d.name) r.aliases

/-- The name a look-up ends at. -/
def canonicalName (r : Registry) (name : String) : String :=
  let key := Text.lowerCase name
  (r.aliases.lookup key).getD key

/-- A name put into its place among ordered names. -/
def insertName (name : String) : List String → List String
  | [] => [name]
  | other :: rest => if name < other then name :: other :: rest else other :: insertName name rest

/-- The names of all dialects, in order. -/
def available (r : Registry) : List String :=
  (r.presets.map (·.1)).foldl (fun done name => insertName name done) []

/-- The dialect of a name or an alias, in any case. -/
def get (r : Registry) (name : String) : Except UnknownDialect Dialect :=
  match r.presets.lookup (r.canonicalName name) with
  | some d => .ok d
  | none => .error ⟨name, r.available⟩

/-- Settings with the quotes of the dialect of a name. -/
def settingsFor (r : Registry) (name : String) (base : Settings) (quote : Bool) :
    Except UnknownDialect Settings :=
  (r.get name).map fun d => d.apply base quote

/-- The built-in dialects. -/
def builtin : Registry :=
  ((((empty.register .ansi ["sql"]).register .postgres ["postgresql", "pg"]).register .sqlite
    ["sqlite3"]).register .mysql ["mariadb"]).register .tsql ["mssql", "sqlserver"]

/-- What is reported before SQL is looked at: only that a dialect is unknown. -/
def checkWarnings (r : Registry) (name : String) : List String :=
  match r.get name with
  | .ok _ => []
  | .error _ => ["Unknown dialect '" ++ name ++ "' - skipping SQL validation"]

/-- What is reported about SQL in a dialect.  The checker is asked if the dialect is known. -/
def warnings {ε : Type} (r : Registry) (check : Option String → String → Except ε (Option String))
    (name sql : String) : Except ε (List String) :=
  match r.get name with
  | .ok d => (check d.checkerName sql).map Option.toList
  | .error _ => .ok (r.checkWarnings name)

end Registry

end QueryTree
