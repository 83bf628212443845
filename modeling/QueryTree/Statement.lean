import QueryTree.Clause
import QueryTree.Statement.Shape

/-!
# Statements

How each of the four statements is rendered.  A statement whose shape has issues
is refused with all of them before anything of it is rendered.  After that its
clauses are rendered one by one.  A clause that may be left out is rendered if
its key is there.

An update renders its assignments before its target.
-/

namespace QueryTree.Statement

open Rendering (fault each eachJoined)

/-- A node without issues. -/
def checked (issues : List Issue) (rendering : Rendering Sql) : Rendering Sql :=
  match issues with
  | [] => rendering
  | issues => fault (.issues issues)

/-- A clause that is rendered if its key is there. -/
def optional (n : Node) (key : String) (render : Value → Rendering (List Sql)) :
    Rendering (List Sql) :=
  match n.fields.get? key with
  | some v => render v
  | none => pure []

/-- The WHERE clause of a statement. -/
def conditions (s : Settings) (below : Below) (n : Node) : Rendering (List Sql) :=
  optional n "where" fun v => do
    let clause ← Clause.whereConditions s below v
    return [clause]

/-- The joins of a select. -/
def joins (below : Below) (n : Node) : Rendering (List Sql) :=
  optional n "join" fun v => do
    let found ← Rendering.ofExcept (Clause.joinList v)
    each below.tree found

/-- The grouping of a select. -/
def grouping (below : Below) (n : Node) : Rendering (List Sql) :=
  optional n "group_by" fun v => do
    let clause ← Clause.groupItems below (v.sequence?.getD [])
    return [clause]

/-- The ordering of a select. -/
def ordering (below : Below) (n : Node) : Rendering (List Sql) :=
  optional n "order_by" fun v => do
    let clause ← Clause.orderItems below (v.sequence?.getD [])
    return [clause]

/-- A select. -/
def select (s : Settings) (below : Below) (n : Node) : Rendering Sql :=
  checked (Shape.select n) do
    let columns ← below.tree (n.fields.get "columns")
    let source ← below.tree (n.fields.get "from")
    let joins ← joins below n
    let conditions ← conditions s below n
    let grouping ← grouping below n
    let ordering ← ordering below n
    return Sql.joined " " ([.ofText "SELECT", columns, .ofText "FROM", source] ++ joins ++ conditions
      ++ grouping ++ ordering)

/-- An insert. -/
def insert (below : Below) (n : Node) : Rendering Sql :=
  checked (Shape.insert n) do
    let target ← below.tree (n.fields.get "into")
    let columns ← optional n "columns" fun v => do
      let columns ← below.tree v
      return [.text " (" :: columns ++ .ofText ")"]
    let values ← below.tree (n.fields.get "values")
    return .text "INSERT INTO " :: target ++ columns.flatten ++ .text " VALUES (" :: values
      ++ .ofText ")"

/-- An assignment of an update. -/
def assignment (below : Below) (pair : Value × Value) : Rendering Sql := do
  let target ← below.tree pair.1
  let value ← below.tree pair.2
  return target ++ .text " = " :: value

/-- The assignments of an update. -/
def assignments (n : Node) : List (Value × Value) :=
  ((n.fields.get "set").sequence?.getD []).filterMap Shape.pair?

/-- An update. -/
def update (s : Settings) (below : Below) (n : Node) : Rendering Sql :=
  checked (Shape.update n) do
    let assigned ← eachJoined s.listSeparator (assignment below) (assignments n)
    let target ← below.tree (n.fields.get "table")
    let conditions ← conditions s below n
    return Sql.joined " " ([.ofText "UPDATE", target, .ofText "SET", assigned] ++ conditions)

/-- A delete. -/
def delete (s : Settings) (below : Below) (n : Node) : Rendering Sql :=
  checked (Shape.delete n) do
    let source ← below.tree (n.fields.get "from")
    let conditions ← conditions s below n
    return Sql.joined " " ([.ofText "DELETE FROM", source] ++ conditions)

end QueryTree.Statement
