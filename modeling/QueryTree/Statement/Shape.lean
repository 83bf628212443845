import QueryTree.Node
import QueryTree.Error

/-!
# Shapes of statements

Before a statement is rendered its shape is checked.  Each check lists the
issues of a statement in a fixed order, and an empty list means the shape is
right.

* A select needs columns and a source.  The columns are a list.  Conditions,
  groupings and orderings are sequences, and conditions may be a node.
* An insert needs a target and values.  The values are a list, and so are the
  columns if there are any.  If all this holds and there are columns, there are
  as many values.
* An update needs a target and a sequence of assignments, at least one, each a
  pair of trees.
* A delete needs a source.
-/

namespace QueryTree.Shape

/-- The issue of a clause that has to be a node or an array form. -/
def needsTree (n : Node) (statement key : String) : List Issue :=
  if (n.fields.get key).isNodeLike then [] else [.missing key statement]

/-- The issue of a tree that has to be a list. -/
def needsList (n : Node) (key : String) : List Issue :=
  match (n.fields.get key).tag? with
  | some tag => if tag = Keyword.list.tag then [] else [.notList key tag]
  | none => []

/-- The issue of a clause that has to be a sequence if it is there. -/
def needsSequence (n : Node) (accepts : Value → Bool) (key : String) : List Issue :=
  match n.fields.get? key with
  | some v => if accepts v then [] else [.notSequence key]
  | none => []

/-- Whether a value can be the conditions of a select. -/
def isConditions : Value → Bool
  | .node .. => true
  | v => v.isSequence

/-- The issues of a select. -/
def select (n : Node) : List Issue :=
  needsTree n "select" "columns" ++ needsTree n "select" "from" ++ needsList n "columns"
    ++ needsSequence n isConditions "where" ++ needsSequence n Value.isSequence "group_by"
    ++ needsSequence n Value.isSequence "order_by"

/-- The issues of the columns of an insert. -/
def insertColumns (n : Node) : List Issue :=
  if (n.fields.get "columns").isNodeLike then needsList n "columns"
  else [.missing "columns" "insert"]

/-- The issue of an insert whose columns and values differ in number. -/
def insertArity (n : Node) : List Issue :=
  let columns := (n.fields.get "columns").operands.length
  let values := (n.fields.get "values").operands.length
  if columns = values then [] else [.arity columns values]

/-- The issues of an insert. -/
def insert (n : Node) : List Issue :=
  let required :=
    needsTree n "insert" "into" ++ needsTree n "insert" "values" ++ needsList n "values"
  if n.fields.contains "columns" then
    match required ++ insertColumns n with
    | [] => insertArity n
    | found => found
  else required

/-- The target and the value of an assignment. -/
def pair? (v : Value) : Option (Value × Value) :=
  match v.sequence? with
  | some [target, value] => if target.isNodeLike && value.isNodeLike then some (target, value) else none
  | _ => none

/-- The issues of assignments, the first of which has a given index. -/
def assignments : Nat → List Value → List Issue
  | _, [] => []
  | i, v :: rest => (if (pair? v).isSome then [] else [.notPair i]) ++ assignments (i + 1) rest

/-- The issues of an update. -/
def update (n : Node) : List Issue :=
  needsTree n "update" "table"
    ++ match (n.fields.get "set").sequence? with
      | some (v :: rest) => assignments 0 (v :: rest)
      | _ => [.noAssignments]

/-- The issues of a delete. -/
def delete (n : Node) : List Issue := needsTree n "delete" "from"

end QueryTree.Shape
