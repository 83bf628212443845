import QueryTree.Tag
import QueryTree.Value

/-!
# Building trees

Constructors for the trees that rendering takes, in array form and hash form.
They check nothing.

`SelectBuilder` collects the clauses of a select call by call.  Columns,
conditions, groupings and orderings add up.  The last table and the last join
count.
-/

namespace QueryTree

/-! ## Constructors -/

namespace Tree

/-- An array form. -/
def tagged (k : Keyword) (operands : List Value) : Value := .list (.str k.tag :: operands)

/-- A name of segments. -/
def name (segments : List Value) : Value := tagged .name segments

/-- A bound literal. -/
def value (v : Value) : Value := tagged .value [v]

/-- A list. -/
def list (items : List Value) : Value := tagged .list items

/-- A tree under another name. -/
def aliased (ident name : Value) : Value := tagged .aliased [ident, name]

/-- An operator between two trees. -/
def binary (op lhs rhs : Value) : Value := .list [op, lhs, rhs]

/-- Two equal trees. -/
def equal (lhs rhs : Value) : Value := binary (.str "==") lhs rhs

/-- A field that has one of some values. -/
def isIn (field : Value) (values : List Value) : Value := tagged .isIn (field :: values)

/-- A field that has none of some values. -/
def notIn (field : Value) (values : List Value) : Value := tagged .notIn (field :: values)

/-- A group of conditions that all hold. -/
def and (clauses : List Value) : Value := tagged .and clauses

/-- A group of conditions one of which holds. -/
def or (clauses : List Value) : Value := tagged .or clauses

/-- The condition that always holds. -/
def always : Value := tagged .always []

/-- The condition that never holds. -/
def never : Value := tagged .never []

/-- An expression in ascending order. -/
def asc (expression : Value) : Value := tagged .asc [expression]

/-- An expression in descending order. -/
def desc (expression : Value) : Value := tagged .desc [expression]

/-- An entry, unless the value is null. -/
def presentEntry (key : String) : Value → Fields
  | .null => []
  | v => [(.str key, v)]

/-- A join on conditions or using columns. -/
def join (table on shared : Value) : Value :=
  .map ([(.str "type", .str "join"), (.str "tablespec", table)] ++ presentEntry "on" on
    ++ presentEntry "using" shared)

end Tree

/-! ## Selects -/

/-- The clauses of a select so far. -/
structure SelectBuilder where
  /-- The columns. -/
  columns : List Value := []
  /-- The table. -/
  source : Value := .null
  /-- The join. -/
  joined : Option Value := none
  /-- The conditions. -/
  conditions : List Value := []
  /-- The expressions of the grouping. -/
  grouping : List Value := []
  /-- The expressions of the ordering. -/
  ordering : List Value := []

namespace SelectBuilder

/-- Further columns. -/
def select (b : SelectBuilder) (columns : List Value) : SelectBuilder :=
  { b with columns := b.columns ++ columns }

/-- Another table. -/
def fromTable (b : SelectBuilder) (table : Value) : SelectBuilder := { b with source := table }

/-- Another join. -/
def join (b : SelectBuilder) (table on shared : Value) : SelectBuilder :=
  { b with joined := some (Tree.join table on shared) }

/-- Further conditions. -/
def restrict (b : SelectBuilder) (clauses : List Value) : SelectBuilder :=
  { b with conditions := b.conditions ++ clauses }

/-- Further expressions to group by. -/
def groupBy (b : SelectBuilder) (expressions : List Value) : SelectBuilder :=
  { b with grouping := b.grouping ++ expressions }

/-- A further expression to order by. -/
def orderBy (b : SelectBuilder) (expression : Value) (descending : Bool) : SelectBuilder :=
  { b with ordering := b.ordering ++ [if descending then Tree.desc expression else expression] }

/-- An entry for items, unless there are none. -/
def listEntry (key : String) : List Value → Fields
  | [] => []
  | items => [(.str key, .list items)]

/-- The select. -/
def build (b : SelectBuilder) : Value :=
  .map ([(.str "type", .str "select"), (.str "columns", Tree.list b.columns),
      (.str "from", b.source)]
    ++ (b.joined.map fun join => (.str "join", join)).toList ++ listEntry "where" b.conditions
    ++ listEntry "group_by" b.grouping ++ listEntry "order_by" b.ordering)

end SelectBuilder

end QueryTree
