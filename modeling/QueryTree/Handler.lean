import QueryTree.Statement

/-!
# Handlers

A *handler* renders the nodes of a tag.  There is one for each kind of built-in
node.  Besides them a caller can bring two kinds of its own: one that writes a
fixed text, and one that writes a function call around its operands.

A handler may stand under any tag.  It looks at the tag only to name it in a
fault, to find an operator's token, and to tell the two membership tests apart.
-/

namespace QueryTree

/-- How the nodes of a tag are rendered. -/
inductive Handler where
  | select
  | insert
  | update
  | delete
  | whereClause
  | orderBy
  | groupBy
  | join
  | list
  | aliased
  | name
  | literal
  | always
  | never
  | comparison
  | membership
  /-- A fixed text. -/
  | constant (text : String)
  /-- A function call. -/
  | call (function : String)
deriving DecidableEq, Repr

namespace Handler

/-- A function call around the operands of a node. -/
def callAround (function : String) (below : Below) (n : Node) : Rendering Sql := do
  let operands ← Rendering.eachJoined ", " below.tree n.args
  return .text (function ++ "(") :: operands ++ .ofText ")"

/-- The SQL of a node. -/
def render (s : Settings) (below : Below) (n : Node) : Handler → Rendering Sql
  | select => Statement.select s below n
  | insert => Statement.insert below n
  | update => Statement.update s below n
  | delete => Statement.delete s below n
  | whereClause => Clause.whereClause s below n
  | orderBy => Clause.orderBy below n
  | groupBy => Clause.groupBy below n
  | join => Clause.join s below n
  | list => Clause.list s below n
  | aliased => Clause.aliased below n
  | name => Clause.name s n
  | literal => Clause.literal n
  | always => pure (.ofText Condition.always)
  | never => pure (.ofText Condition.never)
  | comparison => Clause.comparison s below n
  | membership => Clause.membership below n
  | constant text => pure (.ofText text)
  | call function => callAround function below n

end Handler

end QueryTree
