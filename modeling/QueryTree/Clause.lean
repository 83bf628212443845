import QueryTree.Condition
import QueryTree.Settings

/-!
# Clauses

How each kind of node below a statement is rendered: lists, aliases, literals,
names, comparisons, membership tests, conditions, joins, orderings and
groupings.

A clause renders the trees below it through `Below`: either as a tree of its own
or as a condition.  It does so in a fixed order, which need not be the order of
the text.  A membership test renders its values before its field.
-/

namespace QueryTree

/-- How the trees below a node are rendered. -/
structure Below where
  /-- A tree of its own. -/
  tree : Value → Rendering Sql
  /-- A condition. -/
  condition : Value → Rendering Sql

namespace Clause

open Rendering (fail fault eachJoined bindLiteral)

/-- The items of a list. -/
def list (s : Settings) (below : Below) (n : Node) : Rendering Sql :=
  eachJoined s.listSeparator below.tree n.args

/-- A tree under another name.  The name is written as it is. -/
def aliased (below : Below) (n : Node) : Rendering Sql :=
  match n.fields.get "ident", n.fields.get "as" with
  | .null, _ => fault .aliasIncomplete
  | _, .null => fault .aliasIncomplete
  | ident, name => do
    let tree ← below.tree ident
    return tree ++ .ofText (" AS " ++ name.plain)

/-- A bound literal. -/
def literal (n : Node) : Rendering Sql :=
  match n.args with
  | [v] => bindLiteral v
  | args => fault (.literalCount args.length)

/-- A name. -/
def name (s : Settings) (n : Node) : Rendering Sql := do
  let text ← Rendering.ofExcept (Identifier.render s.activeQuotes s.nameSeparator n.args)
  return .ofText text

/-- Two conditions with the token of an operator between them. -/
def comparison (s : Settings) (below : Below) (n : Node) : Rendering Sql :=
  match n.args with
  | [lhs, rhs] =>
    match s.operators.lookup n.tag with
    | none => fail (.unmappedOperator n.tag)
    | some token => do
      let left ← below.condition lhs
      let right ← below.condition rhs
      return left ++ .text (" " ++ token ++ " ") :: right
  | args => fault (.operandCount n.tag args.length)

/-- A field and the values it may have.  Without values it holds for no field,
and the field is not rendered. -/
def membership (below : Below) (n : Node) : Rendering Sql :=
  match n.args with
  | [] => fault (.fieldMissing n.tag)
  | [_] => pure (.ofText Condition.never)
  | field :: values => do
    let inside ← eachJoined ", " below.tree values
    let tested ← below.condition field
    let negation := if n.tag = Keyword.notIn.tag then " NOT" else ""
    return tested ++ .text (negation ++ " IN (") :: inside ++ .ofText ")"

/-- The conditions of a value. -/
def conditions (s : Settings) (below : Below) (v : Value) : Rendering Sql := do
  let tree ← Rendering.ofExcept (Condition.ofValue v)
  Condition.renderWords below.condition (tree.words s.rank)

/-- The conditions of a value after WHERE. -/
def whereConditions (s : Settings) (below : Below) (v : Value) : Rendering Sql := do
  let text ← conditions s below v
  return .text "WHERE " :: text

/-- A WHERE clause.  Its conditions are under `where` or are its operands. -/
def whereClause (s : Settings) (below : Below) (n : Node) : Rendering Sql :=
  whereConditions s below ((n.fields.get? "where").getD (.list n.args))

/-! ## Joins -/

/-- Whether a value is present. -/
def isPresent : Value → Bool
  | .null => false
  | _ => true

/-- A table joined on conditions or using columns. -/
def join (s : Settings) (below : Below) (n : Node) : Rendering Sql :=
  let table := n.fields.get "tablespec"
  let on := n.fields.get "on"
  let shared := n.fields.get "using"
  if !n.args.isEmpty then fault .joinNotMap
  else if !isPresent table then fault .joinWithoutTable
  else match isPresent on, isPresent shared with
    | true, true => fail .joinConditionTwice
    | false, false => fail .joinConditionMissing
    | true, false => do
      let joined ← below.tree table
      let condition ← conditions s below on
      return .text "JOIN " :: joined ++ .text " ON (" :: condition ++ .ofText ")"
    | false, true => do
      let joined ← below.tree table
      let columns ← below.tree shared
      return .text "JOIN " :: joined ++ .text " USING (" :: columns ++ .ofText ")"

/-- One join of a select, as a value that is rendered as a join. -/
def asJoin : Value → Except Fault Value
  | .map entries => .ok (.map (Fields.set entries "type" (.str "join")))
  | .node tag args fields =>
    if tag = Keyword.join.tag then .ok (.node tag args fields) else .error .joinNotMap
  | _ => .error .joinNotMap

/-- Several joins of a select. -/
def asJoins : List Value → Except Fault (List Value)
  | [] => .ok []
  | v :: rest =>
    match asJoin v with
    | .error fault => .error fault
    | .ok join => (asJoins rest).map (join :: ·)

/-- The joins of a select: one join, or a sequence of joins. -/
def joinList (v : Value) : Except Fault (List Value) :=
  if v.isMap || v.isNodeLike then (asJoin v).map ([·])
  else match v.sequence? with
    | some (join :: rest) => asJoins (join :: rest)
    | _ => .error .joinNotTree

/-! ## Orderings and groupings -/

/-- The items of an ordering or a grouping, under a key or by position. -/
def items (n : Node) (key : String) : Except Fault (List Value) :=
  match n.fields.get? key with
  | none => .ok n.args
  | some v =>
    match v.sequence? with
    | some items => .ok items
    | none => .error (.itemsNotSequence key)

/-- The direction of an item. -/
def direction? (item : Value) : Option Direction := item.tag?.bind Direction.ofTag?

/-- An item of an ordering, with or without a direction. -/
def orderItem (below : Below) (item : Value) : Rendering Sql :=
  match direction? item with
  | none => below.tree item
  | some direction =>
    match item.operands with
    | [v] => do
      let tree ← below.tree v
      return tree ++ .ofText (" " ++ direction.word)
    | _ => fault (.directionOperands direction.tag)

/-- An ordering of items. -/
def orderItems (below : Below) (items : List Value) : Rendering Sql := do
  let text ← eachJoined ", " (orderItem below) items
  return .text "ORDER BY " :: text

/-- A grouping by items. -/
def groupItems (below : Below) (items : List Value) : Rendering Sql := do
  let text ← eachJoined ", " below.tree items
  return .text "GROUP BY " :: text

/-- An ordering. -/
def orderBy (below : Below) (n : Node) : Rendering Sql := do
  let items ← Rendering.ofExcept (items n "order_by")
  orderItems below items

/-- A grouping. -/
def groupBy (below : Below) (n : Node) : Rendering Sql := do
  let items ← Rendering.ofExcept (items n "group_by")
  groupItems below items

end Clause

end QueryTree
