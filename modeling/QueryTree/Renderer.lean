import QueryTree.Table

/-!
# The renderer

A *renderer* has settings, a table of trees and a table of conditions.  A value
is rendered by turning it into a node, finding the handler of its tag, and
letting the handler render the values below through the renderer again.

The recursion runs on a budget of nested handlers.  The budget of a value is its
weight (`Value.weight`), the number of values it is made of.  Each handler passes
on less than it was given, so the budget is never used up.

`Renderer.render` answers with the SQL text and the bound literals.
-/

namespace QueryTree

/-- Settings and tables. -/
structure Renderer where
  /-- The settings. -/
  settings : Settings
  /-- The handlers of trees. -/
  generic : Table
  /-- The handlers of conditions. -/
  conditions : Table

namespace Renderer

/-! ## Tables from settings -/

/-- Whether two maps have the same entries, in any order. -/
def sameEntries (xs ys : List (String × String)) : Bool :=
  xs.length == ys.length && xs.all fun entry => ys.lookup entry.1 == some entry.2

/-- Whether a renderer without tables of its own shares the built-in table of
conditions. -/
def sharesConditions (s : Settings) : Bool := sameEntries s.operators defaultOperators

/-- A renderer.  A table of conditions that is not given is derived from the
table of trees and the operators. -/
def of (settings : Settings) (generic? conditions? : Option Table) : Renderer :=
  let generic := generic?.getD .generic
  let derived :=
    if generic?.isNone && sharesConditions settings then .conditions
    else generic.withConditions (settings.operators.map (·.1))
  { settings, generic, conditions := conditions?.getD derived }

/-! ## Rendering below a budget -/

/-- Which table renders a value. -/
inductive Place where
  /-- A tree of its own. -/
  | tree
  /-- A condition. -/
  | condition
deriving DecidableEq

/-- The table of a place. -/
def table (r : Renderer) : Place → Table
  | .tree => r.generic
  | .condition => r.conditions

/-- The error of a tag that a place has no handler for. -/
def Place.unknown (place : Place) (tag : String) : RenderError :=
  if isOperation tag then .unknownTag tag (place == .condition) else .unknownOperator tag

/-- A value as a node. -/
def nodeOf (v : Value) (default? : Option String := none) : Rendering Node :=
  match Node.ofValue v default? with
  | .ok n => pure n
  | .error cause => Rendering.fault (.malformed cause)

/-- The SQL of a node with a budget of nested handlers. -/
def node (r : Renderer) : Nat → Place → Node → Rendering Sql
  | 0, _, _ => Rendering.fail .tooDeep
  | budget + 1, place, n =>
    match (r.table place).lookup n.tag with
    | none => Rendering.fail (place.unknown n.tag)
    | some handler =>
      handler.render r.settings
        { tree := fun v => nodeOf v >>= r.node budget .tree
          condition := fun v => nodeOf v >>= r.node budget .condition } n

/-- The values below a node with a budget. -/
def below (r : Renderer) (budget : Nat) : Below where
  tree v := nodeOf v >>= r.node budget .tree
  condition v := nodeOf v >>= r.node budget .condition

@[simp] theorem node_zero (r : Renderer) (place : Place) (n : Node) :
    r.node 0 place n = Rendering.fail .tooDeep := rfl

/-- A node is rendered by the handler of its tag, with one handler less below. -/
theorem node_succ (r : Renderer) (budget : Nat) (place : Place) (n : Node) :
    r.node (budget + 1) place n = match (r.table place).lookup n.tag with
      | none => Rendering.fail (place.unknown n.tag)
      | some handler => handler.render r.settings (r.below budget) n := rfl

/-! ## Rendering values -/

/-- A value as a tree of its own.  The default tag serves a map without type. -/
def tree (r : Renderer) (v : Value) (default? : Option String := none) : Rendering Sql :=
  nodeOf v default? >>= r.node v.weight .tree

/-- A value as a condition. -/
def condition (r : Renderer) (v : Value) : Rendering Sql := (r.below v.weight).condition v

/-- A value as the conditions of a WHERE clause. -/
def conditionTree (r : Renderer) (v : Value) : Rendering Sql :=
  Clause.conditions r.settings (r.below v.weight) v

/-- A value as a statement.  A map may leave its type out, and any other type is
refused. -/
def statement (r : Renderer) (k : Keyword) (v : Value) : Rendering Sql := do
  let n ← nodeOf v (some k.tag)
  if n.tag = k.tag then r.node v.weight .tree n
  else Rendering.fault (.otherType n.tag k.tag)

/-! ## Results -/

/-- The text of some SQL and the bound literals. -/
structure Result where
  /-- The SQL text. -/
  sql : String
  /-- The bound literals, in the order recorded. -/
  binds : List Value

/-- The result of a rendering that starts with nothing recorded. -/
def result (r : Renderer) (x : Rendering Sql) : Except RenderError Result :=
  let o := x.outcome []
  o.1.map fun sql => ⟨sql.write r.settings.placeholder, o.2⟩

/-- What a value is rendered as. -/
inductive Request where
  /-- Any tree. -/
  | tree
  /-- A select. -/
  | select
  /-- An insert. -/
  | insert
  /-- An update. -/
  | update
  /-- A delete. -/
  | delete
  /-- A single condition. -/
  | expression
  /-- The conditions of a WHERE clause, after the word WHERE. -/
  | conditions
deriving DecidableEq, Repr

/-- A value as what is asked for. -/
def perform (r : Renderer) (v : Value) : Request → Rendering Sql
  | .tree => r.tree v
  | .select => r.statement .select v
  | .insert => r.statement .insert v
  | .update => r.statement .update v
  | .delete => r.statement .delete v
  | .expression => r.condition v
  | .conditions => do
    let text ← r.conditionTree v
    return .text "WHERE " :: text

/-- The SQL text and the bound literals of a value. -/
def render (r : Renderer) (request : Request) (v : Value) : Except RenderError Result :=
  r.result (r.perform v request)

end Renderer

end QueryTree
