import QueryTree.Renderer

/-!
# Passes

A *pass* is a sequence of steps that record their literals in one list.  A step
starts with the literals the steps before it have recorded, failed steps
included.
-/

namespace QueryTree.Renderer

/-- A step of a pass. -/
inductive Step where
  /-- A value as a tree of its own. -/
  | tree (v : Value) (default? : Option String)
  /-- A value as a condition. -/
  | condition (v : Value)
  /-- A value as the conditions of a WHERE clause. -/
  | conditions (v : Value)
  /-- A literal that is recorded. -/
  | bind (v : Value)
  /-- A text that is given a result with all literals so far. -/
  | result (sql : String)

/-- The rendering of a step. -/
def step (r : Renderer) : Step → Rendering Sql
  | .tree v default? => r.tree v default?
  | .condition v => r.condition v
  | .conditions v => r.conditionTree v
  | .bind v => Rendering.bindLiteral v
  | .result sql => pure (.ofText sql)

/-- What is known after a step. -/
structure Progress where
  /-- The answer of the step. -/
  answer : Except RenderError String
  /-- All literals recorded so far. -/
  binds : List Value

/-- What is known after a step on a pass with literals. -/
def advance (r : Renderer) (binds : List Value) (s : Step) : Progress :=
  let o := (r.step s).outcome binds
  ⟨o.1.map (Sql.write r.settings.placeholder), o.2⟩

/-- What is known after each of some steps on a pass with literals. -/
def run (r : Renderer) : List Value → List Step → List Progress
  | _, [] => []
  | binds, s :: rest =>
    let here := r.advance binds s
    here :: run r here.binds rest

end QueryTree.Renderer
