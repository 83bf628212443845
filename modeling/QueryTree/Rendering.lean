import QueryTree.Error
import QueryTree.Sql

/-!
# Renderings

A *rendering* renders a piece of a tree.  It ends with a result or an error, and
on the way it records the literals that placeholders stand for.  Literals are
recorded one after another in one list, and those recorded before an error stay
there (`Rendering.bindLiteral`).

`Rendering.outcome` runs a rendering after some literals are recorded.
`Rendering.each` renders items from the first to the last.
-/

namespace QueryTree

/-- A result or an error, with literals recorded on the way. -/
abbrev Rendering : Type → Type := ExceptT RenderError (StateM (List Value))

namespace Rendering

variable {α β : Type}

/-- The result or the error, and the literals recorded then, of a rendering that
starts after some literals are recorded. -/
def outcome (x : Rendering α) (binds : List Value) : Except RenderError α × List Value :=
  (x.run.run binds).run

/-- An error. -/
def fail (e : RenderError) : Rendering α := throw e

/-- A fault as an error. -/
def fault (f : Fault) : Rendering α := fail (.structural f)

/-- A result or a fault. -/
def ofExcept : Except Fault α → Rendering α
  | .ok a => pure a
  | .error f => fault f

/-- A literal is recorded, and a placeholder takes its place. -/
def bindLiteral (v : Value) : Rendering Sql := do
  modify (· ++ [v])
  return [.placeholder v]

/-- The renderings of some items, from the first to the last. -/
def each (f : α → Rendering β) : List α → Rendering (List β)
  | [] => pure []
  | a :: rest => do
    let b ← f a
    let bs ← each f rest
    return b :: bs

/-- The renderings of some items, with a separator between them. -/
def eachJoined (separator : String) (f : α → Rendering Sql) (items : List α) : Rendering Sql := do
  let parts ← each f items
  return Sql.joined separator parts

/-! ## Outcomes -/

@[simp] theorem outcome_pure (a : α) (binds : List Value) :
    outcome (pure a) binds = (.ok a, binds) := rfl

@[simp] theorem outcome_fail (e : RenderError) (binds : List Value) :
    outcome (fail e : Rendering α) binds = (.error e, binds) := rfl

@[simp] theorem outcome_bindLiteral (v : Value) (binds : List Value) :
    outcome (bindLiteral v) binds = (.ok [.placeholder v], binds ++ [v]) := rfl

/-- A rendering that depends on the result of another starts where that ended.
It does not happen if the other failed. -/
theorem outcome_bind (x : Rendering α) (f : α → Rendering β) (binds : List Value) :
    outcome (x >>= f) binds = match outcome x binds with
      | (.ok a, after) => outcome (f a) after
      | (.error e, after) => (.error e, after) := by
  simp only [outcome, ExceptT.run_bind, StateT.run_bind, Id.run_bind]
  generalize (x.run.run binds).run = o
  obtain ⟨r, after⟩ := o
  cases r <;> rfl

end Rendering

end QueryTree
