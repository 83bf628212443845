import QueryTree.Proofs.Outline.Runs
import QueryTree.Renderer.Pass

/-!
# Passes compose

A pass is a run of steps that record their literals in one list.  A step never
looks at that list.  So what a step does on a pass is what it does on a fresh one
(`Renderer.fresh`): it answers the same, result or error, and it adds the same
literals to the end, those of a step that failed midway included.

The step lemma is `Renderer.advance_eq`.  The main statement is
`Renderer.run_composes`.  It says of a step anywhere in a run what the run knows
after it, and that the literals held before it are those that the steps so far add
on fresh passes, one after another.
-/

namespace QueryTree.Renderer

open Rendering

/-- What is known after a step on a fresh pass. -/
def fresh (r : Renderer) (s : Step) : Progress := r.advance [] s

/-- The literals held after some steps on a pass with literals. -/
def held (r : Renderer) (binds : List Value) (steps : List Step) : List Value :=
  ((r.run binds steps).getLast?.map (·.binds)).getD binds

/-! ## One step -/

theorem regular_tree (r : Renderer) (v : Value) (default? : Option String) :
    Regular (r.tree v default?) := by
  rw [tree]
  cases hv : Node.ofValue v default? with
  | error cause =>
      rw [nodeOf_error hv, fault_bind]
      exact regular_fail _
  | ok n =>
      rw [nodeOf_ok hv, pure_bind, r.node_eq_full .tree (Node.weight_le hv)]
      exact r.regular_full .tree n

theorem regular_step (r : Renderer) (s : Step) : Regular (r.step s) := by
  cases s with
  | tree v default? => exact r.regular_tree v default?
  | condition v => exact r.regular_perform v .expression
  | conditions v =>
      rw [step, conditionTree_eq]
      exact Piece.regular_renderAll r.steady_operands _
  | bind v => exact regular_bindLiteral v
  | result sql => exact regular_pure _

/-- A step does on any pass what it does on a fresh one, after the literals that
are there. -/
theorem advance_eq (r : Renderer) (binds : List Value) (s : Step) :
    r.advance binds s = ⟨(r.fresh s).answer, binds ++ (r.fresh s).binds⟩ := by
  obtain ⟨answer, recorded, h⟩ := r.regular_step s
  simp only [fresh, advance, h binds, h [], List.nil_append]

/-! ## Runs -/

theorem run_cons (r : Renderer) (binds : List Value) (s : Step) (rest : List Step) :
    r.run binds (s :: rest) =
      ⟨(r.fresh s).answer, binds ++ (r.fresh s).binds⟩ :: r.run (binds ++ (r.fresh s).binds) rest := by
  rw [run, advance_eq]

theorem held_nil (r : Renderer) (binds : List Value) : r.held binds [] = binds := rfl

theorem held_cons (r : Renderer) (binds : List Value) (s : Step) (rest : List Step) :
    r.held binds (s :: rest) = r.held (binds ++ (r.fresh s).binds) rest := by
  rw [held, held, run_cons, List.getLast?_cons]
  cases (r.run (binds ++ (r.fresh s).binds) rest).getLast? <;> rfl

/-- What is held is what was there, and then what each step adds on a fresh pass. -/
theorem held_eq (r : Renderer) (binds : List Value) (steps : List Step) :
    r.held binds steps = binds ++ steps.flatMap fun s => (r.fresh s).binds := by
  induction steps generalizing binds with
  | nil => rw [held_nil, List.flatMap_nil, List.append_nil]
  | cons s rest ih => rw [held_cons, ih, List.flatMap_cons, List.append_assoc]

theorem run_append (r : Renderer) (binds : List Value) (before after : List Step) :
    r.run binds (before ++ after) = r.run binds before ++ r.run (r.held binds before) after := by
  induction before generalizing binds with
  | nil => rfl
  | cons s rest ih => rw [List.cons_append, run_cons, run_cons, held_cons, ih, List.cons_append]

/-- After a step of a run its answer is the one it gives on a fresh pass, and to the
literals held before it are added those it records on a fresh pass.  The steps
before it are not affected, and those after it start with what is held then.  What
is held grows by what each step records on a fresh pass. -/
theorem run_composes (r : Renderer) (binds : List Value) (before : List Step) (s : Step)
    (after : List Step) :
    r.run binds (before ++ s :: after) =
        r.run binds before ++ ⟨(r.fresh s).answer, r.held binds before ++ (r.fresh s).binds⟩ ::
          r.run (r.held binds before ++ (r.fresh s).binds) after ∧
      r.held binds before = binds ++ before.flatMap fun t => (r.fresh t).binds := by
  constructor
  · rw [run_append, run_cons]
  · exact r.held_eq binds before

/-- A step that fails midway leaves a literal behind, and the next step goes on after it. -/
example :
    ((of {} none none).run [.int 0]
        [.condition (.list [.str "-in", .list [.str "-name"], .list [.str "-value", .int 1]]),
          .bind (.int 2)]).map (·.binds) =
      [[.int 0, .int 1], [.int 0, .int 1, .int 2]] := rfl

end QueryTree.Renderer
