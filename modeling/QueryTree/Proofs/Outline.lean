import QueryTree.Proofs.Rendering
import QueryTree.Renderer

/-!
# Outlines

Every handler does the same kind of thing: it writes fixed texts, records
literals, renders values below the node and perhaps stops with an error.  The
*outline* of a node says which of these *pieces* a handler makes of it.  It is
plain data that depends on the settings and the node and on nothing rendered
below.

A handler writes its pieces in the order in which it comes to them, with two
exceptions.  A membership test comes to its values before its field, and an
update to its assignments before its table.  So an outline has four parts.  They
are written as `lead`, `late`, `early`, `rest`, and the renderer comes to `early`
before `late`.

The main statement is `Handler.render_eq_outline`: a handler renders a node as its
outline says.  Whatever holds of pieces and is kept from one piece to the next
holds of every handler.
-/

namespace QueryTree

open Rendering (each fail fault bindLiteral ofExcept)

/-! ## Pieces -/

/-- A piece of an outline. -/
inductive Piece where
  /-- A fixed text. -/
  | text (s : String)
  /-- A literal to be recorded, with its placeholder. -/
  | literal (v : Value)
  /-- A value rendered by the table of a place. -/
  | below (place : Renderer.Place) (v : Value)
  /-- An error. -/
  | stop (e : RenderError)

/-- A value below a node, at a place. -/
def Below.at (b : Below) : Renderer.Place → Value → Rendering Sql
  | .tree => b.tree
  | .condition => b.condition

namespace Piece

/-- The SQL of a piece. -/
def render (b : Below) : Piece → Rendering Sql
  | text s => pure (.ofText s)
  | literal v => bindLiteral v
  | below place v => b.at place v
  | stop e => fail e

/-- The SQL of some pieces, one after another. -/
def renderAll (b : Below) (ps : List Piece) : Rendering Sql := do
  let parts ← each (render b) ps
  return parts.flatten

/-- Groups of pieces with a separator between them. -/
def separated (separator : String) : List (List Piece) → List Piece
  | [] => []
  | [ps] => ps
  | ps :: rest => ps ++ text separator :: separated separator rest

section

variable (b : Below)

@[simp] theorem render_text (s : String) : (text s).render b = pure (.ofText s) := rfl

@[simp] theorem render_stop (e : RenderError) : (stop e).render b = fail e := rfl

@[simp] theorem render_below (place : Renderer.Place) (v : Value) :
    (below place v).render b = b.at place v := rfl

@[simp] theorem at_tree : b.at .tree = b.tree := rfl

@[simp] theorem at_condition : b.at .condition = b.condition := rfl

@[simp] theorem renderAll_nil : renderAll b [] = pure [] := rfl

theorem renderAll_cons (p : Piece) (ps : List Piece) :
    renderAll b (p :: ps) = do
      let s ← p.render b
      let rest ← renderAll b ps
      return s ++ rest := by
  simp [renderAll, Rendering.each_cons]

theorem renderAll_append (ps qs : List Piece) :
    renderAll b (ps ++ qs) = do
      let s ← renderAll b ps
      let rest ← renderAll b qs
      return s ++ rest := by
  simp [renderAll, Rendering.each_append]

@[simp] theorem renderAll_text (s : String) (ps : List Piece) :
    renderAll b (text s :: ps) = (.text s :: ·) <$> renderAll b ps := by
  simp [renderAll_cons, Sql.ofText]

@[simp] theorem renderAll_stop (e : RenderError) (ps : List Piece) :
    renderAll b (stop e :: ps) = fail e := by
  simp [renderAll_cons]

@[simp] theorem renderAll_below (place : Renderer.Place) (v : Value) :
    renderAll b [below place v] = b.at place v := by
  simp [renderAll_cons]

theorem separated_cons (separator : String) (ps qs : List Piece) (rest : List (List Piece)) :
    separated separator (ps :: qs :: rest) =
      ps ++ text separator :: separated separator (qs :: rest) := by
  rw [separated]
  exact List.cons_ne_nil qs rest

/-- Groups with a separator between them are the first group and what follows. -/
theorem separated_eq (separator : String) (ps : List Piece) :
    ∀ groups : List (List Piece),
      separated separator (ps :: groups) = ps ++ groups.flatMap (text separator :: ·)
  | [] => (List.append_nil ps).symm
  | qs :: rest => by
      rw [separated_cons, separated_eq separator qs rest, List.flatMap_cons, List.cons_append]

/-- Separators are written between the groups and render nothing. -/
theorem renderAll_separated (separator : String) :
    ∀ groups : List (List Piece), renderAll b (separated separator groups) = do
      let parts ← each (renderAll b) groups
      return Sql.joined separator parts
  | [] => rfl
  | [ps] => by simp [separated, Rendering.each_cons, Sql.joined]
  | ps :: qs :: rest => by
      rw [separated_cons, renderAll_append, renderAll_text,
        renderAll_separated separator (qs :: rest)]
      simp [Rendering.each_cons, Sql.joined]

end

end Piece

/-! ## Outlines -/

/-- The pieces of a node in four parts, in the order in which they are written. -/
structure Outline where
  /-- The pieces written and rendered first. -/
  lead : List Piece
  /-- The pieces written next and rendered after `early`. -/
  late : List Piece := []
  /-- The pieces rendered before `late`. -/
  early : List Piece := []
  /-- The pieces written and rendered last. -/
  rest : List Piece := []

namespace Outline

/-- The SQL of an outline. -/
def render (b : Below) (o : Outline) : Rendering Sql := do
  let lead ← Piece.renderAll b o.lead
  let early ← Piece.renderAll b o.early
  let late ← Piece.renderAll b o.late
  let rest ← Piece.renderAll b o.rest
  return lead ++ late ++ early ++ rest

/-- All pieces of an outline, as they are written. -/
def pieces (o : Outline) : List Piece := o.lead ++ o.late ++ o.early ++ o.rest

/-- An outline of pieces rendered as they are written. -/
def straight (ps : List Piece) : Outline := { lead := ps }

/-- The outline of an error. -/
def stop (e : RenderError) : Outline := straight [.stop e]

@[simp] theorem render_straight (b : Below) (ps : List Piece) :
    (straight ps).render b = Piece.renderAll b ps := by
  simp [straight, render]

@[simp] theorem render_stop (b : Below) (e : RenderError) : (stop e).render b = fail e := by
  simp [stop]

@[simp] theorem pieces_straight (ps : List Piece) : (straight ps).pieces = ps := by
  simp [straight, pieces]

end Outline

end QueryTree
