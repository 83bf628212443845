import QueryTree.Proofs.Alike.Simulation
import QueryTree.Proofs.LiteralOrder

/-!
# The frame of rendered SQL

The *frame* of SQL is the list of the texts between its placeholders.  Written
with a placeholder text, SQL is its frame with that text in between
(`Sql.write_eq_intercalate`), and the frame has one text more than there are
literals.

The main statement is `Renderer.frame_of_alike`.  All values that differ in bound
literals only, and all placeholder texts, lead to errors of one kind, or to SQL
with one frame.  So no bound literal is part of the text, and none decides what
the text is.
-/

namespace QueryTree

open Rendering

/-! ## Frames -/

namespace Sql

/-- The texts between the placeholders. -/
def frame : Sql → List String
  | [] => [""]
  | .text t :: rest => (t ++ (frame rest).headD "") :: (frame rest).tail
  | .placeholder _ :: rest => "" :: frame rest

theorem frame_ne_nil (s : Sql) : frame s ≠ [] := by
  cases s with
  | nil => exact List.cons_ne_nil _ _
  | cons fragment rest => cases fragment <;> exact List.cons_ne_nil _ _

theorem write_cons (p : String) (fragment : Fragment) (rest : Sql) :
    write p (fragment :: rest) = writeFragment p fragment ++ write p rest := String.join_cons

/-- Written SQL is its frame with the placeholder text in between. -/
theorem write_eq_intercalate (p : String) (s : Sql) : s.write p = p.intercalate s.frame := by
  induction s with
  | nil => rfl
  | cons fragment rest ih =>
      obtain ⟨t, ts, hframe⟩ := List.exists_cons_of_ne_nil (frame_ne_nil rest)
      rw [write_cons, ih]
      cases fragment with
      | text u =>
          rw [frame, hframe, writeFragment, List.headD_cons, List.tail_cons,
            String.intercalate_cons_append]
      | placeholder v =>
          rw [frame, hframe, writeFragment, String.intercalate_cons_cons, String.empty_append]

/-- The frame has one text more than there are literals. -/
theorem length_frame (s : Sql) : (frame s).length = (literals s).length + 1 := by
  induction s with
  | nil => rfl
  | cons fragment rest ih =>
      obtain ⟨t, ts, hframe⟩ := List.exists_cons_of_ne_nil (frame_ne_nil rest)
      cases fragment with
      | text u =>
          rw [hframe] at ih
          rw [frame, hframe]
          exact ih
      | placeholder v =>
          rw [frame, List.length_cons, ih]
          rfl

theorem frame_eq_of_alike {L : Value → Value → Prop} {s s' : Sql}
    (h : List.Forall₂ (Fragment.Alike L) s s') : s.frame = s'.frame := by
  induction h with
  | nil => rfl
  | cons hfragment _ ih =>
      cases hfragment with
      | text t => rw [frame, frame, ih]
      | placeholder _ => rw [frame, frame, ih]

end Sql

/-! ## Placeholder texts -/

namespace Renderer

/-- A renderer with another placeholder text. -/
def withPlaceholder (r : Renderer) (p : String) : Renderer :=
  { r with settings := { r.settings with placeholder := p } }

/-- No handler looks at the placeholder text. -/
theorem handler_withPlaceholder (s : Settings) (p : String) (b : Below) (n : Node) (h : Handler) :
    h.render { s with placeholder := p } b n = h.render s b n := by
  cases h <;> rfl

theorem node_withPlaceholder (r : Renderer) (p : String) (budget : Nat) :
    (r.withPlaceholder p).node budget = r.node budget := by
  induction budget with
  | zero => rfl
  | succ budget ih =>
      funext place n
      have hbelow : (r.withPlaceholder p).below budget = r.below budget := by
        rw [below, below, ih]
      have htable : (r.withPlaceholder p).table place = r.table place := rfl
      rw [node_succ, node_succ, hbelow, htable]
      cases (r.table place).lookup n.tag with
      | none => rfl
      | some handler => exact handler_withPlaceholder r.settings p (r.below budget) n handler

/-- What is rendered does not depend on the placeholder text. -/
theorem perform_withPlaceholder (r : Renderer) (p : String) (v : Value) (request : Request) :
    (r.withPlaceholder p).perform v request = r.perform v request := by
  have hnode := r.node_withPlaceholder p
  have hbelow : ∀ budget, (r.withPlaceholder p).below budget = r.below budget := by
    intro budget
    rw [below, below, hnode]
  have hstatement : ∀ k, (r.withPlaceholder p).statement k v = r.statement k v := by
    intro k
    rw [statement, statement, hnode]
  cases request with
  | tree => rw [perform, perform, tree, tree, hnode]
  | select => exact hstatement .select
  | insert => exact hstatement .insert
  | update => exact hstatement .update
  | delete => exact hstatement .delete
  | expression => rw [perform, perform, condition, condition, hbelow]
  | conditions =>
      rw [perform, perform, conditionTree, conditionTree, hbelow]
      rfl

/-! ## Answers that agree -/

/-- Answers that agree: errors of one kind, or one SQL text with related literals. -/
inductive Agree (L : Value → Value → Prop) : Except RenderError Result → Except RenderError Result → Prop
  | refused {e e' : RenderError} : e.kind? = e'.kind? → Agree L (.error e) (.error e')
  | rendered (sql : String) {binds binds' : List Value} :
    List.Forall₂ L binds binds' → Agree L (.ok ⟨sql, binds⟩) (.ok ⟨sql, binds'⟩)

/-- Renderings alike have answers that agree. -/
theorem agree_of_alike {L : Value → Value → Prop} (r : Renderer) {x y : Rendering Sql}
    (h : Rendering.Alike L x y) : Agree L (r.result x) (r.result y) := by
  cases h with
  | fails hx hy hkind =>
      rw [result, result, hx [], hy []]
      exact .refused hkind
  | ends hx hy hsql hbinds =>
      rw [result, result, hx [], hy []]
      simp only [Except.map, List.nil_append, Sql.write_eq_intercalate, Sql.frame_eq_of_alike hsql]
      exact .rendered _ hbinds

/-! ## Literals stay out of the text -/

theorem render_withPlaceholder (r : Renderer) (p : String) (request : Request) (v : Value) :
    (r.withPlaceholder p).render request v =
      ((r.perform v request).outcome []).1.map fun sql =>
        ⟨p.intercalate sql.frame, ((r.perform v request).outcome []).2⟩ := by
  rw [render, result, perform_withPlaceholder]
  simp only [Sql.write_eq_intercalate]
  rfl

/-- Whatever the literals and the placeholder text, values that differ in literals
only are refused with errors of one kind, or they are rendered with one frame: the
SQL is the texts of the frame with the placeholder text in between, and there is
one literal for each placeholder. -/
theorem frame_of_alike (r : Renderer) (request : Request) (v : Value) :
    (∃ kind, ∀ p w, r.Alike (fun _ _ => True) request v w →
      ∃ e, (r.withPlaceholder p).render request w = .error e ∧ e.kind? = kind) ∨
    ∃ texts : List String, ∀ p w, r.Alike (fun _ _ => True) request v w →
      ∃ binds, (r.withPlaceholder p).render request w = .ok ⟨p.intercalate texts, binds⟩ ∧
        texts.length = binds.length + 1 := by
  obtain ⟨answer, recorded, hv⟩ := r.regular_perform v request
  cases answer with
  | error e =>
      refine Or.inl ⟨e.kind?, fun p w h => ?_⟩
      cases h.perform fun _ => trivial with
      | ends hv' _ _ _ => cases (hv.unique hv').1
      | @fails e₁ e₂ _ _ hv' hw hkind =>
          obtain ⟨he, -⟩ := hv.unique hv'
          obtain rfl := Except.error.inj he
          refine ⟨e₂, ?_, hkind.symm⟩
          rw [render_withPlaceholder, hw []]
          rfl
  | ok sql =>
      refine Or.inr ⟨sql.frame, fun p w h => ?_⟩
      cases h.perform fun _ => trivial with
      | fails hv' _ _ => cases (hv.unique hv').1
      | @ends s₁ s₂ _ bound hv' hw hsql _ =>
          obtain ⟨hs, -⟩ := hv.unique hv'
          obtain rfl := Except.ok.inj hs
          have hperm := r.perm_perform hw
          refine ⟨bound, ?_, ?_⟩
          · rw [render_withPlaceholder, hw [], Sql.frame_eq_of_alike hsql]
            rfl
          · rw [Sql.frame_eq_of_alike hsql, Sql.length_frame, hperm.length_eq]

/-- Two nodes of one bound literal each, or of one list with such a node. -/
inductive OneLiteral : Place → Node → Node → Prop
  | value (v w : Value) : OneLiteral .tree { tag := "-value", args := [v] } { tag := "-value", args := [w] }
  | list (v w : Value) :
    OneLiteral .tree { tag := "-list", args := [.list [.str "-name", .str "a"], .list [.str "-value", v]] }
      { tag := "-list", args := [.list [.str "-name", .str "a"], .list [.str "-value", w]] }

theorem kept_oneLiteral : Kept (of {} none none) (fun _ _ => True) OneLiteral where
  tag_eq h := by cases h <;> rfl
  length_eq h := by cases h <;> rfl
  operands h hlookup := by
    cases h with
    | value v w =>
        obtain rfl := Option.some.inj hlookup
        exact .literal (.cons trivial .nil)
    | list v w =>
        obtain rfl := Option.some.inj hlookup
        exact .list (.cons (.same _) (.cons (.node rfl rfl rfl (.value v w)) .nil))

/-- A name and a bound literal, whatever the literal. -/
theorem frame_of_alike_list :
    ∃ texts : List String, ∀ p v, ∃ binds,
      ((of {} none none).withPlaceholder p).render .tree
          (.list [.str "-list", .list [.str "-name", .str "a"], .list [.str "-value", v]]) =
        .ok ⟨p.intercalate texts, binds⟩ ∧ texts.length = binds.length + 1 := by
  have halike : ∀ v, (of {} none none).Alike (fun _ _ => True) .tree
      (.list [.str "-list", .list [.str "-name", .str "a"], .list [.str "-value", .null]])
      (.list [.str "-list", .list [.str "-name", .str "a"], .list [.str "-value", v]]) :=
    fun v => ⟨OneLiteral, kept_oneLiteral, .tree (.node rfl rfl rfl (.list .null v))⟩
  rcases frame_of_alike (of {} none none) .tree
      (.list [.str "-list", .list [.str "-name", .str "a"], .list [.str "-value", .null]])
    with ⟨kind, hfails⟩ | ⟨texts, hends⟩
  · obtain ⟨e, he, -⟩ := hfails "?" _ (halike .null)
    cases he
  · exact ⟨texts, fun p v => hends p _ (halike v)⟩

/-- With an operator named like the tag of a literal, a condition with that tag is a
comparison, and what it is made of decides whether it is rendered. -/
theorem value_operator_looks_at_operands :
    let r := of { operators := [("-value", "=")] } none none
    (∃ result, r.render .expression (.list [.str "-value", .list [.str "-name", .str "a"],
      .list [.str "-name", .str "b"]]) = .ok result) ∧
    ∃ e, r.render .expression (.list [.str "-value", .int 1, .int 2]) = .error e :=
  ⟨⟨_, rfl⟩, _, rfl⟩

end Renderer

end QueryTree
