import QueryTree.Proofs.Items
import QueryTree.Proofs.Refusal

/-!
# How deep handlers nest

A handler renders the values below its node by calling handlers again, so calls
stand within calls.  `Renderer.Nests` counts them along one chain: a node, a node
below it, a node below that one, and so on.  The nodes below are those in the outline,
whether or not the handler comes to them before it stops.  A look-up that finds no
handler counts as a call as well.

*Bound.*  A chain has no more calls than the node weighs (`Renderer.Nests.le_weight`).

*Budgets.*  The budget of a renderer limits exactly this number.  A budget that no
chain exceeds renders a node like any larger one (`Renderer.node_eq_full_of_nests`),
and a node that is rendered at all with a budget has no chain that exceeds it
(`Renderer.Nests.le_of_ends`).

The main statement is `Renderer.nesting_bounded`: calls are nested no deeper than the
input has values, so rendering needs no larger budget and always ends.
-/

namespace QueryTree

open Rendering (Ends Gives Regular)

/-- Every piece of an outline that ends with SQL does so too. -/
theorem Outline.gives_of_mem {b : Below} (hb : b.Steady) {o : Outline} {sql : Sql}
    {recorded : List Value} (h : Gives (o.render b) (.ok sql) recorded) {p : Piece}
    (hp : p ∈ o.pieces) : ∃ s t, Gives (p.render b) (.ok s) t := by
  have hpart : ∀ {ps : List Piece} {s : Sql} {t : List Value},
      Gives (Piece.renderAll b ps) (.ok s) t → p ∈ ps → ∃ s t, Gives (p.render b) (.ok s) t := by
    intro ps s t hs hmem
    obtain ⟨s', t', hp, -⟩ := Piece.gives_of_mem hb hs hmem
    exact ⟨s', t', hp⟩
  obtain ⟨_, _, _, _, _, _, _, _, hlead, hlate, hearly, hrest, -⟩ := Outline.gives_inv hb h
  simp only [Outline.pieces, List.mem_append] at hp
  rcases hp with ((hp | hp) | hp) | hp
  · exact hpart hlead hp
  · exact hpart hlate hp
  · exact hpart hearly hp
  · exact hpart hrest hp

namespace Renderer

variable {r : Renderer}

/-! ## Chains of calls -/

/-- A chain of a number of calls, each within the one before, that starts with the
call for a node. -/
inductive Nests (r : Renderer) : Place → Node → Nat → Prop
  | call (place : Place) (n : Node) : Nests r place n 1
  | within {place q : Place} {n m : Node} {w : Value} {depth : Nat} :
    .below q w ∈ (r.outline place n).pieces → Node.ofValue w = .ok m → Nests r q m depth →
      Nests r place n (depth + 1)

/-- A chain of a number of calls that starts with a call for what is asked for. -/
inductive NestsFor (r : Renderer) (v : Value) (request : Request) : Nat → Prop
  | asked {place : Place} {n : Node} {w : Value} {depth : Nat} :
    .below place w ∈ r.pieces v request → Node.ofValue w = .ok n → r.Nests place n depth →
      NestsFor r v request depth

/-- A node below weighs less, so each call of a chain takes one off the weight. -/
theorem Nests.le_weight {place : Place} {n : Node} {depth : Nat} (h : r.Nests place n depth) :
    depth ≤ n.weight := by
  induction h with
  | call place n => exact n.weight_pos
  | @within place q n m w depth hw hm _ ih =>
      have := r.over_of_mem_pieces hw m hm
      omega

/-! ## Chains within a budget -/

/-- A budget that no chain of calls exceeds is enough. -/
theorem node_eq_full_of_nests {budget : Nat} {place : Place} {n : Node}
    (h : ∀ depth, r.Nests place n depth → depth ≤ budget) :
    r.node budget place n = r.full place n := by
  induction budget generalizing place n with
  | zero =>
      have := h 1 (.call place n)
      omega
  | succ budget ih =>
      rw [node_eq_outline, full_eq]
      refine Outline.render_congr fun q w hw => ?_
      rw [below_at, operands_at]
      refine nodeOf_bind_congr fun m hm => ih fun depth hdepth => ?_
      have := h (depth + 1) (.within hw hm hdepth)
      omega

theorem steady_below_of_regular {budget : Nat} (h : ∀ place n, Regular (r.node budget place n)) :
    (r.below budget).Steady := by
  intro place w
  rw [below_at]
  exact Rendering.of_nodeOf_bind (r := r) (fun e _ => Rendering.regular_fail e) fun m _ => h place m

theorem regular_node (r : Renderer) (budget : Nat) (place : Place) (n : Node) :
    Regular (r.node budget place n) := by
  induction budget generalizing place n with
  | zero => exact Rendering.regular_fail _
  | succ budget ih =>
      rw [node_eq_outline]
      exact Rendering.closed_regular.outline fun p _ =>
        Piece.regular_render (steady_below_of_regular ih) p

theorem steady_below (r : Renderer) (budget : Nat) : (r.below budget).Steady :=
  steady_below_of_regular (r.regular_node budget)

theorem ends_node_of_gives {budget : Nat} {q : Place} {w : Value} {m : Node} {s : Sql}
    {recorded : List Value} (hm : Node.ofValue w = .ok m)
    (h : Gives ((Piece.below q w).render (r.below budget)) (.ok s) recorded) :
    Ends (r.node budget q m) := by
  rw [Piece.render_below, below_at, nodeOf_ok hm, pure_bind] at h
  exact ⟨s, recorded, h⟩

/-- A node that ends with SQL has no chain of calls that exceeds the budget. -/
theorem Nests.le_of_ends {place : Place} {n : Node} {depth budget : Nat}
    (h : r.Nests place n depth) (hends : Ends (r.node budget place n)) : depth ≤ budget := by
  induction h generalizing budget with
  | call place n =>
      cases budget with
      | zero =>
          obtain ⟨s, recorded, hs⟩ := hends
          cases (hs.unique (Rendering.gives_fail _)).1
      | succ budget => exact Nat.le_add_left 1 budget
  | @within place q n m w depth hw hm _ ih =>
      obtain ⟨s, recorded, hs⟩ := hends
      cases budget with
      | zero => cases (hs.unique (Rendering.gives_fail _)).1
      | succ budget =>
          rw [node_eq_outline] at hs
          obtain ⟨s', t, hpiece⟩ := Outline.gives_of_mem (r.steady_below budget) hs hw
          have := ih (ends_node_of_gives hm hpiece)
          omega

/-! ## Requests -/

/-- What is asked for is made of nodes that weigh no more than the value. -/
theorem weight_le_of_mem_pieces {v w : Value} {request : Request} {place : Place} {n : Node}
    (hw : .below place w ∈ r.pieces v request) (hn : Node.ofValue w = .ok n) :
    n.weight ≤ v.weight := by
  have hself : ∀ {q : Place}, Piece.below place w ∈ [.below q v] → n.weight ≤ v.weight := by
    intro q h
    obtain ⟨-, rfl⟩ := Piece.below.inj (List.mem_singleton.mp h)
    exact Node.weight_le hn
  have hstatement : ∀ k, .below place w ∈ [statementPiece k v] → n.weight ≤ v.weight := by
    intro k h
    have h := List.mem_singleton.mp h
    unfold statementPiece at h
    split at h
    · cases h
    · next m hm =>
        split at h
        · obtain ⟨-, rfl⟩ := Piece.below.inj h
          obtain rfl := Except.ok.inj ((Node.ofValue_toValue m none).symm.trans hn)
          exact Node.weight_le hm
        · cases h
  cases request with
  | tree => exact hself hw
  | select => exact hstatement .select hw
  | insert => exact hstatement .insert hw
  | update => exact hstatement .update hw
  | delete => exact hstatement .delete hw
  | expression => exact hself hw
  | conditions =>
      rcases List.mem_cons.mp hw with hw | hw
      · cases hw
      · obtain ⟨t, ht, hatom⟩ := Piece.mem_conditions hw
        exact Condition.weight_le_of_mem_atoms ht hatom hn

theorem NestsFor.le_weight {v : Value} {request : Request} {depth : Nat}
    (h : r.NestsFor v request depth) : depth ≤ v.weight := by
  cases h with
  | asked hw hn hnests => exact Nat.le_trans hnests.le_weight (weight_le_of_mem_pieces hw hn)

/-- What is asked for, with a budget of nested handlers. -/
def performWithin (r : Renderer) (budget : Nat) (v : Value) (request : Request) : Rendering Sql :=
  Piece.renderAll (r.below budget) (r.pieces v request)

/-- The SQL text and the bound literals of a value, with a budget of nested handlers. -/
def renderWithin (r : Renderer) (budget : Nat) (request : Request) (v : Value) :
    Except RenderError Result := r.result (r.performWithin budget v request)

/-- A budget that no chain of calls exceeds does not change the answer. -/
theorem performWithin_eq {budget : Nat} {v : Value} {request : Request}
    (h : ∀ depth, r.NestsFor v request depth → depth ≤ budget) :
    r.performWithin budget v request = r.perform v request := by
  rw [performWithin, perform_eq]
  refine Piece.renderAll_congr fun q w hw => ?_
  rw [below_at, operands_at]
  exact nodeOf_bind_congr fun m hm =>
    node_eq_full_of_nests fun depth hdepth => h depth (.asked hw hm hdepth)

theorem regular_performWithin (r : Renderer) (budget : Nat) (v : Value) (request : Request) :
    Regular (r.performWithin budget v request) :=
  Piece.regular_renderAll (r.steady_below budget) _

/-- What ends with a result within a budget has no chain of calls that exceeds it. -/
theorem NestsFor.le_of_render {budget depth : Nat} {v : Value} {request : Request}
    {result : Result} (h : r.NestsFor v request depth)
    (hrender : r.renderWithin budget request v = .ok result) : depth ≤ budget := by
  obtain ⟨sql, hsql, -⟩ :=
    (r.result_eq_ok_iff (r.regular_performWithin budget v request)).mp hrender
  cases h with
  | asked hw hn hnests =>
      obtain ⟨s, t, hpiece, -⟩ := Piece.gives_of_mem (r.steady_below budget) hsql hw
      exact hnests.le_of_ends (ends_node_of_gives hn hpiece)

/-- The error that a budget is used up is none that a renderer stops with. -/
theorem render_ne_tooDeep (r : Renderer) (request : Request) (v : Value) :
    r.render request v ≠ .error .tooDeep := by
  intro h
  have hexpected := (stops_of_render_error h).expected
  cases hexpected

/-- Handler calls are nested no deeper than the input has values.  With a budget of
at least that depth a value is rendered as without, with a smaller one it is not
rendered, and the budget that a renderer starts with is never used up. -/
theorem nesting_bounded (r : Renderer) (v : Value) (request : Request) :
    (∀ depth, r.NestsFor v request depth → depth ≤ v.weight) ∧
      (∀ budget, v.weight ≤ budget → r.renderWithin budget request v = r.render request v) ∧
      (∀ budget, (∃ result, r.renderWithin budget request v = .ok result) ↔
        (∃ result, r.render request v = .ok result) ∧
          ∀ depth, r.NestsFor v request depth → depth ≤ budget) ∧
      ((∃ result, r.render request v = .ok result) ∨
        ∃ e, r.render request v = .error e ∧ e ≠ .tooDeep) := by
  have heq : ∀ budget, (∀ depth, r.NestsFor v request depth → depth ≤ budget) →
      r.renderWithin budget request v = r.render request v := by
    intro budget h
    rw [renderWithin, performWithin_eq h, render]
  refine ⟨fun depth h => h.le_weight, fun budget hbudget => ?_, fun budget => ⟨?_, ?_⟩, ?_⟩
  · exact heq budget fun depth h => Nat.le_trans h.le_weight hbudget
  · rintro ⟨result, hresult⟩
    have hdepth : ∀ depth, r.NestsFor v request depth → depth ≤ budget :=
      fun depth h => h.le_of_render hresult
    exact ⟨⟨result, heq budget hdepth ▸ hresult⟩, hdepth⟩
  · rintro ⟨⟨result, hresult⟩, hdepth⟩
    exact ⟨result, (heq budget hdepth).trans hresult⟩
  · cases hrender : r.render request v with
    | ok result => exact Or.inl ⟨result, rfl⟩
    | error e => exact Or.inr ⟨e, rfl, fun he => r.render_ne_tooDeep request v (he ▸ hrender)⟩

/-- A WHERE clause whose operands are read as a WHERE clause again. -/
def nestedConditions : Value := .node "-where" [.str "-where", .str "-where"] []

/-- Each of its three values is a call, so two nested calls are not enough. -/
theorem nesting_bounded_conditions :
    nestedConditions.weight = 3 ∧ (of {} none none).NestsFor nestedConditions .tree 3 ∧
      3 ≤ nestedConditions.weight ∧
      (of {} none none).renderWithin 7 .tree nestedConditions =
        .ok ⟨"WHERE WHERE WHERE 1 = 1", []⟩ ∧
      ¬ ∃ result, (of {} none none).renderWithin 2 .tree nestedConditions = .ok result := by
  have hdepth : (of {} none none).NestsFor nestedConditions .tree 3 := by
    refine .asked (n := ⟨"-where", [.str "-where", .str "-where"], []⟩) List.mem_cons_self rfl ?_
    refine .within (q := .condition) (m := ⟨"-where", [.str "-where"], []⟩)
      (w := .list [.str "-where", .str "-where"]) (.tail _ List.mem_cons_self) rfl ?_
    exact .within (q := .condition) (m := ⟨"-where", [], []⟩) (w := .list [.str "-where"])
      (.tail _ List.mem_cons_self) rfl (.call _ _)
  obtain ⟨hbound, hlarge, hexact, -⟩ := nesting_bounded (of {} none none) nestedConditions .tree
  have hweight : nestedConditions.weight = 3 := rfl
  refine ⟨hweight, hdepth, hbound 3 hdepth, ?_, fun hresult => ?_⟩
  · exact (hlarge 7 (by rw [hweight]; decide)).trans rfl
  · have := ((hexact 2).mp hresult).2 3 hdepth
    omega

end Renderer

end QueryTree
