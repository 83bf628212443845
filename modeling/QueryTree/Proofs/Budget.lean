import QueryTree.Proofs.Outline.Pieces

/-!
# Renderings without a budget

The budget of a renderer is never used up.  A handler passes its budget on less
one, and what stands below a node is lighter than the node.  So any budget of at
least the weight of a node renders it alike (`Renderer.node_eq_full`), and the
budget can be left out: `Renderer.full` renders a node by its outline, and the
values below by `Renderer.operands`, which is `Renderer.full` again
(`Renderer.full_eq`).

*Requests.*  Whatever is asked for is a list of pieces as well
(`Renderer.perform_eq`).

*Induction.*  What holds of a node if it holds of the nodes below holds of all
(`Renderer.node_induction`).  A property of renderings that is closed under doing
one after another holds of every rendering if it holds of literals and of the errors
that the renderer stops with (`Rendering.Closed.full`).  Those are errors to be
expected (`Renderer.Stops.expected`).
-/

namespace QueryTree

open Rendering (each fail fault bindLiteral)

/-! ## Outlines over different values below -/

namespace Piece

theorem renderAll_congr {b b' : Below} {ps : List Piece}
    (h : ∀ q v, .below q v ∈ ps → b.at q v = b'.at q v) : renderAll b ps = renderAll b' ps := by
  have hrender : ∀ p ∈ ps, p.render b = p.render b' := by
    intro p hp
    cases p with
    | below q v => exact h q v hp
    | _ => rfl
  rw [renderAll, renderAll, Rendering.each_congr hrender]

end Piece

namespace Outline

theorem forall_mem_pieces {P : Piece → Prop} {o : Outline} :
    (∀ p ∈ o.pieces, P p) ↔
      (∀ p ∈ o.lead, P p) ∧ (∀ p ∈ o.late, P p) ∧ (∀ p ∈ o.early, P p) ∧ ∀ p ∈ o.rest, P p := by
  simp only [pieces, List.forall_mem_append, and_assoc]

theorem render_congr {b b' : Below} {o : Outline}
    (h : ∀ q v, .below q v ∈ o.pieces → b.at q v = b'.at q v) : o.render b = o.render b' := by
  have hpart : ∀ ps : List Piece, (∀ p ∈ ps, p ∈ o.pieces) →
      Piece.renderAll b ps = Piece.renderAll b' ps := fun ps hsub =>
    Piece.renderAll_congr fun q v hv => h q v (hsub _ hv)
  obtain ⟨hlead, hlate, hearly, hrest⟩ :=
    forall_mem_pieces.mp fun (p : Piece) (hp : p ∈ o.pieces) => hp
  rw [render, render, hpart _ hlead, hpart _ hlate, hpart _ hearly, hpart _ hrest]

end Outline

/-! ## Nodes -/

theorem Node.weight_pos (n : Node) : 0 < n.weight := by
  rw [weight]
  omega

namespace Renderer

/-- The outline of a node at a place. -/
def outline (r : Renderer) (place : Place) (n : Node) : Outline :=
  match (r.table place).lookup n.tag with
  | none => .stop (place.unknown n.tag)
  | some handler => handler.outline r.settings n

theorem outline_eq {r : Renderer} {place : Place} {n : Node} {h : Handler}
    (hlookup : (r.table place).lookup n.tag = some h) : r.outline place n = h.outline r.settings n := by
  rw [outline, hlookup]

theorem expected_unknown (s : Settings) (place : Place) (tag : String) :
    (place.unknown tag).Expected s := by
  unfold Place.unknown
  split <;> exact rfl

theorem fits_outline (r : Renderer) (place : Place) (n : Node) :
    (r.outline place n).Fits r.settings n := by
  unfold outline
  split
  · exact Outline.fits_stop (expected_unknown _ place n.tag)
  · exact Handler.fits_outline _ n _

theorem over_of_mem_pieces (r : Renderer) {place q : Place} {n : Node} {v : Value}
    (hv : .below q v ∈ (r.outline place n).pieces) : n.Over v := by
  cases r.fits_outline place n _ hv with
  | below hover => exact hover

theorem node_eq_outline (r : Renderer) (budget : Nat) (place : Place) (n : Node) :
    r.node (budget + 1) place n = (r.outline place n).render (r.below budget) := by
  rw [node_succ, outline]
  cases (r.table place).lookup n.tag with
  | none => exact (Outline.render_stop _ _).symm
  | some handler => exact Handler.render_eq_outline _ _ n handler

theorem nodeOf_ok {v : Value} {n : Node} {default? : Option String}
    (h : Node.ofValue v default? = .ok n) : nodeOf v default? = pure n := by
  rw [nodeOf, h]

theorem nodeOf_error {v : Value} {cause : Malformed} {default? : Option String}
    (h : Node.ofValue v default? = .error cause) :
    nodeOf v default? = fault (.malformed cause) := by
  rw [nodeOf, h]

/-- A value stands for a node that is rendered with enough budget, or for none. -/
theorem nodeOf_bind_congr {v : Value} {default? : Option String} {f g : Node → Rendering Sql}
    (h : ∀ n, Node.ofValue v default? = .ok n → f n = g n) :
    nodeOf v default? >>= f = nodeOf v default? >>= g := by
  cases hv : Node.ofValue v default? with
  | error cause => rw [nodeOf_error hv, Rendering.fault_bind, Rendering.fault_bind]
  | ok n => rw [nodeOf_ok hv, pure_bind, pure_bind, h n hv]

theorem below_at (r : Renderer) (budget : Nat) (place : Place) (v : Value) :
    (r.below budget).at place v = nodeOf v >>= r.node budget place := by
  cases place <;> rfl

/-- Any two budgets render a node alike if they are large enough. -/
theorem node_congr (r : Renderer) (place : Place) {budget budget' : Nat} {n : Node}
    (h : n.weight ≤ budget) (h' : n.weight ≤ budget') :
    r.node budget place n = r.node budget' place n := by
  induction budget generalizing budget' place n with
  | zero =>
      have := n.weight_pos
      omega
  | succ budget ih =>
      obtain ⟨budget', rfl⟩ : ∃ c, budget' = c + 1 := ⟨budget' - 1, by
        have := n.weight_pos
        omega⟩
      rw [node_eq_outline, node_eq_outline]
      refine Outline.render_congr fun q v hv => ?_
      rw [below_at, below_at]
      refine nodeOf_bind_congr fun m hm => ?_
      have hlt := r.over_of_mem_pieces hv m hm
      exact ih q (by omega) (by omega)

/-- The SQL of a node. -/
def full (r : Renderer) (place : Place) (n : Node) : Rendering Sql := r.node n.weight place n

/-- The values below a node. -/
def operands (r : Renderer) : Below where
  tree v := nodeOf v >>= r.full .tree
  condition v := nodeOf v >>= r.full .condition

/-- A budget of the weight of a node is enough for it. -/
theorem node_eq_full (r : Renderer) (place : Place) {budget : Nat} {n : Node}
    (h : n.weight ≤ budget) : r.node budget place n = r.full place n :=
  r.node_congr place h (Nat.le_refl _)

theorem operands_at (r : Renderer) (place : Place) (v : Value) :
    r.operands.at place v = nodeOf v >>= r.full place := by
  cases place <;> rfl

/-- A value below is the node that it stands for. -/
theorem operands_at_ok (r : Renderer) (place : Place) {v : Value} {n : Node}
    (h : Node.ofValue v = .ok n) : r.operands.at place v = r.full place n := by
  rw [operands_at, nodeOf_ok h, pure_bind]

/-- The values below are rendered alike if the nodes they stand for are within the
budget. -/
theorem render_below_eq (r : Renderer) {budget : Nat} {ps : List Piece}
    (h : ∀ q v, .below q v ∈ ps → ∀ m, Node.ofValue v = .ok m → m.weight ≤ budget) :
    Piece.renderAll (r.below budget) ps = Piece.renderAll r.operands ps := by
  refine Piece.renderAll_congr fun q v hv => ?_
  rw [below_at, operands_at]
  exact nodeOf_bind_congr fun m hm => r.node_eq_full q (h q v hv m hm)

theorem full_eq (r : Renderer) (place : Place) (n : Node) :
    r.full place n = (r.outline place n).render r.operands := by
  rw [full, ← r.node_congr place (Nat.le_succ n.weight) (Nat.le_refl n.weight), node_eq_outline]
  refine Outline.render_congr fun q v hv => ?_
  rw [below_at, operands_at]
  exact nodeOf_bind_congr fun m hm =>
    r.node_eq_full q (Nat.le_of_lt (r.over_of_mem_pieces hv m hm))

/-- What holds of a node if it holds of the nodes below holds of every node. -/
theorem node_induction (r : Renderer) {P : Place → Node → Prop}
    (step : ∀ place n, (∀ q v m, .below q v ∈ (r.outline place n).pieces →
      Node.ofValue v = .ok m → P q m) → P place n) (place : Place) (n : Node) : P place n := by
  have key : ∀ k place n, n.weight ≤ k → P place n := by
    intro k
    induction k with
    | zero =>
        intro place n h
        have := n.weight_pos
        omega
    | succ k ih =>
        intro place n h
        refine step place n fun q v m hv hm => ih q m ?_
        have := r.over_of_mem_pieces hv m hm
        omega
  exact key n.weight place n (Nat.le_refl _)

/-! ## Requests -/

/-- A statement of a type as a piece. -/
def statementPiece (k : Keyword) (v : Value) : Piece :=
  match Node.ofValue v (some k.tag) with
  | .error cause => .stop (.structural (.malformed cause))
  | .ok n =>
    if n.tag = k.tag then .below .tree n.toValue else .stop (.structural (.otherType n.tag k.tag))

/-- The pieces of what is asked for. -/
def pieces (r : Renderer) (v : Value) : Request → List Piece
  | .tree => [.below .tree v]
  | .select => [statementPiece .select v]
  | .insert => [statementPiece .insert v]
  | .update => [statementPiece .update v]
  | .delete => [statementPiece .delete v]
  | .expression => [.below .condition v]
  | .conditions => .text "WHERE " :: Piece.conditions r.settings v

theorem statement_eq (r : Renderer) (k : Keyword) (v : Value) :
    r.statement k v = Piece.renderAll r.operands [statementPiece k v] := by
  rw [statement, statementPiece]
  cases hv : Node.ofValue v (some k.tag) with
  | error cause =>
      rw [nodeOf_error hv]
      exact (Piece.renderAll_stop _ _ _).symm
  | ok n =>
      rw [nodeOf_ok hv, pure_bind]
      dsimp only
      split
      · rw [Piece.renderAll_below, operands_at_ok r .tree (Node.ofValue_toValue n none)]
        exact r.node_eq_full .tree (Node.weight_le hv)
      · exact (Piece.renderAll_stop _ _ _).symm

theorem conditionTree_eq (r : Renderer) (v : Value) :
    r.conditionTree v = Piece.renderAll r.operands (Piece.conditions r.settings v) := by
  rw [conditionTree, ← Piece.renderAll_conditions]
  apply render_below_eq
  intro q a ha m hm
  obtain ⟨t, ht, hatom⟩ := Piece.mem_conditions ha
  exact Condition.weight_le_of_mem_atoms ht hatom hm

theorem perform_eq (r : Renderer) (v : Value) (request : Request) :
    r.perform v request = Piece.renderAll r.operands (r.pieces v request) := by
  cases request with
  | tree =>
      rw [perform, pieces, Piece.renderAll_below, operands_at, tree]
      exact nodeOf_bind_congr fun n hn => r.node_eq_full .tree (Node.weight_le hn)
  | select => exact r.statement_eq .select v
  | insert => exact r.statement_eq .insert v
  | update => exact r.statement_eq .update v
  | delete => exact r.statement_eq .delete v
  | expression =>
      rw [perform, pieces, Piece.renderAll_below, operands_at, condition]
      exact nodeOf_bind_congr fun n hn => r.node_eq_full .condition (Node.weight_le hn)
  | conditions =>
      rw [perform, pieces, Piece.renderAll_text, conditionTree_eq, map_eq_pure_bind]

/-- What is asked for stops, if it does, with an error about the value. -/
theorem aboutOperands_of_mem_pieces (r : Renderer) {v : Value} {request : Request}
    {e : RenderError} (h : .stop e ∈ r.pieces v request) : e.AboutOperands r.settings := by
  have hstatement : ∀ k, .stop e ∈ [statementPiece k v] → e.AboutOperands r.settings := by
    intro k hk
    have hk := List.mem_singleton.mp hk
    unfold statementPiece at hk
    split at hk
    · obtain rfl := Piece.stop.inj hk
      trivial
    · split at hk
      · cases hk
      · obtain rfl := Piece.stop.inj hk
        trivial
  cases request with
  | tree => cases List.mem_singleton.mp h
  | select => exact hstatement .select h
  | insert => exact hstatement .insert h
  | update => exact hstatement .update h
  | delete => exact hstatement .delete h
  | expression => cases List.mem_singleton.mp h
  | conditions =>
      rcases List.mem_cons.mp h with h | h
      · cases h
      · unfold Piece.conditions at h
        split at h
        · obtain ⟨w, hw, heq⟩ := List.mem_map.mp h
          have hfits := Condition.fits_words _ w hw
          cases w with
          | unranked c =>
              obtain rfl := Piece.stop.inj heq
              exact hfits
          | invalid a =>
              obtain rfl := Piece.stop.inj heq
              trivial
          | _ => cases heq
        · obtain rfl := Piece.stop.inj (List.mem_singleton.mp h)
          trivial

/-! ## Errors -/

/-- An error that a renderer stops with somewhere. -/
inductive Stops (r : Renderer) : RenderError → Prop
  | malformed (cause : Malformed) : Stops r (.structural (.malformed cause))
  | outline {place : Place} {n : Node} {e : RenderError} :
    .stop e ∈ (r.outline place n).pieces → Stops r e
  | asked {v : Value} {request : Request} {e : RenderError} :
    .stop e ∈ r.pieces v request → Stops r e

theorem Stops.expected {r : Renderer} {e : RenderError} (h : r.Stops e) : e.Expected r.settings := by
  cases h with
  | malformed cause => exact rfl
  | @outline place n _ hstop =>
      cases r.fits_outline place n _ hstop with
      | stop he => exact he
  | asked hstop => exact (r.aboutOperands_of_mem_pieces hstop).expected

end Renderer

/-! ## Closed properties -/

namespace Rendering

variable {Q : {α : Type} → Rendering α → Prop}

theorem Closed.renderAll (hQ : Closed Q) {b : Below} {ps : List Piece}
    (h : ∀ p ∈ ps, Q (p.render b)) : Q (Piece.renderAll b ps) :=
  hQ.bind (hQ.each h) fun _ => hQ.pure _

theorem Closed.outline (hQ : Closed Q) {b : Below} {o : Outline}
    (h : ∀ p ∈ o.pieces, Q (p.render b)) : Q (o.render b) := by
  obtain ⟨hlead, hlate, hearly, hrest⟩ := Outline.forall_mem_pieces.mp h
  refine hQ.bind (hQ.renderAll hlead) fun lead => ?_
  refine hQ.bind (hQ.renderAll hearly) fun early => ?_
  refine hQ.bind (hQ.renderAll hlate) fun late => ?_
  exact hQ.bind (hQ.renderAll hrest) fun rest => hQ.pure _

/-- A closed property of literals, of the values below and of the errors of a piece holds of
the piece. -/
theorem Closed.piece (hQ : Closed Q) (hliteral : ∀ v, Q (bindLiteral v)) {b : Below} {p : Piece}
    (hbelow : ∀ q v, p = .below q v → Q (b.at q v))
    (hstop : ∀ e, p = .stop e → Q (fail e : Rendering Sql)) : Q (p.render b) := by
  cases p with
  | text t => exact hQ.pure _
  | literal v => exact hliteral v
  | below q v => exact hbelow q v rfl
  | stop e => exact hstop e rfl

variable {r : Renderer}

theorem of_nodeOf_bind (hstop : ∀ e, r.Stops e → Q (fail e : Rendering Sql)) {v : Value}
    {f : Node → Rendering Sql} (h : ∀ m, Node.ofValue v = .ok m → Q (f m)) :
    Q (Renderer.nodeOf v >>= f) := by
  cases hv : Node.ofValue v with
  | error cause =>
      rw [Renderer.nodeOf_error hv, fault_bind]
      exact hstop _ (.malformed cause)
  | ok m =>
      rw [Renderer.nodeOf_ok hv, pure_bind]
      exact h m hv

/-- A closed property of literals and of the errors of a renderer holds of every node. -/
theorem Closed.full (hQ : Closed Q) (hliteral : ∀ v, Q (bindLiteral v))
    (hstop : ∀ e, r.Stops e → Q (fail e : Rendering Sql)) (place : Renderer.Place) (n : Node) :
    Q (r.full place n) := by
  induction place, n using r.node_induction with
  | step place n ih =>
      rw [Renderer.full_eq]
      refine hQ.outline fun p hp => hQ.piece hliteral ?_ fun e heq => hstop e (.outline (heq ▸ hp))
      rintro q v rfl
      rw [Renderer.operands_at]
      exact of_nodeOf_bind hstop fun m hm => ih q v m hp hm

/-- A closed property of literals and of the errors of a renderer holds of whatever is
asked for. -/
theorem Closed.perform (hQ : Closed Q) (hliteral : ∀ v, Q (bindLiteral v))
    (hstop : ∀ e, r.Stops e → Q (fail e : Rendering Sql)) (v : Value)
    (request : Renderer.Request) : Q (r.perform v request) := by
  rw [Renderer.perform_eq]
  refine hQ.renderAll fun p hp => hQ.piece hliteral ?_ fun e heq => hstop e (.asked (heq ▸ hp))
  rintro q w rfl
  rw [Renderer.operands_at]
  exact of_nodeOf_bind hstop fun m _ => hQ.full hliteral hstop q m

end Rendering

/-! ## Every rendering is regular -/

namespace Renderer

theorem regular_full (r : Renderer) (place : Place) (n : Node) : Rendering.Regular (r.full place n) :=
  Rendering.closed_regular.full Rendering.regular_bindLiteral
    (fun e _ => Rendering.regular_fail e) place n

theorem regular_perform (r : Renderer) (v : Value) (request : Request) :
    Rendering.Regular (r.perform v request) :=
  Rendering.closed_regular.perform Rendering.regular_bindLiteral
    (fun e _ => Rendering.regular_fail e) v request

theorem regular_operands (r : Renderer) (place : Place) (v : Value) :
    Rendering.Regular (r.operands.at place v) := by
  rw [operands_at]
  exact Rendering.of_nodeOf_bind (r := r) (fun e _ => Rendering.regular_fail e)
    fun m _ => r.regular_full place m

end Renderer

end QueryTree
