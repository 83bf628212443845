import QueryTree.Proofs.Alike.Outlines

/-!
# Trees alike are rendered alike

Two renderings are *alike* if they end alike: both with errors of one kind, or
both with SQL and literals, where the SQL has the same texts and related literals
in the same places (`Rendering.Alike`).

Renderings alike may be done one after another (`Rendering.Alike.bind`).  So what
holds of each piece of two outlines holds of the outlines (`Outline.alike_render`).
By induction on the nodes below, nodes with related outlines are rendered alike
(`Renderer.simulates`), and so are nodes that a renderer keeps related
(`Kept.simulates`).

The main statement is `Renderer.Alike.perform`: values alike are rendered alike,
whatever is asked for.
-/

namespace QueryTree

open Rendering
open Renderer (Place)

/-- Fragments of SQL with related literals. -/
inductive Fragment.Alike (L : Value → Value → Prop) : Fragment → Fragment → Prop
  | text (t : String) : Alike L (.text t) (.text t)
  | placeholder {v w : Value} : L v w → Alike L (.placeholder v) (.placeholder w)

/-- Renderings that end alike, whatever was recorded before. -/
inductive Rendering.Alike (L : Value → Value → Prop) : Rendering Sql → Rendering Sql → Prop
  | fails {x y : Rendering Sql} {e e' : RenderError} {r r' : List Value} :
    Gives x (.error e) r → Gives y (.error e') r' → e.kind? = e'.kind? → Alike L x y
  | ends {x y : Rendering Sql} {s s' : Sql} {r r' : List Value} :
    Gives x (.ok s) r → Gives y (.ok s') r' → List.Forall₂ (Fragment.Alike L) s s' →
      List.Forall₂ L r r' → Alike L x y

namespace Rendering

variable {L : Value → Value → Prop} {x y : Rendering Sql}

/-- A regular rendering is like itself. -/
theorem Alike.refl (hL : ∀ v, L v v) (hx : Regular x) : Alike L x x := by
  obtain ⟨answer, r, hx⟩ := hx
  cases answer with
  | error e => exact .fails hx hx rfl
  | ok s =>
      refine .ends hx hx (List.forall₂_same.mpr fun fragment _ => ?_)
        (List.forall₂_same.mpr fun v _ => hL v)
      cases fragment with
      | text t => exact .text t
      | placeholder v => exact .placeholder (hL v)

theorem alike_pure {s s' : Sql} (h : List.Forall₂ (Fragment.Alike L) s s') :
    Alike L (pure s) (pure s') := .ends (gives_pure s) (gives_pure s') h .nil

theorem alike_fail {e e' : RenderError} (h : e.kind? = e'.kind?) :
    Alike L (fail e) (fail e') := .fails (gives_fail e) (gives_fail e') h

theorem alike_bindLiteral {v w : Value} (h : L v w) : Alike L (bindLiteral v) (bindLiteral w) :=
  .ends (gives_bindLiteral v) (gives_bindLiteral w) (.cons (.placeholder h) .nil) (.cons h .nil)

theorem Alike.bind {f g : Sql → Rendering Sql} (hx : Alike L x y)
    (hf : ∀ s s', List.Forall₂ (Fragment.Alike L) s s' → Alike L (f s) (g s')) :
    Alike L (x >>= f) (y >>= g) := by
  cases hx with
  | fails hx hy hkind => exact .fails (gives_bind_error hx) (gives_bind_error hy) hkind
  | @ends s s' _ _ hx hy hs hr =>
      cases hf s s' hs with
      | fails hf hg hkind => exact .fails (gives_bind_ok hx hf) (gives_bind_ok hy hg) hkind
      | ends hf hg ht hr' =>
          exact .ends (gives_bind_ok hx hf) (gives_bind_ok hy hg) ht (List.rel_append hr hr')

end Rendering

/-! ## Outlines -/

variable {L : Value → Value → Prop} {b b' : Below}

theorem Piece.alike_renderAll {ps qs : List Piece}
    (h : List.Forall₂ (fun p q => Rendering.Alike L (p.render b) (q.render b')) ps qs) :
    Rendering.Alike L (renderAll b ps) (renderAll b' qs) := by
  induction h with
  | nil => exact alike_pure .nil
  | cons hp _ ih =>
      rw [renderAll_cons, renderAll_cons]
      refine hp.bind fun s s' hs => ?_
      refine ih.bind fun t t' ht => ?_
      exact alike_pure (List.rel_append hs ht)

theorem Outline.alike_render {R : Piece → Piece → Prop} {o o' : Outline} (h : o.Related R o')
    (hR : ∀ {p q}, p ∈ o.pieces → R p q → Rendering.Alike L (p.render b) (q.render b')) :
    Rendering.Alike L (o.render b) (o'.render b') := by
  have hparts : ∀ {ps qs : List Piece}, (∀ p ∈ ps, p ∈ o.pieces) → List.Forall₂ R ps qs →
      Rendering.Alike L (Piece.renderAll b ps) (Piece.renderAll b' qs) := by
    intro ps qs hmem hpq
    apply Piece.alike_renderAll
    exact ((List.forall₂_and_left _ _).mpr ⟨hmem, hpq⟩).imp fun _ _ hp => hR hp.1 hp.2
  obtain ⟨hlead, hlate, hearly, hrest⟩ := forall_mem_pieces.mp fun p (hp : p ∈ o.pieces) => hp
  rw [Outline.render, Outline.render]
  refine (hparts hlead h.lead).bind fun s₁ t₁ h₁ => ?_
  refine (hparts hearly h.early).bind fun s₃ t₃ h₃ => ?_
  refine (hparts hlate h.late).bind fun s₂ t₂ h₂ => ?_
  refine (hparts hrest h.rest).bind fun s₄ t₄ h₄ => ?_
  exact alike_pure (List.rel_append (List.rel_append (List.rel_append h₁ h₂) h₃) h₄)

/-! ## Nodes -/

variable {r : Renderer} {N : Place → Node → Node → Prop}

/-- Related nodes are rendered alike if their outlines are related, and if related
pieces of them are rendered alike whenever related nodes below are. -/
theorem Renderer.simulates {R : Piece → Piece → Prop}
    (houtline : ∀ {place n m}, N place n m → (r.outline place n).Related R (r.outline place m))
    (hpiece : ∀ {place n m p q}, N place n m → p ∈ (r.outline place n).pieces → R p q →
      (∀ {q v k k'}, p = .below q v → Node.ofValue v = .ok k → N q k k' →
        Rendering.Alike L (r.full q k) (r.full q k')) →
      Rendering.Alike L (p.render r.operands) (q.render r.operands))
    {place : Place} {n m : Node} (h : N place n m) :
    Rendering.Alike L (r.full place n) (r.full place m) := by
  induction place, n using r.node_induction generalizing m with
  | step place n ih =>
      rw [full_eq, full_eq]
      refine Outline.alike_render (houtline h) fun {p q} hp hpq => ?_
      refine hpiece h hp hpq fun {place' v k k'} heq hv hk => ?_
      exact ih place' v k (heq ▸ hp) hv hk

theorem Piece.Alike.render (hL : ∀ v, L v v) {p q : Piece} (h : Piece.Alike L N p q)
    (hbelow : ∀ {place v n m}, p = .below place v → Node.ofValue v = .ok n → N place n m →
      Rendering.Alike L (r.full place n) (r.full place m)) :
    Rendering.Alike L (p.render r.operands) (q.render r.operands) := by
  cases h with
  | text t => exact alike_pure (.cons (.text t) .nil)
  | literal h => exact alike_bindLiteral h
  | stop h => exact alike_fail h
  | below h =>
      cases h with
      | same => exact .refl hL (r.regular_operands _ _)
      | node hv hw _ hn =>
          rw [Piece.render_below, Piece.render_below, r.operands_at_ok _ hv, r.operands_at_ok _ hw]
          exact hbelow rfl hv hn

/-- Related nodes are rendered alike. -/
theorem Kept.simulates (hN : Kept r L N) (hL : ∀ v, L v v) {place : Place} {n m : Node}
    (h : N place n m) : Rendering.Alike L (r.full place n) (r.full place m) :=
  Renderer.simulates (hN.outline hL) (fun _ _ hpq hbelow => hpq.render hL hbelow) h

/-! ## Requests -/

theorem RequestAlike.pieces (hN : Tagged N) (hL : ∀ v, L v v) {request : Renderer.Request}
    {v w : Value} (h : RequestAlike N request v w) :
    List.Forall₂ (Piece.Alike L N) (r.pieces v request) (r.pieces w request) := by
  cases h with
  | same => exact List.forall₂_same.mpr fun p _ => .refl hL p
  | tree h => exact .cons (.below h) .nil
  | expression h => exact .cons (.below h) .nil
  | conditions h => exact .cons (.text _) (Piece.alike_conditions hL h)
  | @statement request k _ _ n m hk hv hw hn =>
      have hpiece : Piece.Alike L N (Renderer.statementPiece k v) (Renderer.statementPiece k w) := by
        rw [Renderer.statementPiece, Renderer.statementPiece, hv, hw]
        simp only [← hN.tag_eq hn]
        split
        · exact .below (.node (Node.ofValue_toValue n none) (Node.ofValue_toValue m none) rfl hn)
        · exact .stop rfl
      simp only [List.mem_cons, Prod.mk.injEq, List.not_mem_nil, or_false] at hk
      rcases hk with ⟨rfl, rfl⟩ | ⟨rfl, rfl⟩ | ⟨rfl, rfl⟩ | ⟨rfl, rfl⟩
      · exact .cons hpiece .nil
      · exact .cons hpiece .nil
      · exact .cons hpiece .nil
      · exact .cons hpiece .nil

/-- Values alike are rendered alike, whatever is asked for. -/
theorem Renderer.Alike.perform (hL : ∀ v, L v v) {request : Renderer.Request} {v w : Value}
    (h : r.Alike L request v w) :
    Rendering.Alike L (r.perform v request) (r.perform w request) := by
  obtain ⟨N, hN, hrequest⟩ := h
  rw [Renderer.perform_eq, Renderer.perform_eq]
  refine Piece.alike_renderAll ((hrequest.pieces hN.tagged hL).imp fun p q hpq => ?_)
  exact hpq.render hL fun _ _ hn => hN.simulates hL hn

end QueryTree
