import QueryTree.Proofs.Budget

/-!
# Runs of outlines

What pieces give is made of what each of them gives, in order.  So an outline that
ends with SQL falls into four parts, each with SQL and recorded literals of its
own.  The SQL is written `lead`, `late`, `early`, `rest`, and the literals are
recorded `lead`, `early`, `late`, `rest` (`Outline.gives_inv`).

All this is about values below that are rendered regularly (`Below.Steady`), as
every renderer does (`Renderer.steady_operands`).
-/

namespace QueryTree

open Rendering

/-- The values below a node are rendered regularly. -/
def Below.Steady (b : Below) : Prop := ∀ place v, Regular (b.at place v)

theorem Renderer.steady_operands (r : Renderer) : r.operands.Steady := r.regular_operands

namespace Piece

variable {b : Below}

theorem regular_render (hb : b.Steady) (p : Piece) : Regular (p.render b) :=
  closed_regular.piece regular_bindLiteral (fun q v _ => hb q v) fun e _ => regular_fail e

theorem regular_renderAll (hb : b.Steady) (ps : List Piece) : Regular (renderAll b ps) :=
  closed_regular.renderAll fun p _ => p.regular_render hb

theorem gives_nil_inv {sql : Sql} {recorded : List Value}
    (h : Gives (renderAll b []) (.ok sql) recorded) : sql = [] ∧ recorded = [] := by
  obtain ⟨hsql, rfl⟩ := h.unique (gives_pure [])
  exact ⟨Except.ok.inj hsql, rfl⟩

/-- The first piece comes first, in the SQL and among the literals. -/
theorem gives_cons_inv (hb : b.Steady) {p : Piece} {ps : List Piece} {sql : Sql}
    {recorded : List Value} (h : Gives (renderAll b (p :: ps)) (.ok sql) recorded) :
    ∃ s r s' r', Gives (p.render b) (.ok s) r ∧ Gives (renderAll b ps) (.ok s') r' ∧
      sql = s ++ s' ∧ recorded = r ++ r' := by
  rw [renderAll_cons] at h
  have hrest := fun s : Sql => (regular_renderAll hb ps).bind fun s' => regular_pure (s ++ s')
  obtain ⟨s, r, r', hp, hnext, rfl⟩ := h.bind_ok_inv (p.regular_render hb) hrest
  obtain ⟨s', r₁, r₂, hps, hlast, rfl⟩ :=
    hnext.bind_ok_inv (regular_renderAll hb ps) fun s' => regular_pure (s ++ s')
  obtain ⟨hsql, rfl⟩ := hlast.unique (gives_pure (s ++ s'))
  exact ⟨s, r, s', r₁, hp, hps, Except.ok.inj hsql, by rw [List.append_nil]⟩

theorem gives_of_mem (hb : b.Steady) {p : Piece} :
    ∀ {ps : List Piece} {sql : Sql} {recorded : List Value},
      Gives (renderAll b ps) (.ok sql) recorded → p ∈ ps →
        ∃ s r, Gives (p.render b) (.ok s) r ∧ r ⊆ recorded
  | _ :: ps, _, _, h, hp => by
      obtain ⟨s, r, s', r', hs, hs', rfl, rfl⟩ := gives_cons_inv hb h
      rcases List.mem_cons.mp hp with rfl | hp
      · exact ⟨s, r, hs, List.subset_append_left r r'⟩
      · obtain ⟨t, u, ht, hsub⟩ := gives_of_mem hb hs' hp
        exact ⟨t, u, ht, List.Subset.trans hsub (List.subset_append_right r r')⟩

theorem exists_mem_of_recorded (hb : b.Steady) :
    ∀ {ps : List Piece} {sql : Sql} {recorded : List Value},
      Gives (renderAll b ps) (.ok sql) recorded → recorded ≠ [] →
        ∃ p ∈ ps, ∃ s r, Gives (p.render b) (.ok s) r ∧ r ≠ []
  | [], _, _, h, hne => absurd (gives_nil_inv h).2 hne
  | p :: ps, _, _, h, hne => by
      obtain ⟨s, r, s', r', hs, hs', rfl, rfl⟩ := gives_cons_inv hb h
      by_cases hr : r = []
      · have hr' : r' ≠ [] := by
          rintro rfl
          exact hne (by rw [hr, List.append_nil])
        obtain ⟨q, hq, hgives⟩ := exists_mem_of_recorded hb hs' hr'
        exact ⟨q, List.mem_cons_of_mem p hq, hgives⟩
      · exact ⟨p, List.mem_cons_self, s, r, hs, hr⟩

end Piece

/-- An outline that ends with SQL ends with SQL in all its parts. -/
theorem Outline.gives_inv {b : Below} (hb : b.Steady) {o : Outline} {sql : Sql}
    {recorded : List Value} (h : Gives (o.render b) (.ok sql) recorded) :
    ∃ s₁ r₁ s₂ r₂ s₃ r₃ s₄ r₄, Gives (Piece.renderAll b o.lead) (.ok s₁) r₁ ∧
      Gives (Piece.renderAll b o.late) (.ok s₂) r₂ ∧
      Gives (Piece.renderAll b o.early) (.ok s₃) r₃ ∧
      Gives (Piece.renderAll b o.rest) (.ok s₄) r₄ ∧
      sql = s₁ ++ s₂ ++ s₃ ++ s₄ ∧ recorded = r₁ ++ r₃ ++ r₂ ++ r₄ := by
  have hall := Piece.regular_renderAll hb
  rw [Outline.render] at h
  obtain ⟨s₁, r₁, _, h₁, hnext, rfl⟩ := h.bind_ok_inv (hall _) fun _ =>
    (hall _).bind fun _ => (hall _).bind fun _ => (hall _).bind fun _ => regular_pure _
  obtain ⟨s₃, r₃, _, h₃, hnext', rfl⟩ := hnext.bind_ok_inv (hall _) fun _ =>
    (hall _).bind fun _ => (hall _).bind fun _ => regular_pure _
  obtain ⟨s₂, r₂, _, h₂, hnext'', rfl⟩ := hnext'.bind_ok_inv (hall _) fun _ =>
    (hall _).bind fun _ => regular_pure _
  obtain ⟨s₄, r₄, _, h₄, hlast, rfl⟩ := hnext''.bind_ok_inv (hall _) fun _ => regular_pure _
  obtain ⟨hsql, rfl⟩ := hlast.unique (gives_pure _)
  refine ⟨s₁, r₁, s₂, r₂, s₃, r₃, s₄, r₄, h₁, h₂, h₃, h₄, Except.ok.inj hsql, ?_⟩
  simp only [List.append_nil, List.append_assoc]

end QueryTree
