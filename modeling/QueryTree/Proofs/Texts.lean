import QueryTree.Proofs.Template

/-!
# Texts of nodes

The text of a node is made of the texts of its pieces, in the order in which they are
written (`Renderer.node_written`).  A piece that is a value below has the text that the
value has on its own (`Piece.Written`).  So the text of every node that is rendered
stands in the text of what is asked for (`Renderer.Renders.stands`).

Groups of pieces with a separator between them have their texts with the separator
between them (`Piece.written_separated`).
-/

namespace QueryTree

open Rendering (Gives)

/-- What is related to two lists in a row is two lists in a row. -/
theorem forall₂_append_inv {α β : Type} {R : α → β → Prop} :
    ∀ {as bs : List α} {cs : List β}, List.Forall₂ R (as ++ bs) cs →
      ∃ cs₁ cs₂, List.Forall₂ R as cs₁ ∧ List.Forall₂ R bs cs₂ ∧ cs = cs₁ ++ cs₂
  | [], _, cs, h => ⟨[], cs, .nil, h, rfl⟩
  | a :: as, _, _, .cons ha h => by
      obtain ⟨cs₁, cs₂, h₁, h₂, rfl⟩ := @forall₂_append_inv _ _ _ as _ _ h
      exact ⟨_ :: cs₁, cs₂, .cons ha h₁, h₂, rfl⟩

theorem Sql.write_append (p : String) (s t : Sql) :
    Sql.write p (s ++ t) = Sql.write p s ++ Sql.write p t := by
  rw [Sql.write, List.map_append, String.join_append, Sql.write, Sql.write]

namespace Renderer

/-- The texts of results in a row. -/
def textOf (parts : List Result) : String := String.join (parts.map (·.sql))

@[simp] theorem textOf_nil : textOf [] = "" := rfl

@[simp] theorem textOf_cons (part : Result) (parts : List Result) :
    textOf (part :: parts) = part.sql ++ textOf parts := by
  rw [textOf, List.map_cons, String.join_cons, textOf]

@[simp] theorem textOf_append (parts more : List Result) :
    textOf (parts ++ more) = textOf parts ++ textOf more := by
  rw [textOf, List.map_append, String.join_append, textOf, textOf]

variable {r : Renderer} {request : Request} {v : Value}

theorem gives_of_render {result : Result} (h : r.render request v = .ok result) :
    ∃ sql recorded, Gives (r.perform v request) (.ok sql) recorded ∧
      result.sql = sql.write r.settings.placeholder := by
  obtain ⟨sql, hsql, htext⟩ := (r.result_eq_ok_iff (r.regular_perform v request)).mp h
  exact ⟨sql, result.binds, hsql, htext⟩

theorem render_of_gives {sql : Sql} {recorded : List Value}
    (h : Gives (r.perform v request) (.ok sql) recorded) :
    r.render request v = .ok (r.written (sql, recorded)) := r.result_of_gives h

end Renderer

/-! ## Texts of pieces -/

/-- The result that a piece has on its own. -/
inductive Piece.Written (r : Renderer) : Piece → Renderer.Result → Prop
  | text (t : String) : Written r (.text t) ⟨t, []⟩
  | literal (v : Value) : Written r (.literal v) ⟨r.settings.placeholder, [v]⟩
  | below {place : Renderer.Place} {v : Value} {result : Renderer.Result} :
    r.render place.request v = .ok result → Written r (.below place v) result

namespace Piece

variable {r : Renderer}

theorem written_of_gives {p : Piece} {s : Sql} {recorded : List Value}
    (h : Gives (p.render r.operands) (.ok s) recorded) : p.Written r (r.written (s, recorded)) := by
  cases p with
  | text t =>
      obtain ⟨hs, rfl⟩ := h.unique (Rendering.gives_pure _)
      obtain rfl := Except.ok.inj hs
      have hwrite : r.written (Sql.ofText t, []) = ⟨t, []⟩ := by
        simp [Renderer.written, Sql.ofText, Sql.write, Sql.writeFragment]
      rw [hwrite]
      exact .text t
  | literal v =>
      obtain ⟨hs, rfl⟩ := h.unique (Rendering.gives_bindLiteral v)
      obtain rfl := Except.ok.inj hs
      have hwrite : r.written ([.placeholder v], [v]) = ⟨r.settings.placeholder, [v]⟩ := by
        simp [Renderer.written, Sql.write, Sql.writeFragment]
      rw [hwrite]
      exact .literal v
  | below place v =>
      rw [render_below, ← r.perform_place] at h
      exact .below (Renderer.render_of_gives h)
  | stop e => cases (h.unique (Rendering.gives_fail e)).1

/-- Pieces in a row have their texts in a row. -/
theorem written_renderAll :
    ∀ {ps : List Piece} {sql : Sql} {recorded : List Value},
      Gives (renderAll r.operands ps) (.ok sql) recorded →
        ∃ parts, List.Forall₂ (Written r) ps parts ∧
          sql.write r.settings.placeholder = Renderer.textOf parts
  | [], _, _, h => by
      obtain ⟨rfl, -⟩ := gives_nil_inv h
      exact ⟨[], .nil, rfl⟩
  | p :: ps, _, _, h => by
      obtain ⟨s, t, s', t', hs, hs', rfl, -⟩ := gives_cons_inv r.steady_operands h
      obtain ⟨parts, hparts, htext⟩ := written_renderAll hs'
      refine ⟨_, .cons (written_of_gives hs) hparts, ?_⟩
      rw [Sql.write_append, htext, Renderer.textOf_cons, Renderer.written]

/-- Some pieces in a row stand with their texts in the text of all. -/
theorem written_within {ps qs : List Piece} {parts : List Renderer.Result}
    (h : List.Forall₂ (Written r) ps parts) (hsegment : qs <:+: ps) :
    ∃ before within after, List.Forall₂ (Written r) qs within ∧
      Renderer.textOf parts = before ++ Renderer.textOf within ++ after := by
  obtain ⟨front, back, rfl⟩ := hsegment
  obtain ⟨fore, aft, hfore, -, rfl⟩ := forall₂_append_inv h
  obtain ⟨before, within, -, hwithin, rfl⟩ := forall₂_append_inv hfore
  exact ⟨_, within, _, hwithin, by rw [Renderer.textOf_append, Renderer.textOf_append]⟩

theorem written_singleton {place : Renderer.Place} {v : Value} {parts : List Renderer.Result}
    (h : List.Forall₂ (Written r) [below place v] parts) :
    ∃ result, r.render place.request v = .ok result ∧ parts = [result] := by
  cases h with
  | cons hp hnil =>
      cases hnil
      cases hp with
      | below hresult => exact ⟨_, hresult, rfl⟩

/-- A value among pieces stands with its text in the text of all. -/
theorem written_below {place : Renderer.Place} {v : Value} {ps : List Piece}
    {parts : List Renderer.Result} (h : List.Forall₂ (Written r) ps parts)
    (hv : .below place v ∈ ps) :
    ∃ within before after, r.render place.request v = .ok within ∧
      Renderer.textOf parts = before ++ within.sql ++ after := by
  obtain ⟨front, back, rfl⟩ := List.append_of_mem hv
  have hsegment : [below place v] <:+: front ++ below place v :: back :=
    ⟨front, back, by rw [List.append_assoc, List.singleton_append]⟩
  obtain ⟨before, _, after, hwithin, htext⟩ := written_within h hsegment
  obtain ⟨result, hresult, rfl⟩ := written_singleton hwithin
  rw [Renderer.textOf_cons, Renderer.textOf_nil, String.append_empty] at htext
  exact ⟨result, before, after, hresult, htext⟩

theorem written_texts {ts : List String} {parts : List Renderer.Result}
    (h : List.Forall₂ (Written r) (ts.map .text) parts) :
    Renderer.textOf parts = String.join ts := by
  induction ts generalizing parts with
  | nil =>
      cases h
      rfl
  | cons t ts ih =>
      cases h with
      | cons ht hrest =>
          cases ht
          rw [Renderer.textOf_cons, ih hrest, String.join_cons]

/-- Groups with a separator between them have their texts with the separator between
them. -/
theorem written_separated {separator : String} :
    ∀ {groups : List (List Piece)} {parts : List Renderer.Result},
      List.Forall₂ (Written r) (separated separator groups) parts →
        ∃ withins, List.Forall₂ (List.Forall₂ (Written r)) groups withins ∧
          Renderer.textOf parts = separator.intercalate (withins.map Renderer.textOf)
  | [], _, h => by
      cases h
      exact ⟨[], .nil, rfl⟩
  | [ps], parts, h => by
      refine ⟨[parts], .cons h .nil, ?_⟩
      rw [List.map_singleton, String.intercalate_singleton]
  | ps :: qs :: rest, _, h => by
      rw [separated_cons] at h
      obtain ⟨within, _, hwithin, hmore, rfl⟩ := forall₂_append_inv h
      cases hmore with
      | cons hseparator hrest =>
          cases hseparator
          obtain ⟨withins, hwithins, htext⟩ := written_separated hrest
          obtain ⟨next, more, rfl⟩ : ∃ next more, withins = next :: more := by
            cases hwithins
            exact ⟨_, _, rfl⟩
          refine ⟨within :: next :: more, .cons hwithin hwithins, ?_⟩
          rw [Renderer.textOf_append, Renderer.textOf_cons, htext, List.map_cons, List.map_cons,
            List.map_cons, String.intercalate_cons_cons, String.append_assoc]

end Piece

namespace Renderer

variable {r : Renderer}

/-! ## Texts of requests and of nodes -/

/-- What is asked for has the texts of its pieces in a row. -/
theorem request_written {request : Request} {v : Value} {result : Result}
    (h : r.render request v = .ok result) :
    ∃ parts, List.Forall₂ (Piece.Written r) (r.pieces v request) parts ∧
      result.sql = textOf parts := by
  obtain ⟨sql, recorded, hsql, htext⟩ := gives_of_render h
  rw [perform_eq] at hsql
  obtain ⟨parts, hparts, hjoined⟩ := Piece.written_renderAll hsql
  exact ⟨parts, hparts, htext.trans hjoined⟩

/-- A node has the texts of its pieces in a row. -/
theorem node_written {place : Place} {v : Value} {n : Node} {result : Result}
    (hn : Node.ofValue v = .ok n) (h : r.render place.request v = .ok result) :
    ∃ parts, List.Forall₂ (Piece.Written r) (r.outline place n).pieces parts ∧
      result.sql = textOf parts := by
  obtain ⟨sql, recorded, hsql, htext⟩ := gives_of_render h
  rw [r.perform_node place hn, full_eq] at hsql
  obtain ⟨s₁, _, s₂, _, s₃, _, s₄, _, h₁, h₂, h₃, h₄, rfl, -⟩ :=
    Outline.gives_inv r.steady_operands hsql
  obtain ⟨lead, hlead, htext₁⟩ := Piece.written_renderAll h₁
  obtain ⟨late, hlate, htext₂⟩ := Piece.written_renderAll h₂
  obtain ⟨early, hearly, htext₃⟩ := Piece.written_renderAll h₃
  obtain ⟨rest, hrest, htext₄⟩ := Piece.written_renderAll h₄
  refine ⟨lead ++ late ++ early ++ rest, ?_, ?_⟩
  · exact List.rel_append (List.rel_append (List.rel_append hlead hlate) hearly) hrest
  · rw [htext, Sql.write_append, Sql.write_append, Sql.write_append, htext₁, htext₂, htext₃,
      htext₄, textOf_append, textOf_append, textOf_append]

/-- The text of a node that is rendered stands in the text of what is asked for. -/
theorem Renders.stands {request : Request} {v : Value} {result : Result}
    (h : r.render request v = .ok result) {place : Place} {n : Node}
    (hn : r.Renders v request place n) :
    ∃ w within before after, Node.ofValue w = .ok n ∧ r.render place.request w = .ok within ∧
      result.sql = before ++ within.sql ++ after := by
  induction hn with
  | asked hw hn =>
      obtain ⟨parts, hparts, htext⟩ := request_written h
      obtain ⟨within, before, after, hwithin, heq⟩ := Piece.written_below hparts hw
      exact ⟨_, within, before, after, hn, hwithin, htext.trans heq⟩
  | operand _ hw hn ih =>
      obtain ⟨u, outer, before, after, hu, houter, htext⟩ := ih
      obtain ⟨parts, hparts, hsql⟩ := node_written hu houter
      obtain ⟨within, fore, aft, hwithin, heq⟩ := Piece.written_below hparts hw
      refine ⟨_, within, before ++ fore, aft ++ after, hn, hwithin, ?_⟩
      rw [htext, hsql, heq]
      simp only [String.append_assoc]

end Renderer

end QueryTree
