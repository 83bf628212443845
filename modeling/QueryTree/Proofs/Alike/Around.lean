import QueryTree.Proofs.Frame
import QueryTree.Proofs.KeyOrder.Reordering

/-!
# Trees around conditions

Conditions are found under a key of a statement or of a join, under a key of a WHERE
clause, or as the operands of a WHERE clause (`Handler.conditionKey?`).  Two trees are the
same *around* some conditions if one has the first and the other the second in such a
place, at any depth, and they are the same elsewhere (`Around`).

The main statement is `Renderer.Around.agree`.  Conditions that a renderer lays out as the
same pieces may take each other's place in any tree.  This is so node by node up to the
root (`Around.alike`): the nodes that hold the conditions have outlines alike, and a node
above them renders what is below it alike.
-/

namespace QueryTree

open Renderer (Place)

/-- The key under which a handler finds conditions. -/
def Handler.conditionKey? : Handler → Option String
  | .select | .update | .delete | .whereClause => some "where"
  | .join => some "on"
  | _ => none

/-- Nodes that are the same around the conditions `v` and `w`. -/
inductive Around (r : Renderer) (v w : Value) : Place → Node → Node → Prop
  | under {place : Place} {n : Node} {h : Handler} {key : String} :
    (r.table place).lookup n.tag = some h → h.conditionKey? = some key →
      n.fields.get? key = some v → Around r v w place n { n with fields := n.fields.set key w }
  | operands {place : Place} {n : Node} {args : List Value} :
    (r.table place).lookup n.tag = some .whereClause → n.tag ≠ Keyword.list.tag →
      n.fields.get? "where" = none → v = .list n.args → w = .list args →
        Around r v w place n { n with args := args }
  | within {place : Place} {n m : Node} {N : Place → Node → Node → Prop} :
    (∀ {q a b}, N q a b → Around r v w q a b) → n.tag = m.tag → n.args.length = m.args.length →
      (∀ h, (r.table place).lookup n.tag = some h → OperandsAlike Eq N h n m) →
        Around r v w place n m

variable {r : Renderer} {v w : Value} {place : Place} {n m : Node}

theorem Around.tagged : Tagged (Around r v w) where
  tag_eq h := by
    cases h with
    | under => rfl
    | operands => rfl
    | within _ htag => exact htag
  length_eq h hlist := by
    cases h with
    | under => rfl
    | operands _ hne => exact absurd hlist hne
    | within _ _ hlength => exact hlength

/-! ## The node that holds the conditions -/

theorem FieldAlike.of_eq {R : Value → Value → Prop} (hR : ∀ u, R u u) {key : String}
    (h : n.fields.get? key = m.fields.get? key) : FieldAlike R key n m := by
  cases hn : n.fields.get? key with
  | none => exact .absent hn (h.symm.trans hn)
  | some u => exact .present hn (h.symm.trans hn) (hR u)

section

variable {s : Settings} {N : Place → Node → Node → Prop}

open Outline in
/-- A node whose conditions are replaced has an outline alike. -/
theorem related_under (hmatch : ConditionsMatch s Eq N v w) (hN : Tagged N) {h : Handler}
    {key : String} (hkey : h.conditionKey? = some key) (hget : n.fields.get? key = some v) :
    (h.outline s n).Related (Piece.Alike Eq N)
      (h.outline s { n with fields := n.fields.set key w }) := by
  have hset : (n.fields.set key w).get? key = some w := by rw [Fields.get?_set, if_pos rfl]
  have hheld : FieldAlike (ConditionsMatch s Eq N) key n { n with fields := n.fields.set key w } :=
    .present hget hset hmatch
  have hother : ∀ {R : Value → Value → Prop}, (∀ u, R u u) → ∀ {other}, other ≠ key →
      FieldAlike R other n { n with fields := n.fields.set key w } := by
    intro R hR other hne
    exact .of_eq hR (by rw [Fields.get?_set, if_neg hne])
  cases h with
  | select =>
      obtain rfl := Option.some.inj hkey
      exact alike_select hN (hother .same (by decide)) (hother .same (by decide))
        (hother Piece.joinsAlike_refl (by decide)) hheld (hother .same (by decide))
        (hother .same (by decide))
  | update =>
      obtain rfl := Option.some.inj hkey
      exact alike_update hN (hother .same (by decide)) (hother .same (by decide)) hheld
  | delete =>
      obtain rfl := Option.some.inj hkey
      exact alike_delete hN (hother .same (by decide)) hheld
  | join =>
      obtain rfl := Option.some.inj hkey
      exact alike_join (fun _ => rfl) rfl (hother .same (by decide)) hheld
        (hother .same (by decide))
  | whereClause =>
      obtain rfl := Option.some.inj hkey
      refine related_straight (.cons (.text _) ?_)
      rw [hget, hset]
      exact hmatch.pieces
  | _ => cases hkey

/-- A WHERE clause whose operands are replaced has an outline alike. -/
theorem related_operands {args : List Value} (hmatch : ConditionsMatch s Eq N (.list n.args) (.list args))
    (habsent : n.fields.get? "where" = none) :
    (Handler.whereClause.outline s n).Related (Piece.Alike Eq N)
      (Handler.whereClause.outline s { n with args := args }) := by
  refine Outline.related_straight (.cons (.text _) ?_)
  rw [habsent]
  exact hmatch.pieces

end

/-! ## The nodes around it -/

/-- Nodes are rendered alike if their outlines are alike and related nodes below are
rendered alike. -/
theorem Renderer.alike_full {N : Place → Node → Node → Prop}
    (houtline : (r.outline place n).Related (Piece.Alike Eq N) (r.outline place m))
    (hbelow : ∀ {q a b}, N q a b → Rendering.Alike Eq (r.full q a) (r.full q b)) :
    Rendering.Alike Eq (r.full place n) (r.full place m) := by
  rw [full_eq, full_eq]
  exact Outline.alike_render houtline fun _ hpq =>
    hpq.render (fun _ => rfl) fun _ _ hab => hbelow hab

/-- Nodes that are the same around conditions are rendered alike, if the conditions are
laid out alike. -/
theorem Around.alike (hmatch : ∀ N, ConditionsMatch r.settings Eq N v w)
    (h : Around r v w place n m) : Rendering.Alike Eq (r.full place n) (r.full place m) := by
  have hnone : Tagged fun _ _ _ => False := ⟨False.elim, False.elim⟩
  induction h with
  | @under place n h key hlookup hkey hget =>
      have houtline : r.outline place { n with fields := n.fields.set key w } =
          h.outline r.settings { n with fields := n.fields.set key w } := Renderer.outline_eq hlookup
      refine Renderer.alike_full (N := fun _ _ _ => False) ?_ False.elim
      rw [Renderer.outline_eq hlookup, houtline]
      exact related_under (hmatch _) hnone hkey hget
  | @operands place n args hlookup _ habsent hv hw =>
      have houtline : r.outline place { n with args := args } =
          Handler.whereClause.outline r.settings { n with args := args } := Renderer.outline_eq hlookup
      refine Renderer.alike_full (N := fun _ _ _ => False) ?_ False.elim
      rw [Renderer.outline_eq hlookup, houtline]
      exact related_operands (hv ▸ hw ▸ hmatch _) habsent
  | @within place n m N hN htag hlength hoperands ih =>
      refine Renderer.alike_full ?_ ih
      have htagged : Tagged N :=
        ⟨fun hab => Around.tagged.tag_eq (hN hab), fun hab => Around.tagged.length_eq (hN hab)⟩
      rw [Renderer.outline, Renderer.outline, ← htag]
      cases hlookup : (r.table place).lookup n.tag with
      | none => exact Outline.related_stop Piece.fair_alike rfl
      | some handler =>
          exact (hoperands handler hlookup).outline htagged (fun _ => rfl) r.settings htag hlength

/-! ## Requests -/

namespace Renderer

/-- Values that are the same around the conditions `v` and `w`, for what is asked for. -/
inductive Around (r : Renderer) (v w : Value) : Request → Value → Value → Prop
  | here : Around r v w .conditions v w
  | within {N : Place → Node → Node → Prop} {request : Request} {v' w' : Value} :
    (∀ {q a b}, N q a b → QueryTree.Around r v w q a b) → RequestAlike N request v' w' →
      Around r v w request v' w'

/-- Conditions that are laid out alike may take each other's place in any tree. -/
theorem Around.agree (hmatch : ∀ N, ConditionsMatch r.settings Eq N v w) {request : Request}
    {v' w' : Value} (h : r.Around v w request v' w') :
    Agree Eq (r.render request v') (r.render request w') := by
  have hperform : Rendering.Alike Eq (r.perform v' request) (r.perform w' request) := by
    rw [perform_eq, perform_eq]
    cases h with
    | here =>
        have hpieces := (hmatch fun _ _ _ => False).pieces
        refine Piece.alike_renderAll (List.Forall₂.imp ?_ (.cons (.text _) hpieces))
        exact fun _ _ hpq => hpq.render (fun _ => rfl) fun _ _ hab => hab.elim
    | @within N request v' w' hN hrequest =>
        have htagged : Tagged N := ⟨fun hab => QueryTree.Around.tagged.tag_eq (hN hab),
          fun hab => QueryTree.Around.tagged.length_eq (hN hab)⟩
        refine Piece.alike_renderAll ((hrequest.pieces htagged fun _ => rfl).imp fun _ _ hpq => ?_)
        exact hpq.render (fun _ => rfl) fun _ _ hab => (hN hab).alike hmatch
  exact r.agree_of_alike hperform

end Renderer

end QueryTree
