import QueryTree.Proofs.Frame
import QueryTree.Proofs.KeyOrder.Reordering

/-!
# The order of keys does not matter

A value and a reordering of it (`Value.Reordered`) are rendered alike.  A handler
looks at named operands by their keys only, so it makes outlines of reordered nodes
that differ in nothing but the values below (`Node.Reordered.outline`), and those
are reorderings again.

One thing is written as it is: the name of an alias.  A name that is a map would
show its order.  So the names of the aliases that are rendered have to be texts
(`Renderer.PlainNames`).

The main statement is `Renderer.perform_reordered`.
-/

namespace QueryTree

open Renderer (Place)

/-! ## Conditions -/

namespace Condition

open Value (Reordered reordered_refl)

variable {v w : Value}

theorem Headed.reordered {c : Connective} {items : List Value} (h : Headed v c items)
    (hvw : Reordered v w) : ∃ items', Headed w c items' ∧ List.Forall₂ Reordered items items' := by
  refine ⟨w.operands, headed_of_tag? (hvw.tag?_eq ▸ h.tag?), ?_⟩
  rw [← h.operands_eq]
  exact hvw.operands

theorem headed_of_reordered {c : Connective} {items' : List Value} (h : Headed w c items')
    (hvw : Reordered v w) : ∃ items, Headed v c items :=
  ⟨v.operands, headed_of_tag? (hvw.tag?_eq.trans h.tag?)⟩

theorem unheaded_of_reordered (hvw : Reordered v w) (h : ∀ c items, ¬ Headed v c items) :
    ∀ c items, ¬ Headed w c items := by
  intro c items hw
  obtain ⟨items', hv⟩ := headed_of_reordered hw hvw
  exact h c items' hv

theorem related_ofMember (hvw : Reordered v w)
    (hgroup : ∀ {c items items'}, Headed v c items → List.Forall₂ Reordered items items' →
      Related Reordered (ofItems c items) (ofItems c items')) :
    Related Reordered (ofMember v) (ofMember w) := by
  rcases ofMember_cases v with ⟨c, items, hv, heq⟩ | ⟨hnot, heq⟩
  · obtain ⟨items', hw, hitems⟩ := hv.reordered hvw
    rw [heq, ofMember_headed hw]
    exact hgroup hv hitems
  · rw [heq, ofMember_unheaded (unheaded_of_reordered hvw hnot), ← hvw.isClause_eq]
    split
    · exact .atom hvw
    · exact .invalid v w

/-- Reordered items are read as related groups. -/
theorem related_ofItems (c : Connective) (vs : List Value) {ws : List Value}
    (h : List.Forall₂ Reordered vs ws) : Related Reordered (ofItems c vs) (ofItems c ws) := by
  match vs, h with
  | [], .nil => exact .group c .nil
  | v :: rest, @List.Forall₂.cons _ _ _ _ w _ rest' hvw hrest =>
      have hall : List.Forall₂ Reordered (v :: rest) (w :: rest') := .cons hvw hrest
      have hlist : Reordered (.list (v :: rest)) (.list (w :: rest')) :=
        .list (Value.itemsReordered_of_forall₂ hall)
      rw [ofItems_cons, ofItems_cons, ← hvw.isClause_eq]
      split
      · have hmem : ∀ u ∈ v :: rest, u ∈ v :: rest := fun _ hu => hu
        refine .group c (membersRelated_of_forall₂ ?_)
        refine List.forall₂_map_left_iff.mpr (List.forall₂_map_right_iff.mpr ?_)
        refine ((List.forall₂_and_left _ _).mpr ⟨hmem, hall⟩).imp fun u u' ⟨hu, huu'⟩ => ?_
        refine related_ofMember huu' fun {c' items items'} hv hitems => ?_
        have hlt : sizeOf items < sizeOf (v :: rest) :=
          Nat.lt_trans hv.sizeOf_lt (List.sizeOf_lt_of_mem hu)
        exact related_ofItems c' items hitems
      · -- the items of a flat member are one sequence again, headed or not
        refine .group c (.cons ?_ .nil)
        refine related_ofMember hlist fun {c' items items'} hv hitems => ?_
        have hlt : sizeOf items < sizeOf (v :: rest) := hv.sizeOf_lt_of_list
        exact related_ofItems c' items hitems
termination_by sizeOf vs

/-- A reordering is read as a related tree. -/
theorem readRelated (h : Reordered v w) : ReadRelated Reordered v w := by
  rcases ofValue_cases v with ⟨c, items, hv, -⟩ | ⟨items, hv, hnot, heq⟩ |
    ⟨tag, args, fields, rfl, hnot, heq⟩ | heq
  · obtain ⟨items', hw, hitems⟩ := hv.reordered h
    exact .trees (ofValue_headed hv) (ofValue_headed hw) (related_ofItems c items hitems)
  · have hseq := h.sequence?
    rw [hv] at hseq
    cases hw : w.sequence? with
    | none =>
        rw [hw] at hseq
        cases hseq
    | some items' =>
        rw [hw] at hseq
        obtain ⟨hitems⟩ := hseq
        exact .trees heq (ofValue_untagged hw (unheaded_of_reordered h hnot))
          (related_ofItems .and items hitems)
  · have hnot' := unheaded_of_reordered h hnot
    cases h with
    | same => exact .trees heq heq (.group .and (.cons (.atom (.same _)) .nil))
    | node _ hs hnodup hfields hperm =>
        exact .trees heq (ofValue_node hnot')
          (.group .and (.cons (.atom (.node tag hs hnodup hfields hperm)) .nil))
  · cases h with
    | same => exact .refused heq heq
    | list => cases heq
    | tuple => cases heq
    | map => exact .refused rfl rfl
    | node => cases heq

end Condition

/-! ## Shapes -/

namespace Node.Reordered

variable {n m : Node}

theorem same_shape (h : n.Reordered m) (key : String) :
    Shape.Same (n.fields.get key) (m.fields.get key) :=
  ⟨(h.get key).tag?_eq, fun _ => (h.get key).operands.length_eq⟩

theorem fields_imp (h : n.Reordered m) (key : String) {Q : Value → Value → Prop}
    (himp : ∀ {v w}, Value.Reordered v w → Q v w) :
    Option.Rel Q (n.fields.get? key) (m.fields.get? key) := by
  have hkey := h.fields key
  generalize n.fields.get? key = v at hkey ⊢
  generalize m.fields.get? key = w at hkey ⊢
  cases hkey with
  | none => exact .none
  | some hvw => exact .some (himp hvw)

theorem contains_eq (h : n.Reordered m) (key : String) :
    n.fields.contains key = m.fields.contains key := by
  have hkey := h.fields key
  rw [Fields.contains, Fields.contains]
  generalize n.fields.get? key = v at hkey ⊢
  generalize m.fields.get? key = w at hkey ⊢
  cases hkey <;> rfl

/-- Assignments that are reorderings on both sides. -/
def PairR (p q : Value × Value) : Prop := Value.Reordered p.1 q.1 ∧ Value.Reordered p.2 q.2

theorem pair? {v w : Value} (h : Value.Reordered v w) :
    Option.Rel PairR (Shape.pair? v) (Shape.pair? w) := by
  have hseq := h.sequence?
  rw [Shape.pair?, Shape.pair?]
  generalize v.sequence? = vs at hseq ⊢
  generalize w.sequence? = ws at hseq ⊢
  cases hseq with
  | none => exact .none
  | some hs =>
      cases hs with
      | nil => exact .none
      | cons h₁ hs =>
          cases hs with
          | nil => exact .none
          | cons h₂ hs =>
              cases hs with
              | cons _ _ => exact .none
              | nil =>
                  simp only [h₁.isNodeLike_eq, h₂.isNodeLike_eq]
                  split
                  · exact .some ⟨h₁, h₂⟩
                  · exact .none

theorem pair?_isSome_eq {v w : Value} (h : Value.Reordered v w) :
    (Shape.pair? v).isSome = (Shape.pair? w).isSome := by
  have hpair := pair? h
  generalize Shape.pair? v = p at hpair ⊢
  generalize Shape.pair? w = q at hpair ⊢
  cases hpair <;> rfl

theorem assignments (h : n.Reordered m) :
    List.Forall₂ PairR (Statement.assignments n) (Statement.assignments m) :=
  List.rel_filterMap (fun _ _ hvw => pair? hvw) (h.get "set").getD_sequence?

theorem shape_select (h : n.Reordered m) : Shape.select n = Shape.select m :=
  Shape.select_congr (h.same_shape "columns") (h.same_shape "from")
    (h.fields_imp "where" Value.Reordered.isConditions_eq)
    (h.fields_imp "group_by" Value.Reordered.isSequence_eq)
    (h.fields_imp "order_by" Value.Reordered.isSequence_eq)

theorem shape_insert (h : n.Reordered m) : Shape.insert n = Shape.insert m :=
  Shape.insert_congr (h.same_shape "into") (h.contains_eq "columns") (h.same_shape "columns")
    (h.same_shape "values")

theorem shape_update (h : n.Reordered m) : Shape.update n = Shape.update m := by
  refine Shape.update_congr (h.same_shape "table") ?_
  have hseq := (h.get "set").sequence?
  generalize (n.fields.get "set").sequence? = vs at hseq ⊢
  generalize (m.fields.get "set").sequence? = ws at hseq ⊢
  cases hseq with
  | none => exact .none
  | some hs => exact .some (hs.imp fun _ _ hvw => pair?_isSome_eq hvw)

end Node.Reordered

/-! ## Pieces -/

/-- Pieces that differ in the order of entries below. -/
inductive Piece.Reordered : Piece → Piece → Prop
  | text (t : String) : Reordered (.text t) (.text t)
  | literal {v w : Value} : Value.Reordered v w → Reordered (.literal v) (.literal w)
  | below {place : Place} {v w : Value} :
    Value.Stand none v w → Reordered (.below place v) (.below place w)
  | stop {e e' : RenderError} : e.kind? = e'.kind? → Reordered (.stop e) (.stop e')

namespace Piece

theorem fair_reordered : Fair Reordered := ⟨.text, .stop⟩

variable {place : Place} {v w : Value}

theorem at_reordered (h : Value.Reordered v w) : At Reordered place v w :=
  .below (Node.stand_of_reordered none h)

theorem allAt_reordered {vs ws : List Value} (h : List.Forall₂ Value.Reordered vs ws) :
    List.Forall₂ (At Reordered place) vs ws := h.imp fun _ _ hvw => at_reordered hvw

theorem readRelated_reordered (h : Value.Reordered v w) :
    Condition.ReadRelated (At Reordered .condition) v w :=
  (Condition.readRelated h).imp at_reordered

theorem orderRelated_reordered (h : Value.Reordered v w) : OrderRelated Reordered v w := by
  have hdirection : Clause.direction? v = Clause.direction? w := by
    rw [Clause.direction?, Clause.direction?, h.tag?_eq]
  cases hd : Clause.direction? v with
  | none => exact .plain hd (hdirection ▸ hd) (at_reordered h)
  | some d => exact .directed hd (hdirection ▸ hd) (allAt_reordered h.operands)

/-! ### Joins -/

/-- A join made of a map stands for the same node up to order. -/
theorem stand_set {entries entries' : Fields}
    (h : ∀ key, Option.Rel Value.Reordered (entries.get? key) (entries'.get? key)) (w : Value) :
    Value.Stand none (.map (entries.set "type" w)) (.map (entries'.set "type" w)) := by
  refine Node.stand_ofMap none fun key => ?_
  rw [Fields.get?_set, Fields.get?_set]
  split
  · exact .some (.same w)
  · exact h key

/-- A reordering is no join either, or a join of a reordering. -/
theorem asJoin_reordered (h : Value.Reordered v w) :
    (∃ f, Clause.asJoin v = .error f ∧ Clause.asJoin w = .error f) ∨
      ∃ v' w', Clause.asJoin v = .ok v' ∧ Clause.asJoin w = .ok w' ∧ At Reordered .tree v' w' := by
  cases h with
  | same =>
      cases hv : Clause.asJoin v with
      | error f => exact Or.inl ⟨f, rfl, rfl⟩
      | ok v' => exact Or.inr ⟨v', v', rfl, rfl, at_reordered (.same v')⟩
  | list => exact Or.inl ⟨_, rfl, rfl⟩
  | tuple => exact Or.inl ⟨_, rfl, rfl⟩
  | map hnodup h hperm =>
      exact Or.inr ⟨_, _, rfl, rfl, .below (stand_set (Value.get?_reordered hnodup h hperm) _)⟩
  | node tag hs hnodup h hperm =>
      rw [Clause.asJoin, Clause.asJoin]
      split
      · exact Or.inr ⟨_, _, rfl, rfl, at_reordered (.node tag hs hnodup h hperm)⟩
      · exact Or.inl ⟨_, rfl, rfl⟩

theorem asJoins_reordered {vs ws : List Value} (h : List.Forall₂ Value.Reordered vs ws) :
    (∃ f, Clause.asJoins vs = .error f ∧ Clause.asJoins ws = .error f) ∨
      ∃ vs' ws', Clause.asJoins vs = .ok vs' ∧ Clause.asJoins ws = .ok ws' ∧
        List.Forall₂ (At Reordered .tree) vs' ws' := by
  induction h with
  | nil => exact Or.inr ⟨[], [], rfl, rfl, .nil⟩
  | cons h _ ih =>
      rw [Clause.asJoins, Clause.asJoins]
      rcases asJoin_reordered h with ⟨f, hv, hw⟩ | ⟨v', w', hv, hw, hat⟩
      · rw [hv, hw]
        exact Or.inl ⟨f, rfl, rfl⟩
      · rcases ih with ⟨f, hvs, hws⟩ | ⟨vs', ws', hvs, hws, hall⟩
        · rw [hv, hw, hvs, hws]
          exact Or.inl ⟨f, rfl, rfl⟩
        · rw [hv, hw, hvs, hws]
          exact Or.inr ⟨v' :: vs', w' :: ws', rfl, rfl, .cons hat hall⟩

/-- Values that are one join, if they are joins. -/
theorem joinList_one (hv : (v.isMap || v.isNodeLike) = true) :
    Clause.joinList v = (Clause.asJoin v).map ([·]) := if_pos hv

/-- Values that are a sequence of joins, if they are joins. -/
theorem joinList_items (hv : (v.isMap || v.isNodeLike) = false) :
    Clause.joinList v = match v.sequence?.getD [] with
      | [] => .error .joinNotTree
      | items => Clause.asJoins items := by
  rw [Clause.joinList, if_neg (by rw [hv]; exact Bool.false_ne_true)]
  cases v.sequence? with
  | none => rfl
  | some items => cases items <;> rfl

theorem joinsRelated_reordered (h : Value.Reordered v w) : JoinsRelated Reordered v w := by
  have hone : (v.isMap || v.isNodeLike) = (w.isMap || w.isNodeLike) := by
    rw [h.isMap_eq, h.isNodeLike_eq]
  cases hv : v.isMap || v.isNodeLike with
  | true =>
      have hv' := joinList_one hv
      have hw' := joinList_one (hone ▸ hv)
      rcases asJoin_reordered h with ⟨f, hf, hf'⟩ | ⟨v', w', hj, hj', hat⟩
      · rw [hf] at hv'
        rw [hf'] at hw'
        exact .refused hv' hw'
      · rw [hj] at hv'
        rw [hj'] at hw'
        exact .joins hv' hw' (.cons hat .nil)
  | false =>
      have hv' := joinList_items hv
      have hw' := joinList_items (hone ▸ hv)
      have hitems := h.getD_sequence?
      generalize v.sequence?.getD [] = vs at hitems hv'
      generalize w.sequence?.getD [] = ws at hitems hw'
      cases hitems with
      | nil => exact .refused hv' hw'
      | cons h hs =>
          rcases asJoins_reordered (.cons h hs) with ⟨f, hf, hf'⟩ | ⟨vs', ws', hj, hj', hall⟩
          · exact .refused (hv'.trans hf) (hw'.trans hf')
          · exact .joins (hv'.trans hj) (hw'.trans hj') hall

end Piece

/-! ## Names -/

namespace Identifier

/-- Segments in another order of entries are the same texts, or not all texts. -/
theorem texts_reordered {vs ws : List Value} (h : List.Forall₂ Value.Reordered vs ws) :
    (∃ names, texts vs = .ok names ∧ texts ws = .ok names) ∨
      ∃ f f', texts vs = .error f ∧ texts ws = .error f' := by
  induction h with
  | nil => exact Or.inl ⟨[], rfl, rfl⟩
  | @cons v w vs ws hvw _ ih =>
      by_cases hstr : ∃ t, v = .str t
      · obtain ⟨t, rfl⟩ := hstr
        obtain rfl := hvw.eq_of_str
        rw [texts, texts]
        rcases ih with ⟨names, hv, hw⟩ | ⟨f, f', hv, hw⟩
        · rw [hv, hw]
          exact Or.inl ⟨t :: names, rfl, rfl⟩
        · rw [hv, hw]
          exact Or.inr ⟨f, f', rfl, rfl⟩
      · have hnot : ∀ {u : Value} (us : List Value), (∀ t, u ≠ .str t) →
            texts (u :: us) = .error (.segmentNotText u) := by
          intro u us hu
          cases u with
          | str t => exact absurd rfl (hu t)
          | _ => rfl
        have hv := hnot vs fun t ht => hstr ⟨t, ht⟩
        have hw := hnot ws fun t ht => hstr ⟨t, (hvw.str_iff t).mpr ht⟩
        exact Or.inr ⟨_, _, hv, hw⟩

theorem render_reordered {vs ws : List Value} (quotes : Quotes) (separator : String)
    (h : List.Forall₂ Value.Reordered vs ws) :
    (∃ t, render quotes separator vs = .ok t ∧ render quotes separator ws = .ok t) ∨
      ∃ f f', render quotes separator vs = .error f ∧ render quotes separator ws = .error f' := by
  rcases texts_reordered h with ⟨names, hv, hw⟩ | ⟨f, f', hv, hw⟩
  · have hrender : render quotes separator vs = render quotes separator ws := by
      rw [render, render, hv, hw]
    rw [hrender]
    cases render quotes separator ws with
    | ok t => exact Or.inl ⟨t, rfl, rfl⟩
    | error f => exact Or.inr ⟨f, f, rfl, rfl⟩
  · rw [render, render, hv, hw]
    exact Or.inr ⟨f, f', rfl, rfl⟩

end Identifier

/-! ## Outlines -/

namespace Node.Reordered

variable {n m : Node}

theorem items (h : n.Reordered m) (key : String) :
    (∃ vs ws, Clause.items n key = .ok vs ∧ Clause.items m key = .ok ws ∧
      List.Forall₂ Value.Reordered vs ws) ∨
      ∃ f f', Clause.items n key = .error f ∧ Clause.items m key = .error f' := by
  have hkey := h.fields key
  rw [Clause.items, Clause.items]
  generalize n.fields.get? key = v at hkey ⊢
  generalize m.fields.get? key = w at hkey ⊢
  cases hkey with
  | none => exact Or.inl ⟨_, _, rfl, rfl, h.args⟩
  | @some v w hvw =>
      have hseq := hvw.sequence?
      dsimp only
      generalize v.sequence? = vs at hseq ⊢
      generalize w.sequence? = ws at hseq ⊢
      cases hseq with
      | none => exact Or.inr ⟨_, _, rfl, rfl⟩
      | some hs => exact Or.inl ⟨_, _, rfl, rfl, hs⟩

open Piece Outline in
theorem outline_ofItems (h : n.Reordered m) (key : String) {pieces : List Value → List Piece}
    (hpieces : ∀ {vs ws}, List.Forall₂ Value.Reordered vs ws →
      List.Forall₂ Piece.Reordered (pieces vs) (pieces ws)) :
    (ofItems n key pieces).Related Piece.Reordered (ofItems m key pieces) := by
  apply related_ofItems fair_reordered
  rcases h.items key with ⟨vs, ws, hn, hm, hs⟩ | hrefused
  · exact Or.inl ⟨vs, ws, hn, hm, hpieces hs⟩
  · exact Or.inr hrefused

theorem whereValue (h : n.Reordered m) :
    Value.Reordered ((n.fields.get? "where").getD (.list n.args))
      ((m.fields.get? "where").getD (.list m.args)) := by
  have hkey := h.fields "where"
  generalize n.fields.get? "where" = v at hkey ⊢
  generalize m.fields.get? "where" = w at hkey ⊢
  cases hkey with
  | none => exact .list (Value.itemsReordered_of_forall₂ h.args)
  | some hvw => exact hvw

end Node.Reordered

open Piece Outline in
/-- A handler makes outlines of reordered nodes that differ in the order of entries
below.  If it writes an alias, the name has to be a text. -/
theorem Node.Reordered.handler_outline {n m : Node} (h : n.Reordered m) (s : Settings)
    (handler : Handler)
    (hname : handler = .aliased → n.fields.get "as" = .null ∨ ∃ t, n.fields.get "as" = .str t) :
    (handler.outline s n).Related Piece.Reordered (handler.outline s m) := by
  have hR := fair_reordered
  have hwhere : List.Forall₂ (List.Forall₂ Piece.Reordered) (whereGroups s n) (whereGroups s m) :=
    related_whereGroups hR (h.fields_imp "where" readRelated_reordered)
  have hget : ∀ {place : Place} (key : String),
      At Piece.Reordered place (n.fields.get key) (m.fields.get key) := fun key =>
    at_reordered (h.get key)
  have hargs := h.args
  cases handler with
  | select =>
      refine related_select hR h.shape_select (hget "columns") (hget "from") ?_ hwhere ?_ ?_
      · exact related_joinGroups hR (h.fields_imp "join" joinsRelated_reordered)
      · exact related_groupingGroups hR
          (h.fields_imp "group_by" fun hvw => allAt_reordered hvw.getD_sequence?)
      · refine related_orderingGroups hR (h.fields_imp "order_by" fun hvw => ?_)
        exact hvw.getD_sequence?.imp fun _ _ hitem => orderRelated_reordered hitem
  | insert =>
      exact related_insert hR h.shape_insert (hget "into")
        (related_insertColumns hR (h.fields_imp "columns" at_reordered)) (hget "values")
  | update =>
      refine related_update hR h.shape_update (hget "table") ?_ hwhere
      exact h.assignments.imp fun _ _ hpq => ⟨at_reordered hpq.1, at_reordered hpq.2⟩
  | delete => exact related_delete hR (Shape.delete_congr (h.same_shape "from")) (hget "from") hwhere
  | whereClause => exact related_whereClause hR (readRelated_reordered h.whereValue)
  | orderBy =>
      refine h.outline_ofItems "order_by" fun hs => ?_
      exact related_orderItems hR (hs.imp fun _ _ hitem => orderRelated_reordered hitem)
  | groupBy =>
      exact h.outline_ofItems "group_by" fun hs => related_groupItems hR (allAt_reordered hs)
  | join =>
      exact related_join hR hargs.length_eq (hget "tablespec") (h.get "tablespec").isPresent_eq
        (related_conditions hR (readRelated_reordered (h.get "on"))) (h.get "on").isPresent_eq
        (hget "using") (h.get "using").isPresent_eq
  | list => exact related_listed hR (allAt_reordered hargs)
  | aliased =>
      refine related_aliased hR (hget "ident") (h.get "ident").isPresent_eq ?_
      have has := h.get "as"
      generalize m.fields.get "as" = name at has ⊢
      rcases hname rfl with hnull | ⟨t, ht⟩
      · rw [hnull] at has ⊢
        cases has
        rfl
      · rw [ht] at has ⊢
        exact has.eq_of_str.symm
  | name => exact related_name hR (Identifier.render_reordered _ _ hargs)
  | literal => exact related_literal hR (hargs.imp fun _ _ hvw => .literal hvw)
  | always => exact related_text hR _
  | never => exact related_text hR _
  | comparison => exact related_comparison hR h.tag_eq (allAt_reordered hargs)
  | membership =>
      generalize hn : n.args = vs at hargs
      generalize hm : m.args = ws at hargs
      cases hargs with
      | nil => exact related_unfielded hR hn hm
      | cons hfield hvalues =>
          exact related_membership hR h.tag_eq hn hm (at_reordered hfield) (allAt_reordered hvalues)
  | constant t => exact related_text hR t
  | call function => exact related_call hR function (allAt_reordered hargs)

open Rendering Renderer in
/-- Reordered pieces are rendered alike if the nodes below are. -/
theorem Piece.Reordered.render {r : Renderer} {p q : Piece} (h : Piece.Reordered p q)
    (hbelow : ∀ {place u k k'}, p = .below place u → Node.ofValue u = .ok k → k.Reordered k' →
      Rendering.Alike Value.Reordered (r.full place k) (r.full place k')) :
    Rendering.Alike Value.Reordered (p.render r.operands) (q.render r.operands) := by
  cases h with
  | text t => exact alike_pure (.cons (.text t) .nil)
  | literal h => exact alike_bindLiteral h
  | stop h => exact alike_fail h
  | below h =>
      rw [Piece.render_below, Piece.render_below]
      cases h with
      | nodes hv hw hn =>
          rw [r.operands_at_ok _ hv, r.operands_at_ok _ hw]
          exact hbelow rfl hv hn
      | malformed hv hw =>
          rw [operands_at, operands_at, nodeOf_error hv, nodeOf_error hw, fault_bind, fault_bind]
          exact alike_fail rfl

namespace Renderer

/-- The names of the aliases that are rendered are texts, if they are there. -/
def PlainNames (r : Renderer) (request : Request) (v : Value) : Prop :=
  ∀ place n, r.Renders v request place n → (r.table place).lookup n.tag = some .aliased →
    n.fields.get "as" = .null ∨ ∃ t, n.fields.get "as" = .str t

variable {r : Renderer} {request : Request} {v w : Value}

theorem PlainNames.outline (hnames : r.PlainNames request v) {place : Place} {n m : Node}
    (hn : r.Renders v request place n) (h : n.Reordered m) :
    (r.outline place n).Related Piece.Reordered (r.outline place m) := by
  rw [Renderer.outline, Renderer.outline, ← h.tag_eq]
  cases hlookup : (r.table place).lookup n.tag with
  | none => exact Outline.related_stop Piece.fair_reordered rfl
  | some handler =>
      refine h.handler_outline r.settings handler fun heq => ?_
      exact hnames place n hn (heq ▸ hlookup)

/-- A node that is rendered and a reordering of it are rendered alike. -/
theorem PlainNames.full (hnames : r.PlainNames request v) {place : Place} {n m : Node}
    (hn : r.Renders v request place n) (h : n.Reordered m) :
    Rendering.Alike Value.Reordered (r.full place n) (r.full place m) := by
  refine simulates (N := fun place n m => r.Renders v request place n ∧ n.Reordered m)
    (fun hnm => hnames.outline hnm.1 hnm.2) (fun hnm hp hpq hbelow => ?_) ⟨hn, h⟩
  refine hpq.render fun {place' u k k'} heq hk hkk' => ?_
  exact hbelow heq hk ⟨.operand hnm.1 (heq ▸ hp) hk, hkk'⟩

/-- A reordering asks for the same pieces up to order. -/
theorem pieces_reordered (h : Value.Reordered v w) :
    List.Forall₂ Piece.Reordered (r.pieces v request) (r.pieces w request) := by
  have hstatement : ∀ k, Piece.Reordered (statementPiece k v) (statementPiece k w) := by
    intro k
    rw [statementPiece, statementPiece]
    cases Node.stand_of_reordered (some k.tag) h with
    | malformed hv hw =>
        rw [hv, hw]
        exact .stop rfl
    | @nodes n m hv hw hn =>
        rw [hv, hw]
        simp only [← hn.tag_eq]
        split
        · exact .below (.nodes (Node.ofValue_toValue n none) (Node.ofValue_toValue m none) hn)
        · exact .stop rfl
  cases request with
  | tree => exact .cons (Piece.at_reordered h) .nil
  | select => exact .cons (hstatement .select) .nil
  | insert => exact .cons (hstatement .insert) .nil
  | update => exact .cons (hstatement .update) .nil
  | delete => exact .cons (hstatement .delete) .nil
  | expression => exact .cons (Piece.at_reordered h) .nil
  | conditions =>
      exact .cons (.text _) (Piece.related_conditions Piece.fair_reordered
        (Piece.readRelated_reordered h))

/-- A value and a reordering of it are rendered alike. -/
theorem perform_reordered (hnames : r.PlainNames request v) (h : Value.Reordered v w) :
    Rendering.Alike Value.Reordered (r.perform v request) (r.perform w request) := by
  rw [perform_eq, perform_eq]
  apply Piece.alike_renderAll
  have hmem : ∀ p ∈ r.pieces v request, p ∈ r.pieces v request := fun _ hp => hp
  refine ((List.forall₂_and_left _ _).mpr ⟨hmem, pieces_reordered h⟩).imp fun p q ⟨hp, hpq⟩ => ?_
  refine hpq.render fun {place u k k'} heq hk hkk' => ?_
  exact hnames.full (.asked (heq ▸ hp) hk) hkk'

end Renderer

end QueryTree
