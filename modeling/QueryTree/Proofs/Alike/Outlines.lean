import QueryTree.Proofs.Alike
import QueryTree.Proofs.Outline.Relation

/-!
# Nodes alike have outlines alike

Two pieces are *alike* if they are the same text, related literals, values below
that are alike, or errors of one kind (`Piece.Alike`).

The main statement is `Kept.outline`.  A relation that a renderer keeps takes
nodes to outlines alike.  Much of it is about what handlers ask of a value before
they render it: whether it is a node, what its tag is, how many operands it has
and whether it is there.  Values alike agree on all that.  For this it is enough
that related nodes have one tag, and lists as many operands (`Tagged`), and that
conditions make pieces alike (`ConditionsMatch`).
-/

namespace QueryTree

open Renderer (Place)

/-! ## What values alike agree on -/

/-- Related nodes have one tag, and lists have as many operands. -/
structure Tagged (N : Place → Node → Node → Prop) : Prop where
  tag_eq : ∀ {place n m}, N place n m → n.tag = m.tag
  length_eq : ∀ {place n m}, N place n m → n.tag = Keyword.list.tag → n.args.length = m.args.length

variable {r : Renderer} {L : Value → Value → Prop} {N : Place → Node → Node → Prop}
  {place : Place} {v w : Value} {n m : Node} {key : String} {R : Value → Value → Prop}

theorem Kept.tagged (hN : Kept r L N) : Tagged N := ⟨hN.tag_eq, fun h _ => hN.length_eq h⟩

theorem AlikeAt.isNodeLike_eq (h : AlikeAt N place v w) : v.isNodeLike = w.isNodeLike := by
  cases h with
  | same => rfl
  | node _ _ hlike _ => exact hlike

theorem AlikeAt.tag?_eq (hN : Tagged N) (h : AlikeAt N place v w) : v.tag? = w.tag? := by
  cases h with
  | same => rfl
  | node hv hw hlike hn =>
      rw [Value.isNodeLike_eq, Value.isNodeLike_eq] at hlike
      cases hvt : v.tag? with
      | none =>
          rw [hvt] at hlike
          exact (Option.isSome_eq_false_iff.mp hlike.symm |> Option.isNone_iff_eq_none.mp).symm
      | some t =>
          rw [hvt] at hlike
          obtain ⟨u, hwt⟩ := Option.isSome_iff_exists.mp hlike.symm
          rw [hwt, ← (Value.node_of_tag? hv hvt).1, ← (Value.node_of_tag? hw hwt).1, hN.tag_eq hn]

theorem AlikeAt.operands_length_eq (hN : Tagged N) (h : AlikeAt N place v w)
    (hv : v.tag? = some Keyword.list.tag) : v.operands.length = w.operands.length := by
  have hw := (h.tag?_eq hN).symm.trans hv
  cases h with
  | same => rfl
  | node hvn hwn _ hn =>
      rw [Value.operands_of_list hvn hv, Value.operands_of_list hwn hw,
        hN.length_eq hn (Value.node_of_tag? hvn hv).1]

theorem AlikeAt.isPresent_eq (h : AlikeAt N place v w) : Clause.isPresent v = Clause.isPresent w := by
  have hpresent : ∀ {u : Value} {k : Node}, Node.ofValue u = .ok k → Clause.isPresent u = true := by
    intro u k hu
    cases u with
    | null => cases hu
    | _ => rfl
  cases h with
  | same => rfl
  | node hv hw _ _ => rw [hpresent hv, hpresent hw]

theorem isConditions_of_ofValue {t : Condition} (h : Condition.ofValue v = .ok t) :
    Shape.isConditions v = true ∧ Clause.isPresent v = true := by
  cases v with
  | list items => exact ⟨rfl, rfl⟩
  | tuple items => exact ⟨rfl, rfl⟩
  | node tag args fields => exact ⟨rfl, rfl⟩
  | _ => cases h

theorem ConditionsAlike.isConditions_eq (h : ConditionsAlike N v w) :
    Shape.isConditions v = Shape.isConditions w := by
  cases h with
  | same => rfl
  | trees hv hw _ => rw [(isConditions_of_ofValue hv).1, (isConditions_of_ofValue hw).1]

theorem ConditionsAlike.isPresent_eq (h : ConditionsAlike N v w) :
    Clause.isPresent v = Clause.isPresent w := by
  cases h with
  | same => rfl
  | trees hv hw _ => rw [(isConditions_of_ofValue hv).2, (isConditions_of_ofValue hw).2]

theorem ItemsAlike.isSequence_eq (h : ItemsAlike R v w) : v.isSequence = w.isSequence := by
  cases h with
  | same => rfl
  | items hv hw _ => rw [Value.isSequence, Value.isSequence, hv, hw]; rfl

/-- The items one by one, if an item is related to itself. -/
theorem ItemsAlike.getD (hR : ∀ u, R u u) (h : ItemsAlike R v w) :
    List.Forall₂ R (v.sequence?.getD []) (w.sequence?.getD []) := by
  cases h with
  | same => exact List.forall₂_same.mpr fun u _ => hR u
  | items hv hw h => rw [hv, hw]; exact h

/-- What is under a key, where null stands for nothing. -/
theorem FieldAlike.get (hnull : R .null .null) (h : FieldAlike R key n m) :
    R (n.fields.get key) (m.fields.get key) := by
  rw [Fields.get, Fields.get]
  cases h with
  | absent hn hm => rw [hn, hm]; exact hnull
  | present hn hm h => rw [hn, hm]; exact h

theorem FieldAlike.contains_eq (h : FieldAlike R key n m) :
    n.fields.contains key = m.fields.contains key := by
  rw [Fields.contains, Fields.contains]
  cases h with
  | absent hn hm => rw [hn, hm]
  | present hn hm _ => rw [hn, hm]; rfl

/-! ## Shapes -/

theorem FieldAlike.rel (h : FieldAlike R key n m) :
    Option.Rel R (n.fields.get? key) (m.fields.get? key) := by
  cases h with
  | absent hn hm => rw [hn, hm]; exact .none
  | present hn hm h => rw [hn, hm]; exact .some h

theorem FieldAlike.imp {Q : Value → Value → Prop} (h : FieldAlike R key n m)
    (himp : ∀ {v w}, R v w → Q v w) : FieldAlike Q key n m := by
  cases h with
  | absent hn hm => exact .absent hn hm
  | present hn hm h => exact .present hn hm (himp h)

theorem AlikeAt.same_shape (hN : Tagged N) (h : AlikeAt N place v w) : Shape.Same v w :=
  ⟨h.tag?_eq hN, h.operands_length_eq hN⟩

theorem FieldAlike.same_shape (hN : Tagged N) (h : FieldAlike (AlikeAt N place) key n m) :
    Shape.Same (n.fields.get key) (m.fields.get key) := (h.get (.same .null)).same_shape hN

namespace Shape

/-- Two assignments as pairs. -/
def PairR (N : Place → Node → Node → Prop) (p q : Value × Value) : Prop :=
  AlikeAt N .tree p.1 q.1 ∧ AlikeAt N .tree p.2 q.2

theorem pair?_alike (h : PairAlike N v w) : Option.Rel (PairR N) (pair? v) (pair? w) := by
  cases h with
  | same =>
      cases pair? v with
      | none => exact .none
      | some p => exact .some ⟨.same _, .same _⟩
  | pair hv hw hac hbd =>
      rw [pair?, pair?, hv, hw]
      simp only [hac.isNodeLike_eq, hbd.isNodeLike_eq]
      split
      · exact .some ⟨hac, hbd⟩
      · exact .none

theorem set_alike (h : FieldAlike (ItemsAlike (PairAlike N)) "set" n m) :
    Option.Rel (List.Forall₂ fun v w => (pair? v).isSome = (pair? w).isSome)
      (n.fields.get "set").sequence? (m.fields.get "set").sequence? := by
  have hsome : ∀ {p q : Option (Value × Value)}, Option.Rel (PairR N) p q → p.isSome = q.isSome := by
    intro p q hpq
    cases hpq <;> rfl
  have hset := h.get (.same .null)
  generalize n.fields.get "set" = v at hset ⊢
  generalize m.fields.get "set" = w at hset ⊢
  cases hset with
  | same =>
      cases v.sequence? with
      | none => exact .none
      | some vs => exact .some (List.forall₂_same.mpr fun _ _ => rfl)
  | items hv hw hitems =>
      rw [hv, hw]
      exact .some (hitems.imp fun _ _ hvw => hsome (pair?_alike hvw))

end Shape

/-! ## Pieces -/

/-- Pieces that render alike. -/
inductive Piece.Alike (L : Value → Value → Prop) (N : Place → Node → Node → Prop) :
    Piece → Piece → Prop
  | text (t : String) : Alike L N (.text t) (.text t)
  | literal {v w : Value} : L v w → Alike L N (.literal v) (.literal w)
  | below {place : Place} {v w : Value} :
    AlikeAt N place v w → Alike L N (.below place v) (.below place w)
  | stop {e e' : RenderError} : e.kind? = e'.kind? → Alike L N (.stop e) (.stop e')

namespace Piece

theorem Alike.refl (hL : ∀ v, L v v) (p : Piece) : Alike L N p p := by
  cases p with
  | text t => exact .text t
  | literal v => exact .literal (hL v)
  | below place v => exact .below (.same v)
  | stop e => exact .stop rfl

theorem fair_alike : Fair (Alike L N) := ⟨.text, .stop⟩

theorem at_alike {vs ws : List Value} (h : List.Forall₂ (AlikeAt N place) vs ws) :
    List.Forall₂ (At (Alike L N) place) vs ws := h.imp fun _ _ h => .below h

/-! ### Conditions -/

mutual

theorem related_of_treeAlike {t t' : Condition} :
    TreeAlike N t t' → Condition.Related (At (Alike L N) .condition) t t'
  | .atom h => .atom (.below h)
  | .invalid v => .invalid v v
  | .group c hs => .group c (related_of_treesAlike hs)

theorem related_of_treesAlike {ms ms' : List Condition} :
    TreesAlike N ms ms' → Condition.MembersRelated (At (Alike L N) .condition) ms ms'
  | .nil => .nil
  | .cons h hs => .cons (related_of_treeAlike h) (related_of_treesAlike hs)

end

theorem alike_conditions (hL : ∀ v, L v v) {s : Settings} (h : ConditionsAlike N v w) :
    List.Forall₂ (Alike L N) (conditions s v) (conditions s w) := by
  cases h with
  | same => exact List.forall₂_same.mpr fun p _ => .refl hL p
  | trees hv hw ht => exact related_conditions fair_alike (.trees hv hw (related_of_treeAlike ht))

end Piece

/-- Conditions that are accepted alike and make pieces alike. -/
structure ConditionsMatch (s : Settings) (L : Value → Value → Prop) (N : Place → Node → Node → Prop)
    (v w : Value) : Prop where
  accepted : Shape.isConditions v = Shape.isConditions w
  present : Clause.isPresent v = Clause.isPresent w
  pieces : List.Forall₂ (Piece.Alike L N) (Piece.conditions s v) (Piece.conditions s w)

theorem ConditionsMatch.of_eq (hL : ∀ v, L v v) {s : Settings}
    (haccepted : Shape.isConditions v = Shape.isConditions w)
    (hpresent : Clause.isPresent v = Clause.isPresent w)
    (hpieces : Piece.conditions s v = Piece.conditions s w) : ConditionsMatch s L N v w :=
  ⟨haccepted, hpresent, hpieces ▸ List.forall₂_same.mpr fun p _ => .refl hL p⟩

theorem ConditionsAlike.conditionsMatch (hL : ∀ v, L v v) {s : Settings}
    (h : ConditionsAlike N v w) : ConditionsMatch s L N v w :=
  ⟨h.isConditions_eq, h.isPresent_eq, Piece.alike_conditions hL h⟩

namespace Piece

/-! ### Orderings and groupings -/

theorem OrderItemAlike.related (h : OrderItemAlike N v w) : OrderRelated (Alike L N) v w := by
  cases h with
  | plain hv hw h => exact .plain hv hw (.below h)
  | directed hv hw h => exact .directed hv hw (at_alike h)

theorem alike_orderItems {vs ws : List Value} (h : List.Forall₂ (OrderItemAlike N) vs ws) :
    List.Forall₂ (Alike L N) (orderItems vs) (orderItems ws) :=
  related_orderItems fair_alike (h.imp fun _ _ h => OrderItemAlike.related h)

theorem alike_groupItems {vs ws : List Value} (h : List.Forall₂ (AlikeAt N .tree) vs ws) :
    List.Forall₂ (Alike L N) (groupItems vs) (groupItems ws) :=
  related_groupItems fair_alike (at_alike h)

theorem orderItemAlike_refl (v : Value) : OrderItemAlike N v v := by
  cases hv : Clause.direction? v with
  | none => exact .plain hv hv (.same v)
  | some d => exact .directed hv hv (List.forall₂_same.mpr fun u _ => .same u)

/-! ### Clauses of statements -/

theorem alike_whereGroups {s : Settings} (h : FieldAlike (ConditionsMatch s L N) "where" n m) :
    List.Forall₂ (List.Forall₂ (Alike L N)) (whereGroups s n) (whereGroups s m) :=
  related_optional h.rel fun hvw => .cons (.cons (.text _) hvw.pieces) .nil

theorem joinsAlike_refl (v : Value) : JoinsAlike N v v := by
  cases hv : Clause.joinList v with
  | error f => exact .refused hv hv
  | ok vs => exact .joins hv hv (List.forall₂_same.mpr fun u _ => .same u)

theorem JoinsAlike.related (h : JoinsAlike N v w) : JoinsRelated (Alike L N) v w := by
  cases h with
  | refused hv hw => exact .refused hv hw
  | joins hv hw h => exact .joins hv hw (at_alike h)

theorem alike_joinGroups (h : FieldAlike (JoinsAlike N) "join" n m) :
    List.Forall₂ (List.Forall₂ (Alike L N)) (joinGroups n) (joinGroups m) :=
  related_joinGroups fair_alike (h.imp JoinsAlike.related).rel

theorem alike_groupingGroups (h : FieldAlike (ItemsAlike (AlikeAt N .tree)) "group_by" n m) :
    List.Forall₂ (List.Forall₂ (Alike L N)) (groupingGroups n) (groupingGroups m) :=
  related_groupingGroups fair_alike (h.imp fun hvw => at_alike (hvw.getD .same)).rel

theorem alike_orderingGroups (h : FieldAlike (ItemsAlike (OrderItemAlike N)) "order_by" n m) :
    List.Forall₂ (List.Forall₂ (Alike L N)) (orderingGroups n) (orderingGroups m) :=
  related_orderingGroups fair_alike
    (h.imp fun hvw => (hvw.getD orderItemAlike_refl).imp fun _ _ h => OrderItemAlike.related h).rel

theorem alike_get (h : FieldAlike (AlikeAt N place) key n m) :
    At (Alike L N) place (n.fields.get key) (m.fields.get key) :=
  .below (h.get (.same .null))

theorem alike_assignments (h : FieldAlike (ItemsAlike (PairAlike N)) "set" n m) :
    List.Forall₂ (fun p q : Value × Value => At (Alike L N) .tree p.1 q.1 ∧ At (Alike L N) .tree p.2 q.2)
      (Statement.assignments n) (Statement.assignments m) := by
  have hitems := (h.get (.same .null)).getD .same
  have hpairs : List.Forall₂ (Shape.PairR N) (Statement.assignments n) (Statement.assignments m) :=
    List.rel_filterMap (fun _ _ hvw => Shape.pair?_alike hvw) hitems
  exact hpairs.imp fun _ _ hpq => ⟨.below hpq.1, .below hpq.2⟩

end Piece

/-! ## Outlines -/

namespace Outline

open Piece

variable {s : Settings}

theorem alike_select (hN : Tagged N)
    (hcolumns : FieldAlike (AlikeAt N .tree) "columns" n m)
    (hfrom : FieldAlike (AlikeAt N .tree) "from" n m) (hjoin : FieldAlike (JoinsAlike N) "join" n m)
    (hwhere : FieldAlike (ConditionsMatch s L N) "where" n m)
    (hgroup : FieldAlike (ItemsAlike (AlikeAt N .tree)) "group_by" n m)
    (horder : FieldAlike (ItemsAlike (OrderItemAlike N)) "order_by" n m) :
    Related (Piece.Alike L N) (select s n) (select s m) :=
  related_select fair_alike (Shape.select_congr (hcolumns.same_shape hN) (hfrom.same_shape hN)
      (hwhere.imp ConditionsMatch.accepted).rel (hgroup.imp ItemsAlike.isSequence_eq).rel
      (horder.imp ItemsAlike.isSequence_eq).rel)
    (alike_get hcolumns) (alike_get hfrom) (alike_joinGroups hjoin) (alike_whereGroups hwhere)
    (alike_groupingGroups hgroup) (alike_orderingGroups horder)

theorem alike_insert (hN : Tagged N) (hinto : FieldAlike (AlikeAt N .tree) "into" n m)
    (hcolumns : FieldAlike (AlikeAt N .tree) "columns" n m)
    (hvalues : FieldAlike (AlikeAt N .tree) "values" n m) :
    Related (Piece.Alike L N) (insert n) (insert m) :=
  related_insert fair_alike (Shape.insert_congr (hinto.same_shape hN) hcolumns.contains_eq
      (hcolumns.same_shape hN) (hvalues.same_shape hN)) (alike_get hinto)
    (related_insertColumns fair_alike (hcolumns.imp Piece.Alike.below).rel) (alike_get hvalues)

theorem alike_update (hN : Tagged N) (htable : FieldAlike (AlikeAt N .tree) "table" n m)
    (hset : FieldAlike (ItemsAlike (PairAlike N)) "set" n m)
    (hwhere : FieldAlike (ConditionsMatch s L N) "where" n m) :
    Related (Piece.Alike L N) (update s n) (update s m) :=
  related_update fair_alike (Shape.update_congr (htable.same_shape hN) (Shape.set_alike hset)) (alike_get htable)
    (alike_assignments hset) (alike_whereGroups hwhere)

theorem alike_delete (hN : Tagged N) (hfrom : FieldAlike (AlikeAt N .tree) "from" n m)
    (hwhere : FieldAlike (ConditionsMatch s L N) "where" n m) :
    Related (Piece.Alike L N) (delete s n) (delete s m) :=
  related_delete fair_alike (Shape.delete_congr (hfrom.same_shape hN)) (alike_get hfrom)
    (alike_whereGroups hwhere)

theorem alike_join (hL : ∀ v, L v v) (hlength : n.args.length = m.args.length)
    (htable : FieldAlike (AlikeAt N .tree) "tablespec" n m)
    (hon : FieldAlike (ConditionsMatch s L N) "on" n m)
    (husing : FieldAlike (AlikeAt N .tree) "using" n m) :
    Related (Piece.Alike L N) (join s n) (join s m) := by
  have hon' := hon.get (.of_eq hL rfl rfl rfl)
  exact related_join fair_alike hlength (alike_get htable) (htable.get (.same .null)).isPresent_eq
    hon'.pieces hon'.present (alike_get husing) (husing.get (.same .null)).isPresent_eq

theorem alike_ofItems {pieces : List Value → List Piece} (hR : ∀ u, R u u)
    (hpieces : ∀ {vs ws}, List.Forall₂ R vs ws →
      List.Forall₂ (Piece.Alike L N) (pieces vs) (pieces ws))
    (hn : n.fields.get? key = some v) (hm : m.fields.get? key = some w) (h : ItemsAlike R v w) :
    Related (Piece.Alike L N) (ofItems n key pieces) (ofItems m key pieces) := by
  apply related_ofItems fair_alike
  rw [Clause.items, Clause.items, hn, hm]
  cases h with
  | same =>
      dsimp only
      cases v.sequence? with
      | none => exact Or.inr ⟨_, _, rfl, rfl⟩
      | some items =>
          exact Or.inl ⟨_, _, rfl, rfl, hpieces (List.forall₂_same.mpr fun u _ => hR u)⟩
  | items hv hw h =>
      simp only [hv, hw]
      exact Or.inl ⟨_, _, rfl, rfl, hpieces h⟩

theorem alike_ofArgs {pieces : List Value → List Piece}
    (hn : n.fields.get? key = none) (hm : m.fields.get? key = none)
    (h : List.Forall₂ (Piece.Alike L N) (pieces n.args) (pieces m.args)) :
    Related (Piece.Alike L N) (ofItems n key pieces) (ofItems m key pieces) := by
  apply related_ofItems fair_alike
  rw [Clause.items, Clause.items, hn, hm]
  exact Or.inl ⟨_, _, rfl, rfl, h⟩

end Outline

open Piece Outline in
/-- A handler makes outlines alike of nodes whose operands are alike. -/
theorem OperandsAlike.outline (hN : Tagged N) (hL : ∀ v, L v v) (s : Settings) {h : Handler}
    (htag : n.tag = m.tag) (hlength : n.args.length = m.args.length)
    (hoperands : OperandsAlike L N h n m) :
    Related (Piece.Alike L N) (h.outline s n) (h.outline s m) := by
  cases hoperands with
  | select hcolumns hfrom hjoin hwhere hgroup horder =>
      exact alike_select hN hcolumns hfrom hjoin (hwhere.imp (·.conditionsMatch hL)) hgroup horder
  | insert hinto hcolumns hvalues => exact alike_insert hN hinto hcolumns hvalues
  | update htable hset hwhere =>
      exact alike_update hN htable hset (hwhere.imp (·.conditionsMatch hL))
  | delete hfrom hwhere => exact alike_delete hN hfrom (hwhere.imp (·.conditionsMatch hL))
  | whereClause h => exact related_straight (.cons (.text _) (alike_conditions hL h))
  | orderField hn hm h => exact alike_ofItems orderItemAlike_refl alike_orderItems hn hm h
  | orderArgs hn hm h => exact alike_ofArgs hn hm (alike_orderItems h)
  | groupField hn hm h => exact alike_ofItems .same alike_groupItems hn hm h
  | groupArgs hn hm h => exact alike_ofArgs hn hm (alike_groupItems h)
  | join htable hon husing =>
      exact alike_join hL hlength htable (hon.imp (·.conditionsMatch hL)) husing
  | list h => exact related_listed fair_alike (at_alike h)
  | aliased hident has =>
      exact related_aliased fair_alike (alike_get hident) (hident.get (.same .null)).isPresent_eq
        (has.get rfl)
  | name h =>
      apply related_name fair_alike
      rw [h]
      cases Identifier.render s.activeQuotes s.nameSeparator m.args with
      | ok t => exact Or.inl ⟨t, rfl, rfl⟩
      | error f => exact Or.inr ⟨f, f, rfl, rfl⟩
  | literal h => exact related_literal fair_alike (h.imp fun _ _ hvw => .literal hvw)
  | always => exact related_text fair_alike _
  | never => exact related_text fair_alike _
  | comparison h => exact related_comparison fair_alike htag (at_alike h)
  | unfielded hn hm => exact related_unfielded fair_alike hn hm
  | membership hn hm hfield hvalues =>
      exact related_membership fair_alike htag hn hm (.below hfield) (at_alike hvalues)
  | constant t => exact related_text fair_alike t
  | call function h => exact related_call fair_alike function (at_alike h)

/-- A relation that a renderer keeps takes nodes to outlines alike. -/
theorem Kept.outline (hN : Kept r L N) (hL : ∀ v, L v v) (h : N place n m) :
    (r.outline place n).Related (Piece.Alike L N) (r.outline place m) := by
  rw [Renderer.outline, Renderer.outline, ← hN.tag_eq h]
  cases hlookup : (r.table place).lookup n.tag with
  | none => exact Outline.related_stop Piece.fair_alike rfl
  | some handler =>
      exact (hN.operands h hlookup).outline hN.tagged hL r.settings (hN.tag_eq h) (hN.length_eq h)

end QueryTree
