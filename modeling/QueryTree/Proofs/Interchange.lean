import QueryTree.Proofs.Frame

/-!
# Array forms and nodes are interchangeable

An array form and the node it stands for may take each other's place wherever a
node is rendered, and any number of them at once, at any depth
(`Renderer.Interchanged`).  Where this is depends on what a value is looked at as.
That is its *role*.

* *Nodes.*  Of two values in the role of a node, both stand for nodes whose
  operands are interchanged in turn.  One may be an array form and the other a node.
* *Conditions.*  A value is a group or a sequence of members, or a single clause.
  Groups may be headed in an array form or as a node.  A clause is a node.
* *Sequences.*  The items of a grouping, of an ordering, and of the assignments of
  an update are interchanged one by one.  The sequence itself is no node.
* *Fixed.*  Everything else is the same: literals, the segments of a name, the name
  of an alias.

The tables `Handler.fieldRole` and `Handler.itemRole` give the role of each operand.

The main statement is `Renderer.render_interchanged`.  Most functions look at a
value before it is made a node: the shapes of statements, the groups of conditions,
the directions of an ordering.  All of them see the same.
-/

namespace QueryTree

open Renderer (Place)
open Condition (Headed isClause)

/-! ## Roles -/

/-- What a value is looked at as. -/
inductive Role where
  /-- A node that is rendered. -/
  | node (place : Place)
  /-- Conditions. -/
  | conditions
  /-- A member of a group of conditions. -/
  | member
  /-- An item of an ordering. -/
  | ordered
  /-- An assignment of an update. -/
  | pair
  /-- The joins of a select. -/
  | joins
  /-- A sequence of items of a role. -/
  | items (role : Role)
  /-- None of these. -/
  | fixed

/-- The role of a named operand. -/
def Handler.fieldRole : Handler → String → Role
  | .select, "columns" | .select, "from" => .node .tree
  | .select, "join" => .joins
  | .select, "where" => .conditions
  | .select, "group_by" => .items (.node .tree)
  | .select, "order_by" => .items .ordered
  | .insert, "into" | .insert, "columns" | .insert, "values" => .node .tree
  | .update, "table" => .node .tree
  | .update, "set" => .items .pair
  | .update, "where" => .conditions
  | .delete, "from" => .node .tree
  | .delete, "where" => .conditions
  | .whereClause, "where" => .conditions
  | .orderBy, "order_by" => .items .ordered
  | .groupBy, "group_by" => .items (.node .tree)
  | .join, "tablespec" | .join, "using" => .node .tree
  | .join, "on" => .conditions
  | .aliased, "ident" => .node .tree
  | _, _ => .fixed

/-- The role of the operands by position, where all have one. -/
def Handler.itemRole : Handler → Role
  | .list | .groupBy | .call _ => .node .tree
  | .orderBy => .ordered
  | .comparison => .node .condition
  | _ => .fixed

/-! ## Interchanged values -/

section

variable (r : Renderer)

mutual

/-- Values that are interchanged in a role. -/
inductive Interchanged : Role → Value → Value → Prop
  | same {role : Role} (v : Value) : Interchanged role v v
  | node {place : Place} {v w : Value} {n m : Node} :
    Node.ofValue v = .ok n → Node.ofValue w = .ok m → v.isNodeLike = w.isNodeLike →
      NodesInterchanged place n m → Interchanged (.node place) v w
  | headed {v w : Value} {c : Connective} {items items' : List Value} :
    Headed v c items → Headed w c items' → GroupInterchanged items items' → Interchanged .member v w
  | clause {v w : Value} :
    v.isNodeLike = true → w.isNodeLike = true → (∀ c items, ¬ Headed v c items) →
      (∀ c items, ¬ Headed w c items) → Interchanged (.node .condition) v w →
        Interchanged .member v w
  | single {v w : Value} :
    v.isNodeLike = true → w.isNodeLike = true → Interchanged .member v w →
      Interchanged .conditions v w
  | untagged {v w : Value} {items items' : List Value} :
    v.sequence? = some items → w.sequence? = some items' → (∀ c rest, ¬ Headed v c rest) →
      (∀ c rest, ¬ Headed w c rest) → GroupInterchanged items items' →
        Interchanged .conditions v w
  | plain {v w : Value} :
    Clause.direction? v = none → Clause.direction? w = none → Interchanged (.node .tree) v w →
      Interchanged .ordered v w
  | directed {v w : Value} {d : Direction} :
    Clause.direction? v = some d → Clause.direction? w = some d →
      AllInterchanged (.node .tree) v.operands w.operands → Interchanged .ordered v w
  | pair {v w a b a' b' : Value} :
    v.sequence? = some [a, b] → w.sequence? = some [a', b'] → Interchanged (.node .tree) a a' →
      Interchanged (.node .tree) b b' → Interchanged .pair v w
  | joins {v w : Value} {vs ws : List Value} :
    Clause.joinList v = .ok vs → Clause.joinList w = .ok ws → AllInterchanged (.node .tree) vs ws →
      Interchanged .joins v w
  | items {role : Role} {v w : Value} {vs ws : List Value} :
    v.sequence? = some vs → w.sequence? = some ws → AllInterchanged role vs ws →
      Interchanged (.items role) v w

/-- Values that are interchanged one by one. -/
inductive AllInterchanged : Role → List Value → List Value → Prop
  | nil {role : Role} : AllInterchanged role [] []
  | cons {role : Role} {v w : Value} {vs ws : List Value} :
    Interchanged role v w → AllInterchanged role vs ws → AllInterchanged role (v :: vs) (w :: ws)

/-- The items of a group of conditions: none, members, or one flat member. -/
inductive GroupInterchanged : List Value → List Value → Prop
  | empty : GroupInterchanged [] []
  | members {v w : Value} {vs ws : List Value} :
    isClause v = true → isClause w = true → AllInterchanged .member (v :: vs) (w :: ws) →
      GroupInterchanged (v :: vs) (w :: ws)
  | flat {v w : Value} {vs ws : List Value} :
    isClause v = false → isClause w = false → Interchanged .member (.list (v :: vs)) (.list (w :: ws)) →
      GroupInterchanged (v :: vs) (w :: ws)

/-- Nodes of one tag, and if it has a handler, with operands that are interchanged in
the roles it gives them. -/
inductive NodesInterchanged : Place → Node → Node → Prop
  | intro {place : Place} {n m : Node} :
    n.tag = m.tag → n.args.length = m.args.length →
      (∀ h, (r.table place).lookup n.tag = some h → ∀ key, FieldInterchanged (h.fieldRole key) key n m) →
        (∀ h, (r.table place).lookup n.tag = some h → ArgsInterchanged h n.args m.args) →
          NodesInterchanged place n m

/-- Named operands under a key. -/
inductive FieldInterchanged : Role → String → Node → Node → Prop
  | absent {role : Role} {key : String} {n m : Node} :
    n.fields.get? key = none → m.fields.get? key = none → FieldInterchanged role key n m
  | present {role : Role} {key : String} {n m : Node} {v w : Value} :
    n.fields.get? key = some v → m.fields.get? key = some w → Interchanged role v w →
      FieldInterchanged role key n m

/-- Operands by position.  Those of a membership test are a field and values, and
those of a WHERE clause are conditions. -/
inductive ArgsInterchanged : Handler → List Value → List Value → Prop
  | each {h : Handler} {vs ws : List Value} :
    AllInterchanged h.itemRole vs ws → ArgsInterchanged h vs ws
  | membership {v w : Value} {vs ws : List Value} :
    Interchanged (.node .condition) v w → AllInterchanged (.node .tree) vs ws →
      ArgsInterchanged .membership (v :: vs) (w :: ws)
  | whereClause {vs ws : List Value} :
    Interchanged .conditions (.list vs) (.list ws) → ArgsInterchanged .whereClause vs ws

end

end

variable {r : Renderer} {place : Place} {v w : Value} {n m : Node}

/-! ## Array forms and their nodes -/

theorem AllInterchanged.refl {role : Role} : ∀ vs : List Value, AllInterchanged r role vs vs
  | [] => .nil
  | v :: vs => .cons (.same v) (AllInterchanged.refl vs)

theorem GroupInterchanged.refl (items : List Value) : GroupInterchanged r items items := by
  cases items with
  | nil => exact .empty
  | cons v vs =>
      cases hv : isClause v with
      | true => exact .members hv hv (.refl _)
      | false => exact .flat hv hv (.same _)

theorem NodesInterchanged.refl (n : Node) : NodesInterchanged r place n n := by
  refine .intro rfl rfl (fun h _ key => ?_) fun h _ => .each (.refl n.args)
  cases hkey : n.fields.get? key with
  | none => exact .absent hkey hkey
  | some v => exact .present hkey hkey (.same v)

theorem interchanged_node_toValue (hv : Node.ofValue v = .ok n) (hlike : v.isNodeLike = true)
    (q : Place) : Interchanged r (.node q) v n.toValue :=
  .node hv (Node.ofValue_toValue n none) hlike (.refl n)

theorem interchanged_member_toValue (hv : Node.ofValue v = .ok n) {tag : String}
    (htag : v.tag? = some tag) : Interchanged r .member v n.toValue := by
  have hlike : v.isNodeLike = true := by rw [v.isNodeLike_eq, htag]; rfl
  have htag' : n.toValue.tag? = some tag := congrArg some (Value.node_of_tag? hv htag).1
  cases hc : Connective.ofTag? tag with
  | none =>
      exact .clause hlike rfl (Condition.not_headed htag hc) (Condition.not_headed htag' hc)
        (interchanged_node_toValue hv hlike .condition)
  | some c =>
      obtain rfl := Condition.tag_of_ofTag? hc
      have hargs : n.args = v.operands :=
        Value.args_eq_operands hv htag (by cases c <;> decide) (by cases c <;> decide)
      refine .headed (Condition.headed_of_tag? htag) (Condition.headed_of_tag? htag') ?_
      show GroupInterchanged r v.operands n.args
      rw [hargs]
      exact .refl _

theorem Direction.tag_of_ofTag? {s : String} {d : Direction} (h : Direction.ofTag? s = some d) :
    s = d.tag := by
  unfold Direction.ofTag? at h
  split at h
  · next hs =>
      cases h
      exact hs
  · split at h
    · next hs =>
        cases h
        exact hs
    · cases h

theorem direction?_of_tag? {tag : String} (h : v.tag? = some tag) :
    Clause.direction? v = Direction.ofTag? tag := by
  rw [Clause.direction?, h, Option.bind_some]

theorem interchanged_ordered_toValue (hv : Node.ofValue v = .ok n) {tag : String}
    (htag : v.tag? = some tag) : Interchanged r .ordered v n.toValue := by
  have hlike : v.isNodeLike = true := by rw [v.isNodeLike_eq, htag]; rfl
  have htag' : n.toValue.tag? = some tag := congrArg some (Value.node_of_tag? hv htag).1
  have hdirection := direction?_of_tag? htag
  have hdirection' := direction?_of_tag? htag'
  cases hd : Direction.ofTag? tag with
  | none =>
      exact .plain (hdirection.trans hd) (hdirection'.trans hd)
        (interchanged_node_toValue hv hlike .tree)
  | some d =>
      obtain rfl := Direction.tag_of_ofTag? hd
      have hargs : n.args = v.operands :=
        Value.args_eq_operands hv htag (by cases d <;> decide) (by cases d <;> decide)
      refine .directed (hdirection.trans hd) (hdirection'.trans hd) ?_
      show AllInterchanged r (.node .tree) v.operands n.args
      rw [hargs]
      exact .refl _

/-- An array form or a node may be replaced by the node it stands for, as a node, as a
condition, as a member of a group and as an item of an ordering. -/
theorem interchanged_toValue (hv : Node.ofValue v = .ok n) (hlike : v.isNodeLike = true) :
    Interchanged r (.node place) v n.toValue ∧ Interchanged r .member v n.toValue ∧
      Interchanged r .conditions v n.toValue ∧ Interchanged r .ordered v n.toValue := by
  obtain ⟨tag, htag⟩ := Option.isSome_iff_exists.mp (v.isNodeLike_eq ▸ hlike)
  have hmember : Interchanged r .member v n.toValue := interchanged_member_toValue hv htag
  exact ⟨interchanged_node_toValue hv hlike place, hmember, .single hlike rfl hmember,
    interchanged_ordered_toValue hv htag⟩

/-! ## What is interchanged is alike -/

theorem AllInterchanged.forall₂ {role : Role} {vs ws : List Value} :
    AllInterchanged r role vs ws → List.Forall₂ (Interchanged r role) vs ws
  | .nil => .nil
  | .cons h hs => .cons h hs.forall₂

theorem Interchanged.alikeAt (h : Interchanged r (.node place) v w) :
    AlikeAt (NodesInterchanged r) place v w := by
  cases h with
  | same => exact .same v
  | node hv hw hlike hn => exact .node hv hw hlike hn

theorem AllInterchanged.alikeAt {vs ws : List Value} (h : AllInterchanged r (.node place) vs ws) :
    List.Forall₂ (AlikeAt (NodesInterchanged r) place) vs ws :=
  h.forall₂.imp fun _ _ h => h.alikeAt

theorem Interchanged.eq_of_fixed (h : Interchanged r .fixed v w) : v = w := by
  cases h
  rfl

theorem AllInterchanged.eq_of_fixed {vs ws : List Value} (h : AllInterchanged r .fixed vs ws) :
    vs = ws := by
  have hall := h.forall₂.imp fun _ _ h => h.eq_of_fixed
  rwa [List.forall₂_eq_eq_eq] at hall

theorem Interchanged.order (h : Interchanged r .ordered v w) :
    OrderItemAlike (NodesInterchanged r) v w := by
  cases h with
  | same => exact Piece.orderItemAlike_refl v
  | plain hv hw h => exact .plain hv hw h.alikeAt
  | directed hv hw h => exact .directed hv hw h.alikeAt

theorem Interchanged.pairAlike (h : Interchanged r .pair v w) :
    PairAlike (NodesInterchanged r) v w := by
  cases h with
  | same => exact .same v
  | pair hv hw ha hb => exact .pair hv hw ha.alikeAt hb.alikeAt

theorem Interchanged.joinsAlike (h : Interchanged r .joins v w) :
    JoinsAlike (NodesInterchanged r) v w := by
  cases h with
  | same => exact Piece.joinsAlike_refl v
  | joins hv hw h => exact .joins hv hw h.alikeAt

theorem Interchanged.itemsAlike {role : Role} {R : Value → Value → Prop}
    (h : Interchanged r (.items role) v w)
    (hR : ∀ {v w}, Interchanged r role v w → R v w) : ItemsAlike R v w := by
  cases h with
  | same => exact .same v
  | items hv hw h => exact .items hv hw (h.forall₂.imp fun _ _ h => hR h)

/-! ### Conditions -/

namespace Condition

mutual

theorem treeAlike_refl {N : Place → Node → Node → Prop} : ∀ t : Condition, TreeAlike N t t
  | atom v => .atom (.same v)
  | invalid v => .invalid v
  | group c ms => .group c (treesAlike_refl ms)

theorem treesAlike_refl {N : Place → Node → Node → Prop} :
    ∀ ms : List Condition, TreesAlike N ms ms
  | [] => .nil
  | m :: ms => .cons (treeAlike_refl m) (treesAlike_refl ms)

end

theorem isClause_of_isNodeLike (h : v.isNodeLike = true) : isClause v = true := by
  cases v with
  | list items => rfl
  | tuple items => rfl
  | node tag args fields => rfl
  | _ => cases h

mutual

theorem treeAlike_of_member {role : Role} {v w : Value} : Interchanged r role v w → role = .member →
    TreeAlike (NodesInterchanged r) (ofMember v) (ofMember w)
  | .same _, _ => treeAlike_refl _
  | .headed hv hw hitems, _ => by
      rw [ofMember_headed hv, ofMember_headed hw]
      exact treeAlike_of_group _ hitems
  | .clause hv hw hnot hnot' h, _ => by
      rw [ofMember_unheaded hnot, ofMember_unheaded hnot', if_pos (isClause_of_isNodeLike hv),
        if_pos (isClause_of_isNodeLike hw)]
      exact .atom h.alikeAt

theorem treesAlike_of_members {role : Role} {vs ws : List Value} : AllInterchanged r role vs ws →
    role = .member → TreesAlike (NodesInterchanged r) (vs.map ofMember) (ws.map ofMember)
  | .nil, _ => .nil
  | .cons h hs, hrole => .cons (treeAlike_of_member h hrole) (treesAlike_of_members hs hrole)

theorem treeAlike_of_group (c : Connective) {vs ws : List Value} : GroupInterchanged r vs ws →
    TreeAlike (NodesInterchanged r) (ofItems c vs) (ofItems c ws)
  | .empty => .group c .nil
  | .members hv hw hs => by
      rw [ofItems_cons, ofItems_cons, if_pos hv, if_pos hw]
      exact .group c (treesAlike_of_members hs rfl)
  | .flat hv hw h => by
      rw [ofItems_cons, ofItems_cons, hv, hw]
      exact .group c (.cons (treeAlike_of_member h rfl) .nil)

end

/-- A single clause is read as an AND group of one atom, which stands for the same
node. -/
theorem ofValue_clause (hv : v.isNodeLike = true) (hnot : ∀ c items, ¬ Headed v c items) :
    ∃ a, ofValue v = .ok (.group .and [.atom a]) ∧ a.isNodeLike = true ∧
      Node.ofValue a = Node.ofValue v := by
  obtain ⟨tag, htag⟩ := Option.isSome_iff_exists.mp (v.isNodeLike_eq ▸ hv)
  rcases Value.node_or_sequence htag with ⟨fields, heq⟩ | hseq
  · refine ⟨v, ?_, hv, rfl⟩
    rw [heq] at hnot ⊢
    exact ofValue_node hnot
  · -- the items of a sequence are taken as one list
    have hlist : ∀ c rest, ¬ Headed (.list (.str tag :: v.operands)) c rest := fun c rest h =>
      hnot c _ (headed_of_tag? (htag.trans h.tag?))
    have htext : isClause (.str tag) ≠ true := Bool.false_ne_true
    refine ⟨.list (.str tag :: v.operands), ?_, rfl, ?_⟩
    · rw [ofValue_untagged hseq hnot, ofItems_cons, if_neg htext, ofMember_sequence rfl hlist]
    · rw [Node.ofValue_array none hseq]
      rfl

end Condition

theorem Interchanged.conditionsAlike (h : Interchanged r .conditions v w) :
    ConditionsAlike (NodesInterchanged r) v w := by
  cases h with
  | same => exact .same v
  | untagged hv hw hnot hnot' hitems =>
      exact .trees (Condition.ofValue_untagged hv hnot) (Condition.ofValue_untagged hw hnot')
        (Condition.treeAlike_of_group .and hitems)
  | single hv hw h =>
      cases h with
      | same => exact .same v
      | headed hv hw hitems =>
          exact .trees (Condition.ofValue_headed hv) (Condition.ofValue_headed hw)
            (Condition.treeAlike_of_group _ hitems)
      | clause _ _ hnot hnot' h =>
          obtain ⟨a, hread, hlike, hnode⟩ := Condition.ofValue_clause hv hnot
          obtain ⟨a', hread', hlike', hnode'⟩ := Condition.ofValue_clause hw hnot'
          refine .trees hread hread' (.group .and (.cons (.atom ?_) .nil))
          cases h with
          | same =>
              have heq := Except.ok.inj (hread.symm.trans hread')
              simp only [Condition.group.injEq, List.cons.injEq, Condition.atom.injEq] at heq
              rw [heq.2.1]
              exact .same a'
          | node hv' hw' _ hn =>
              exact .node (hnode.trans hv') (hnode'.trans hw') (hlike.trans hlike'.symm) hn

/-! ## Nodes -/

theorem FieldInterchanged.fieldAlike {role : Role} {key : String} {R : Value → Value → Prop}
    (h : FieldInterchanged r role key n m) (hR : ∀ {v w}, Interchanged r role v w → R v w) :
    FieldAlike R key n m := by
  cases h with
  | absent hn hm => exact .absent hn hm
  | present hn hm h => exact .present hn hm (hR h)

theorem ArgsInterchanged.each_of_ne {h : Handler} {vs ws : List Value}
    (hargs : ArgsInterchanged r h vs ws) (hm : h ≠ .membership) (hw : h ≠ .whereClause) :
    AllInterchanged r h.itemRole vs ws := by
  cases hargs with
  | each h => exact h
  | membership => exact absurd rfl hm
  | whereClause => exact absurd rfl hw

theorem whereValue_alike (hfield : FieldInterchanged r .conditions "where" n m)
    (hargs : ArgsInterchanged r .whereClause n.args m.args) :
    ConditionsAlike (NodesInterchanged r) ((n.fields.get? "where").getD (.list n.args))
      ((m.fields.get? "where").getD (.list m.args)) := by
  cases hfield with
  | present hn hm h =>
      rw [hn, hm]
      exact h.conditionsAlike
  | absent hn hm =>
      rw [hn, hm]
      generalize n.args = vs at hargs ⊢
      generalize m.args = ws at hargs ⊢
      cases hargs with
      | each h =>
          obtain rfl := h.eq_of_fixed
          exact .same _
      | whereClause h => exact h.conditionsAlike

theorem membership_alike (hargs : ArgsInterchanged r .membership n.args m.args) :
    OperandsAlike Eq (NodesInterchanged r) .membership n m := by
  generalize hn : n.args = vs at hargs
  generalize hm : m.args = ws at hargs
  cases hargs with
  | membership h hs => exact .membership hn hm h.alikeAt hs.alikeAt
  | each h =>
      obtain rfl := h.eq_of_fixed
      cases vs with
      | nil => exact .unfielded hn hm
      | cons v vs => exact .membership hn hm (.same v) (List.forall₂_same.mpr fun u _ => .same u)

/-- Interchanged operands are alike, whatever the handler. -/
theorem operandsAlike_of_interchanged {h : Handler}
    (hfield : ∀ key, FieldInterchanged r (h.fieldRole key) key n m)
    (hargs : ArgsInterchanged r h n.args m.args) :
    OperandsAlike Eq (NodesInterchanged r) h n m := by
  have heach := hargs.each_of_ne
  cases h with
  | select =>
      exact .select ((hfield "columns").fieldAlike Interchanged.alikeAt)
        ((hfield "from").fieldAlike Interchanged.alikeAt)
        ((hfield "join").fieldAlike Interchanged.joinsAlike)
        ((hfield "where").fieldAlike Interchanged.conditionsAlike)
        ((hfield "group_by").fieldAlike fun h => h.itemsAlike Interchanged.alikeAt)
        ((hfield "order_by").fieldAlike fun h => h.itemsAlike Interchanged.order)
  | insert =>
      exact .insert ((hfield "into").fieldAlike Interchanged.alikeAt)
        ((hfield "columns").fieldAlike Interchanged.alikeAt)
        ((hfield "values").fieldAlike Interchanged.alikeAt)
  | update =>
      exact .update ((hfield "table").fieldAlike Interchanged.alikeAt)
        ((hfield "set").fieldAlike fun h => h.itemsAlike Interchanged.pairAlike)
        ((hfield "where").fieldAlike Interchanged.conditionsAlike)
  | delete =>
      exact .delete ((hfield "from").fieldAlike Interchanged.alikeAt)
        ((hfield "where").fieldAlike Interchanged.conditionsAlike)
  | whereClause => exact .whereClause (whereValue_alike (hfield "where") hargs)
  | orderBy =>
      cases hfield "order_by" with
      | absent hn hm =>
          have hitems := heach (by decide) (by decide)
          exact .orderArgs hn hm (hitems.forall₂.imp fun _ _ h => Interchanged.order h)
      | present hn hm h =>
          exact .orderField hn hm (Interchanged.itemsAlike h Interchanged.order)
  | groupBy =>
      cases hfield "group_by" with
      | absent hn hm =>
          have hitems := heach (by decide) (by decide)
          exact .groupArgs hn hm hitems.alikeAt
      | present hn hm h =>
          exact .groupField hn hm (Interchanged.itemsAlike h Interchanged.alikeAt)
  | join =>
      exact .join ((hfield "tablespec").fieldAlike Interchanged.alikeAt)
        ((hfield "on").fieldAlike Interchanged.conditionsAlike)
        ((hfield "using").fieldAlike Interchanged.alikeAt)
  | list =>
      have hitems := heach (by decide) (by decide)
      exact .list hitems.alikeAt
  | aliased =>
      exact .aliased ((hfield "ident").fieldAlike Interchanged.alikeAt)
        ((hfield "as").fieldAlike Interchanged.eq_of_fixed)
  | name => exact .name (heach (by decide) (by decide)).eq_of_fixed
  | literal =>
      have heq := (heach (by decide) (by decide)).eq_of_fixed
      exact .literal (List.forall₂_eq_eq_eq ▸ heq)
  | always => exact .always
  | never => exact .never
  | comparison =>
      have hitems := heach (by decide) (by decide)
      exact .comparison hitems.alikeAt
  | membership => exact membership_alike hargs
  | constant t => exact .constant t
  | call function =>
      have hitems := heach (by simp) (by simp)
      exact .call function hitems.alikeAt

theorem kept_interchanged (r : Renderer) : Kept r Eq (NodesInterchanged r) where
  tag_eq h := by
    cases h with
    | intro htag _ _ _ => exact htag
  length_eq h := by
    cases h with
    | intro _ hlength _ _ => exact hlength
  operands h hlookup := by
    cases h with
    | intro _ _ hfield hargs =>
        exact operandsAlike_of_interchanged (hfield _ hlookup) (hargs _ hlookup)

/-! ## Requests -/

namespace Renderer

/-- Values that are interchanged where something is asked for. -/
inductive Interchanged (r : Renderer) : Request → Value → Value → Prop
  | same (request : Request) (v : Value) : Interchanged r request v v
  | tree {v w : Value} : QueryTree.Interchanged r (.node .tree) v w → Interchanged r .tree v w
  | expression {v w : Value} :
    QueryTree.Interchanged r (.node .condition) v w → Interchanged r .expression v w
  | conditions {v w : Value} : QueryTree.Interchanged r .conditions v w → Interchanged r .conditions v w
  | statement {request : Request} {k : Keyword} {v w : Value} {n m : Node} :
    (request, k) ∈ [(.select, .select), (.insert, .insert), (.update, .update),
      (.delete, .delete)] → Node.ofValue v (some k.tag) = .ok n →
        Node.ofValue w (some k.tag) = .ok m → NodesInterchanged r .tree n m →
          Interchanged r request v w

theorem Interchanged.alike {request : Request} (h : r.Interchanged request v w) :
    r.Alike Eq request v w := by
  refine ⟨NodesInterchanged r, kept_interchanged r, ?_⟩
  cases h with
  | same => exact .same request v
  | tree h => exact .tree h.alikeAt
  | expression h => exact .expression h.alikeAt
  | conditions h => exact .conditions h.conditionsAlike
  | statement hk hv hw hn => exact .statement hk hv hw hn

/-- Interchanged values are rendered with one text and the same literals, or both are
refused with errors of one kind. -/
theorem render_interchanged (s : Settings) {request : Request}
    (h : (of s none none).Interchanged request v w) :
    (∃ result, (of s none none).render request v = .ok result ∧
      (of s none none).render request w = .ok result) ∨
    ∃ e e', (of s none none).render request v = .error e ∧
      (of s none none).render request w = .error e' ∧ e.kind? = e'.kind? := by
  have hagree := (of s none none).agree_of_alike (h.alike.perform fun _ => rfl)
  rw [render, render]
  generalize (of s none none).result ((of s none none).perform v request) = x at hagree ⊢
  generalize (of s none none).result ((of s none none).perform w request) = y at hagree ⊢
  cases hagree with
  | refused hkind => exact Or.inr ⟨_, _, rfl, rfl, hkind⟩
  | rendered sql hbinds =>
      rw [List.forall₂_eq_eq_eq] at hbinds
      exact Or.inl ⟨_, rfl, by rw [hbinds]⟩

/-- A group, a comparison in it and a name in that as nodes, and the literal next to
the name as an array form. -/
theorem render_interchanged_nested :
    (of {} none none).render .conditions
      (.node "-and" [.node "=" [.node "-name" [.str "a"] [], .list [.str "-value", .int 1]] []] []) =
        .ok ⟨"WHERE a = ?", [.int 1]⟩ := by
  have hcomparison : QueryTree.Interchanged (of {} none none) (.node .condition)
      (.list [.str "=", .list [.str "-name", .str "a"], .list [.str "-value", .int 1]])
      (.node "=" [.node "-name" [.str "a"] [], .list [.str "-value", .int 1]] []) := by
    have hargs : AllInterchanged (of {} none none) (.node .condition)
        [.list [.str "-name", .str "a"], .list [.str "-value", .int 1]]
        [.node "-name" [.str "a"] [], .list [.str "-value", .int 1]] :=
      .cons (interchanged_toValue (n := ⟨"-name", [.str "a"], []⟩) rfl rfl).1 (.cons (.same _) .nil)
    refine .node rfl rfl rfl (.intro rfl rfl (fun _ _ key => .absent rfl rfl) fun h hlookup => ?_)
    obtain rfl := Option.some.inj hlookup
    exact .each hargs
  have h : (of {} none none).Interchanged .conditions
      (.list [.str "-and", .list [.str "=", .list [.str "-name", .str "a"], .list [.str "-value", .int 1]]])
      (.node "-and" [.node "=" [.node "-name" [.str "a"] [], .list [.str "-value", .int 1]] []] []) :=
    .conditions (.single rfl rfl (.headed (.list .and _) (.node .and _ _)
      (.members rfl rfl (.cons (.clause rfl rfl (Condition.not_headed rfl rfl)
        (Condition.not_headed rfl rfl) hcomparison) .nil))))
  rcases render_interchanged {} h with ⟨result, hv, hw⟩ | ⟨e, e', hv, -, -⟩
  · obtain rfl := Except.ok.inj hv
    exact hw
  · cases hv

end Renderer

end QueryTree
