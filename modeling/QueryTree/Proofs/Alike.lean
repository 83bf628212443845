import Mathlib.Data.List.Forall2
import QueryTree.Renderer

/-!
# Trees that differ in literals

Two trees are *alike* if they differ in nothing but the literals that are bound.
Where a tree is looked at decides what may differ, so the relation follows the
handlers.

* *Nodes.*  Nodes alike have one tag and as many operands by position.  If the tag
  has a handler, the operands that it looks at are alike (`OperandsAlike`).  Any
  relation of nodes that has these properties will do (`Kept`).
* *Values.*  Where a node is rendered there is the same value, or there are values
  that stand for nodes alike (`AlikeAt`).
* *Literals.*  The operand of a bound literal may be any other that is related to
  it.  Which are related is left open.
* *The rest.*  The segments of a name and the name of an alias are the same.
  Conditions are read as trees alike, joins as lists alike, assignments as pairs
  alike.

What no handler looks at may differ in any way.  `Renderer.Alike` says what is
alike if something is asked for.
-/

namespace QueryTree

open Renderer (Place)

/-! ## Values -/

section

variable (N : Place → Node → Node → Prop)

/-- Values that are rendered at a place. -/
inductive AlikeAt : Place → Value → Value → Prop
  | same {place : Place} (v : Value) : AlikeAt place v v
  | node {place : Place} {v w : Value} {n m : Node} :
    Node.ofValue v = .ok n → Node.ofValue w = .ok m → v.isNodeLike = w.isNodeLike →
      N place n m → AlikeAt place v w

mutual

/-- Trees of conditions. -/
inductive TreeAlike : Condition → Condition → Prop
  | atom {v w : Value} : AlikeAt N .condition v w → TreeAlike (.atom v) (.atom w)
  | invalid (v : Value) : TreeAlike (.invalid v) (.invalid v)
  | group (c : Connective) {ms ms' : List Condition} :
    TreesAlike ms ms' → TreeAlike (.group c ms) (.group c ms')

/-- Members of a group. -/
inductive TreesAlike : List Condition → List Condition → Prop
  | nil : TreesAlike [] []
  | cons {m m' : Condition} {ms ms' : List Condition} :
    TreeAlike m m' → TreesAlike ms ms' → TreesAlike (m :: ms) (m' :: ms')

end

/-- Values that are read as conditions. -/
inductive ConditionsAlike : Value → Value → Prop
  | same (v : Value) : ConditionsAlike v v
  | trees {v w : Value} {t t' : Condition} :
    Condition.ofValue v = .ok t → Condition.ofValue w = .ok t' → TreeAlike N t t' →
      ConditionsAlike v w

/-- Values that are read as the joins of a select. -/
inductive JoinsAlike : Value → Value → Prop
  | refused {v w : Value} {f f' : Fault} :
    Clause.joinList v = .error f → Clause.joinList w = .error f' → JoinsAlike v w
  | joins {v w : Value} {vs ws : List Value} :
    Clause.joinList v = .ok vs → Clause.joinList w = .ok ws →
      List.Forall₂ (AlikeAt N .tree) vs ws → JoinsAlike v w

/-- Items of an ordering. -/
inductive OrderItemAlike : Value → Value → Prop
  | plain {v w : Value} :
    Clause.direction? v = none → Clause.direction? w = none → AlikeAt N .tree v w →
      OrderItemAlike v w
  | directed {v w : Value} {d : Direction} :
    Clause.direction? v = some d → Clause.direction? w = some d →
      List.Forall₂ (AlikeAt N .tree) v.operands w.operands → OrderItemAlike v w

/-- Assignments of an update. -/
inductive PairAlike : Value → Value → Prop
  | same (v : Value) : PairAlike v v
  | pair {v w a b c d : Value} :
    v.sequence? = some [a, b] → w.sequence? = some [c, d] → AlikeAt N .tree a c →
      AlikeAt N .tree b d → PairAlike v w

end

/-- Values whose items are looked at one by one. -/
inductive ItemsAlike (R : Value → Value → Prop) : Value → Value → Prop
  | same (v : Value) : ItemsAlike R v v
  | items {v w : Value} {vs ws : List Value} :
    v.sequence? = some vs → w.sequence? = some ws → List.Forall₂ R vs ws → ItemsAlike R v w

/-- Named operands under a key. -/
inductive FieldAlike (R : Value → Value → Prop) (key : String) : Node → Node → Prop
  | absent {n m : Node} :
    n.fields.get? key = none → m.fields.get? key = none → FieldAlike R key n m
  | present {n m : Node} {v w : Value} :
    n.fields.get? key = some v → m.fields.get? key = some w → R v w → FieldAlike R key n m

/-! ## Nodes -/

/-- Operands that a handler looks at. -/
inductive OperandsAlike (L : Value → Value → Prop) (N : Place → Node → Node → Prop) :
    Handler → Node → Node → Prop
  | select {n m : Node} :
    FieldAlike (AlikeAt N .tree) "columns" n m → FieldAlike (AlikeAt N .tree) "from" n m →
      FieldAlike (JoinsAlike N) "join" n m → FieldAlike (ConditionsAlike N) "where" n m →
        FieldAlike (ItemsAlike (AlikeAt N .tree)) "group_by" n m →
          FieldAlike (ItemsAlike (OrderItemAlike N)) "order_by" n m → OperandsAlike L N .select n m
  | insert {n m : Node} :
    FieldAlike (AlikeAt N .tree) "into" n m → FieldAlike (AlikeAt N .tree) "columns" n m →
      FieldAlike (AlikeAt N .tree) "values" n m → OperandsAlike L N .insert n m
  | update {n m : Node} :
    FieldAlike (AlikeAt N .tree) "table" n m → FieldAlike (ItemsAlike (PairAlike N)) "set" n m →
      FieldAlike (ConditionsAlike N) "where" n m → OperandsAlike L N .update n m
  | delete {n m : Node} :
    FieldAlike (AlikeAt N .tree) "from" n m → FieldAlike (ConditionsAlike N) "where" n m →
      OperandsAlike L N .delete n m
  | whereClause {n m : Node} :
    ConditionsAlike N ((n.fields.get? "where").getD (.list n.args))
      ((m.fields.get? "where").getD (.list m.args)) → OperandsAlike L N .whereClause n m
  | orderField {n m : Node} {v w : Value} :
    n.fields.get? "order_by" = some v → m.fields.get? "order_by" = some w →
      ItemsAlike (OrderItemAlike N) v w → OperandsAlike L N .orderBy n m
  | orderArgs {n m : Node} :
    n.fields.get? "order_by" = none → m.fields.get? "order_by" = none →
      List.Forall₂ (OrderItemAlike N) n.args m.args → OperandsAlike L N .orderBy n m
  | groupField {n m : Node} {v w : Value} :
    n.fields.get? "group_by" = some v → m.fields.get? "group_by" = some w →
      ItemsAlike (AlikeAt N .tree) v w → OperandsAlike L N .groupBy n m
  | groupArgs {n m : Node} :
    n.fields.get? "group_by" = none → m.fields.get? "group_by" = none →
      List.Forall₂ (AlikeAt N .tree) n.args m.args → OperandsAlike L N .groupBy n m
  | join {n m : Node} :
    FieldAlike (AlikeAt N .tree) "tablespec" n m → FieldAlike (ConditionsAlike N) "on" n m →
      FieldAlike (AlikeAt N .tree) "using" n m → OperandsAlike L N .join n m
  | list {n m : Node} :
    List.Forall₂ (AlikeAt N .tree) n.args m.args → OperandsAlike L N .list n m
  | aliased {n m : Node} :
    FieldAlike (AlikeAt N .tree) "ident" n m → FieldAlike Eq "as" n m →
      OperandsAlike L N .aliased n m
  | name {n m : Node} : n.args = m.args → OperandsAlike L N .name n m
  | literal {n m : Node} : List.Forall₂ L n.args m.args → OperandsAlike L N .literal n m
  | always {n m : Node} : OperandsAlike L N .always n m
  | never {n m : Node} : OperandsAlike L N .never n m
  | comparison {n m : Node} :
    List.Forall₂ (AlikeAt N .condition) n.args m.args → OperandsAlike L N .comparison n m
  | unfielded {n m : Node} : n.args = [] → m.args = [] → OperandsAlike L N .membership n m
  | membership {n m : Node} {v w : Value} {vs ws : List Value} :
    n.args = v :: vs → m.args = w :: ws → AlikeAt N .condition v w →
      List.Forall₂ (AlikeAt N .tree) vs ws → OperandsAlike L N .membership n m
  | constant {n m : Node} (t : String) : OperandsAlike L N (.constant t) n m
  | call {n m : Node} (function : String) :
    List.Forall₂ (AlikeAt N .tree) n.args m.args → OperandsAlike L N (.call function) n m

/-- A relation of nodes that a renderer keeps.  Related nodes have one tag and as
many operands by position, and if the tag has a handler, what it looks at is alike
again. -/
structure Kept (r : Renderer) (L : Value → Value → Prop) (N : Place → Node → Node → Prop) :
    Prop where
  tag_eq : ∀ {place n m}, N place n m → n.tag = m.tag
  length_eq : ∀ {place n m}, N place n m → n.args.length = m.args.length
  operands : ∀ {place n m h}, N place n m → (r.table place).lookup n.tag = some h →
    OperandsAlike L N h n m

/-- Values that are rendered for what is asked for. -/
inductive RequestAlike (N : Place → Node → Node → Prop) :
    Renderer.Request → Value → Value → Prop
  | same (request : Renderer.Request) (v : Value) : RequestAlike N request v v
  | tree {v w : Value} : AlikeAt N .tree v w → RequestAlike N .tree v w
  | expression {v w : Value} : AlikeAt N .condition v w → RequestAlike N .expression v w
  | conditions {v w : Value} : ConditionsAlike N v w → RequestAlike N .conditions v w
  | statement {request : Renderer.Request} {k : Keyword} {v w : Value} {n m : Node} :
    (request, k) ∈ [(.select, .select), (.insert, .insert), (.update, .update),
      (.delete, .delete)] → Node.ofValue v (some k.tag) = .ok n →
        Node.ofValue w (some k.tag) = .ok m → N .tree n m → RequestAlike N request v w

/-- Values that differ in literals, for what is asked for.  `L` says which literals
may stand for which. -/
def Renderer.Alike (r : Renderer) (L : Value → Value → Prop) (request : Request)
    (v w : Value) : Prop := ∃ N, Kept r L N ∧ RequestAlike N request v w

end QueryTree
