import QueryTree.Proofs.Phrase
import QueryTree.Renderer

/-!
# Values that stand for a phrase

A value may stand for a phrase in all the shapes a node has.  What it stands for
depends on its place: comparisons and membership tests are conditions, and only an
item of an ordering has a direction.

A list of one item stands for what the item stands for.  A longer list stands only
where a comma may follow: as the columns of a select or the shared columns of a join,
or among the items of a list, a membership test or a clause, where its items are
spread.  The conditions of a select or a join are joined by AND, without groups among
them.
-/

namespace QueryTree.Phrase

/-- A list of values, as one value. -/
def Listed (v : Value) (vs : List Value) : Prop :=
  ∃ n, Node.ofValue v = .ok n ∧ n.tag = Keyword.list.tag ∧ n.args = vs

/-- The conditions of a value are these, joined by AND. -/
def Conjoined (v : Value) (vs : List Value) : Prop :=
  Condition.ofValue v = .ok (.group .and (vs.map .atom))

/-- The items of a clause. -/
def ClauseKind.Items : ClauseKind → Value → List Value → Prop
  | conditions, v, vs => Conjoined v vs
  | grouping, v, vs => v.sequence? = some vs
  | ordering, v, vs => v.sequence? = some vs

mutual

/-- A value stands for a phrase. -/
inductive Stands : Slot → Value → Phrase → Prop
  | term {v : Value} {n : Node} {p : Phrase} :
    Node.ofValue v = .ok n → NodeStands .tree n p → Stands .term v p
  | condition {v : Value} {n : Node} {p : Phrase} :
    Node.ofValue v = .ok n → NodeStands .condition n p → Stands .condition v p
  | item {v : Value} {p : Phrase} :
    Clause.direction? v = none → Stands .term v p → Stands .item v p
  | directed {v w : Value} {d : Direction} {p : Phrase} :
    Clause.direction? v = some d → v.operands = [w] → Stands .term w p →
      Stands .item v (.directed d p)

/-- Values stand for phrases.  Lists among them are spread. -/
inductive StandsAll : Slot → List Value → List Phrase → Prop
  | nil (s : Slot) : StandsAll s [] []
  | cons {s : Slot} {v : Value} {p : Phrase} {vs : List Value} {ps : List Phrase} :
    Stands s v p → StandsAll s vs ps → StandsAll s (v :: vs) (p :: ps)
  | spread {s : Slot} {v w : Value} {ws vs : List Value} {ps qs : List Phrase} :
    s ≠ .condition → Clause.direction? v = none → Listed v (w :: ws) →
      StandsAll .term (w :: ws) ps → StandsAll s vs qs → StandsAll s (v :: vs) (ps ++ qs)

/-- A node stands for a phrase. -/
inductive NodeStands : Renderer.Place → Node → Phrase → Prop
  | name (place : Renderer.Place) {n : Node} (m : Name) :
    n.tag = Keyword.name.tag → n.args = m.segments.map .str → NodeStands place n (.name m)
  | literal (place : Renderer.Place) {n : Node} {v : Value} :
    n.tag = Keyword.value.tag → n.args = [v] → NodeStands place n (.literal v)
  /-- A list of one item. -/
  | single (place : Renderer.Place) {n : Node} {v : Value} {p : Phrase} :
    n.tag = Keyword.list.tag → n.args = [v] → Stands .term v p → NodeStands place n p
  | aliased (place : Renderer.Place) {n : Node} {p : Phrase} {a : Alias} :
    n.tag = Keyword.aliased.tag → Stands .term (n.fields.get "ident") p →
      n.fields.get "as" = .str a.text → NodeStands place n (.aliased p a)
  | comparison {n : Node} {c : Comparator} {v w : Value} {l r : Phrase} :
    defaultOperators.lookup n.tag = some c.token → n.args = [v, w] → Stands .condition v l →
      Stands .condition w r → NodeStands .condition n (.comparison c l r)
  | membership {n : Node} {negated : Bool} {v w : Value} {vs : List Value} {field : Phrase}
    {values : List Phrase} :
    n.tag = (if negated then Keyword.notIn else Keyword.isIn).tag → n.args = v :: w :: vs →
      Stands .condition v field → StandsAll .term (w :: vs) values →
      NodeStands .condition n (.membership negated field values)
  | select (place : Renderer.Place) {n : Node} {vs : List Value} {columns : List Phrase}
    {source p p₁ p₂ p₃ : Phrase} :
    n.tag = Keyword.select.tag → Shape.select n = [] → Listed (n.fields.get "columns") vs →
      StandsAll .term vs columns → Stands .term (n.fields.get "from") source →
      JoinsStand (n.fields.get? "join") (.select columns source) p →
      ClauseStands .conditions (n.fields.get? "where") p p₁ →
      ClauseStands .grouping (n.fields.get? "group_by") p₁ p₂ →
      ClauseStands .ordering (n.fields.get? "order_by") p₂ p₃ → NodeStands place n p₃

/-- The joins of a select, if there are any, stand for what they add to it. -/
inductive JoinsStand : Option Value → Phrase → Phrase → Prop
  | absent (p : Phrase) : JoinsStand none p p
  | present {v : Value} {joins : List Value} {p q : Phrase} :
    Clause.joinList v = .ok joins → JoinStandsAll joins p q → JoinsStand (some v) p q

/-- Joins stand for what they add to a select. -/
inductive JoinStandsAll : List Value → Phrase → Phrase → Prop
  | nil (p : Phrase) : JoinStandsAll [] p p
  | cons {v : Value} {n : Node} {vs : List Value} {p q r : Phrase} :
    Node.ofValue v = .ok n → JoinStands n p q → JoinStandsAll vs q r → JoinStandsAll (v :: vs) p r

/-- A join stands for what it adds to a select. -/
inductive JoinStands : Node → Phrase → Phrase → Prop
  | joined {n : Node} {vs : List Value} {table : Phrase} {conditions : List Phrase} (p : Phrase) :
    n.tag = Keyword.join.tag → n.args = [] → Stands .term (n.fields.get "tablespec") table →
      n.fields.get "using" = .null → Conjoined (n.fields.get "on") vs →
      StandsAll .condition vs conditions → JoinStands n p (.joined p table conditions)
  | shared {n : Node} {table : Phrase} {columns : List Phrase} (p : Phrase) :
    n.tag = Keyword.join.tag → n.args = [] → Stands .term (n.fields.get "tablespec") table →
      n.fields.get "on" = .null → n.fields.get "using" ≠ .null →
      StandsAll .term [n.fields.get "using"] columns → JoinStands n p (.shared p table columns)

/-- A clause of a select, if it is there, stands for what it adds to the select. -/
inductive ClauseStands : ClauseKind → Option Value → Phrase → Phrase → Prop
  | absent (k : ClauseKind) (p : Phrase) : ClauseStands k none p p
  | present {k : ClauseKind} {v : Value} {vs : List Value} {items : List Phrase} (p : Phrase) :
    k.Items v vs → StandsAll k.slot vs items → ClauseStands k (some v) p (.clause p k items)

end

/-- What is asked for is a phrase: an expression, a tree or a select. -/
inductive Asked : Renderer.Request → Value → Phrase → Prop
  | expression {v : Value} {p : Phrase} : Stands .condition v p → Asked .expression v p
  | tree {v : Value} {p : Phrase} : Stands .term v p → Asked .tree v p
  | select {v : Value} {n : Node} {p : Phrase} :
    Node.ofValue v (some Keyword.select.tag) = .ok n → n.tag = Keyword.select.tag →
      NodeStands .tree n p → Asked .select v p

end QueryTree.Phrase
