import QueryTree.Proofs.Outline

/-!
# The outlines of the handlers

`Handler.outline` gives the outline of a node for each handler, and
`Handler.render_eq_outline` says that the handler renders the node that way.

The pieces of a clause are given beside one lemma that the clause is rendered
from them.  A statement's clauses are groups of pieces with spaces between them.
-/

namespace QueryTree

open Rendering (each fail fault ofExcept)

namespace Piece

/-! ## Clauses -/

/-- Values as trees of their own, one group each. -/
def trees (vs : List Value) : List (List Piece) := vs.map fun v => [below .tree v]

/-- The piece of a word of conditions. -/
def ofWord : Condition.Word → Piece
  | .atom v => below .condition v
  | .constant holds => text (if holds then Condition.always else Condition.never)
  | .connective c => text (" " ++ c.word ++ " ")
  | .opening => text "("
  | .closing => text ")"
  | .unranked c => stop (.unranked c)
  | .invalid v => stop (.structural (.notCondition v))

/-- The pieces of the conditions of a value. -/
def conditions (s : Settings) (v : Value) : List Piece :=
  match Condition.ofValue v with
  | .ok tree => (tree.words s.rank).map ofWord
  | .error f => [stop (.structural f)]

/-- The pieces of an item of an ordering. -/
def orderItem (item : Value) : List Piece :=
  match Clause.direction? item with
  | none => [below .tree item]
  | some direction =>
    match item.operands with
    | [v] => [below .tree v, text (" " ++ direction.word)]
    | _ => [stop (.structural (.directionOperands direction.tag))]

/-- The pieces of an ordering of items. -/
def orderItems (items : List Value) : List Piece :=
  text "ORDER BY " :: separated ", " (items.map orderItem)

/-- The pieces of a grouping by items. -/
def groupItems (items : List Value) : List Piece :=
  text "GROUP BY " :: separated ", " (trees items)

/-- The pieces of an assignment. -/
def assignment (pair : Value × Value) : List Piece :=
  [below .tree pair.1, text " = ", below .tree pair.2]

section

variable (b : Below)

theorem renderWord_eq (w : Condition.Word) :
    Condition.renderWord b.condition w = (ofWord w).render b := by
  cases w <;> rfl

theorem renderAll_trees (separator : String) (vs : List Value) :
    renderAll b (separated separator (trees vs)) = Rendering.eachJoined separator b.tree vs := by
  rw [renderAll_separated, trees, Rendering.each_map]
  simp only [renderAll_below, at_tree, Rendering.eachJoined]

theorem renderAll_conditions (s : Settings) (v : Value) :
    renderAll b (conditions s v) = Clause.conditions s b v := by
  unfold conditions Clause.conditions
  cases Condition.ofValue v with
  | error f => simp [fault]
  | ok tree =>
      simp only [Rendering.ofExcept_ok, pure_bind, renderAll, Condition.renderWords,
        Rendering.each_map]
      rw [Rendering.each_congr fun w _ => renderWord_eq b w]

theorem renderAll_whereConditions (s : Settings) (v : Value) :
    renderAll b (text "WHERE " :: conditions s v) = Clause.whereConditions s b v := by
  rw [renderAll_text, renderAll_conditions, Clause.whereConditions, map_eq_pure_bind]

theorem renderAll_orderItem (item : Value) :
    renderAll b (orderItem item) = Clause.orderItem b item := by
  unfold orderItem Clause.orderItem
  cases Clause.direction? item with
  | none => exact renderAll_below b .tree item
  | some direction =>
      match item.operands with
      | [] => exact renderAll_stop b _ []
      | [v] => simp [renderAll_cons]
      | _ :: _ :: _ => exact renderAll_stop b _ []

theorem renderAll_orderItems (items : List Value) :
    renderAll b (orderItems items) = Clause.orderItems b items := by
  rw [orderItems, renderAll_text, renderAll_separated, Rendering.each_map]
  simp only [renderAll_orderItem, Clause.orderItems, Rendering.eachJoined, map_eq_pure_bind]

theorem renderAll_groupItems (items : List Value) :
    renderAll b (groupItems items) = Clause.groupItems b items := by
  rw [groupItems, renderAll_text, renderAll_trees, Clause.groupItems, map_eq_pure_bind]

theorem renderAll_assignment (pair : Value × Value) :
    renderAll b (assignment pair) = Statement.assignment b pair := by
  simp [assignment, Statement.assignment, renderAll_cons, Sql.ofText]

/-! ## Clauses of statements -/

/-- The groups of a clause that is there if its key is. -/
def optional (n : Node) (key : String) (groups : Value → List (List Piece)) : List (List Piece) :=
  match n.fields.get? key with
  | some v => groups v
  | none => []

/-- The group of the WHERE clause of a statement. -/
def whereGroups (s : Settings) (n : Node) : List (List Piece) :=
  optional n "where" fun v => [text "WHERE " :: conditions s v]

/-- The groups of the joins of a select. -/
def joinGroups (n : Node) : List (List Piece) :=
  optional n "join" fun v =>
    match Clause.joinList v with
    | .ok found => trees found
    | .error f => [[stop (.structural f)]]

/-- The group of the grouping of a select. -/
def groupingGroups (n : Node) : List (List Piece) :=
  optional n "group_by" fun v => [groupItems (v.sequence?.getD [])]

/-- The group of the ordering of a select. -/
def orderingGroups (n : Node) : List (List Piece) :=
  optional n "order_by" fun v => [orderItems (v.sequence?.getD [])]

/-- The pieces of the columns of an insert. -/
def insertColumns (n : Node) : List Piece :=
  (optional n "columns" fun v => [[text " (", below .tree v, text ")"]]).flatten

/-- All groups of a select. -/
def selectGroups (s : Settings) (n : Node) : List (List Piece) :=
  [[text "SELECT"], [below .tree (n.fields.get "columns")], [text "FROM"],
      [below .tree (n.fields.get "from")]]
    ++ joinGroups n ++ whereGroups s n ++ groupingGroups n ++ orderingGroups n

theorem each_optional {n : Node} {key : String} {groups : Value → List (List Piece)}
    {render : Value → Rendering (List Sql)}
    (h : ∀ v, each (renderAll b) (groups v) = render v) :
    each (renderAll b) (optional n key groups) = Statement.optional n key render := by
  unfold optional Statement.optional
  cases n.fields.get? key with
  | none => rfl
  | some v => exact h v

theorem each_whereGroups (s : Settings) (n : Node) :
    each (renderAll b) (whereGroups s n) = Statement.conditions s b n := by
  apply each_optional
  intro v
  simp only [Rendering.each_cons, Rendering.each_nil, pure_bind, renderAll_whereConditions]

theorem each_joinGroups (n : Node) :
    each (renderAll b) (joinGroups n) = Statement.joins b n := by
  apply each_optional
  intro v
  cases Clause.joinList v with
  | error f => simp [Rendering.each_cons, fault]
  | ok found => simp [trees, Rendering.each_map]

theorem each_groupingGroups (n : Node) :
    each (renderAll b) (groupingGroups n) = Statement.grouping b n := by
  apply each_optional
  intro v
  simp only [Rendering.each_cons, Rendering.each_nil, pure_bind, renderAll_groupItems]

theorem each_orderingGroups (n : Node) :
    each (renderAll b) (orderingGroups n) = Statement.ordering b n := by
  apply each_optional
  intro v
  simp only [Rendering.each_cons, Rendering.each_nil, pure_bind, renderAll_orderItems]

end

end Piece

/-! ## Statements and handlers -/

namespace Outline

open Piece

/-- The outline of a statement whose shape has been checked. -/
def checked (issues : List Issue) (o : Outline) : Outline :=
  match issues with
  | [] => o
  | issues => stop (.structural (.issues issues))

theorem render_checked (b : Below) (issues : List Issue) (o : Outline) :
    (checked issues o).render b = Statement.checked issues (o.render b) := by
  cases issues with
  | nil => rfl
  | cons issue rest => exact render_stop b _

/-- A select. -/
def select (s : Settings) (n : Node) : Outline :=
  checked (Shape.select n) (straight (separated " " (selectGroups s n)))

/-- An insert. -/
def insert (n : Node) : Outline :=
  checked (Shape.insert n) (straight
    (text "INSERT INTO " :: below .tree (n.fields.get "into") :: insertColumns n
      ++ [text " VALUES (", below .tree (n.fields.get "values"), text ")"]))

/-- An update.  Its assignments are written after its table and rendered before. -/
def update (s : Settings) (n : Node) : Outline :=
  checked (Shape.update n)
    { lead := [text "UPDATE", text " "]
      late := [below .tree (n.fields.get "table")]
      early := text " " :: text "SET" :: text " " ::
        separated s.listSeparator ((Statement.assignments n).map assignment)
      rest := (whereGroups s n).flatMap (text " " :: ·) }

/-- A delete. -/
def delete (s : Settings) (n : Node) : Outline :=
  checked (Shape.delete n) (straight
    (separated " " ([[text "DELETE FROM"], [below .tree (n.fields.get "from")]] ++ whereGroups s n)))

/-- An alias. -/
def aliased (n : Node) : Outline :=
  match n.fields.get "ident", n.fields.get "as" with
  | .null, _ => stop (.structural .aliasIncomplete)
  | _, .null => stop (.structural .aliasIncomplete)
  | ident, name => straight [below .tree ident, text (" AS " ++ name.plain)]

/-- A literal. -/
def literal (n : Node) : Outline :=
  match n.args with
  | [v] => straight [.literal v]
  | args => stop (.structural (.literalCount args.length))

/-- A name. -/
def name (s : Settings) (n : Node) : Outline :=
  match Identifier.render s.activeQuotes s.nameSeparator n.args with
  | .ok t => straight [text t]
  | .error f => stop (.structural f)

/-- A comparison. -/
def comparison (s : Settings) (n : Node) : Outline :=
  match n.args with
  | [lhs, rhs] =>
    match s.operators.lookup n.tag with
    | none => stop (.unmappedOperator n.tag)
    | some token =>
      straight [below .condition lhs, text (" " ++ token ++ " "), below .condition rhs]
  | args => stop (.structural (.operandCount n.tag args.length))

/-- A membership test.  Its values are written after its field and rendered before. -/
def membership (n : Node) : Outline :=
  match n.args with
  | [] => stop (.structural (.fieldMissing n.tag))
  | [_] => straight [text Condition.never]
  | field :: values =>
    { lead := []
      late := [below .condition field]
      early := text ((if n.tag = Keyword.notIn.tag then " NOT" else "") ++ " IN (") ::
        separated ", " (trees values) ++ [text ")"] }

/-- The WHERE clause of a node. -/
def whereClause (s : Settings) (n : Node) : Outline :=
  straight (text "WHERE " :: conditions s ((n.fields.get? "where").getD (.list n.args)))

/-- A join. -/
def join (s : Settings) (n : Node) : Outline :=
  let table := n.fields.get "tablespec"
  let on := n.fields.get "on"
  let shared := n.fields.get "using"
  if !n.args.isEmpty then stop (.structural .joinNotMap)
  else if !Clause.isPresent table then stop (.structural .joinWithoutTable)
  else match Clause.isPresent on, Clause.isPresent shared with
    | true, true => stop .joinConditionTwice
    | false, false => stop .joinConditionMissing
    | true, false =>
      straight (text "JOIN " :: below .tree table :: text " ON (" :: conditions s on ++ [text ")"])
    | false, true =>
      straight [text "JOIN ", below .tree table, text " USING (", below .tree shared, text ")"]

/-- The items of an ordering or a grouping. -/
def ofItems (n : Node) (key : String) (pieces : List Value → List Piece) : Outline :=
  match Clause.items n key with
  | .ok items => straight (pieces items)
  | .error f => stop (.structural f)

end Outline

open Piece Outline in
/-- The outline of a node for a handler. -/
def Handler.outline (s : Settings) (n : Node) : Handler → Outline
  | .select => Outline.select s n
  | .insert => Outline.insert n
  | .update => Outline.update s n
  | .delete => Outline.delete s n
  | .whereClause => Outline.whereClause s n
  | .orderBy => ofItems n "order_by" orderItems
  | .groupBy => ofItems n "group_by" groupItems
  | .join => Outline.join s n
  | .list => straight (separated s.listSeparator (trees n.args))
  | .aliased => Outline.aliased n
  | .name => Outline.name s n
  | .literal => Outline.literal n
  | .always => straight [text Condition.always]
  | .never => straight [text Condition.never]
  | .comparison => Outline.comparison s n
  | .membership => Outline.membership n
  | .constant t => straight [text t]
  | .call function =>
    straight (text (function ++ "(") :: separated ", " (trees n.args) ++ [text ")"])

/-! ## Handlers follow their outlines -/

namespace Outline

open Piece

variable (s : Settings) (b : Below) (n : Node)

theorem render_select : (select s n).render b = Statement.select s b n := by
  simp only [select, render_checked, render_straight, renderAll_separated, selectGroups,
    Rendering.each_append, each_joinGroups, each_whereGroups, each_groupingGroups,
    each_orderingGroups, Rendering.each_cons, Rendering.each_nil, renderAll_text, renderAll_nil,
    renderAll_below, at_tree, Statement.select, bind_assoc, pure_bind, map_pure, Sql.ofText]

theorem render_insert : (insert n).render b = Statement.insert b n := by
  simp only [insert, render_checked, render_straight, Statement.insert, insertColumns,
    Piece.optional, Statement.optional]
  congr 1
  cases n.fields.get? "columns" with
  | none => simp [renderAll_cons, Sql.ofText]
  | some v => simp [renderAll_cons, Sql.ofText]

theorem renderAll_spaced (groups : List (List Piece)) :
    renderAll b (groups.flatMap (text " " :: ·)) = do
      let parts ← each (renderAll b) groups
      return parts.flatMap (.text " " :: ·) := by
  induction groups with
  | nil => simp
  | cons ps rest ih =>
      rw [List.flatMap_cons, renderAll_append, ih]
      simp [Rendering.each_cons]

theorem joined_cons_spaced (separator : String) :
    ∀ (part : Sql) (more : List Sql),
      Sql.joined separator (part :: more) = part ++ more.flatMap (.text separator :: ·)
  | part, [] => by simp [Sql.joined]
  | part, next :: more => by
      rw [Sql.joined, joined_cons_spaced separator next more, List.flatMap_cons]
      · rfl
      · simp

theorem render_update : (update s n).render b = Statement.update s b n := by
  rw [update, render_checked, Statement.update]
  congr 1
  simp only [Outline.render, renderAll_spaced, each_whereGroups, renderAll_text,
    renderAll_separated, Rendering.each_map, renderAll_assignment, renderAll_below, at_tree,
    renderAll_nil, Rendering.eachJoined, pure_bind, bind_assoc, map_eq_pure_bind, Sql.ofText,
    List.cons_append, List.nil_append, joined_cons_spaced]
  simp

theorem render_delete : (delete s n).render b = Statement.delete s b n := by
  simp only [delete, render_checked, render_straight, renderAll_separated, each_whereGroups,
    Rendering.each_cons, renderAll_text, renderAll_nil, renderAll_below, at_tree,
    Statement.delete, bind_assoc, pure_bind, map_pure, Sql.ofText, List.cons_append,
    List.nil_append]

theorem render_aliased : (aliased n).render b = Clause.aliased b n := by
  unfold aliased Clause.aliased
  generalize n.fields.get "ident" = ident
  generalize n.fields.get "as" = name
  by_cases hident : ident = .null
  · rw [hident]
    exact render_stop b _
  · by_cases hname : name = .null
    · rw [hname]
      cases ident <;> exact render_stop b _
    · simp [renderAll_cons, Sql.ofText]

theorem render_literal : (literal n).render b = Clause.literal n := by
  obtain ⟨tag, args, fields⟩ := n
  match args with
  | [] => exact render_stop b _
  | [v] => simp [literal, Clause.literal, renderAll_cons, Piece.render]
  | _ :: _ :: _ => exact render_stop b _

theorem render_name : (name s n).render b = Clause.name s n := by
  unfold name Clause.name
  cases Identifier.render s.activeQuotes s.nameSeparator n.args with
  | ok t => simp [Sql.ofText]
  | error f => simp [fault]

theorem render_comparison : (comparison s n).render b = Clause.comparison s b n := by
  obtain ⟨tag, args, fields⟩ := n
  match args with
  | [] => exact render_stop b _
  | [_] => exact render_stop b _
  | [lhs, rhs] =>
      simp only [comparison, Clause.comparison]
      cases s.operators.lookup tag with
      | none => exact render_stop b _
      | some token => simp [renderAll_cons, Sql.ofText]
  | _ :: _ :: _ :: _ => exact render_stop b _

theorem render_membership : (membership n).render b = Clause.membership b n := by
  obtain ⟨tag, args, fields⟩ := n
  match args with
  | [] => exact render_stop b _
  | [_] => simp [membership, Clause.membership, Sql.ofText]
  | field :: value :: values =>
      simp only [membership, Clause.membership, Outline.render, renderAll_nil, renderAll_append,
        renderAll_text, renderAll_below, renderAll_trees, List.cons_append, pure_bind,
        at_condition, bind_assoc, map_eq_pure_bind]
      simp [Sql.ofText]

theorem render_whereClause : (whereClause s n).render b = Clause.whereClause s b n := by
  rw [whereClause, render_straight, renderAll_whereConditions, Clause.whereClause]

theorem render_join : (join s n).render b = Clause.join s b n := by
  simp only [join, Clause.join]
  split
  · exact render_stop b _
  · split
    · exact render_stop b _
    · cases Clause.isPresent (n.fields.get "on") with
      | true =>
          cases Clause.isPresent (n.fields.get "using") with
          | true => exact render_stop b _
          | false => simp [renderAll_cons, renderAll_append, renderAll_conditions, Sql.ofText]
      | false =>
          cases Clause.isPresent (n.fields.get "using") with
          | true => simp [renderAll_cons, Sql.ofText]
          | false => exact render_stop b _

theorem render_ofItems (key : String) (pieces : List Value → List Piece) :
    (ofItems n key pieces).render b =
      ofExcept (Clause.items n key) >>= fun items => renderAll b (pieces items) := by
  unfold ofItems
  cases Clause.items n key with
  | ok items => simp
  | error f => simp [fault]

end Outline

open Piece Outline in
/-- A handler renders a node as its outline says. -/
theorem Handler.render_eq_outline (s : Settings) (b : Below) (n : Node) (h : Handler) :
    h.render s b n = (h.outline s n).render b := by
  cases h with
  | select => exact (Outline.render_select s b n).symm
  | insert => exact (Outline.render_insert b n).symm
  | update => exact (Outline.render_update s b n).symm
  | delete => exact (Outline.render_delete s b n).symm
  | whereClause => exact (Outline.render_whereClause s b n).symm
  | orderBy =>
      simp only [Handler.render, Handler.outline, render_ofItems, Clause.orderBy,
        renderAll_orderItems]
  | groupBy =>
      simp only [Handler.render, Handler.outline, render_ofItems, Clause.groupBy,
        renderAll_groupItems]
  | join => exact (Outline.render_join s b n).symm
  | list =>
      simp only [Handler.render, Handler.outline, render_straight, renderAll_trees, Clause.list]
  | aliased => exact (Outline.render_aliased b n).symm
  | name => exact (Outline.render_name s b n).symm
  | literal => exact (Outline.render_literal b n).symm
  | always => simp [Handler.render, Handler.outline, Sql.ofText]
  | never => simp [Handler.render, Handler.outline, Sql.ofText]
  | comparison => exact (Outline.render_comparison s b n).symm
  | membership => exact (Outline.render_membership b n).symm
  | constant t => simp [Handler.render, Handler.outline, Sql.ofText]
  | call function =>
      simp only [Handler.render, Handler.outline, render_straight, Handler.callAround,
        List.cons_append, renderAll_text, renderAll_append, renderAll_trees]
      simp [Sql.ofText]

end QueryTree
