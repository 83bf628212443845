import QueryTree.Proofs.Template

/-!
# Updates

An update has a table, assignments, and conditions if their key is there.  Each
assignment has a target and a value.  Rendered on its own, each of these parts has a
result (`UpdateParts`), and the text of the update is made of their texts:

* `UPDATE` and the table, `SET` and the assignments in the order of their sequence, with
  the separator of lists between them, and `WHERE` and the conditions.

The literals of the update are those of its parts as well, but not in the order of the
text.  Those of the assignments come before those of the table.

The main statement is `Renderer.update_composed`.  An update is rendered exactly if its
shape is right and each of its parts is rendered on its own.  Its literals come in the
order of the text if the table or the assignments have none, and if they are all
different, only then.
-/

namespace QueryTree

open Rendering (each eachJoined Gives Regular)

/-- A pair is what its sequence holds. -/
theorem Shape.sequence?_of_pair? {v : Value} {pair : Value × Value} (h : pair? v = some pair) :
    v.sequence? = some [pair.1, pair.2] := by
  unfold pair? at h
  split at h
  · next target value hseq =>
      split at h
      · obtain rfl := Option.some.inj h
        exact hseq
      · cases h
  · cases h

namespace Renderer

/-! ## Results of renderings -/

theorem write_joined (p separator : String) :
    ∀ parts : List Sql, Sql.write p (Sql.joined separator parts) =
      separator.intercalate (parts.map (Sql.write p))
  | [] => rfl
  | [part] => by rw [Sql.joined, List.map_singleton, String.intercalate_singleton]
  | part :: next :: more => by
      have hcons : Sql.joined separator (part :: next :: more) =
          part ++ .text separator :: Sql.joined separator (next :: more) := rfl
      have ih := write_joined p separator (next :: more)
      rw [List.map_cons] at ih
      rw [hcons, List.map_cons, List.map_cons, String.intercalate_cons_cons, ← ih, Sql.write,
        List.map_append, String.join_append, List.map_cons, String.join_cons, String.append_assoc]
      rfl

variable (r : Renderer)

/-- Three renderings in a row end with a result if each does on its own, and then with
their literals in a row. -/
theorem result_three_iff {x y z : Rendering Sql} (hx : Regular x) (hy : Regular y)
    (hz : Regular z) {arrange : Sql → Sql → Sql → Sql} {text : String → String → String → String}
    (htext : ∀ a b c, (arrange a b c).write r.settings.placeholder =
      text (a.write r.settings.placeholder) (b.write r.settings.placeholder)
        (c.write r.settings.placeholder)) {result : Result} :
    r.result (do let a ← x; let b ← y; let c ← z; return arrange a b c) = .ok result ↔
      ∃ first second third, r.result x = .ok first ∧ r.result y = .ok second ∧
        r.result z = .ok third ∧
        result = ⟨text first.sql second.sql third.sql, first.binds ++ second.binds ++ third.binds⟩ := by
  have hlast : ∀ a b : Sql, Regular (z >>= fun c => pure (arrange a b c)) := fun _ _ =>
    hz.bind fun _ => Rendering.regular_pure _
  have hrest : ∀ a : Sql, Regular (y >>= fun b => z >>= fun c => pure (arrange a b c)) := fun a =>
    hy.bind fun b => hlast a b
  rw [r.result_eq_ok_iff (hx.bind hrest)]
  simp only [r.result_eq_ok_iff hx, r.result_eq_ok_iff hy, r.result_eq_ok_iff hz]
  constructor
  · rintro ⟨sql, hsql, hwrite⟩
    obtain ⟨a, ra, _, ha, hnext, hbinds⟩ := hsql.bind_ok_inv hx hrest
    obtain ⟨b, rb, _, hb, hnext', rfl⟩ := hnext.bind_ok_inv hy (hlast a)
    obtain ⟨c, rc, _, hc, harranged, rfl⟩ :=
      hnext'.bind_ok_inv hz fun _ => Rendering.regular_pure _
    obtain ⟨heq, rfl⟩ := harranged.unique (Rendering.gives_pure _)
    obtain rfl := Except.ok.inj heq
    refine ⟨r.written (a, ra), r.written (b, rb), r.written (c, rc), ⟨a, ha, rfl⟩, ⟨b, hb, rfl⟩,
      ⟨c, hc, rfl⟩, ?_⟩
    obtain ⟨written, binds⟩ := result
    dsimp only at hwrite hbinds
    rw [hwrite, hbinds, htext, List.append_nil, ← List.append_assoc]
    rfl
  · rintro ⟨first, second, third, ⟨a, ha, hfirst⟩, ⟨b, hb, hsecond⟩, ⟨c, hc, hthird⟩, rfl⟩
    refine ⟨arrange a b c, ?_, by rw [htext, hfirst, hsecond, hthird]⟩
    have hall : Gives (x >>= fun a => y >>= fun b => z >>= fun c => pure (arrange a b c))
        (.ok (arrange a b c)) (first.binds ++ (second.binds ++ (third.binds ++ []))) :=
      Rendering.gives_bind_ok ha (Rendering.gives_bind_ok hb
        (Rendering.gives_bind_ok hc (Rendering.gives_pure (arrange a b c))))
    rwa [List.append_nil, ← List.append_assoc] at hall

/-- A rendering that only changes the SQL of another ends with a result if that does. -/
theorem result_map_iff {x : Rendering Sql} {arrange : Sql → Sql} {text : String → String}
    (htext : ∀ a, (arrange a).write r.settings.placeholder = text (a.write r.settings.placeholder))
    {result : Result} :
    r.result (do let a ← x; return arrange a) = .ok result ↔
      ∃ first, r.result x = .ok first ∧ result = ⟨text first.sql, first.binds⟩ := by
  simp only [Renderer.result, Rendering.outcome_bind]
  obtain ⟨answer, recorded⟩ := x.outcome []
  cases answer with
  | error e =>
      constructor
      · intro h
        cases h
      · rintro ⟨_, h, -⟩
        cases h
  | ok a =>
      constructor
      · intro h
        obtain rfl := Except.ok.inj h
        refine ⟨_, rfl, ?_⟩
        rw [← htext]
        rfl
      · rintro ⟨first, h, rfl⟩
        obtain rfl := Except.ok.inj h
        rw [← htext]
        rfl

/-- Items with a separator between them end with a result if each does on its own. -/
theorem result_eachJoined_iff {α : Type} {f : α → Rendering Sql} (hf : ∀ a, Regular (f a))
    {separator : String} {items : List α} {result : Result} :
    r.result (eachJoined separator f items) = .ok result ↔
      ∃ parts, List.Forall₂ (fun a part => r.result (f a) = .ok part) items parts ∧
        result = ⟨separator.intercalate (parts.map (·.sql)), parts.flatMap (·.binds)⟩ := by
  have heach : Regular (each f items) := Rendering.closed_regular.each fun a _ => hf a
  rw [eachJoined, r.result_eq_ok_iff (heach.bind fun _ => Rendering.regular_pure _)]
  constructor
  · rintro ⟨sql, hsql, hwrite⟩
    obtain ⟨sqls, recorded, _, hsqls, hjoined, hbinds⟩ :=
      hsql.bind_ok_inv heach fun _ => Rendering.regular_pure _
    obtain ⟨heq, rfl⟩ := hjoined.unique (Rendering.gives_pure _)
    obtain rfl := Except.ok.inj heq
    obtain ⟨parts, hparts, rfl, rfl⟩ := (Rendering.gives_each_ok_iff hf).mp hsqls
    refine ⟨parts.map r.written, ?_, ?_⟩
    · rw [List.forall₂_map_right_iff]
      exact hparts.imp fun a p hp => (r.result_eq_ok_iff (hf a)).mpr ⟨p.1, hp, rfl⟩
    · obtain ⟨written, binds⟩ := result
      dsimp only at hwrite hbinds
      rw [hwrite, hbinds, write_joined, List.append_nil, List.map_map, List.map_map,
        List.flatMap_map]
      rfl
  · rintro ⟨parts, hparts, rfl⟩
    have hpieces : ∃ pieces : List (Sql × List Value),
        List.Forall₂ (fun a p => Gives (f a) (.ok p.1) p.2) items pieces ∧
          parts = pieces.map r.written := by
      induction hparts with
      | nil => exact ⟨[], .nil, rfl⟩
      | @cons a part _ _ ha _ ih =>
          obtain ⟨sql, hsql, htext⟩ := (r.result_eq_ok_iff (hf a)).mp ha
          obtain ⟨pieces, hpieces, rfl⟩ := ih (Rendering.closed_regular.each fun a _ => hf a)
          refine ⟨(sql, part.binds) :: pieces, .cons hsql hpieces, ?_⟩
          rw [List.map_cons, written, ← htext]
    obtain ⟨pieces, hpieces, rfl⟩ := hpieces
    have hsqls := (Rendering.gives_each_ok_iff hf).mpr ⟨pieces, hpieces, rfl, rfl⟩
    have hall : Gives (each f items >>= fun sqls => pure (Sql.joined separator sqls))
        (.ok (Sql.joined separator (pieces.map (·.1)))) (pieces.flatMap (·.2) ++ []) :=
      Rendering.gives_bind_ok hsqls (Rendering.gives_pure _)
    refine ⟨Sql.joined separator (pieces.map (·.1)), ?_, ?_⟩
    · rw [List.append_nil] at hall
      rw [List.flatMap_map]
      exact hall
    · rw [write_joined, List.map_map, List.map_map]
      rfl

/-! ## Parts -/

/-- The results of the parts of an update. -/
structure UpdateParts where
  /-- The table. -/
  table : Result
  /-- The target and the value of each assignment. -/
  assigned : List (Result × Result)
  /-- The conditions, if their key is there. -/
  conditions : Option Result

namespace UpdateParts

/-- The text of an assignment. -/
def assignment (a : Result × Result) : String := a.1.sql ++ " = " ++ a.2.sql

/-- The text of conditions that may be left out. -/
def conditionText : Option Result → String
  | some conditions => " WHERE " ++ conditions.sql
  | none => ""

/-- The literals of conditions that may be left out. -/
def conditionBinds : Option Result → List Value
  | some conditions => conditions.binds
  | none => []

/-- The text of an update with these parts. -/
def sql (separator : String) (p : UpdateParts) : String :=
  "UPDATE " ++ p.table.sql ++ " SET " ++ separator.intercalate (p.assigned.map assignment) ++
    conditionText p.conditions

/-- The literals of the assignments: those of each target and those of its value. -/
def assignedBinds (p : UpdateParts) : List Value :=
  p.assigned.flatMap fun a => a.1.binds ++ a.2.binds

/-- The literals in the order in which the parts are rendered. -/
def recorded (p : UpdateParts) : List Value :=
  p.assignedBinds ++ p.table.binds ++ conditionBinds p.conditions

/-- The literals in the order of the text. -/
def inText (p : UpdateParts) : List Value :=
  p.table.binds ++ p.assignedBinds ++ conditionBinds p.conditions

/-- Both orders are the same if the table or the assignments have no literals, and if
the literals are all different, only then. -/
theorem recorded_eq_inText (p : UpdateParts) :
    (p.table.binds = [] ∨ p.assignedBinds = [] → p.recorded = p.inText) ∧
      (p.recorded.Nodup → p.recorded = p.inText → p.table.binds = [] ∨ p.assignedBinds = []) := by
  constructor
  · intro h
    rw [recorded, inText]
    rcases h with h | h
    · rw [h, List.nil_append, List.append_nil]
    · rw [h, List.nil_append, List.append_nil]
  · intro hnodup heq
    have hswap : p.assignedBinds ++ p.table.binds = p.table.binds ++ p.assignedBinds :=
      List.append_cancel_right heq
    rw [recorded, hswap] at hnodup
    exact (eq_nil_or_eq_nil_of_swap hswap (.refl _) (List.nodup_append.mp hnodup).1).symm

end UpdateParts

/-- An item of a set is a target and a value, and each has a result on its own. -/
def Assigns (item : Value) (a : Result × Result) : Prop :=
  ∃ target value, item.sequence? = some [target, value] ∧ r.render .tree target = .ok a.1 ∧
    r.render .tree value = .ok a.2

/-- The parts of an update have these results on their own. -/
structure Composes (n : Node) (p : UpdateParts) : Prop where
  table : r.render .tree (n.fields.get "table") = .ok p.table
  assigned : List.Forall₂ r.Assigns ((n.fields.get "set").sequence?.getD []) p.assigned
  conditions : Option.Rel (fun v c => r.result (r.conditionTree v) = .ok c)
    (n.fields.get? "where") p.conditions

/-! ## Assignments -/

theorem regular_assignment (pair : Value × Value) :
    Regular (Statement.assignment r.operands pair) :=
  (r.regular_operands .tree pair.1).bind fun _ =>
    (r.regular_operands .tree pair.2).bind fun _ => Rendering.regular_pure _

/-- An assignment ends with a result if its target and its value do on their own. -/
theorem result_assignment_iff {pair : Value × Value} {result : Result} :
    r.result (Statement.assignment r.operands pair) = .ok result ↔
      ∃ a : Result × Result, r.render .tree pair.1 = .ok a.1 ∧ r.render .tree pair.2 = .ok a.2 ∧
        result = ⟨UpdateParts.assignment a, a.1.binds ++ a.2.binds⟩ := by
  have hfill : Statement.assignment r.operands pair =
      r.fill [.clause .tree pair.1, .text " = ", .clause .tree pair.2] := by
    simp [Statement.assignment, fill, Rendering.each_cons, Slot.rendering, r.perform_tree, Sql.ofText]
  rw [hfill, r.result_fill_iff]
  constructor
  · rintro ⟨parts, hparts, rfl⟩
    obtain ⟨target, _, htarget, rfl, h₁⟩ := Slot.filled_clause_inv hparts
    obtain ⟨_, rfl, h₂⟩ := Slot.filled_text_inv h₁
    obtain ⟨value, _, hvalue, rfl, ⟨⟩⟩ := Slot.filled_clause_inv h₂
    refine ⟨(target, value), htarget, hvalue, ?_⟩
    simp [Result.joined, UpdateParts.assignment, String.append_assoc]
  · rintro ⟨a, htarget, hvalue, rfl⟩
    refine ⟨[a.1, ⟨" = ", []⟩, a.2],
      .cons (.clause htarget) (.cons (.text _) (.cons (.clause hvalue) .nil)), ?_⟩
    simp [Result.joined, UpdateParts.assignment, String.append_assoc]

/-- The items of a set have the results of its assignments. -/
theorem forall₂_assignments_iff {items : List Value} {i : Nat}
    (hshape : Shape.assignments i items = []) {results : List Result} :
    List.Forall₂ (fun pair part => r.result (Statement.assignment r.operands pair) = .ok part)
        (items.filterMap Shape.pair?) results ↔
      ∃ as, List.Forall₂ r.Assigns items as ∧
        results = as.map fun a => ⟨UpdateParts.assignment a, a.1.binds ++ a.2.binds⟩ := by
  induction items generalizing i results with
  | nil =>
      constructor
      · intro h
        cases h
        exact ⟨[], .nil, rfl⟩
      · rintro ⟨as, has, rfl⟩
        cases has
        exact .nil
  | cons item items ih =>
      rw [Shape.assignments, List.append_eq_nil_iff] at hshape
      obtain ⟨pair, hpair, hseq⟩ : ∃ pair, Shape.pair? item = some pair ∧
          item.sequence? = some [pair.1, pair.2] := by
        have hsome : (Shape.pair? item).isSome = true := by
          by_contra hnone
          simp [hnone] at hshape
        obtain ⟨pair, hpair⟩ := Option.isSome_iff_exists.mp hsome
        exact ⟨pair, hpair, Shape.sequence?_of_pair? hpair⟩
      rw [List.filterMap_cons_some hpair]
      constructor
      · intro h
        cases h with
        | cons hfirst hrest =>
            obtain ⟨a, ht, hv, rfl⟩ := r.result_assignment_iff.mp hfirst
            obtain ⟨as, has, rfl⟩ := (ih hshape.2).mp hrest
            exact ⟨a :: as, .cons ⟨_, _, hseq, ht, hv⟩ has, rfl⟩
      · rintro ⟨as, has, rfl⟩
        cases has with
        | cons hfirst hrest =>
            obtain ⟨target, value, hitem, ht, hv⟩ := hfirst
            obtain ⟨rfl, hvalue⟩ := List.cons.inj (Option.some.inj (hseq.symm.trans hitem))
            obtain rfl := List.head_eq_of_cons_eq hvalue
            exact .cons (r.result_assignment_iff.mpr ⟨_, ht, hv, rfl⟩)
              ((ih hshape.2).mpr ⟨_, hrest, rfl⟩)

/-! ## Updates -/

theorem conditionTree_eq_conditions (v : Value) :
    r.conditionTree v = Clause.conditions r.settings r.operands v := by
  rw [conditionTree_eq, Piece.renderAll_conditions]

theorem regular_conditionTree (v : Value) : Regular (r.conditionTree v) := by
  rw [conditionTree_eq]
  exact Piece.regular_renderAll r.steady_operands _

/-- The conditions of a statement, after a space if they are there. -/
def spacedConditions (n : Node) : Rendering Sql := do
  let parts ← Statement.conditions r.settings r.operands n
  return parts.flatMap (.text " " :: ·)

theorem regular_spacedConditions (n : Node) : Regular (r.spacedConditions n) := by
  rw [spacedConditions, Statement.conditions, Statement.optional]
  cases n.fields.get? "where" with
  | none => exact Rendering.regular_pure _
  | some v =>
      simp only [Clause.whereConditions, ← r.conditionTree_eq_conditions, bind_assoc, pure_bind]
      exact (r.regular_conditionTree v).bind fun _ => Rendering.regular_pure _

/-- Conditions after a space have the result of the conditions on their own. -/
theorem result_spacedConditions_iff {n : Node} {result : Result} :
    r.result (r.spacedConditions n) = .ok result ↔
      ∃ c, Option.Rel (fun v c => r.result (r.conditionTree v) = .ok c) (n.fields.get? "where") c ∧
        result = ⟨UpdateParts.conditionText c, UpdateParts.conditionBinds c⟩ := by
  rw [spacedConditions, Statement.conditions, Statement.optional]
  cases n.fields.get? "where" with
  | none =>
      constructor
      · intro h
        obtain rfl := Except.ok.inj h
        exact ⟨none, .none, rfl⟩
      · rintro ⟨c, hc, rfl⟩
        cases hc
        rfl
  | some v =>
      have htext : ∀ a : Sql, Sql.write r.settings.placeholder (.text " " :: .text "WHERE " :: a) =
          " WHERE " ++ a.write r.settings.placeholder := by
        intro a
        simp [Sql.write, Sql.writeFragment, ← String.append_assoc]
      simp only [Clause.whereConditions, ← r.conditionTree_eq_conditions, bind_assoc, pure_bind,
        List.flatMap_singleton]
      rw [r.result_map_iff htext]
      constructor
      · rintro ⟨c, hc, rfl⟩
        exact ⟨some c, .some hc, rfl⟩
      · rintro ⟨c, hc, rfl⟩
        cases hc with
        | some hc => exact ⟨_, hc, rfl⟩

/-- The SQL of an update, made of that of its parts. -/
def arrangedUpdate (assigned table conditions : Sql) : Sql :=
  [.text "UPDATE", .text " "] ++ table ++ [.text " ", .text "SET", .text " "] ++ assigned ++ conditions

theorem write_arrangedUpdate (p : String) (assigned table conditions : Sql) :
    Sql.write p (arrangedUpdate assigned table conditions) =
      "UPDATE " ++ table.write p ++ " SET " ++ assigned.write p ++ conditions.write p := by
  have hupdate : ∀ t, "UPDATE" ++ (" " ++ t) = "UPDATE " ++ t := fun t =>
    String.append_assoc.symm
  have hset : ∀ t, " " ++ ("SET" ++ (" " ++ t)) = " SET " ++ t := by
    intro t
    rw [← String.append_assoc, ← String.append_assoc]
    rfl
  simp [arrangedUpdate, Sql.write, Sql.writeFragment, String.append_assoc, hupdate, hset]

/-- An update whose shape is right is its assignments, its table and its conditions, rendered
in this order. -/
theorem update_eq_arranged {n : Node} (hshape : Shape.update n = []) :
    Statement.update r.settings r.operands n = (do
      let assigned ← eachJoined r.settings.listSeparator (Statement.assignment r.operands)
        (Statement.assignments n)
      let table ← r.operands.tree (n.fields.get "table")
      let conditions ← r.spacedConditions n
      return arrangedUpdate assigned table conditions) := by
  rw [Statement.update, hshape, Statement.checked, spacedConditions]
  simp [Outline.joined_cons_spaced, Sql.ofText, arrangedUpdate]

theorem assignments_eq_nil_of_update {n : Node} (hshape : Shape.update n = []) :
    Shape.assignments 0 ((n.fields.get "set").sequence?.getD []) = [] := by
  rw [Shape.update, List.append_eq_nil_iff] at hshape
  split at hshape
  · next v rest hset =>
      rw [hset]
      exact hshape.2
  · cases hshape.2

/-- An update whose shape is right ends with a result if its parts do on their own. -/
theorem result_update_iff {n : Node} (hshape : Shape.update n = []) {result : Result} :
    r.result (Statement.update r.settings r.operands n) = .ok result ↔
      ∃ p, r.Composes n p ∧ result = ⟨p.sql r.settings.listSeparator, p.recorded⟩ := by
  have hitems := assignments_eq_nil_of_update hshape
  have hassigned : Regular (eachJoined r.settings.listSeparator (Statement.assignment r.operands)
      (Statement.assignments n)) :=
    (Rendering.closed_regular.each fun pair _ => r.regular_assignment pair).bind
      fun _ => Rendering.regular_pure _
  have htable : Regular (r.operands.tree (n.fields.get "table")) := r.regular_operands .tree _
  let text (assigned table conditions : String) : String :=
    "UPDATE " ++ table ++ " SET " ++ assigned ++ conditions
  rw [r.update_eq_arranged hshape, @result_three_iff r _ _ _ hassigned htable
    (r.regular_spacedConditions n) _ text (write_arrangedUpdate r.settings.placeholder)]
  simp only [r.result_eachJoined_iff r.regular_assignment, r.result_spacedConditions_iff,
    ← r.perform_tree]
  constructor
  · rintro ⟨_, table, _, ⟨parts, hparts, rfl⟩, htarget, ⟨c, hc, rfl⟩, rfl⟩
    obtain ⟨as, has, rfl⟩ := (r.forall₂_assignments_iff hitems).mp hparts
    refine ⟨⟨table, as, c⟩, ⟨htarget, has, hc⟩, ?_⟩
    simp only [UpdateParts.sql, UpdateParts.recorded, UpdateParts.assignedBinds, List.map_map,
      List.flatMap_map]
    rfl
  · rintro ⟨p, ⟨htarget, has, hc⟩, rfl⟩
    refine ⟨_, p.table, _, ⟨_, (r.forall₂_assignments_iff hitems).mpr ⟨_, has, rfl⟩, rfl⟩, htarget,
      ⟨_, hc, rfl⟩, ?_⟩
    simp only [UpdateParts.sql, UpdateParts.recorded, UpdateParts.assignedBinds, List.map_map,
      List.flatMap_map]
    rfl

/-- The shape of an update that ends with SQL is right. -/
theorem shape_of_gives {n : Node} {sql : Sql} {recorded : List Value}
    (h : Gives (Statement.update r.settings r.operands n) (.ok sql) recorded) :
    Shape.update n = [] := by
  cases hshape : Shape.update n with
  | nil => rfl
  | cons issue rest =>
      rw [Statement.update, hshape] at h
      cases (h.unique (Rendering.gives_fail _)).1

/-- The update that a map stands for. -/
def updateNode (entries : Fields) : Node :=
  { tag := Keyword.update.tag, fields := entries.without "type" }

/-- With the built-in tables, a map is rendered as an update if its type allows it, its
shape is right and each of its parts is rendered on its own.  The text is that of its
parts, and so are the literals, but those of the assignments come before those of the
table.  That is the order of the text if one of the two has none, and if the literals are
all different, only then. -/
theorem update_composed (s : Settings) (entries : Fields) :
    (∀ result, (of s none none).render .update (.map entries) = .ok result ↔
      Keyword.update.Names entries ∧ Shape.update (updateNode entries) = [] ∧
        ∃ p, (of s none none).Composes (updateNode entries) p ∧
          result = ⟨p.sql s.listSeparator, p.recorded⟩) ∧
    ∀ p : UpdateParts, (of s none none).Composes (updateNode entries) p →
      (p.table.binds = [] ∨ p.assignedBinds = [] → p.recorded = p.inText) ∧
        (p.recorded.Nodup → p.recorded = p.inText → p.table.binds = [] ∨ p.assignedBinds = []) := by
  refine ⟨fun result => ?_, fun p _ => p.recorded_eq_inText⟩
  have hupdate : ∀ h : Keyword.update.Names entries,
      (of s none none).perform (.map entries) .update =
        Statement.update s (of s none none).operands (updateNode entries) := fun h =>
    (of s none none).statement_eq_render (h := .update) rfl h
  constructor
  · intro h
    obtain ⟨sql, hsql, -⟩ :=
      ((of s none none).result_eq_ok_iff ((of s none none).regular_perform _ .update)).mp h
    have hnames : Keyword.update.Names entries := (of s none none).names_of_statement hsql
    rw [hupdate hnames] at hsql
    have hshape := (of s none none).shape_of_gives hsql
    rw [render, hupdate hnames] at h
    exact ⟨hnames, hshape, ((of s none none).result_update_iff hshape).mp h⟩
  · rintro ⟨hnames, hshape, hparts⟩
    rw [render, hupdate hnames]
    exact ((of s none none).result_update_iff hshape).mpr hparts

/-- An update of one column, under a condition. -/
def conditionalUpdate : Fields :=
  [(.str "table", .list [.str "-name", .str "t"]),
    (.str "set", .list [.list [.list [.str "-name", .str "a"], .list [.str "-value", .int 1]]]),
    (.str "where", .list [.list [.str "=", .list [.str "-name", .str "b"],
      .list [.str "-value", .int 2]]])]

/-- The literals of an update of a named table come in the order of its text. -/
theorem update_composed_conditional :
    ∃ p, (of {} none none).Composes (updateNode conditionalUpdate) p ∧
      (⟨"UPDATE t SET a = ? WHERE b = ?", [.int 1, .int 2]⟩ : Result) = ⟨p.sql ", ", p.recorded⟩ ∧
      p.recorded = p.inText := by
  have hcomposed := update_composed {} conditionalUpdate
  obtain ⟨-, -, p, hp, hresult⟩ :=
    (hcomposed.1 ⟨"UPDATE t SET a = ? WHERE b = ?", [.int 1, .int 2]⟩).mp rfl
  have htable : p.table.binds = [] := by
    have hname : (of {} none none).render .tree (.list [.str "-name", .str "t"]) =
        .ok ⟨"t", []⟩ := rfl
    have heq := hname.symm.trans hp.table
    rw [← Except.ok.inj heq]
  exact ⟨p, hp, hresult, (hcomposed.2 p hp).1 (Or.inl htable)⟩

/-- An update of a literal under another name. -/
def literalUpdate : Fields :=
  [(.str "table", .list [.str "-alias", .list [.str "-value", .int 1], .str "t"]),
    (.str "set", .list [.list [.list [.str "-name", .str "a"], .list [.str "-value", .int 2]]])]

/-- The literals of an update may come in another order than its text. -/
theorem update_recorded_crosswise :
    ∃ result p, (of {} none none).render .update (.map literalUpdate) = .ok result ∧
      (of {} none none).Composes (updateNode literalUpdate) p ∧ result.sql = p.sql ", " ∧
      result.sql = "UPDATE ? AS t SET a = ?" ∧ result.binds = [.int 2, .int 1] ∧
      p.inText = [.int 1, .int 2] := by
  refine ⟨⟨"UPDATE ? AS t SET a = ?", [.int 2, .int 1]⟩,
    ⟨⟨"? AS t", [.int 1]⟩, [(⟨"a", []⟩, ⟨"?", [.int 2]⟩)], none⟩, rfl, ⟨rfl, ?_, .none⟩, rfl, rfl, rfl,
    rfl⟩
  exact .cons ⟨_, _, rfl, rfl, rfl⟩ .nil

end Renderer

end QueryTree
