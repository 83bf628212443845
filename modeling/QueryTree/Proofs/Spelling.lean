import QueryTree.Proofs.Endings

/-!
# Spellings of clauses

Some clauses can be spelled in several ways.

* Conditions, a grouping and an ordering are an array form, a map of their own type, or
  the value under a key of a statement.  Conditions can be asked for as such, too.
* An alias is an array form or a map.
* A join of a select is a map, whatever its type, or a sequence of that map alone, or the
  node that the map stands for as a join.

The main statement is `Renderer.spellings_agree`.  All spellings of a clause have one
result, or stop with one error.
-/

namespace QueryTree

open Phrase (ClauseKind)

/-! ## Clauses of their own -/

namespace Phrase.ClauseKind

/-- The keyword of a clause. -/
def keyword : ClauseKind → Keyword
  | conditions => .whereClause
  | grouping => .groupBy
  | ordering => .orderBy

/-- The handler of a clause. -/
def handler : ClauseKind → Handler
  | conditions => .whereClause
  | grouping => .groupBy
  | ordering => .orderBy

variable {s : Settings} {c : ClauseKind} {array v w : Value} {xs : List Value}

/-- A clause is written from its items. -/
theorem written_congr (hv : v.sequence? = some xs) (hw : w.sequence? = some xs) :
    c.written s v = c.written s w := by
  cases c with
  | conditions =>
      simp only [written, Piece.conditions, Condition.ofValue_sequence hv,
        Condition.ofValue_sequence hw]
  | grouping => simp only [written, hv, hw]
  | ordering => simp only [written, hv, hw]

/-- A node with a clause under its key has the pieces of the clause. -/
theorem outline_of_field {n : Node} (hn : n.fields.get? c.key = some v) (hv : v.sequence? = some xs) :
    c.handler.outline s n = .straight (c.written s v) := by
  cases c with
  | conditions =>
      have hwhere : n.fields.get? "where" = some v := hn
      simp [handler, Handler.outline, Outline.whereClause, hwhere, written]
  | grouping =>
      have hgroup : n.fields.get? "group_by" = some v := hn
      simp [handler, Handler.outline, Outline.ofItems, Clause.items, hgroup, hv, written]
  | ordering =>
      have horder : n.fields.get? "order_by" = some v := hn
      simp [handler, Handler.outline, Outline.ofItems, Clause.items, horder, hv, written]

/-- A node with operands by position only has the pieces of the clause of its operands. -/
theorem outline_of_args (s : Settings) (c : ClauseKind) {n : Node} (hfields : n.fields = []) :
    c.handler.outline s n = .straight (c.written s (.list n.args)) := by
  cases c <;>
    simp [handler, Handler.outline, Outline.whereClause, Outline.ofItems, Clause.items, hfields,
      Fields.get?, written, Value.sequence?]

theorem lookup_handler (s : Settings) (c : ClauseKind) :
    ((Renderer.of s none none).table .tree).lookup c.keyword.tag = some c.handler := by
  cases c <;> rfl

/-- A clause of its own is rendered from its pieces. -/
theorem perform_of_outline {n : Node} (hw : Node.ofValue w = .ok n) (htag : n.tag = c.keyword.tag)
    (houtline : c.handler.outline s n = .straight (c.written s v)) :
    (Renderer.of s none none).perform w .tree =
      Piece.renderAll (Renderer.of s none none).operands (c.written s v) := by
  have hnode := (Renderer.of s none none).perform_node .tree hw
  rw [Renderer.Place.request] at hnode
  rw [hnode, Renderer.full_eq, Renderer.outline_eq (htag ▸ lookup_handler s c)]
  exact houtline ▸ Outline.render_straight _ _

/-- The array form of a clause. -/
theorem perform_array (s : Settings) (harray : array.sequence? = some (.str c.keyword.tag :: xs))
    (hv : v.sequence? = some xs) :
    (Renderer.of s none none).perform array .tree =
      Piece.renderAll (Renderer.of s none none).operands (c.written s v) := by
  have hnode : Node.ofValue array = .ok { tag := c.keyword.tag, args := xs } := by
    rw [Node.ofValue_array none harray]
    cases c <;> rfl
  refine perform_of_outline hnode rfl ?_
  have hlist : (Value.list xs).sequence? = some xs := rfl
  rw [outline_of_args s c rfl, written_congr hv hlist]

/-- The map of a clause. -/
theorem perform_map (s : Settings) (hv : v.sequence? = some xs) :
    (Renderer.of s none none).perform (Straight.items c.key v) .tree =
      Piece.renderAll (Renderer.of s none none).operands (c.written s v) := by
  have hnode : Node.ofValue (Straight.items c.key v) =
      .ok { tag := c.keyword.tag, fields := [(.str c.key, v)] } := by
    cases c <;> rfl
  refine perform_of_outline hnode rfl (outline_of_field ?_ hv)
  rw [Fields.get?_cons_str, if_pos rfl]

end Phrase.ClauseKind

/-! ## Joins -/

/-- The values that spell the join of a select that a map stands for. -/
inductive SpellsJoin (m : Fields) : Value → Prop
  | map : SpellsJoin m (.map m)
  | typed (type : Value) : SpellsJoin m (.map (m.set "type" type))
  | listed {v : Value} : v.sequence? = some [.map m] → SpellsJoin m v
  | node {n : Node} : Node.ofValue (.map (m.set "type" (.str "join"))) = .ok n →
    SpellsJoin m n.toValue

/-- A join however it is spelled is one value, which stands for one node. -/
theorem SpellsJoin.joinList {m : Fields} {j : Value} (h : SpellsJoin m j) :
    ∃ w, Clause.joinList j = .ok [w] ∧
      Node.ofValue w = .ok { tag := Keyword.join.tag, fields := m.without "type" } := by
  have hjoin : ∀ entries : Fields, Node.ofValue (.map (entries.set "type" (.str "join"))) =
      .ok { tag := Keyword.join.tag, fields := entries.without "type" } := fun entries =>
    Node.ofValue_set_type rfl entries none
  cases h with
  | map => exact ⟨_, rfl, hjoin m⟩
  | typed type => exact ⟨_, rfl, (hjoin _).trans (by rw [Fields.without_set])⟩
  | listed hv =>
      refine ⟨.map (m.set "type" (.str "join")), ?_, hjoin m⟩
      rcases Value.sequence?_eq_some_iff.mp hv with rfl | rfl
      · rfl
      · rfl
  | @node n hn =>
      obtain rfl := Except.ok.inj ((hjoin m).symm.trans hn)
      exact ⟨_, rfl, rfl⟩

namespace Renderer

/-- Two maps with the same type are rendered alike as a statement if their nodes are. -/
theorem statement_congr (r : Renderer) {k : Keyword} {entries entries' : Fields}
    (htype : entries'.get "type" = entries.get "type")
    (h : r.full .tree { tag := k.tag, fields := entries'.without "type" } =
      r.full .tree { tag := k.tag, fields := entries.without "type" }) :
    r.statement k (.map entries') = r.statement k (.map entries) := by
  have hmap : ∀ fields : Fields, fields.get "type" = entries.get "type" →
      Node.ofValue (.map fields) (some k.tag) =
        (if (entries.get "type").isBlank then .ok (tagOfType k.tag)
          else Node.tagOf (entries.get "type")).map
            fun tag => { tag, fields := fields.without "type" } := by
    intro fields hfields
    simp only [Node.ofValue, Node.ofMap, hfields]
    split <;> rfl
  have hold := hmap entries rfl
  have hnew := hmap entries' htype
  generalize (if (entries.get "type").isBlank then Except.ok (tagOfType k.tag)
    else Node.tagOf (entries.get "type")) = tag? at hold hnew
  cases tag? with
  | error cause => rw [r.statement_of_malformed hold, r.statement_of_malformed hnew]
  | ok tag =>
      by_cases htag : tag = k.tag
      · subst htag
        rw [r.statement_of_node hold rfl, r.statement_of_node hnew rfl]
        exact h
      · rw [r.statement_of_other hold htag, r.statement_of_other hnew htag]

end Renderer

/-- Two selects are rendered alike if they differ in their joins and these are rendered
alike. -/
theorem Statement.select_congr {s : Settings} {b : Below} {n m : Node}
    (h : ∀ key, key ≠ "join" → m.fields.get? key = n.fields.get? key)
    (hjoins : Statement.joins b m = Statement.joins b n) :
    Statement.select s b m = Statement.select s b n := by
  have hcolumns : m.fields.get "columns" = n.fields.get "columns" := by
    rw [Fields.get, Fields.get, h "columns" (by decide)]
  have hsource : m.fields.get "from" = n.fields.get "from" := by
    rw [Fields.get, Fields.get, h "from" (by decide)]
  have hwhere := h "where" (by decide)
  have hgroup := h "group_by" (by decide)
  have horder := h "order_by" (by decide)
  have hshape : Shape.select m = Shape.select n := by
    rw [Shape.select, Shape.select, Shape.needsTree_congr _ (.of_eq hcolumns),
      Shape.needsTree_congr _ (.of_eq hsource), Shape.needsList_congr (.of_eq hcolumns),
      Shape.needsSequence_of_eq hwhere, Shape.needsSequence_of_eq hgroup,
      Shape.needsSequence_of_eq horder]
  simp only [Statement.select, hshape, hjoins, Statement.conditions, Statement.grouping,
    Statement.ordering, Statement.optional, hcolumns, hsource, hwhere, hgroup, horder]

namespace Renderer

/-- All spellings of a join give the same select. -/
theorem render_join (s : Settings) (entries : Fields) {m : Fields} {j j' : Value}
    (hj : SpellsJoin m j) (hj' : SpellsJoin m j') :
    (of s none none).render .select (.map (entries.set "join" j)) =
      (of s none none).render .select (.map (entries.set "join" j')) := by
  obtain ⟨w, hw, hnode⟩ := hj.joinList
  obtain ⟨w', hw', hnode'⟩ := hj'.joinList
  have hsame : (of s none none).operands.tree w = (of s none none).operands.tree w' := by
    have htree := ((of s none none).operands_at_ok .tree hnode).trans
      ((of s none none).operands_at_ok .tree hnode').symm
    exact htree
  have hget : ∀ (v : Value) (key : String), ((entries.set "join" v).without "type").get? key =
      if key = "type" then none else if key = "join" then some v else entries.get? key := by
    intro v key
    rw [Fields.get?_without, Fields.get?_set]
  have hjoins : ∀ {v u : Value}, Clause.joinList v = .ok [u] →
      Statement.joins (of s none none).operands
        { tag := Keyword.select.tag, fields := (entries.set "join" v).without "type" } = do
          let part ← (of s none none).operands.tree u
          return [part] := by
    intro v u hv
    simp [Statement.joins, Statement.optional, hget, hv, Rendering.each_cons]
  have hlookup : ((of s none none).table .tree).lookup Keyword.select.tag = some .select := rfl
  have htype : (entries.set "join" j).get "type" = (entries.set "join" j').get "type" := by
    rw [Fields.get, Fields.get, Fields.get?_set, Fields.get?_set, if_neg (by decide),
      if_neg (by decide)]
  have hfull : (of s none none).full .tree
        { tag := Keyword.select.tag, fields := (entries.set "join" j).without "type" } =
      (of s none none).full .tree
        { tag := Keyword.select.tag, fields := (entries.set "join" j').without "type" } := by
    rw [full_eq_render _ hlookup, full_eq_render _ hlookup]
    refine Statement.select_congr (fun key hkey => ?_) ?_
    · rw [hget, hget, if_neg hkey, if_neg hkey]
    · rw [hjoins hw, hjoins hw', hsame]
  exact congrArg (of s none none).result ((of s none none).statement_congr htype hfull)

/-! ## All spellings -/

/-- Values that stand for one node are rendered alike. -/
theorem render_of_node (r : Renderer) (place : Place) {v w : Value} {n : Node}
    (hv : Node.ofValue v = .ok n) (hw : Node.ofValue w = .ok n) :
    r.render place.request v = r.render place.request w := by
  rw [render, render, r.perform_node place hv, r.perform_node place hw]

/-- With the built-in tables, the spellings of a clause have one result or one error.

A clause of its own is an array form or a map, and conditions can be asked for as such.  Added
to a statement that is rendered, the clause stands after a space between two parts of the
statement, the first of which is the statement without the clauses that come later.  An alias
is an array form or a map.  A join is spelled in any of four ways. -/
theorem spellings_agree (s : Settings) :
    (∀ {c : ClauseKind} {array v : Value} {xs : List Value},
      array.sequence? = some (.str c.keyword.tag :: xs) → v.sequence? = some xs →
      (of s none none).render .tree array =
        (of s none none).render .tree (Straight.items c.key v) ∧
      (c = .conditions → (of s none none).render .conditions v =
        (of s none none).render .tree (Straight.items c.key v)) ∧
      ∀ {k : Verb} {earlier later : List ClauseKind} {entries entries' : Fields} {result : Result},
        k.endings = earlier ++ c :: later → Fields.Adds c.key v entries entries' →
        (of s none none).render k.request (.map entries) = .ok result →
        ∃ before after : Result,
          (of s none none).render k.request
            (.map (entries.withoutAll (later.map ClauseKind.key))) = .ok before ∧
          result = .joined [before, after] ∧
          (of s none none).render k.request (.map entries') =
            ((of s none none).render .tree (Straight.items c.key v)).map fun clause =>
              .joined [before, ⟨" ", []⟩, clause, after]) ∧
    (∀ {array ident name : Value} (place : Place),
      array.sequence? = some [.str Keyword.aliased.tag, ident, name] →
      (of s none none).render place.request array =
        (of s none none).render place.request
          (.map [(.str "type", .str "alias"), (.str "ident", ident), (.str "as", name)])) ∧
    ∀ (entries : Fields) {m : Fields} {j j' : Value}, SpellsJoin m j → SpellsJoin m j' →
      (of s none none).render .select (.map (entries.set "join" j)) =
        (of s none none).render .select (.map (entries.set "join" j')) := by
  refine ⟨fun {c array v xs} harray hv => ?_, fun {array ident name} place harray => ?_,
    fun entries _ _ _ => render_join s entries⟩
  · have hmap : (of s none none).render .tree (Straight.items c.key v) =
        (of s none none).result (Piece.renderAll (of s none none).operands (c.written s v)) :=
      congrArg (of s none none).result (ClauseKind.perform_map s hv)
    refine ⟨?_, ?_, fun {k earlier later entries entries' result} hends hadds h => ?_⟩
    · rw [hmap]
      exact congrArg (of s none none).result (ClauseKind.perform_array s harray hv)
    · rintro rfl
      rw [hmap, render, perform_eq]
      rfl
    · have hseq : v.isSequence = true := by
        rw [Value.isSequence, hv]
        rfl
      rw [hmap]
      exact Verb.render_adds s hends hadds hseq h
  · have hnode : Node.ofValue array =
        .ok { tag := Keyword.aliased.tag, fields := [(.str "ident", ident), (.str "as", name)] } := by
      rw [Node.ofValue_array none harray]
      rfl
    exact (of s none none).render_of_node place hnode rfl

/-- A select of one column. -/
def plainSelect : Fields :=
  [(.str "columns", .list [.str "-list", .list [.str "-name", .str "a"]]),
    (.str "from", .list [.str "-name", .str "t"])]

/-- A tuple of one name. -/
def oneName : Value := .tuple [.list [.str "-name", .str "a"]]

/-- A join without a type. -/
def sharedJoin : Fields :=
  [(.str "tablespec", .list [.str "-name", .str "u"]), (.str "using", .list [.str "-name", .str "id"])]

/-- An ordering of a select of one column, empty conditions, an alias and a join. -/
theorem spellings_agree_select :
    (∃ before after : Result,
      (of {} none none).render .select (.map plainSelect) = .ok before ∧
      (⟨"SELECT a FROM t", []⟩ : Result) = .joined [before, after] ∧
      (of {} none none).render .select (.map (plainSelect ++ [(.str "order_by", oneName)])) =
        ((of {} none none).render .tree (Straight.items "order_by" oneName)).map fun clause =>
          .joined [before, ⟨" ", []⟩, clause, after]) ∧
    (of {} none none).render .conditions (.list []) =
      (of {} none none).render .tree (Straight.items "where" (.list [])) ∧
    (of {} none none).render .tree (.list [.str "-alias", .list [.str "-name", .str "a"], .str "b"]) =
      (of {} none none).render .tree (.map [(.str "type", .str "alias"),
        (.str "ident", .list [.str "-name", .str "a"]), (.str "as", .str "b")]) ∧
    (of {} none none).render .select (.map (plainSelect.set "join" (.map sharedJoin))) =
      (of {} none none).render .select
        (.map (plainSelect.set "join" (.list [.map sharedJoin]))) := by
  obtain ⟨hclause, halias, hjoin⟩ := spellings_agree {}
  have hadds : Fields.Adds "order_by" oneName plainSelect
      (plainSelect ++ [(.str "order_by", oneName)]) := by
    refine ⟨rfl, rfl, fun {key} hkey => ?_⟩
    simp [plainSelect, Fields.get?, Ne.symm hkey]
  obtain ⟨-, -, hordering⟩ := @hclause .ordering
    (.list [.str "-order_by", .list [.str "-name", .str "a"]]) oneName _ rfl rfl
  obtain ⟨-, hconditions, -⟩ := @hclause .conditions (.list [.str "-where"]) (.list []) [] rfl rfl
  refine ⟨?_, hconditions rfl, halias .tree rfl, hjoin plainSelect .map (.listed rfl)⟩
  exact @hordering .select [.conditions, .grouping] [] plainSelect _ _ rfl hadds rfl

end Renderer

end QueryTree
