import Mathlib.Data.List.Induction
import QueryTree.Builder
import QueryTree.Proofs.Verb

/-!
# What a builder keeps

A builder of selects is handed its clauses call by call (`SelectBuilder.Call`).  What it has
collected after some calls is an invariant (`SelectBuilder.Collects`): the columns, the
conditions, the groupings and the orderings of all calls in the order of the calls, and the
table and the join of the last call that brought one.  One call keeps the invariant
(`Collects.call`), and so does a run (`collects_run`).

The main statement is `SelectBuilder.build_collects`.  It says what is under each key of the
select that is built and what is rendered of it.  All joins are kept exactly if there is at
most one.  Of several joins the last is kept, although a select takes a list of joins.
-/

namespace QueryTree

namespace SelectBuilder

/-! ## Calls -/

/-- A call of a builder. -/
inductive Call where
  /-- Further columns. -/
  | select (columns : List Value)
  /-- Another table. -/
  | fromTable (table : Value)
  /-- A join. -/
  | join (table on shared : Value)
  /-- Further conditions. -/
  | restrict (clauses : List Value)
  /-- Further expressions to group by. -/
  | groupBy (expressions : List Value)
  /-- A further expression to order by. -/
  | orderBy (expression : Value) (descending : Bool)

namespace Call

/-- A builder after a call. -/
def apply (b : SelectBuilder) : Call → SelectBuilder
  | select columns => b.select columns
  | fromTable table => b.fromTable table
  | join table on shared => b.join table on shared
  | restrict clauses => b.restrict clauses
  | groupBy expressions => b.groupBy expressions
  | orderBy expression descending => b.orderBy expression descending

/-- The columns of a call. -/
def columns : Call → List Value
  | select columns => columns
  | _ => []

/-- The table of a call. -/
def table? : Call → Option Value
  | fromTable table => some table
  | _ => none

/-- The join of a call. -/
def join? : Call → Option Value
  | join table on shared => some (Tree.join table on shared)
  | _ => none

/-- The conditions of a call. -/
def conditions : Call → List Value
  | restrict clauses => clauses
  | _ => []

/-- The groupings of a call. -/
def grouping : Call → List Value
  | groupBy expressions => expressions
  | _ => []

/-- The ordering of a call. -/
def ordering : Call → List Value
  | orderBy expression true => [Tree.desc expression]
  | orderBy expression false => [expression]
  | _ => []

section

variable (c : Call) (b : SelectBuilder)

theorem apply_columns : (c.apply b).columns = b.columns ++ c.columns := by
  cases c with
  | select items => rfl
  | _ => exact (List.append_nil b.columns).symm

theorem apply_source : (c.apply b).source = c.table?.getD b.source := by
  cases c <;> rfl

theorem apply_joined : (c.apply b).joined = c.join?.or b.joined := by
  cases c <;> rfl

theorem apply_conditions : (c.apply b).conditions = b.conditions ++ c.conditions := by
  cases c with
  | restrict items => rfl
  | _ => exact (List.append_nil b.conditions).symm

theorem apply_grouping : (c.apply b).grouping = b.grouping ++ c.grouping := by
  cases c with
  | groupBy items => rfl
  | _ => exact (List.append_nil b.grouping).symm

theorem apply_ordering : (c.apply b).ordering = b.ordering ++ c.ordering := by
  cases c with
  | orderBy expression descending => cases descending <;> rfl
  | _ => exact (List.append_nil b.ordering).symm

end

end Call

/-- A builder after some calls. -/
def run (calls : List Call) : SelectBuilder := calls.foldl Call.apply {}

/-- The joins of some calls, in order. -/
def joinsOf (calls : List Call) : List Value := calls.filterMap Call.join?

/-! ## What is collected -/

/-- What a builder has collected after some calls. -/
structure Collects (calls : List Call) (b : SelectBuilder) : Prop where
  columns : b.columns = calls.flatMap Call.columns
  source : b.source = (calls.filterMap Call.table?).getLast?.getD .null
  joined : b.joined = (joinsOf calls).getLast?
  conditions : b.conditions = calls.flatMap Call.conditions
  grouping : b.grouping = calls.flatMap Call.grouping
  ordering : b.ordering = calls.flatMap Call.ordering

theorem filterMap_singleton {α β : Type} (f : α → Option β) (a : α) :
    [a].filterMap f = (f a).toList := by
  cases h : f a <;> simp [h]

theorem getLast?_append_toList {α : Type} (as : List α) (a? : Option α) :
    (as ++ a?.toList).getLast? = a?.or as.getLast? := by
  cases a? <;> simp

theorem collects_nil : Collects [] {} := ⟨rfl, rfl, rfl, rfl, rfl, rfl⟩

/-- One call more is collected. -/
theorem Collects.call {calls : List Call} {b : SelectBuilder} (h : Collects calls b) (c : Call) :
    Collects (calls ++ [c]) (c.apply b) := by
  have hjoins : joinsOf (calls ++ [c]) = joinsOf calls ++ c.join?.toList := by
    rw [joinsOf, List.filterMap_append, filterMap_singleton, joinsOf]
  constructor
  · rw [c.apply_columns, h.columns, List.flatMap_append, List.flatMap_singleton]
  · rw [c.apply_source, h.source, List.filterMap_append, filterMap_singleton, getLast?_append_toList]
    cases c.table? <;> rfl
  · rw [c.apply_joined, h.joined, hjoins, getLast?_append_toList]
  · rw [c.apply_conditions, h.conditions, List.flatMap_append, List.flatMap_singleton]
  · rw [c.apply_grouping, h.grouping, List.flatMap_append, List.flatMap_singleton]
  · rw [c.apply_ordering, h.ordering, List.flatMap_append, List.flatMap_singleton]

/-- A run collects what its calls bring. -/
theorem collects_run (calls : List Call) : Collects calls (run calls) := by
  induction calls using List.reverseRecOn with
  | nil => exact collects_nil
  | append_singleton calls c ih =>
      rw [run, List.foldl_append, ← run]
      exact ih.call c

/-! ## What is built -/

/-- A list of items, if there are any. -/
def listed (items : List Value) : Option Value :=
  if items.isEmpty then none else some (.list items)

theorem get?_listEntry (key other : String) (items : List Value) :
    Fields.get? (listEntry key items) other = if other = key then listed items else none := by
  cases items with
  | nil => simp [listEntry, listed, Fields.get?]
  | cons item items =>
      have hentry : listEntry key (item :: items) = [(.str key, .list (item :: items))] := rfl
      rw [hentry, Fields.get?_cons_str, listed, List.isEmpty_cons, Fields.get?]
      simp [eq_comm]

/-- The entries of the select that is built. -/
def entries (b : SelectBuilder) : Fields :=
  [(.str "type", .str "select"), (.str "columns", Tree.list b.columns), (.str "from", b.source)]
    ++ (b.joined.map fun join => (.str "join", join)).toList ++ listEntry "where" b.conditions
    ++ listEntry "group_by" b.grouping ++ listEntry "order_by" b.ordering

theorem build_eq (b : SelectBuilder) : b.build = .map b.entries := rfl

/-- What is under a key of a select that is built. -/
theorem get?_entries (b : SelectBuilder) (key : String) :
    b.entries.get? key =
      ((((Fields.get? [(.str "type", .str "select"), (.str "columns", Tree.list b.columns),
          (.str "from", b.source)] key).or (if key = "join" then b.joined else none)).or
        (if key = "where" then listed b.conditions else none)).or
        (if key = "group_by" then listed b.grouping else none)).or
        (if key = "order_by" then listed b.ordering else none) := by
  have hjoin : Fields.get? (b.joined.map fun join => (.str "join", join)).toList key =
      if key = "join" then b.joined else none := by
    cases b.joined with
    | none => simp [Fields.get?]
    | some join => simp [Fields.get?, eq_comm]
  rw [entries, Fields.get?_append, Fields.get?_append, Fields.get?_append, Fields.get?_append, hjoin,
    get?_listEntry, get?_listEntry, get?_listEntry]

/-- What is under the keys of a select that is built, apart from its type. -/
structure Holds (fields : Fields) (b : SelectBuilder) : Prop where
  columns : fields.get? "columns" = some (Tree.list b.columns)
  source : fields.get? "from" = some b.source
  join : fields.get? "join" = b.joined
  conditions : fields.get? "where" = listed b.conditions
  grouping : fields.get? "group_by" = listed b.grouping
  ordering : fields.get? "order_by" = listed b.ordering

theorem holds_entries (b : SelectBuilder) : Holds b.entries b := by
  constructor <;> simp [get?_entries, Fields.get?]

theorem holds_node (b : SelectBuilder) : Holds (Straight.select.node b.entries).fields b := by
  have hget : ∀ {key : String}, key ≠ "type" →
      (Straight.select.node b.entries).fields.get? key = b.entries.get? key := by
    intro key hkey
    rw [Straight.node, Fields.get?_without, if_neg hkey]
  have h := b.holds_entries
  constructor
  · rw [hget (by decide), h.columns]
  · rw [hget (by decide), h.source]
  · rw [hget (by decide), h.join]
  · rw [hget (by decide), h.conditions]
  · rw [hget (by decide), h.grouping]
  · rw [hget (by decide), h.ordering]

/-- A join that is built is accepted as the one join of a select. -/
theorem joinList_join (table on shared : Value) :
    Clause.joinList (Tree.join table on shared) = .ok [Tree.join table on shared] := by
  cases on <;> cases shared <;> rfl

theorem mem_joinsOf {calls : List Call} {join : Value} (h : join ∈ joinsOf calls) :
    ∃ table on shared, join = Tree.join table on shared := by
  obtain ⟨c, -, hc⟩ := List.mem_filterMap.mp h
  cases c with
  | join table on shared => exact ⟨table, on, shared, (Option.some.inj hc).symm⟩
  | _ => cases hc

/-- The joins of a select that is built are the last join of the calls. -/
theorem joins_build {calls : List Call} {b : SelectBuilder} (h : Collects calls b) :
    Straight.joins (Straight.select.node b.entries) = .ok (joinsOf calls).getLast?.toList := by
  rw [Straight.joins, b.holds_node.join, h.joined]
  cases hlast : (joinsOf calls).getLast? with
  | none => rfl
  | some join =>
      obtain ⟨table, on, shared, rfl⟩ := mem_joinsOf (List.mem_of_getLast? hlast)
      exact joinList_join table on shared

theorem getLast?_toList_eq_iff {α : Type} {as : List α} : as.getLast?.toList = as ↔ as.length ≤ 1 := by
  constructor
  · intro h
    rw [← h]
    cases as.getLast? <;> simp
  · intro h
    match as, h with
    | [], _ => rfl
    | [a], _ => rfl

/-- A list of items that is there if there are any is a sequence. -/
theorem needsSequence_listed {n : Node} {key : String} {accepts : Value → Bool} {items : List Value}
    (haccepts : ∀ vs, accepts (.list vs) = true) (hkey : n.fields.get? key = listed items) :
    Shape.needsSequence n accepts key = [] := by
  rw [Shape.needsSequence, hkey, listed]
  cases items with
  | nil => rfl
  | cons item items => exact if_pos (haccepts _)

/-- Only the table of a select that is built can have an issue. -/
theorem shape_build_iff (b : SelectBuilder) :
    Shape.select (Straight.select.node b.entries) = [] ↔ b.source.isNodeLike = true := by
  have h := b.holds_node
  have hcolumns : (Straight.select.node b.entries).fields.get "columns" = Tree.list b.columns := by
    rw [Fields.get, h.columns, Option.getD_some]
  have hsource : (Straight.select.node b.entries).fields.get "from" = b.source := by
    rw [Fields.get, h.source, Option.getD_some]
  have htree : (Tree.list b.columns).isNodeLike = true := rfl
  have htag : (Tree.list b.columns).tag? = some Keyword.list.tag := rfl
  rw [Shape.select, Shape.needsTree, Shape.needsTree, Shape.needsList, hcolumns, hsource, htree,
    htag, needsSequence_listed (fun _ => rfl) h.conditions,
    needsSequence_listed (fun _ => rfl) h.grouping, needsSequence_listed (fun _ => rfl) h.ordering]
  cases b.source.isNodeLike <;> simp

/-- A select that is built is rendered as a select. -/
theorem perform_build (r : Renderer) (b : SelectBuilder) :
    r.perform b.build .tree = r.perform b.build .select := by
  have htype : b.entries.get "type" = .str Verb.select.name := by
    rw [Fields.get, get?_entries]
    rfl
  have htyped : Verb.select.typed b.build = b.build := rfl
  obtain ⟨n, -, -, hselect, -, htree⟩ := (Verb.Accepts.named htype).perform r
  rw [build_eq] at htyped ⊢
  rw [htyped] at htree
  exact htree.trans hselect.symm

/-! ## What is lost -/

/-- What the calls of a builder bring is under the keys of the select that is built: all
columns, conditions, groupings and orderings in the order of the calls, the last table, and
the last join.  The select is rendered if its table is a tree and each clause is rendered on
its own, and then it has the last join only.  All joins are the joins of the select exactly
if there is at most one. -/
theorem build_collects (s : Settings) (calls : List Call) :
    ∃ entries : Fields, (run calls).build = .map entries ∧
      entries.get? "type" = some (.str "select") ∧
      entries.get? "columns" = some (Tree.list (calls.flatMap Call.columns)) ∧
      entries.get? "from" = some ((calls.filterMap Call.table?).getLast?.getD .null) ∧
      entries.get? "join" = (joinsOf calls).getLast? ∧
      entries.get? "where" = listed (calls.flatMap Call.conditions) ∧
      entries.get? "group_by" = listed (calls.flatMap Call.grouping) ∧
      entries.get? "order_by" = listed (calls.flatMap Call.ordering) ∧
      (∀ result, (Renderer.of s none none).render .tree (.map entries) = .ok result ↔
        ((calls.filterMap Call.table?).getLast?.getD .null).isNodeLike = true ∧
          ∃ parts, List.Forall₂ (Slot.Filled (Renderer.of s none none))
              (Straight.selectSlots (Straight.select.node entries)
                (joinsOf calls).getLast?.toList) parts ∧
            result = .joined parts) ∧
      (Straight.joins (Straight.select.node entries) = .ok (joinsOf calls) ↔
        (joinsOf calls).length ≤ 1) := by
  have h := collects_run calls
  have hholds := (run calls).holds_entries
  have hjoins := joins_build h
  refine ⟨(run calls).entries, rfl, ?_, ?_, ?_, ?_, ?_, ?_, ?_, fun result => ?_, ?_⟩
  · simp [get?_entries, Fields.get?]
  · rw [hholds.columns, h.columns]
  · rw [hholds.source, h.source]
  · rw [hholds.join, h.joined]
  · rw [hholds.conditions, h.conditions]
  · rw [hholds.grouping, h.grouping]
  · rw [hholds.ordering, h.ordering]
  · have hnamed : Straight.select.Named (run calls).entries :=
      Or.inr ⟨"select", by rw [Fields.get, get?_entries]; rfl, rfl⟩
    have hrender : (Renderer.of s none none).render .tree (.map (run calls).entries) =
        (Renderer.of s none none).render Straight.select.request (.map (run calls).entries) :=
      congrArg (Renderer.of s none none).result (perform_build _ (run calls))
    rw [hrender, Straight.render_ok_iff s hnamed, ← h.source, ← shape_build_iff]
    refine and_congr_right fun _ => ?_
    rw [Straight.template, hjoins]
    constructor
    · rintro ⟨slots, hslots, hparts⟩
      obtain rfl := Except.ok.inj hslots
      exact hparts
    · intro hparts
      exact ⟨_, rfl, hparts⟩
  · rw [hjoins, Except.ok.injEq]
    exact getLast?_toList_eq_iff

/-- The calls for one column of a table. -/
def plainCalls : List Call :=
  [.select [Tree.name [.str "a"]], .fromTable (Tree.name [.str "t"])]

/-- A join of a table that shares a column. -/
def sharing (table : String) : Call :=
  .join (Tree.name [.str table]) .null (Tree.name [.str "id"])

/-- One join is kept. -/
theorem build_collects_one :
    ∃ entries : Fields, (run (plainCalls ++ [sharing "u"])).build = .map entries ∧
      (Renderer.of {} none none).render .tree (.map entries) =
        .ok ⟨"SELECT a FROM t JOIN u USING (id)", []⟩ ∧
      Straight.joins (Straight.select.node entries) =
        .ok (joinsOf (plainCalls ++ [sharing "u"])) := by
  obtain ⟨entries, hbuild, -, -, -, -, -, -, -, -, hjoins⟩ :=
    build_collects {} (plainCalls ++ [sharing "u"])
  obtain rfl := Value.map.inj hbuild
  exact ⟨_, rfl, rfl, hjoins.mpr (Nat.le_refl 1)⟩

/-- Of two joins the first is lost, although a select takes both. -/
theorem first_join_lost :
    ∃ entries : Fields, (run (plainCalls ++ [sharing "u", sharing "v"])).build = .map entries ∧
      (Renderer.of {} none none).render .tree (.map entries) =
        .ok ⟨"SELECT a FROM t JOIN v USING (id)", []⟩ ∧
      Straight.joins (Straight.select.node entries) ≠
        .ok (joinsOf (plainCalls ++ [sharing "u", sharing "v"])) ∧
      (Renderer.of {} none none).render .tree (.map (entries.set "join"
          (.list (joinsOf (plainCalls ++ [sharing "u", sharing "v"]))))) =
        .ok ⟨"SELECT a FROM t JOIN u USING (id) JOIN v USING (id)", []⟩ := by
  refine ⟨_, rfl, rfl, fun h => ?_, rfl⟩
  have hlength := congrArg List.length (Except.ok.inj h)
  cases hlength

end SelectBuilder

end QueryTree
