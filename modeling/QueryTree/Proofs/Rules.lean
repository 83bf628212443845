import QueryTree.Proofs.Update
import QueryTree.Proofs.Verb

/-!
# Rules of statements

The shape of a statement is given by *rules* about what is under its keys (`Rule`).  Each
verb has its rules in a fixed order (`Verb.rules`).  An update has a rule for each of its
assignments, so its rules depend on the node.

*Broken rules.*  `Rule.Breaks` says when a node breaks a rule, and the issue that tells so.
It speaks of trees and sequences themselves and not of checks.  A rule is broken with one
issue only (`Rule.Breaks.unique`).  The issues of a list of rules are those of the broken
ones, in order, one each (`Rule.Reported`).

*Taking apart.*  A select takes the items of its grouping and its ordering apart, and an
update the pairs of its assignments (`Verb.unpack?`).  If no rule is broken, this succeeds,
and the statement goes on to its clauses (`Verb.clauses`).

The main statement is `Verb.issues_exact`.
-/

namespace QueryTree

open Rendering (each eachJoined)

/-! ## Trees and pairs -/

namespace Value

/-- A node, or a sequence headed by its tag. -/
inductive IsTree (tag : String) (args : List Value) : Value → Prop
  | node (fields : Fields) : IsTree tag args (.node tag args fields)
  | array {v : Value} : v.sequence? = some (.str tag :: args) → IsTree tag args v

/-- A sequence of two trees. -/
def IsPair (v : Value) : Prop :=
  ∃ target value, v.sequence? = some [target, value] ∧ (∃ tag args, target.IsTree tag args) ∧
    ∃ tag args, value.IsTree tag args

theorem isTree_iff {v : Value} {tag : String} {args : List Value} :
    v.IsTree tag args ↔ v.tag? = some tag ∧ v.operands = args := by
  constructor
  · rintro (⟨fields⟩ | hsequence)
    · exact ⟨rfl, rfl⟩
    · exact ⟨tag?_of_sequence hsequence, operands_of_sequence hsequence⟩
  · rintro ⟨htag, rfl⟩
    rcases node_or_sequence htag with ⟨fields, hnode⟩ | hsequence
    · rw [hnode]
      exact .node fields
    · exact .array hsequence

theorem isNodeLike_iff {v : Value} : v.isNodeLike = true ↔ ∃ tag args, v.IsTree tag args := by
  rw [isNodeLike_eq, Option.isSome_iff_exists]
  constructor
  · rintro ⟨tag, htag⟩
    exact ⟨tag, _, isTree_iff.mpr ⟨htag, rfl⟩⟩
  · rintro ⟨tag, args, htree⟩
    exact ⟨tag, (isTree_iff.mp htree).1⟩

theorem isPair_iff {v : Value} : (Shape.pair? v).isSome = true ↔ v.IsPair := by
  unfold Shape.pair?
  constructor
  · intro h
    split at h
    · next target value hsequence =>
        split at h
        · next htrees =>
            obtain ⟨htarget, hvalue⟩ := (Bool.and_eq_true _ _).mp htrees
            exact ⟨target, value, hsequence, isNodeLike_iff.mp htarget, isNodeLike_iff.mp hvalue⟩
        · cases h
    · cases h
  · rintro ⟨target, value, hsequence, htarget, hvalue⟩
    simp [hsequence, isNodeLike_iff.mpr htarget, isNodeLike_iff.mpr hvalue]

end Value

/-! ## Rules -/

/-- A rule about what is under the keys of a statement. -/
inductive Rule where
  /-- There is a tree. -/
  | tree (key : String)
  /-- What is there, if anything, is a tree. -/
  | treeIfThere (key : String)
  /-- A tree that is there is a list. -/
  | list (key : String)
  /-- Conditions that are there are a node or a sequence. -/
  | conditions
  /-- What is there, if anything, is a sequence. -/
  | sequence (key : String)
  /-- Columns of an insert that is right otherwise have as many values. -/
  | sameCount
  /-- There are assignments. -/
  | assignments
  /-- The assignment at an index is a pair of trees. -/
  | pair (index : Nat)
deriving DecidableEq

/-- The rules of a statement, in order. -/
def Verb.rules (n : Node) : Verb → List Rule
  | select => [.tree "columns", .tree "from", .list "columns", .conditions, .sequence "group_by",
      .sequence "order_by"]
  | insert => [.tree "into", .tree "values", .list "values", .treeIfThere "columns",
      .list "columns", .sameCount]
  | update => [.tree "table", .assignments] ++
      (List.range ((n.fields.get "set").sequence?.getD []).length).map .pair
  | delete => [.tree "from"]

namespace Rule

/-- A node breaks a rule, which this issue tells. -/
inductive Breaks (k : Verb) (n : Node) : Rule → Issue → Prop
  | missing {key : String} : (∀ tag args, ¬ (n.fields.get key).IsTree tag args) →
      Breaks k n (.tree key) (.missing key k.name)
  | notTree {key : String} {v : Value} : n.fields.get? key = some v →
      (∀ tag args, ¬ v.IsTree tag args) → Breaks k n (.treeIfThere key) (.missing key k.name)
  | notList {key tag : String} {args : List Value} : (n.fields.get key).IsTree tag args →
      tag ≠ Keyword.list.tag → Breaks k n (.list key) (.notList key tag)
  | notConditions {v : Value} : n.fields.get? "where" = some v → v.sequence? = none →
      (∀ tag args fields, v ≠ .node tag args fields) →
      Breaks k n .conditions (.notSequence "where")
  | notSequence {key : String} {v : Value} : n.fields.get? key = some v → v.sequence? = none →
      Breaks k n (.sequence key) (.notSequence key)
  | counts {tag : String} {args names literals : List Value} :
      (n.fields.get "into").IsTree tag args →
      (n.fields.get "columns").IsTree Keyword.list.tag names →
      (n.fields.get "values").IsTree Keyword.list.tag literals →
      names.length ≠ literals.length →
      Breaks k n .sameCount (.arity names.length literals.length)
  | noAssignments : (∀ first rest, (n.fields.get "set").sequence? ≠ some (first :: rest)) →
      Breaks k n .assignments .noAssignments
  | notPair {items : List Value} {index : Nat} {item : Value} :
      (n.fields.get "set").sequence? = some items → items[index]? = some item →
      ¬ item.IsPair → Breaks k n (.pair index) (.notPair index)

variable {k : Verb} {n : Node}

/-- A broken rule is told by one issue only. -/
theorem Breaks.unique {r : Rule} {i j : Issue} (hi : r.Breaks k n i) (hj : r.Breaks k n j) :
    i = j := by
  cases hi with
  | notList htree =>
      cases hj with
      | notList htree' =>
          obtain ⟨htag, -⟩ := Value.isTree_iff.mp htree
          obtain ⟨htag', -⟩ := Value.isTree_iff.mp htree'
          rw [Option.some.inj (htag.symm.trans htag')]
  | counts _ hcolumns hvalues =>
      cases hj with
      | counts _ hcolumns' hvalues' =>
          obtain ⟨-, rfl⟩ := Value.isTree_iff.mp hcolumns
          obtain ⟨-, rfl⟩ := Value.isTree_iff.mp hcolumns'
          obtain ⟨-, rfl⟩ := Value.isTree_iff.mp hvalues
          obtain ⟨-, rfl⟩ := Value.isTree_iff.mp hvalues'
          rfl
  | _ => cases hj; rfl

/-- The issues of some rules: one for each rule that is broken, in their order. -/
inductive Reported (k : Verb) (n : Node) : List Rule → List Issue → Prop
  | nil : Reported k n [] []
  | broken {r : Rule} {i : Issue} {rules : List Rule} {found : List Issue} :
      r.Breaks k n i → Reported k n rules found → Reported k n (r :: rules) (i :: found)
  | kept {r : Rule} {rules : List Rule} {found : List Issue} :
      (∀ i, ¬ r.Breaks k n i) → Reported k n rules found → Reported k n (r :: rules) found

namespace Reported

variable {r : Rule} {rules more : List Rule} {found others : List Issue}

theorem append (h : Reported k n rules found) (h' : Reported k n more others) :
    Reported k n (rules ++ more) (found ++ others) := by
  induction h with
  | nil => exact h'
  | broken hr _ ih => exact .broken hr ih
  | kept hr _ ih => exact .kept hr ih

theorem unique (h : Reported k n rules found) (h' : Reported k n rules others) :
    found = others := by
  induction h generalizing others with
  | nil =>
      cases h'
      rfl
  | broken hr _ ih =>
      cases h' with
      | broken hr' hrest => rw [hr.unique hr', ih hrest]
      | kept hkept _ => exact absurd hr (hkept _)
  | kept hr _ ih =>
      cases h' with
      | broken hr' _ => exact absurd hr' (hr _)
      | kept _ hrest => exact ih hrest

/-- There are no issues if no rule is broken, and only then. -/
theorem eq_nil_iff (h : Reported k n rules found) :
    found = [] ↔ ∀ r ∈ rules, ∀ i, ¬ r.Breaks k n i := by
  induction h with
  | nil => simp
  | broken hr _ _ => exact iff_of_false (List.cons_ne_nil _ _) fun h => h _ List.mem_cons_self _ hr
  | kept hr _ ih => rw [ih, List.forall_mem_cons, and_iff_right hr]

/-- One rule, with its issue if it is broken. -/
theorem ite {p : Prop} [Decidable p] {i : Issue} (hkept : p → ∀ j, ¬ r.Breaks k n j)
    (hbroken : ¬ p → r.Breaks k n i) : Reported k n [r] (if p then [] else [i]) := by
  split
  · next h => exact .kept (hkept h) .nil
  · next h => exact .broken (hbroken h) .nil

end Reported

end Rule

/-! ## Shapes follow the rules -/

namespace Shape

open Rule

variable {k : Verb} {n : Node}

theorem reported_needsTree (key : String) :
    Reported k n [.tree key] (needsTree n k.name key) := by
  refine .ite (fun htree i hi => ?_) (fun hnot => .missing fun tag args htree => hnot ?_)
  · obtain ⟨tag, args, htree⟩ := Value.isNodeLike_iff.mp htree
    cases hi with
    | missing hnone => exact hnone tag args htree
  · exact Value.isNodeLike_iff.mpr ⟨tag, args, htree⟩

theorem reported_needsList (key : String) : Reported k n [.list key] (needsList n key) := by
  rw [needsList]
  cases htag : (n.fields.get key).tag? with
  | none =>
      refine .kept (fun i hi => ?_) .nil
      cases hi with
      | notList htree => cases htag.symm.trans (Value.isTree_iff.mp htree).1
  | some tag =>
      refine .ite (fun hlist i hi => ?_) (fun hother => ?_)
      · cases hi with
        | notList htree hother =>
            obtain rfl := Option.some.inj (htag.symm.trans (Value.isTree_iff.mp htree).1)
            exact hother hlist
      · exact .notList (Value.isTree_iff.mpr ⟨htag, rfl⟩) hother

theorem reported_needsSequence (key : String) :
    Reported k n [.sequence key] (needsSequence n Value.isSequence key) := by
  rw [needsSequence]
  cases hv : n.fields.get? key with
  | none =>
      refine .kept (fun i hi => ?_) .nil
      cases hi with
      | notSequence hv' => cases hv.symm.trans hv'
  | some v =>
      refine .ite (fun hsequence i hi => ?_) (fun hnone => ?_)
      · cases hi with
        | notSequence hv' hnone =>
            obtain rfl := Option.some.inj (hv.symm.trans hv')
            rw [Value.isSequence, hnone] at hsequence
            cases hsequence
      · exact .notSequence hv (by simpa [Value.isSequence] using hnone)

theorem reported_conditions :
    Reported k n [.conditions] (needsSequence n isConditions "where") := by
  rw [needsSequence]
  cases hv : n.fields.get? "where" with
  | none =>
      refine .kept (fun i hi => ?_) .nil
      cases hi with
      | notConditions hv' => cases hv.symm.trans hv'
  | some v =>
      refine .ite (fun hconditions i hi => ?_) (fun hnone => ?_)
      · cases hi with
        | @notConditions w hv' hnone hnode =>
            obtain rfl := Option.some.inj (hv.symm.trans hv')
            cases v with
            | node tag args fields => exact hnode tag args fields rfl
            | list items => cases hnone
            | tuple items => cases hnone
            | _ => cases hconditions
      · refine .notConditions hv ?_ ?_
        · cases v with
          | list items => exact absurd rfl hnone
          | tuple items => exact absurd rfl hnone
          | _ => rfl
        · rintro tag args fields rfl
          exact hnone rfl

theorem reported_select (n : Node) : Reported .select n (Verb.select.rules n) (select n) :=
  ((((((reported_needsTree "columns").append (reported_needsTree "from")).append
    (reported_needsList "columns")).append reported_conditions).append
    (reported_needsSequence "group_by")).append (reported_needsSequence "order_by"))

theorem get_of_get? {key : String} {v : Value} (h : n.fields.get? key = some v) :
    n.fields.get key = v := by
  rw [Fields.get, h, Option.getD_some]

/-- Columns that are not there break no rule. -/
theorem reported_noColumns (hv : n.fields.get? "columns" = none) :
    Reported .insert n [.treeIfThere "columns", .list "columns", .sameCount] [] := by
  have hnull : ∀ tag args, ¬ (n.fields.get "columns").IsTree tag args := by
    intro tag args htree
    rw [Fields.get, hv] at htree
    cases (Value.isTree_iff.mp htree).1
  refine .kept (fun i hi => ?_) (.kept (fun i hi => ?_) (.kept (fun i hi => ?_) .nil))
  · cases hi with
    | notTree hv' => cases hv.symm.trans hv'
  · cases hi with
    | notList htree => exact hnull _ _ htree
  · cases hi with
    | counts _ hcolumns => exact hnull _ _ hcolumns

/-- Columns that are there. -/
theorem reported_insertColumns {v : Value} (hv : n.fields.get? "columns" = some v) :
    Reported .insert n [.treeIfThere "columns", .list "columns"] (insertColumns n) := by
  rw [insertColumns, get_of_get? hv]
  by_cases hlike : v.isNodeLike = true
  · rw [if_pos hlike]
    obtain ⟨tag, args, htree⟩ := Value.isNodeLike_iff.mp hlike
    refine .kept (fun i hi => ?_) (reported_needsList "columns")
    cases hi with
    | notTree hv' hnone =>
        obtain rfl := Option.some.inj (hv.symm.trans hv')
        exact hnone tag args htree
  · rw [if_neg hlike]
    have hnone : ∀ tag args, ¬ v.IsTree tag args := fun tag args htree =>
      hlike (Value.isNodeLike_iff.mpr ⟨tag, args, htree⟩)
    refine .broken (.notTree hv hnone) (.kept (fun i hi => ?_) .nil)
    cases hi with
    | notList htree => exact hnone _ _ (get_of_get? hv ▸ htree)

/-- The rules of an insert that are looked at before the numbers of columns and values. -/
def insertRules : List Rule :=
  [.tree "into", .tree "values", .list "values", .treeIfThere "columns", .list "columns"]

/-- Columns and values of different numbers break no other rule. -/
theorem rules_of_counts {i : Issue} (h : Breaks .insert n .sameCount i) :
    ∀ r ∈ insertRules, ∀ j, ¬ Breaks .insert n r j := by
  cases h with
  | counts hinto hcolumns hvalues =>
      have htag : ∀ {v : Value} {tag tag' : String} {args args' : List Value},
          v.IsTree tag args → v.IsTree tag' args' → tag = tag' := fun h h' =>
        Option.some.inj ((Value.isTree_iff.mp h).1.symm.trans (Value.isTree_iff.mp h').1)
      intro r hr j hj
      simp only [insertRules, List.mem_cons, List.not_mem_nil, or_false] at hr
      rcases hr with rfl | rfl | rfl | rfl | rfl
      · cases hj with
        | missing hnone => exact hnone _ _ hinto
      · cases hj with
        | missing hnone => exact hnone _ _ hvalues
      · cases hj with
        | notList htree hother => exact hother (htag htree hvalues)
      · cases hj with
        | notTree hv hnone => exact hnone _ _ (get_of_get? hv ▸ hcolumns)
      · cases hj with
        | notList htree hother => exact hother (htag htree hcolumns)

/-- The numbers of columns and values, which are lists. -/
theorem reported_insertArity {tag : String} {args names literals : List Value}
    (hinto : (n.fields.get "into").IsTree tag args)
    (hcolumns : (n.fields.get "columns").IsTree Keyword.list.tag names)
    (hvalues : (n.fields.get "values").IsTree Keyword.list.tag literals) :
    Reported .insert n [.sameCount] (insertArity n) := by
  obtain ⟨-, hnames⟩ := Value.isTree_iff.mp hcolumns
  obtain ⟨-, hliterals⟩ := Value.isTree_iff.mp hvalues
  rw [insertArity, hnames, hliterals]
  refine .ite (fun hsame i hi => ?_) (.counts hinto hcolumns hvalues)
  cases hi with
  | counts _ hcolumns' hvalues' hdiffer =>
      obtain ⟨-, rfl⟩ := Value.isTree_iff.mp hcolumns'
      obtain ⟨-, rfl⟩ := Value.isTree_iff.mp hvalues'
      exact hdiffer (hnames ▸ hliterals ▸ hsame)

theorem exists_isTree {key : String} (h : ∀ i, ¬ Breaks k n (.tree key) i) :
    ∃ tag args, (n.fields.get key).IsTree tag args := by
  by_contra hnone
  exact h _ (.missing fun tag args htree => hnone ⟨tag, args, htree⟩)

theorem exists_isTree_of_there {key : String} {v : Value} (hv : n.fields.get? key = some v)
    (h : ∀ i, ¬ Breaks k n (.treeIfThere key) i) :
    ∃ tag args, (n.fields.get key).IsTree tag args := by
  rw [get_of_get? hv]
  by_contra hnone
  exact h _ (.notTree hv fun tag args htree => hnone ⟨tag, args, htree⟩)

/-- A tree that breaks no rule of lists is a list. -/
theorem isTree_list {key tag : String} {args : List Value}
    (htree : (n.fields.get key).IsTree tag args) (hlist : ∀ i, ¬ Breaks k n (.list key) i) :
    (n.fields.get key).IsTree Keyword.list.tag args := by
  by_contra hnot
  refine hlist _ (.notList htree ?_)
  rintro rfl
  exact hnot htree

/-- If no rule before is broken, the numbers of columns and values are compared. -/
theorem reported_sameCount {v : Value} (hv : n.fields.get? "columns" = some v)
    (hkept : ∀ r ∈ insertRules, ∀ i, ¬ Breaks .insert n r i) :
    Reported .insert n [.sameCount] (insertArity n) := by
  simp only [insertRules, List.forall_mem_cons] at hkept
  obtain ⟨hinto, hvalues, hvaluesList, hcolumns, hcolumnsList, -⟩ := hkept
  obtain ⟨_, _, hinto⟩ := exists_isTree hinto
  obtain ⟨_, _, hvalues⟩ := exists_isTree hvalues
  obtain ⟨_, _, hcolumns⟩ := exists_isTree_of_there hv hcolumns
  exact reported_insertArity hinto (isTree_list hcolumns hcolumnsList)
    (isTree_list hvalues hvaluesList)

theorem reported_insert (n : Node) : Reported .insert n (Verb.insert.rules n) (insert n) := by
  have hrequired : Reported .insert n [.tree "into", .tree "values", .list "values"]
      (needsTree n "insert" "into" ++ needsTree n "insert" "values" ++ needsList n "values") :=
    ((reported_needsTree "into").append (reported_needsTree "values")).append
      (reported_needsList "values")
  rw [insert]
  cases hv : n.fields.get? "columns" with
  | none =>
      have hall := hrequired.append (reported_noColumns hv)
      rw [List.append_nil] at hall
      rw [Fields.contains, hv, Option.isSome_none, if_neg Bool.false_ne_true]
      exact hall
  | some v =>
      have hfive : Reported .insert n insertRules _ := hrequired.append (reported_insertColumns hv)
      rw [Fields.contains, hv, Option.isSome_some, if_pos rfl]
      cases hfound : needsTree n "insert" "into" ++ needsTree n "insert" "values"
          ++ needsList n "values" ++ insertColumns n with
      | nil => exact (hfound ▸ hfive).append (reported_sameCount hv (hfive.eq_nil_iff.mp hfound))
      | cons i found =>
          have hcount : Reported .insert n [.sameCount] [] := by
            refine .kept (fun j hj => ?_) .nil
            cases (hfive.eq_nil_iff.mpr (rules_of_counts hj)).symm.trans hfound
          rw [← List.append_nil (i :: found)]
          exact (hfound ▸ hfive).append hcount

/-- The rules of assignments from an index on. -/
theorem reported_assignments {items : List Value}
    (hitems : (n.fields.get "set").sequence? = some items) :
    ∀ {rest : List Value} {index : Nat}, items.drop index = rest →
      Reported k n ((List.range' index rest.length).map .pair) (assignments index rest)
  | [], _, _ => .nil
  | v :: rest, index, hdrop => by
      have hv : items[index]? = some v := by
        rw [← List.head?_drop, hdrop, List.head?_cons]
      have hrest : items.drop (index + 1) = rest := by
        rw [← List.tail_drop, hdrop, List.tail_cons]
      have hone : Reported k n [.pair index] (if (pair? v).isSome then [] else [.notPair index]) := by
        refine .ite (fun hpair i hi => ?_) (fun hnot => .notPair hitems hv ?_)
        · cases hi with
          | notPair hitems' hv' hnot =>
              obtain rfl := Option.some.inj (hitems.symm.trans hitems')
              obtain rfl := Option.some.inj (hv.symm.trans hv')
              exact hnot (Value.isPair_iff.mp hpair)
        · exact fun hpair => hnot (Value.isPair_iff.mpr hpair)
      exact hone.append (reported_assignments hitems hrest)

theorem reported_update (n : Node) : Reported .update n (Verb.update.rules n) (update n) := by
  have htable : Reported .update n [.tree "table"] (needsTree n "update" "table") :=
    reported_needsTree "table"
  refine htable.append ?_
  cases hset : (n.fields.get "set").sequence? with
  | none => exact .broken (.noAssignments (by simp [hset])) .nil
  | some items =>
      cases items with
      | nil => exact .broken (.noAssignments (by simp [hset])) .nil
      | cons first rest =>
          refine .kept (fun i hi => ?_) ?_
          · cases hi with
            | noAssignments hnot => exact hnot first rest hset
          · rw [Option.getD_some, List.range_eq_range']
            exact reported_assignments hset rfl

end Shape

namespace Verb

open Rule

/-- The issues of a statement are those of its rules. -/
theorem reported_issues (k : Verb) (n : Node) : Reported k n (k.rules n) (k.issues n) := by
  cases k with
  | select => exact Shape.reported_select n
  | insert => exact Shape.reported_insert n
  | update => exact Shape.reported_update n
  | delete => exact Shape.reported_needsTree "from"

/-- No rule comes twice. -/
theorem nodup_rules (k : Verb) (n : Node) : (k.rules n).Nodup := by
  cases k with
  | update =>
      rw [rules, List.nodup_append]
      have hpairs : ((List.range ((n.fields.get "set").sequence?.getD []).length).map pair).Nodup :=
        List.Pairwise.map _ (fun _ _ hne heq => hne (pair.inj heq)) List.nodup_range
      refine ⟨by decide, hpairs, ?_⟩
      intro r hr _ hpair heq
      obtain ⟨index, -, rfl⟩ := List.mem_map.mp hpair
      rw [heq] at hr
      simp at hr
  | _ =>
      rw [rules]
      decide

/-! ## Taking apart -/

/-- What a statement takes apart before its clauses are rendered. -/
structure Parts where
  /-- The items of the grouping, if there is one. -/
  grouping : Option (List Value) := none
  /-- The items of the ordering, if there is one. -/
  ordering : Option (List Value) := none
  /-- The targets and values of the assignments. -/
  assignments : List (Value × Value) := []

/-- The items of what is under a key, if it is there.  This fails if it is no sequence. -/
def unpackItems? (n : Node) (key : String) : Option (Option (List Value)) :=
  match n.fields.get? key with
  | none => some none
  | some v => v.sequence?.map some

/-- The two items of a pair.  This fails for anything else. -/
def unpackPair? (v : Value) : Option (Value × Value) :=
  match v.sequence? with
  | some [target, value] => some (target, value)
  | _ => none

/-- The parts of a statement.  This fails if anything cannot be taken apart. -/
def unpack? (n : Node) : Verb → Option Parts
  | select => do
    let grouping ← unpackItems? n "group_by"
    let ordering ← unpackItems? n "order_by"
    return { grouping, ordering }
  | update => do
    let items ← (n.fields.get "set").sequence?
    let assignments ← items.mapM unpackPair?
    return { assignments }
  | insert => some {}
  | delete => some {}

/-- The clauses of a statement with its parts, one after another. -/
def clauses (s : Settings) (below : Below) (n : Node) (parts : Parts) : Verb → Rendering Sql
  | select => do
    let columns ← below.tree (n.fields.get "columns")
    let source ← below.tree (n.fields.get "from")
    let joins ← Statement.joins below n
    let conditions ← Statement.conditions s below n
    let grouping ← each (Clause.groupItems below) parts.grouping.toList
    let ordering ← each (Clause.orderItems below) parts.ordering.toList
    return Sql.joined " " ([.ofText "SELECT", columns, .ofText "FROM", source] ++ joins ++ conditions
      ++ grouping ++ ordering)
  | insert => do
    let target ← below.tree (n.fields.get "into")
    let columns ← Statement.optional n "columns" fun v => do
      let columns ← below.tree v
      return [.text " (" :: columns ++ .ofText ")"]
    let values ← below.tree (n.fields.get "values")
    return .text "INSERT INTO " :: target ++ columns.flatten ++ .text " VALUES (" :: values
      ++ .ofText ")"
  | update => do
    let assigned ← eachJoined s.listSeparator (Statement.assignment below) parts.assignments
    let target ← below.tree (n.fields.get "table")
    let conditions ← Statement.conditions s below n
    return Sql.joined " " ([.ofText "UPDATE", target, .ofText "SET", assigned] ++ conditions)
  | delete => do
    let source ← below.tree (n.fields.get "from")
    let conditions ← Statement.conditions s below n
    return Sql.joined " " ([.ofText "DELETE FROM", source] ++ conditions)

/-- A sequence, if it is there, is taken apart and its items are rendered. -/
theorem unpackItems?_of_shape {n : Node} {key : String}
    (h : Shape.needsSequence n Value.isSequence key = []) :
    ∃ items?, unpackItems? n key = some items? ∧
      ∀ render : List Value → Rendering Sql,
        Statement.optional n key (fun v => do
          let clause ← render (v.sequence?.getD [])
          return [clause]) = each render items?.toList := by
  unfold unpackItems? Statement.optional
  cases hv : n.fields.get? key with
  | none => exact ⟨none, rfl, fun _ => rfl⟩
  | some v =>
      obtain ⟨items, hitems⟩ := Option.isSome_iff_exists.mp
        (Straight.isSequence_of_needsSequence h hv)
      exact ⟨some items, by simp [hitems], fun render => by simp [hitems, Rendering.each_cons]⟩

/-- Pairs of trees are taken apart. -/
theorem mapM_unpackPair? :
    ∀ {items : List Value} {index : Nat}, Shape.assignments index items = [] →
      items.mapM unpackPair? = some (items.filterMap Shape.pair?)
  | [], _, _ => rfl
  | v :: rest, index, h => by
      obtain ⟨hpair, hrest⟩ := List.append_eq_nil_iff.mp h
      cases hv : Shape.pair? v with
      | none => simp [hv] at hpair
      | some pair =>
          have hunpack : unpackPair? v = some pair := by
            rw [unpackPair?, Shape.sequence?_of_pair? hv]
          simp [List.mapM_cons, hunpack, mapM_unpackPair? hrest, hv]

/-- A statement that breaks no rule is taken apart and goes on to its clauses. -/
theorem exists_parts (k : Verb) {n : Node} (h : k.issues n = []) :
    ∃ parts, k.unpack? n = some parts ∧
      ∀ s below, k.handler.render s below n = k.clauses s below n parts := by
  cases k with
  | select =>
      have hshape : Shape.select n = [] := h
      have hissues := hshape
      simp only [Shape.select, List.append_eq_nil_iff] at hissues
      obtain ⟨⟨-, hgroup⟩, horder⟩ := hissues
      obtain ⟨grouping, hgrouping, heach⟩ := unpackItems?_of_shape hgroup
      obtain ⟨ordering, hordering, heach'⟩ := unpackItems?_of_shape horder
      refine ⟨{ grouping, ordering }, by rw [unpack?, hgrouping, hordering]; rfl, fun s below => ?_⟩
      rw [handler, Handler.render, Statement.select, hshape, Statement.checked, clauses,
        ← heach, ← heach']
      rfl
  | insert =>
      have hshape : Shape.insert n = [] := h
      refine ⟨{}, rfl, fun s below => ?_⟩
      rw [handler, Handler.render, Statement.insert, hshape, Statement.checked, clauses]
  | update =>
      have hshape : Shape.update n = [] := h
      obtain ⟨-, hset⟩ := List.append_eq_nil_iff.mp hshape
      cases hitems : (n.fields.get "set").sequence? with
      | none =>
          rw [hitems] at hset
          cases hset
      | some items =>
          have hpairs : items.mapM unpackPair? = some (Statement.assignments n) := by
            rw [hitems] at hset
            cases items with
            | nil => cases hset
            | cons first rest =>
                rw [Statement.assignments, hitems, Option.getD_some]
                exact mapM_unpackPair? hset
          refine ⟨{ assignments := Statement.assignments n }, ?_, fun s below => ?_⟩
          · rw [unpack?, hitems, Option.bind_eq_bind, Option.bind_some, hpairs]
            rfl
          · rw [handler, Handler.render, Statement.update, hshape, Statement.checked, clauses]
  | delete =>
      have hshape : Shape.delete n = [] := h
      refine ⟨{}, rfl, fun s below => ?_⟩
      rw [handler, Handler.render, Statement.delete, hshape, Statement.checked, clauses]

/-- A statement that breaks a rule is refused with all its issues, and no literal is
recorded. -/
theorem refused_of_issues (k : Verb) {n : Node} (h : k.issues n ≠ []) (s : Settings)
    (below : Below) (binds : List Value) :
    (k.handler.render s below n).outcome binds =
      (.error (.structural (.issues (k.issues n))), binds) := by
  have hrender : k.handler.render s below n = Rendering.fault (.issues (k.issues n)) := by
    cases k <;> exact Statement.checked_of_issues h _
  rw [hrender]
  rfl

/-! ## Statements -/

/-- No rule comes twice, and the issues of a statement are those of its broken rules, one
each and in order.  There are none if no rule is broken, and only then.  If there are any,
the statement is refused with just these, whatever was recorded before, and records nothing.
If there are none, all that the statement takes apart can be taken apart, and it goes on to
its clauses. -/
theorem issues_exact (k : Verb) (n : Node) :
    (k.rules n).Nodup ∧
    (∀ found, Reported k n (k.rules n) found ↔ found = k.issues n) ∧
    (k.issues n = [] ↔ ∀ r ∈ k.rules n, ∀ i, ¬ r.Breaks k n i) ∧
    (k.issues n ≠ [] → ∀ s below binds, ∃ f,
      (k.handler.render s below n).outcome binds = (.error (.structural f), binds) ∧
        f.issueList = k.issues n ∧
        f.message = "; ".intercalate ((k.issues n).map (·.message))) ∧
    (k.issues n = [] → ∃ parts, k.unpack? n = some parts ∧
      ∀ s below, k.handler.render s below n = k.clauses s below n parts) := by
  have hreported := k.reported_issues n
  refine ⟨k.nodup_rules n, fun found => ⟨fun h => h.unique hreported, ?_⟩, hreported.eq_nil_iff, ?_,
    k.exists_parts⟩
  · rintro rfl
    exact hreported
  · exact fun h s below binds => ⟨_, k.refused_of_issues h s below binds, rfl, rfl⟩

/-- An update without a table, two of whose assignments are no pairs. -/
def unpairedUpdate : Node where
  tag := "-update"
  fields := [(.str "set", .list [
    .tuple [.list [.str "-name", .str "a"], .list [.str "-value", .int 1]], .str "b",
    .list [.list [.str "-name", .str "c"]]])]

/-- A select with a grouping. -/
def groupedSelect : Node where
  tag := "-select"
  fields := [(.str "columns", .list [.str "-list", .list [.str "-name", .str "a"]]),
    (.str "from", .node "-name" [.str "t"] []),
    (.str "group_by", .tuple [.list [.str "-name", .str "a"]])]

/-- Three issues of an update are reported and nothing is recorded, and the grouping of a
select is taken apart. -/
theorem issues_exact_unpaired :
    update.issues unpairedUpdate ≠ [] ∧
    (∃ f, (Handler.update.render {} (Renderer.of {} none none).operands unpairedUpdate).outcome
        [.int 0] = (.error (.structural f), [.int 0]) ∧
      f.issueList = [.missing "table" "update", .notPair 1, .notPair 2]) ∧
    select.issues groupedSelect = [] ∧
    ∃ parts, select.unpack? groupedSelect = some parts ∧
      parts.grouping = some [.list [.str "-name", .str "a"]] := by
  have hissues : update.issues unpairedUpdate = [.missing "table" "update", .notPair 1, .notPair 2] :=
    rfl
  have hbroken : update.issues unpairedUpdate ≠ [] := by
    rw [hissues]
    exact List.cons_ne_nil _ _
  have hsound : select.issues groupedSelect = [] := rfl
  obtain ⟨-, -, -, hrefused, -⟩ := issues_exact update unpairedUpdate
  obtain ⟨-, -, -, -, hparts⟩ := issues_exact select groupedSelect
  obtain ⟨f, houtcome, hlist, -⟩ := hrefused hbroken {} (Renderer.of {} none none).operands [.int 0]
  obtain ⟨parts, hunpack, -⟩ := hparts hsound
  refine ⟨hbroken, ⟨f, houtcome, hlist.trans hissues⟩, hsound, parts, hunpack, ?_⟩
  obtain rfl := Option.some.inj hunpack
  rfl

end Verb

end QueryTree
