import Mathlib.Algebra.BigOperators.Group.List.Basic
import Mathlib.Algebra.Ring.Int.Defs
import QueryTree.Proofs.Alike.Outlines
import QueryTree.Proofs.Items

/-!
# Columns and values of an insert

An insert with columns is accepted only if its columns and its values have as many
operands.  What is written are their items, and an operand that is a list adds its own
items (`Value.items`).  The *surplus* of a list is by how many its items outnumber its
operands (`Value.surplus`): an operand that is no list adds nothing to it, and one that
is a list adds its items less one.

The main statement is `Renderer.insert_items`.  The columns and the values of an insert
are written from their items, and there are as many of them if both surpluses are the
same, and only then.  Without lists among the operands there always are.
-/

namespace QueryTree

/-! ## Surplus -/

namespace Value

/-- By how many the items of a list outnumber its operands. -/
def surplus (v : Value) : Int := (v.operands.map fun w => (w.items.length : Int) - 1).sum

theorem length_flatMap_items (vs : List Value) :
    ((vs.flatMap items).length : Int) =
      vs.length + (vs.map fun w => (w.items.length : Int) - 1).sum := by
  induction vs with
  | nil => rfl
  | cons v vs ih =>
      simp only [List.flatMap_cons, List.length_append, List.map_cons, List.sum_cons,
        List.length_cons]
      omega

theorem length_items {v : Value} (h : v.listOperands? = some v.operands) :
    (v.items.length : Int) = v.operands.length + v.surplus := by
  rw [items_of_some h, length_flatMap_items, surplus]

/-- A list without lists among its operands has no surplus. -/
theorem surplus_of_flat {v : Value} (h : ∀ w ∈ v.operands, w.listOperands? = none) :
    v.surplus = 0 := by
  refine List.sum_eq_zero fun d hd => ?_
  obtain ⟨w, hw, rfl⟩ := List.mem_map.mp hd
  rw [items_of_none (h w hw)]
  rfl

/-- A tree with the tag of lists is a list of its operands. -/
theorem listOperands?_of_tag? {v : Value} (h : v.tag? = some Keyword.list.tag) :
    v.listOperands? = some v.operands := by
  obtain ⟨n, hn⟩ : ∃ n, Node.ofValue v = .ok n := by
    rcases node_or_sequence h with ⟨fields, hnode⟩ | hseq
    · exact ⟨_, by rw [hnode]; rfl⟩
    · exact ⟨_, Node.ofValue_array none hseq⟩
  rw [listOperands?, hn]
  dsimp only
  rw [if_pos (node_of_tag? hn h).1, operands_of_list hn h]

end Value

/-! ## Shapes -/

namespace Shape

/-- The columns and the values of an insert of the right shape are lists, with as many
operands. -/
theorem insert_lists {n : Node} {columns : Value} (h : insert n = [])
    (hcolumns : n.fields.get? "columns" = some columns) :
    columns.tag? = some Keyword.list.tag ∧
      (n.fields.get "values").tag? = some Keyword.list.tag ∧
      columns.operands.length = (n.fields.get "values").operands.length := by
  have hget : n.fields.get "columns" = columns := by
    rw [Fields.get, hcolumns, Option.getD_some]
  have hcontains : n.fields.contains "columns" = true := by
    rw [Fields.contains, hcolumns, Option.isSome_some]
  simp only [insert, hcontains, if_pos] at h
  split at h
  · next hissues =>
      simp only [List.append_eq_nil_iff] at hissues
      obtain ⟨⟨⟨-, htree⟩, hlist⟩, hcolumn⟩ := hissues
      refine ⟨?_, tag?_of_needsList (isNodeLike_of_needsTree htree) hlist, ?_⟩
      · rw [insertColumns] at hcolumn
        split at hcolumn
        · next hlike => exact hget ▸ tag?_of_needsList hlike hcolumn
        · cases hcolumn
      · rw [insertArity, hget] at h
        by_contra hne
        simp [hne] at h
  · next hfound => exact absurd h (hfound ·)

end Shape

namespace Renderer

/-! ## Inserts -/

/-- With the built-in tables, an insert with columns that is rendered has its columns and
its values written as lists of their items.  The lists have as many operands.  They have
as many items exactly if both have the same surplus, and so if no operand is a list. -/
theorem insert_items (s : Settings) {entries : Fields} {result : Result}
    (h : (of s none none).render .insert (.map entries) = .ok result) {columns values : Value}
    (hcolumns : (Straight.insert.node entries).fields.get? "columns" = some columns)
    (hvalues : (Straight.insert.node entries).fields.get "values" = values) :
    (∃ target names literals,
      (of s none none).render .tree ((Straight.insert.node entries).fields.get "into") = .ok target ∧
      List.Forall₂ (of s none none).Fills columns.spread names ∧
      List.Forall₂ (of s none none).Fills values.spread literals ∧
      result.sql = "INSERT INTO " ++ target.sql ++
        " (" ++ s.listSeparator.intercalate names ++ ") VALUES (" ++
        s.listSeparator.intercalate literals ++ ")") ∧
    columns.operands.length = values.operands.length ∧
    (columns.items.length = values.items.length ↔ columns.surplus = values.surplus) ∧
    ((∀ w ∈ columns.operands ++ values.operands, w.listOperands? = none) →
      columns.items.length = values.items.length) := by
  obtain ⟨sql, hsql, -⟩ :=
    ((of s none none).result_eq_ok_iff ((of s none none).regular_perform _ .insert)).mp h
  have hnames : Straight.insert.Named entries := (of s none none).names_of_statement hsql
  obtain ⟨hshape, slots, hslots, parts, hparts, rfl⟩ := (Straight.render_ok_iff s hnames).mp h
  obtain ⟨hctag, hvtag, hoperands⟩ := Shape.insert_lists hshape hcolumns
  have hclist := Value.length_items (Value.listOperands?_of_tag? hctag)
  rw [hvalues] at hvtag hoperands
  have hvlist := Value.length_items (Value.listOperands?_of_tag? hvtag)
  have hcount : columns.items.length = values.items.length ↔ columns.surplus = values.surplus := by
    omega
  refine ⟨?_, hoperands, hcount, fun hflat => hcount.mpr ?_⟩
  · have htemplate : slots = [.text "INSERT INTO ",
        .clause .tree ((Straight.insert.node entries).fields.get "into"), .text " (",
        .clause .tree columns, .text ")", .text " VALUES (", .clause .tree values, .text ")"] := by
      rw [← Except.ok.inj hslots, Straight.insertSlots, Straight.under, hcolumns, hvalues]
      rfl
    rw [htemplate] at hparts
    obtain ⟨_, rfl, h₁⟩ := Slot.filled_text_inv hparts
    obtain ⟨target, _, htarget, rfl, h₂⟩ := Slot.filled_clause_inv h₁
    obtain ⟨_, rfl, h₃⟩ := Slot.filled_text_inv h₂
    obtain ⟨named, _, hnamed, rfl, h₄⟩ := Slot.filled_clause_inv h₃
    obtain ⟨_, rfl, h₅⟩ := Slot.filled_text_inv h₄
    obtain ⟨_, rfl, h₆⟩ := Slot.filled_text_inv h₅
    obtain ⟨bound, _, hbound, rfl, h₇⟩ := Slot.filled_clause_inv h₆
    obtain ⟨_, rfl, h₈⟩ := Slot.filled_text_inv h₇
    obtain rfl := List.forall₂_nil_left_iff.mp h₈
    obtain ⟨names, hnames, hnamesText⟩ := spreads_of_render hnamed
    obtain ⟨literals, hliterals, hliteralsText⟩ := spreads_of_render hbound
    refine ⟨target, names, literals, htarget, hnames, hliterals, ?_⟩
    have hvaluesText : ")" ++ " VALUES (" = ") VALUES (" := rfl
    simp only [Result.joined, List.map_cons, List.map_nil, String.join_cons, String.join_nil,
      String.append_empty, hnamesText, hliteralsText, ← hvaluesText, String.append_assoc]
    rfl
  · rw [Value.surplus_of_flat fun w hw => hflat w (List.mem_append_left _ hw),
      Value.surplus_of_flat fun w hw => hflat w (List.mem_append_right _ hw)]

/-- Two names as columns. -/
def twoColumns : Value :=
  .list [.str "-list", .list [.str "-name", .str "a"], .list [.str "-name", .str "b"]]

/-- An insert of two literals. -/
def twoLiterals : Fields :=
  [(.str "into", .list [.str "-name", .str "t"]), (.str "columns", twoColumns),
    (.str "values", .list [.str "-list", .list [.str "-value", .int 1],
      .list [.str "-value", .int 2]])]

/-- Two columns without lists among them have two values. -/
theorem insert_items_two :
    ∃ result values, (of {} none none).render .insert (.map twoLiterals) = .ok result ∧
      result.sql = "INSERT INTO t (a, b) VALUES (?, ?)" ∧
      (Straight.insert.node twoLiterals).fields.get "values" = values ∧
      twoColumns.items.length = values.items.length := by
  refine ⟨⟨"INSERT INTO t (a, b) VALUES (?, ?)", [.int 1, .int 2]⟩, _, rfl, rfl, rfl, ?_⟩
  refine (@insert_items {} twoLiterals _ rfl twoColumns _ rfl rfl).2.2.2 ?_
  intro w hw
  have hw : w ∈ [.list [.str "-name", .str "a"], .list [.str "-name", .str "b"],
      .list [.str "-value", .int 1], .list [.str "-value", .int 2]] := hw
  simp only [List.mem_cons, List.not_mem_nil, or_false] at hw
  rcases hw with rfl | rfl | rfl | rfl <;> rfl

/-- Two columns in a list of their own. -/
def nestedColumns : Fields :=
  [(.str "into", .list [.str "-name", .str "t"]), (.str "columns", .list [.str "-list", twoColumns]),
    (.str "values", .list [.str "-list", .list [.str "-value", .int 1]])]

/-- An insert of one value into two columns is rendered. -/
theorem insert_items_unmatched :
    ∃ result columns values, (of {} none none).render .insert (.map nestedColumns) = .ok result ∧
      result.sql = "INSERT INTO t (a, b) VALUES (?)" ∧
      (Straight.insert.node nestedColumns).fields.get? "columns" = some columns ∧
      (Straight.insert.node nestedColumns).fields.get "values" = values ∧
      columns.items.length = 2 ∧ values.items.length = 1 := by
  refine ⟨⟨"INSERT INTO t (a, b) VALUES (?)", [.int 1]⟩, _, _, rfl, rfl, rfl, rfl, ?_, ?_⟩
  · have hcolumns : twoColumns.items.length = 2 := by
      have hoperands : twoColumns.listOperands? =
          some [.list [.str "-name", .str "a"], .list [.str "-name", .str "b"]] := rfl
      rw [Value.items_of_some hoperands]
      simp [Value.items_of_none (v := .list [.str "-name", .str "a"]) rfl,
        Value.items_of_none (v := .list [.str "-name", .str "b"]) rfl]
    have hnested : (Value.list [.str "-list", twoColumns]).listOperands? = some [twoColumns] := rfl
    rw [Value.items_of_some hnested, List.flatMap_singleton, hcolumns]
  · have hvalues : ((Straight.insert.node nestedColumns).fields.get "values").listOperands? =
        some [.list [.str "-value", .int 1]] := rfl
    rw [Value.items_of_some hvalues, List.flatMap_singleton, Value.items_of_none rfl]
    rfl

end Renderer

end QueryTree
