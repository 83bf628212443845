import QueryTree.Proofs.Items

/-!
# Lists in statements

SQL has lists of items at the columns of a select, the columns and the values of an
insert, the shared columns of a join, the values of a membership test, and after GROUP BY
and ORDER BY.  `Handler.lists` gives the lists of a node: the texts around a list and its
*members*.  The items of a list are those of its members (`ItemList.items`).

*Texts.*  The pieces of a list stand side by side in the outline of its node
(`Handler.lists_segment`).  So a list is written between its texts, with commas between
the texts of its members (`Renderer.list_written`).

*Items.*  No list is checked for items.  A list is rendered if its items are, and so one
without items is.  If no list without operands is rendered, every list with members has
items (`Renderer.items_ne_nil`).  Only a membership test without members is not written
as a list at all (`Renderer.render_membership_of_field`).

The main statement is `Renderer.lists_hold_items`.
-/

namespace QueryTree

/-! ## Lists -/

/-- A list that SQL is written with. -/
structure ItemList where
  /-- The texts before the members. -/
  opening : List String
  /-- The members: expressions, some of them with a direction. -/
  members : List (Value × Option Direction)
  /-- The texts after the members. -/
  closing : List String

/-- What is written after an expression for its direction. -/
def Direction.suffix : Option Direction → String
  | none => ""
  | some direction => " " ++ direction.word

/-- An item of an ordering as a member, if it has one expression. -/
def Clause.member? (item : Value) : Option (Value × Option Direction) :=
  match direction? item with
  | none => some (item, none)
  | some direction =>
    match item.operands with
    | [v] => some (v, some direction)
    | _ => none

namespace ItemList

/-- The items of a list. -/
def items (l : ItemList) : List Value := l.members.flatMap fun m => m.1.items

/-- The list of a single value, with its items. -/
def ofValue (opening : List String) (v : Value) (closing : List String) : ItemList :=
  ⟨opening, [(v, none)], closing⟩

/-- The list of a grouping. -/
def grouping (items : List Value) : ItemList := ⟨["GROUP BY "], items.map (·, none), []⟩

/-- The list of an ordering. -/
def ordering (items : List Value) : ItemList :=
  ⟨["ORDER BY "], items.filterMap Clause.member?, []⟩

/-- The pieces of a member. -/
def memberPieces : Value × Option Direction → List Piece
  | (v, none) => [.below .tree v]
  | (v, some direction) => [.below .tree v, .text (" " ++ direction.word)]

/-- The pieces of a list. -/
def pieces (l : ItemList) : List Piece :=
  l.opening.map .text ++ Piece.separated ", " (l.members.map memberPieces)
    ++ l.closing.map .text

end ItemList

/-- The lists of what is under a key, none if the key is not there. -/
def Node.listsUnder (n : Node) (key : String) (list : Value → ItemList) : List ItemList :=
  (n.fields.get? key).toList.map list

open ItemList in
/-- The lists of a node. -/
def Handler.lists (n : Node) : Handler → List ItemList
  | .select => .ofValue ["SELECT", " "] (n.fields.get "columns") [" ", "FROM"] ::
      n.listsUnder "group_by" (fun v => grouping (v.sequence?.getD []))
      ++ n.listsUnder "order_by" fun v => ordering (v.sequence?.getD [])
  | .insert => n.listsUnder "columns" (fun v => .ofValue [" ("] v [")"])
      ++ [.ofValue [" VALUES ("] (n.fields.get "values") [")"]]
  | .groupBy => (Clause.items n "group_by").toOption.toList.map grouping
  | .orderBy => (Clause.items n "order_by").toOption.toList.map ordering
  | .join =>
    if Clause.isPresent (n.fields.get "using") then
      [.ofValue [" USING ("] (n.fields.get "using") [")"]]
    else []
  | .membership =>
    match n.args with
    | _ :: value :: values =>
      [⟨[(if n.tag = Keyword.notIn.tag then " NOT" else "") ++ " IN ("],
        (value :: values).map (·, none), [")"]⟩]
    | _ => []
  | _ => []

/-! ## The pieces of lists -/

namespace Piece

theorem infix_separated {separator : String} {ps : List Piece} :
    ∀ {groups : List (List Piece)}, ps ∈ groups → ps <:+: separated separator groups
  | [qs], h => by
      obtain rfl := List.mem_singleton.mp h
      exact List.infix_rfl
  | qs :: rs :: rest, h => by
      rw [separated_cons]
      rcases List.mem_cons.mp h with rfl | h
      · exact (List.prefix_append _ _).isInfix
      · have hrest : separated separator (rs :: rest) <:+:
            qs ++ text separator :: separated separator (rs :: rest) :=
          ((List.suffix_cons _ _).trans (List.suffix_append _ _)).isInfix
        exact (infix_separated h).trans hrest

theorem orderItem_of_some {item : Value} {m : Value × Option Direction}
    (h : Clause.member? item = some m) : orderItem item = ItemList.memberPieces m := by
  cases hdirection : Clause.direction? item with
  | none =>
      simp only [Clause.member?, hdirection, Option.some.injEq] at h
      subst h
      simp only [orderItem, hdirection, ItemList.memberPieces]
  | some direction =>
      simp only [Clause.member?, hdirection] at h
      rcases hoperands : item.operands with _ | ⟨v, _ | ⟨w, rest⟩⟩
      · simp only [hoperands, reduceCtorEq] at h
      · simp only [hoperands, Option.some.injEq] at h
        subst h
        simp only [orderItem, hdirection, hoperands, ItemList.memberPieces]
      · simp only [hoperands, reduceCtorEq] at h

theorem orderItem_of_none {item : Value} (h : Clause.member? item = none) :
    ∃ e, orderItem item = [.stop e] := by
  cases hdirection : Clause.direction? item with
  | none => simp only [Clause.member?, hdirection, reduceCtorEq] at h
  | some direction =>
      simp only [Clause.member?, hdirection] at h
      rcases hoperands : item.operands with _ | ⟨v, _ | ⟨w, rest⟩⟩
      · exact ⟨_, by simp only [orderItem, hdirection, hoperands]; rfl⟩
      · simp only [hoperands, reduceCtorEq] at h
      · exact ⟨_, by simp only [orderItem, hdirection, hoperands]; rfl⟩

/-- If no item stops, the pieces of an ordering are those of its list. -/
theorem orderItems_eq {items : List Value} (h : ∀ e, .stop e ∉ orderItems items) :
    orderItems items = (ItemList.ordering items).pieces := by
  have hitems : ∀ item ∈ items, ∀ e, .stop e ∉ orderItem item := by
    intro item hitem e he
    have hmem := Renderer.mem_separated ", " he (List.mem_map_of_mem hitem)
    exact h e (List.mem_cons_of_mem _ hmem)
  have hmap : items.map orderItem =
      (items.filterMap Clause.member?).map ItemList.memberPieces := by
    clear h
    induction items with
    | nil => rfl
    | cons item rest ih =>
        have hrest := ih fun i hi => hitems i (List.mem_cons_of_mem item hi)
        cases hm : Clause.member? item with
        | some m =>
            rw [List.map_cons, List.filterMap_cons_some hm, List.map_cons, orderItem_of_some hm,
              hrest]
        | none =>
            obtain ⟨e, he⟩ := orderItem_of_none hm
            exact absurd (he ▸ List.mem_cons_self) (hitems item List.mem_cons_self e)
  rw [orderItems, hmap, ItemList.pieces, ItemList.ordering, List.map_nil, List.append_nil]
  rfl

theorem groupItems_eq (items : List Value) :
    groupItems items = (ItemList.grouping items).pieces := by
  rw [groupItems, ItemList.pieces, ItemList.grouping, trees, List.map_map, List.map_nil,
    List.append_nil]
  rfl

end Piece

namespace Outline

/-- A statement that does not stop has no issues. -/
theorem checked_eq {issues : List Issue} {o : Outline}
    (h : ∀ e, .stop e ∉ (checked issues o).pieces) : checked issues o = o := by
  cases issues with
  | nil => rfl
  | cons issue rest => exact absurd List.mem_cons_self (h _)

/-- What does not stop has passed its check. -/
theorem guarded_eq {c : Prop} [Decidable c] {fault : RenderError} {o : Outline}
    (h : ∀ e, .stop e ∉ (if c then stop fault else o).pieces) :
    (if c then stop fault else o) = o := by
  by_cases hc : c
  · rw [if_pos hc] at h
    exact absurd List.mem_cons_self (h fault)
  · exact if_neg hc

end Outline

theorem Node.mem_listsUnder {n : Node} {key : String} {list : Value → ItemList} {l : ItemList}
    (h : l ∈ n.listsUnder key list) : ∃ v, n.fields.get? key = some v ∧ l = list v := by
  obtain ⟨v, hv, rfl⟩ := List.mem_map.mp h
  exact ⟨v, Option.mem_toList.mp hv, rfl⟩

namespace Handler

open Piece

variable {s : Settings} {n : Node} {l : ItemList}

theorem segment_select (hl : l ∈ Handler.select.lists n)
    (hstop : ∀ e, .stop e ∉ (Outline.select s n).pieces) :
    l.pieces <:+: (Outline.select s n).pieces := by
  have hchecked : (Outline.select s n).pieces = separated " " (selectGroups s n) := by
    rw [Outline.select, Outline.checked_eq hstop, Outline.pieces_straight]
  rw [hchecked] at hstop ⊢
  rcases List.mem_cons.mp hl with rfl | hl
  · have hgroups : selectGroups s n = [.text "SELECT"] :: [.below .tree (n.fields.get "columns")] ::
        [.text "FROM"] :: [.below .tree (n.fields.get "from")] ::
          ([] ++ joinGroups n ++ whereGroups s n ++ groupingGroups n ++ orderingGroups n) := rfl
    -- the columns are the second group, between the words around them
    rw [hgroups, separated_cons, separated_cons, separated_cons]
    exact (List.prefix_append _ _).isInfix
  · rcases List.mem_append.mp hl with hl | hl
    · obtain ⟨v, hv, rfl⟩ := Node.mem_listsUnder hl
      rw [← groupItems_eq]
      refine infix_separated ?_
      simp only [selectGroups, groupingGroups, Piece.optional, hv, List.mem_append,
        List.mem_singleton, or_true, true_or]
    · obtain ⟨v, hv, rfl⟩ := Node.mem_listsUnder hl
      have hgroup : orderItems (v.sequence?.getD []) ∈ selectGroups s n := by
        simp only [selectGroups, orderingGroups, Piece.optional, hv, List.mem_append,
          List.mem_singleton, or_true]
      rw [← orderItems_eq fun e he => hstop e (Renderer.mem_separated " " he hgroup)]
      exact infix_separated hgroup

theorem segment_insert (hl : l ∈ Handler.insert.lists n)
    (hstop : ∀ e, .stop e ∉ (Outline.insert n).pieces) :
    l.pieces <:+: (Outline.insert n).pieces := by
  rw [Outline.insert, Outline.checked_eq hstop, Outline.pieces_straight]
  rcases List.mem_append.mp hl with hl | hl
  · obtain ⟨v, hv, rfl⟩ := Node.mem_listsUnder hl
    simp only [insertColumns, Piece.optional, hv]
    exact ⟨[.text "INSERT INTO ", .below .tree (n.fields.get "into")],
      [.text " VALUES (", .below .tree (n.fields.get "values"), .text ")"], rfl⟩
  · obtain rfl := List.mem_singleton.mp hl
    exact (List.suffix_append _ _).isInfix

theorem segment_join (hl : l ∈ Handler.join.lists n)
    (hstop : ∀ e, .stop e ∉ (Outline.join s n).pieces) :
    l.pieces <:+: (Outline.join s n).pieces := by
  rw [lists] at hl
  split at hl
  · next hshared =>
      obtain rfl := List.mem_singleton.mp hl
      simp only [Outline.join, hshared] at hstop ⊢
      have hargs := Outline.guarded_eq hstop
      rw [hargs] at hstop ⊢
      have htable := Outline.guarded_eq hstop
      rw [htable] at hstop ⊢
      cases hon : Clause.isPresent (n.fields.get "on") with
      | true =>
          rw [hon] at hstop
          exact absurd List.mem_cons_self (hstop _)
      | false => exact ⟨[.text "JOIN ", .below .tree (n.fields.get "tablespec")], [], rfl⟩
  · cases hl

theorem segment_membership (hl : l ∈ Handler.membership.lists n) :
    l.pieces <:+: (Outline.membership n).pieces := by
  rw [lists] at hl
  split at hl
  · next field value values hargs =>
      obtain rfl := List.mem_singleton.mp hl
      have hmembers : (((value :: values).map (·, none)).map ItemList.memberPieces) =
          trees (value :: values) := by
        rw [List.map_map]
        rfl
      rw [ItemList.pieces, hmembers, Outline.membership, hargs]
      exact ⟨[.below .condition field], [], by simp [Outline.pieces]⟩
  · cases hl

theorem segment_ofItems {key : String} {list : List Value → ItemList}
    {pieces : List Value → List Piece}
    (hl : l ∈ (Clause.items n key).toOption.toList.map list)
    (hpieces : ∀ items, Clause.items n key = .ok items → pieces items = (list items).pieces) :
    l.pieces <:+: (Outline.ofItems n key pieces).pieces := by
  obtain ⟨items, hitems, rfl⟩ := List.mem_map.mp hl
  rw [Outline.ofItems]
  cases hfound : Clause.items n key with
  | error f =>
      rw [hfound] at hitems
      cases hitems
  | ok found =>
      rw [hfound] at hitems
      obtain rfl := List.mem_singleton.mp hitems
      rw [← hpieces _ hfound]
      simp

/-- The pieces of a list stand side by side in the outline of its node, if that does not
stop. -/
theorem lists_segment {h : Handler} (hl : l ∈ h.lists n)
    (hstop : ∀ e, .stop e ∉ (h.outline s n).pieces) : l.pieces <:+: (h.outline s n).pieces := by
  cases h with
  | select => exact segment_select hl hstop
  | insert => exact segment_insert hl hstop
  | join => exact segment_join hl hstop
  | membership => exact segment_membership hl
  | groupBy => exact segment_ofItems hl fun items _ => groupItems_eq items
  | orderBy =>
      refine segment_ofItems hl fun items hitems => orderItems_eq fun e he => hstop e ?_
      rw [outline, Outline.ofItems, hitems, Outline.pieces_straight]
      exact he
  | _ => cases hl

end Handler

namespace Renderer

/-! ## Texts of lists -/

/-- A list of a node that is rendered when something is asked for. -/
def HasList (r : Renderer) (v : Value) (request : Request) (l : ItemList) : Prop :=
  ∃ place n handler, r.Renders v request place n ∧
    (r.table place).lookup n.tag = some handler ∧ l ∈ handler.lists n

/-- A text of a member: that of its spread, with its direction. -/
def Lists (r : Renderer) (m : Value × Option Direction) (text : String) : Prop :=
  ∃ spread, r.Spreads m.1 spread ∧ text = spread ++ Direction.suffix m.2

variable {s : Settings}

theorem not_stop_of_written {r : Renderer} {ps : List Piece} {parts : List Result}
    (h : List.Forall₂ (Piece.Written r) ps parts) (e : RenderError) : .stop e ∉ ps := by
  intro he
  induction h with
  | nil => cases he
  | cons hp _ ih =>
      rcases List.mem_cons.mp he with rfl | he
      · cases hp
      · exact ih he

theorem lists_of_written {m : Value × Option Direction} {parts : List Result}
    (h : List.Forall₂ (Piece.Written (of s none none)) (ItemList.memberPieces m) parts) :
    (of s none none).Lists m (textOf parts) := by
  obtain ⟨v, _ | direction⟩ := m
  · obtain ⟨result, hresult, rfl⟩ := Piece.written_singleton h
    exact ⟨_, spreads_of_render hresult, by rw [textOf_cons, textOf_nil, Direction.suffix]⟩
  · cases h with
    | cons hv hrest =>
        cases hv with
        | below hresult =>
            refine ⟨_, spreads_of_render hresult, ?_⟩
            rw [textOf_cons, @Piece.written_texts _ [" " ++ direction.word] _ hrest,
              Direction.suffix, String.join_cons, String.join_nil, String.append_empty]

/-- The pieces of a list stand side by side in the outline of the node that has it. -/
theorem HasList.segment {r : Renderer} {request : Request} {v : Value} {result : Result}
    (h : r.render request v = .ok result) {l : ItemList} (hl : r.HasList v request l) :
    ∃ place n, r.Renders v request place n ∧ l.pieces <:+: (r.outline place n).pieces := by
  obtain ⟨place, n, handler, hn, hlookup, hmem⟩ := hl
  obtain ⟨w, outer, _, _, hw, houter, -⟩ := hn.stands h
  obtain ⟨parts, hparts, -⟩ := node_written hw houter
  refine ⟨place, n, hn, ?_⟩
  rw [outline_eq hlookup] at hparts ⊢
  exact Handler.lists_segment hmem (not_stop_of_written hparts)

/-- A list is written between its texts, with commas between the texts of its members. -/
theorem list_written {request : Request} {v : Value} {result : Result}
    (h : (of s none none).render request v = .ok result) {l : ItemList}
    (hl : (of s none none).HasList v request l) :
    ∃ before texts after, List.Forall₂ (of s none none).Lists l.members texts ∧
      result.sql = before ++ (String.join l.opening ++ ", ".intercalate texts ++
        String.join l.closing) ++ after := by
  obtain ⟨place, n, hn, hsegment⟩ := hl.segment h
  obtain ⟨w, outer, fore, aft, hw, houter, htext⟩ := hn.stands h
  obtain ⟨parts, hparts, hsql⟩ := node_written hw houter
  obtain ⟨before, within, after, hwithin, heq⟩ := Piece.written_within hparts hsegment
  -- the pieces of the list are its texts and those of its members
  obtain ⟨_, closing, hfront, hclosing, rfl⟩ := forall₂_append_inv hwithin
  obtain ⟨opening, inner, hopening, hinner, rfl⟩ := forall₂_append_inv hfront
  obtain ⟨members, hmembers, hjoined⟩ := Piece.written_separated hinner
  refine ⟨fore ++ before, members.map textOf, after ++ aft, ?_, ?_⟩
  · rw [List.forall₂_map_right_iff]
    exact (List.forall₂_map_left_iff.mp hmembers).imp fun m parts hm => lists_of_written hm
  · rw [htext, hsql, heq, textOf_append, textOf_append, Piece.written_texts hopening,
      Piece.written_texts hclosing, hjoined]
    simp only [String.append_assoc]

/-! ## Items of lists -/

/-- No list without operands is rendered. -/
def FullLists (r : Renderer) (v : Value) (request : Request) : Prop :=
  ∀ place n, r.Renders v request place n → n.tag = Keyword.list.tag → n.args ≠ []

theorem value_items_ne_nil {request : Request} {v : Value}
    (hfull : (of s none none).FullLists v request) {w : Value} {place : Place} {n : Node}
    (hn : (of s none none).Renders v request place n)
    (hw : .below .tree w ∈ ((of s none none).outline place n).pieces) : w.items ≠ [] := by
  induction w using Value.list_induction generalizing place n with
  | step w ih =>
      cases hlist : w.listOperands? with
      | none => simp [Value.items_of_none hlist]
      | some args =>
          obtain ⟨m, hm, htag, rfl, hpieces⟩ := pieces_of_listOperands? (s := s) hlist
          have hrendered := Renders.operand hn hw hm
          obtain ⟨u, rest, hargs⟩ := List.exists_cons_of_ne_nil (hfull _ _ hrendered htag)
          have hu : u ∈ m.args := hargs ▸ List.mem_cons_self
          have hbelow : .below .tree u ∈ ((of s none none).outline .tree m).pieces := by
            rw [hpieces]
            exact mem_separated _ List.mem_cons_self (List.mem_map_of_mem hu)
          rw [Value.items_of_some hlist, hargs, List.flatMap_cons]
          exact List.append_ne_nil_of_left_ne_nil (ih _ hlist u hu hrendered hbelow) _

/-- If no list without operands is rendered, a list with members has items. -/
theorem items_ne_nil {request : Request} {v : Value} {result : Result}
    (h : (of s none none).render request v = .ok result)
    (hfull : (of s none none).FullLists v request) {l : ItemList}
    (hl : (of s none none).HasList v request l) (hmembers : l.members ≠ []) : l.items ≠ [] := by
  obtain ⟨place, n, hn, hsegment⟩ := hl.segment h
  obtain ⟨m, rest, hcons⟩ := List.exists_cons_of_ne_nil hmembers
  have hmember : .below .tree m.1 ∈ ItemList.memberPieces m := by
    obtain ⟨u, direction⟩ := m
    cases direction <;> exact List.mem_cons_self
  have hinner : .below .tree m.1 ∈ Piece.separated ", " (l.members.map ItemList.memberPieces) :=
    mem_separated _ hmember (List.mem_map_of_mem (hcons ▸ List.mem_cons_self))
  have hpieces : .below .tree m.1 ∈ l.pieces :=
    List.mem_append_left _ (List.mem_append_right _ hinner)
  rw [ItemList.items, hcons, List.flatMap_cons]
  exact List.append_ne_nil_of_left_ne_nil
    (value_items_ne_nil hfull hn (hsegment.subset hpieces)) _

/-- A membership test without values holds for no field. -/
theorem render_membership_of_field {r : Renderer} {v field : Value} {n : Node}
    (hn : Node.ofValue v = .ok n) (hlookup : r.conditions.lookup n.tag = some .membership)
    (hargs : n.args = [field]) : r.render .expression v = .ok ⟨"0 = 1", []⟩ := by
  have htable : (r.table .condition).lookup n.tag = some .membership := hlookup
  have hnode : r.perform v .expression = r.full .condition n := r.perform_node .condition hn
  have hperform : r.perform v .expression = pure (.ofText Condition.never) := by
    rw [hnode, full_eq_render r htable, Handler.render, Clause.membership, hargs]
  rw [render, hperform]
  rfl

/-! ## What lists hold -/

/-- With the built-in tables, each list of what is rendered is written between its texts,
and the text of a member has those of its items.  A list is without items exactly if all
of its members are hollow, and a list with members has items if no list without operands
is rendered.  Hollow members are not refused, for a value is rendered exactly if its
items are.  Only a membership test without values is written without a list. -/
theorem lists_hold_items (s : Settings) :
    (∀ request v result, (of s none none).render request v = .ok result →
      ∀ l, (of s none none).HasList v request l →
        (∃ before texts after, List.Forall₂ (of s none none).Lists l.members texts ∧
          result.sql = before ++ (String.join l.opening ++ ", ".intercalate texts ++
            String.join l.closing) ++ after) ∧
        (l.items = [] ↔ ∀ m ∈ l.members, m.1.Hollow) ∧
        ((of s none none).FullLists v request → l.members ≠ [] → l.items ≠ [])) ∧
      (∀ w, (∃ result, (of s none none).render .tree w = .ok result) ↔
        ∀ item ∈ w.items, ∃ result, (of s none none).render .tree item = .ok result) ∧
      ∀ w n field, Node.ofValue w = .ok n →
        (of s none none).conditions.lookup n.tag = some .membership → n.args = [field] →
          (of s none none).render .expression w = .ok ⟨"0 = 1", []⟩ := by
  refine ⟨fun request v result h l hl => ⟨list_written h hl, ?_, ?_⟩, renders_iff_items, ?_⟩
  · rw [ItemList.items, List.flatMap_eq_nil_iff]
    exact forall₂_congr fun m _ => m.1.items_eq_nil_iff
  · exact fun hfull => items_ne_nil h hfull hl
  · exact fun w n field hn hlookup hargs => render_membership_of_field hn hlookup hargs

/-- The nodes of a grouping by a list of one name. -/
inductive OfGrouping : Place → Node → Prop
  | grouping : OfGrouping .tree
      ⟨"-group_by", [.list [.str "-list", .list [.str "-name", .str "a"]]], []⟩
  | list : OfGrouping .tree ⟨"-list", [.list [.str "-name", .str "a"]], []⟩
  | name : OfGrouping .tree ⟨"-name", [.str "a"], []⟩

/-- A grouping by a list of one name has an item, and a test of no values has no list. -/
theorem lists_hold_items_grouping :
    let v : Value :=
      .list [.str "-group_by", .list [.str "-list", .list [.str "-name", .str "a"]]]
    let l := ItemList.grouping [.list [.str "-list", .list [.str "-name", .str "a"]]]
    (of {} none none).HasList v .tree l ∧ l.items ≠ [] ∧
      (∃ before texts after, List.Forall₂ (of {} none none).Lists l.members texts ∧
        "GROUP BY a" = before ++ (String.join l.opening ++ ", ".intercalate texts ++
          String.join l.closing) ++ after) ∧
      (of {} none none).render .expression (.list [.str "-in", .list [.str "-name", .str "a"]]) =
        .ok ⟨"0 = 1", []⟩ := by
  intro v l
  have hlist : (of {} none none).HasList v .tree l :=
    ⟨.tree, ⟨"-group_by", _, []⟩, .groupBy, .asked List.mem_cons_self rfl, rfl,
      List.mem_cons_self⟩
  have hnodes : ∀ place n, (of {} none none).Renders v .tree place n → OfGrouping place n := by
    intro place n h
    induction h with
    | asked hw hn =>
        obtain ⟨rfl, rfl⟩ := Piece.below.inj (List.mem_singleton.mp hw)
        obtain rfl := Except.ok.inj hn
        exact .grouping
    | operand _ hw hn ih =>
        cases ih with
        | grouping =>
            rcases List.mem_cons.mp hw with hw | hw
            · cases hw
            · obtain ⟨rfl, rfl⟩ := Piece.below.inj (List.mem_singleton.mp hw)
              obtain rfl := Except.ok.inj hn
              exact .list
        | list =>
            obtain ⟨rfl, rfl⟩ := Piece.below.inj (List.mem_singleton.mp hw)
            obtain rfl := Except.ok.inj hn
            exact .name
        | name => cases List.mem_singleton.mp hw
  have hfull : (of {} none none).FullLists v .tree := by
    intro place n hn htag hargs
    cases hnodes place n hn with
    | list => cases hargs
    | _ => exact absurd htag (by decide)
  obtain ⟨hwritten, -, hmembership⟩ := lists_hold_items {}
  obtain ⟨htext, -, hitems⟩ := hwritten .tree v ⟨"GROUP BY a", []⟩ rfl l hlist
  exact ⟨hlist, hitems hfull (List.cons_ne_nil _ _), htext,
    hmembership _ ⟨"-in", [.list [.str "-name", .str "a"]], []⟩ _ rfl rfl rfl⟩

/-- Lists without items are rendered. -/
theorem empty_lists_rendered :
    let empty : Value := .list [.str "-list"]
    let name : Value := .list [.str "-name", .str "a"]
    (∃ l, (of {} none none).HasList (.list [.str "-in", name, empty]) .expression l ∧
        l.members ≠ [] ∧ l.items = []) ∧
      (of {} none none).render .expression (.list [.str "-in", name, empty]) =
        .ok ⟨"a IN ()", []⟩ ∧
      (of {} none none).render .select (.map [(.str "columns", empty), (.str "from", name)]) =
        .ok ⟨"SELECT  FROM a", []⟩ ∧
      (of {} none none).render .insert
          (.map [(.str "into", name), (.str "columns", empty), (.str "values", empty)]) =
        .ok ⟨"INSERT INTO a () VALUES ()", []⟩ ∧
      (of {} none none).render .tree (.list [.str "-group_by"]) = .ok ⟨"GROUP BY ", []⟩ ∧
      (of {} none none).render .tree (.list [.str "-order_by"]) = .ok ⟨"ORDER BY ", []⟩ ∧
      (of {} none none).render .tree (.map [(.str "type", .str "join"), (.str "tablespec", name),
        (.str "using", empty)]) = .ok ⟨"JOIN a USING ()", []⟩ := by
  intro empty name
  have hoperands : empty.listOperands? = some [] := rfl
  have hempty : empty.items = [] := by
    rw [Value.items_of_some hoperands]
    rfl
  refine ⟨⟨⟨[" IN ("], [(empty, none)], [")"]⟩, ?_, List.cons_ne_nil _ _, ?_⟩, rfl, rfl, rfl, rfl,
    rfl, rfl⟩
  · exact ⟨.condition, ⟨"-in", [name, empty], []⟩, .membership, .asked List.mem_cons_self rfl, rfl,
      List.mem_cons_self⟩
  · rw [ItemList.items, List.flatMap_singleton, hempty]

end Renderer

end QueryTree
