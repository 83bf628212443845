import Mathlib.Data.List.ReduceOption
import QueryTree.Proofs.Texts

/-!
# Items of lists

A list that is rendered into another list adds its items to it, and so do the lists
within.  What a value adds to the list that it is rendered into is its *spread*
(`Value.spread`): a list has the spreads of its operands, and any other value is one
item.  A list without operands still has a place, in which nothing is written.  The
*items* of a value are those of its spread (`Value.items`).

The text of a value has the texts of its items, and nothing for what is empty, with the
separator of lists between them (`Renderer.spreads_of_render`).  It is rendered exactly
if all of its items are (`Renderer.renders_iff_items`).  So a value without items, which
is a list of nothing but such lists (`Value.items_eq_nil_iff`), always is.
-/

namespace QueryTree

/-! ## Spreads -/

namespace Value

/-- The operands of a value that is a list. -/
def listOperands? (v : Value) : Option (List Value) :=
  match Node.ofValue v with
  | .ok n => if n.tag = Keyword.list.tag then some n.args else none
  | .error _ => none

theorem weight_lt_of_listOperands? {v w : Value} {args : List Value}
    (h : v.listOperands? = some args) (hw : w ∈ args) : w.weight < v.weight := by
  unfold listOperands? at h
  split at h
  · next n hn =>
      split at h
      · obtain rfl := Option.some.inj h
        have hle := Node.weight_le hn
        have hlt := weight_le_of_mem hw
        rw [Node.weight] at hle
        omega
      · cases h
  · cases h

/-- What a value adds to a list, place by place.  A list adds what its operands add, and
a list without operands a place in which nothing is written. -/
def spread (v : Value) : List (Option Value) :=
  match _h : v.listOperands? with
  | none => [some v]
  | some [] => [none]
  | some (w :: rest) => (w :: rest).attach.flatMap fun u => u.1.spread
termination_by v.weight
decreasing_by exact weight_lt_of_listOperands? _h u.2

/-- The items that a value adds to a list. -/
def items (v : Value) : List Value := v.spread.reduceOption

theorem spread_of_none {v : Value} (h : v.listOperands? = none) : v.spread = [some v] := by
  rw [spread]
  split
  · rfl
  · next hnil => rw [h] at hnil; cases hnil
  · next hcons => rw [h] at hcons; cases hcons

theorem spread_of_nil {v : Value} (h : v.listOperands? = some []) : v.spread = [none] := by
  rw [spread]
  split
  · next hnone => rw [h] at hnone; cases hnone
  · rfl
  · next hcons => rw [h] at hcons; cases hcons

theorem spread_of_cons {v w : Value} {rest : List Value}
    (h : v.listOperands? = some (w :: rest)) : v.spread = (w :: rest).flatMap spread := by
  rw [spread]
  split
  · next hnone => rw [h] at hnone; cases hnone
  · next hnil => rw [h] at hnil; cases hnil
  · next hcons =>
      rw [h] at hcons
      obtain ⟨rfl, rfl⟩ := List.cons.inj (Option.some.inj hcons)
      rw [List.flatMap_subtype (g := spread) fun _ _ => rfl, List.unattach_attach]

/-- What holds of a value if it holds of the operands of the list that it is holds of
every value. -/
theorem list_induction {P : Value → Prop}
    (step : ∀ v, (∀ args, v.listOperands? = some args → ∀ w ∈ args, P w) → P v) (v : Value) : P v :=
  step v fun _ h w hw =>
    have := weight_lt_of_listOperands? h hw
    list_induction step w
termination_by v.weight

theorem spread_ne_nil (v : Value) : v.spread ≠ [] := by
  induction v using list_induction with
  | step v ih =>
      cases h : v.listOperands? with
      | none => simp [spread_of_none h]
      | some args =>
          cases args with
          | nil => simp [spread_of_nil h]
          | cons w rest =>
              rw [spread_of_cons h, List.flatMap_cons]
              exact List.append_ne_nil_of_left_ne_nil (ih _ h w List.mem_cons_self) _

theorem items_of_none {v : Value} (h : v.listOperands? = none) : v.items = [v] := by
  rw [items, spread_of_none h]
  rfl

theorem items_of_some {v : Value} {args : List Value} (h : v.listOperands? = some args) :
    v.items = args.flatMap items := by
  cases args with
  | nil =>
      rw [items, spread_of_nil h]
      rfl
  | cons w rest =>
      rw [items, spread_of_cons h, List.reduceOption, List.filterMap_flatMap]
      rfl

/-- A list of nothing but lists of nothing. -/
inductive Hollow : Value → Prop
  | list {v : Value} {args : List Value} :
    v.listOperands? = some args → (∀ w ∈ args, Hollow w) → Hollow v

/-- A value is without items exactly if it is hollow. -/
theorem items_eq_nil_iff (v : Value) : v.items = [] ↔ v.Hollow := by
  constructor
  · intro h
    induction v using list_induction with
    | step v ih =>
        cases hlist : v.listOperands? with
        | none =>
            rw [items_of_none hlist] at h
            cases h
        | some args =>
            rw [items_of_some hlist, List.flatMap_eq_nil_iff] at h
            exact .list hlist fun w hw => ih args hlist w hw (h w hw)
  · intro h
    induction h with
    | list hlist _ ih => rw [items_of_some hlist, List.flatMap_eq_nil_iff.mpr ih]

end Value

/-- A separated list of separated lists is one separated list if none of them is empty. -/
theorem intercalate_flatten {separator : String} :
    ∀ {groups : List (List String)}, (∀ g ∈ groups, g ≠ []) →
      separator.intercalate (groups.map separator.intercalate) =
        separator.intercalate groups.flatten
  | [], _ => rfl
  | [g], _ => by
      rw [List.map_singleton, String.intercalate_singleton, List.flatten_singleton]
  | g :: next :: rest, h => by
      have hrest := fun k hk => h k (List.mem_cons_of_mem g hk)
      have hne : (next :: rest).flatten ≠ [] := by
        rw [List.flatten_cons]
        exact List.append_ne_nil_of_left_ne_nil (hrest next List.mem_cons_self) _
      have hmap : (next :: rest).map separator.intercalate ≠ [] := List.cons_ne_nil _ _
      have hflatten : (g :: next :: rest).flatten = g ++ (next :: rest).flatten :=
        List.flatten_cons
      rw [List.map_cons, String.intercalate_cons_of_ne_nil hmap, intercalate_flatten hrest,
        hflatten, String.intercalate_append_of_ne_nil (h g List.mem_cons_self) hne]

namespace Renderer

/-! ## Texts of spreads -/

/-- What is written in a place of a list. -/
inductive Fills (r : Renderer) : Option Value → String → Prop
  | nothing : Fills r none ""
  | item {v : Value} {result : Result} : r.render .tree v = .ok result → Fills r (some v) result.sql

/-- A text that has what fills the places of a value, with the separator of lists
between. -/
def Spreads (r : Renderer) (v : Value) (text : String) : Prop :=
  ∃ parts, List.Forall₂ r.Fills v.spread parts ∧
    text = r.settings.listSeparator.intercalate parts

variable {s : Settings}

theorem lookup_list {n : Node} (h : n.tag = Keyword.list.tag) :
    ((of s none none).table .tree).lookup n.tag = some .list := by
  rw [h]
  rfl

/-- The pieces of a list. -/
theorem pieces_of_listOperands? {v : Value} {args : List Value}
    (h : v.listOperands? = some args) :
    ∃ n, Node.ofValue v = .ok n ∧ n.tag = Keyword.list.tag ∧ n.args = args ∧
      ((of s none none).outline .tree n).pieces =
        Piece.separated s.listSeparator (Piece.trees args) := by
  unfold Value.listOperands? at h
  split at h
  · next n hn =>
      split at h
      · next htag =>
          obtain rfl := Option.some.inj h
          refine ⟨n, hn, htag, rfl, ?_⟩
          rw [outline_eq (lookup_list htag), Handler.outline, Outline.pieces_straight]
          rfl
      · cases h
  · cases h

/-- Operands that are written one by one spread over one list. -/
theorem spreads_operands {r : Renderer} {args : List Value} {parts : List (List Result)}
    (hargs : List.Forall₂ (List.Forall₂ (Piece.Written r)) (Piece.trees args) parts)
    (ih : ∀ w ∈ args, ∀ result, r.render .tree w = .ok result → r.Spreads w result.sql) :
    ∃ groups : List (List String),
      List.Forall₂ (fun w g => List.Forall₂ r.Fills w.spread g) args groups ∧
        (∀ g ∈ groups, g ≠ []) ∧
        parts.map textOf = groups.map r.settings.listSeparator.intercalate := by
  induction args generalizing parts with
  | nil =>
      cases hargs
      exact ⟨[], .nil, List.forall_mem_nil _, rfl⟩
  | cons w rest hrec =>
      cases hargs with
      | cons hw hrest =>
          obtain ⟨groups, hgroups, hne, htexts⟩ :=
            hrec hrest fun u hu => ih u (List.mem_cons_of_mem w hu)
          obtain ⟨result, hresult, rfl⟩ := Piece.written_singleton hw
          obtain ⟨g, hg, htext⟩ := ih w List.mem_cons_self result hresult
          have hg' : g ≠ [] := by
            rintro rfl
            exact w.spread_ne_nil (List.forall₂_nil_right_iff.mp hg)
          refine ⟨g :: groups, .cons hg hgroups, List.forall_mem_cons.mpr ⟨hg', hne⟩, ?_⟩
          rw [List.map_cons, List.map_cons, htexts, ← htext, textOf_cons, textOf_nil,
            String.append_empty]

/-- The text of a value is that of its spread. -/
theorem spreads_of_render {v : Value} {result : Result}
    (h : (of s none none).render .tree v = .ok result) :
    (of s none none).Spreads v result.sql := by
  induction v using Value.list_induction generalizing result with
  | step v ih =>
      cases hlist : v.listOperands? with
      | none =>
          refine ⟨[result.sql], ?_, String.intercalate_singleton.symm⟩
          rw [Value.spread_of_none hlist]
          exact .cons (.item h) .nil
      | some args =>
          obtain ⟨n, hn, -, -, hpieces⟩ := pieces_of_listOperands? (s := s) hlist
          obtain ⟨parts, hparts, htext⟩ := @node_written _ .tree _ _ _ hn h
          rw [hpieces] at hparts
          obtain ⟨withins, hwithins, hjoined⟩ := Piece.written_separated hparts
          obtain ⟨groups, hgroups, hne, htexts⟩ :=
            spreads_operands hwithins fun w hw result hresult => ih args hlist w hw hresult
          have hsql : result.sql = s.listSeparator.intercalate
              (groups.map s.listSeparator.intercalate) := by
            rw [htext, hjoined, htexts]
            rfl
          cases args with
          | nil =>
              cases hgroups
              refine ⟨[""], ?_, hsql⟩
              rw [Value.spread_of_nil hlist]
              exact .cons .nothing .nil
          | cons w rest =>
              refine ⟨groups.flatten, ?_, hsql.trans (intercalate_flatten hne)⟩
              rw [Value.spread_of_cons hlist, ← List.flatMap_id]
              exact List.rel_flatMap hgroups fun _ _ hg => hg

end Renderer

/-! ## Acceptance -/

namespace Rendering

variable {α β : Type}

/-- A rendering ends with a result. -/
def Ends (x : Rendering α) : Prop := ∃ a recorded, Gives x (.ok a) recorded

theorem ends_pure (a : α) : Ends (pure a) := ⟨a, [], gives_pure a⟩

theorem ends_bind_iff {x : Rendering α} {f : α → Rendering β} (hx : Regular x)
    (hf : ∀ a, Regular (f a)) :
    Ends (x >>= f) ↔ ∃ a recorded, Gives x (.ok a) recorded ∧ Ends (f a) := by
  constructor
  · rintro ⟨b, recorded, h⟩
    obtain ⟨a, r, r', ha, hb, -⟩ := h.bind_ok_inv hx hf
    exact ⟨a, r, ha, b, r', hb⟩
  · rintro ⟨a, r, ha, b, r', hb⟩
    exact ⟨b, r ++ r', gives_bind_ok ha hb⟩

/-- Items that are rendered one by one end with results if each does. -/
theorem ends_each_iff {f : α → Rendering β} (hf : ∀ a, Regular (f a)) (items : List α) :
    Ends (each f items) ↔ ∀ a ∈ items, Ends (f a) := by
  have hregular : ∀ items : List α, Regular (each f items) := fun _ =>
    closed_regular.each fun a _ => hf a
  induction items with
  | nil => exact iff_of_true (ends_pure []) (List.forall_mem_nil _)
  | cons a items ih =>
      have hcons : ∀ b : β, Regular (each f items >>= fun bs => pure (b :: bs)) := fun b =>
        (hregular items).bind fun bs => regular_pure (b :: bs)
      rw [each_cons, ends_bind_iff (hf a) hcons, List.forall_mem_cons]
      constructor
      · rintro ⟨b, r, hb, hrest⟩
        obtain ⟨bs, r', hbs, -⟩ :=
          (ends_bind_iff (hregular items) fun bs => regular_pure (b :: bs)).mp hrest
        exact ⟨⟨b, r, hb⟩, ih.mp ⟨bs, r', hbs⟩⟩
      · rintro ⟨⟨b, r, hb⟩, hrest⟩
        obtain ⟨bs, r', hbs⟩ := ih.mpr hrest
        refine ⟨b, r, hb, ?_⟩
        exact (ends_bind_iff (hregular items) fun bs => regular_pure (b :: bs)).mpr
          ⟨bs, r', hbs, ends_pure _⟩

end Rendering

namespace Renderer

variable {s : Settings}

theorem renders_iff_ends (r : Renderer) {request : Request} {v : Value} :
    (∃ result, r.render request v = .ok result) ↔ Rendering.Ends (r.perform v request) := by
  constructor
  · rintro ⟨result, h⟩
    obtain ⟨sql, recorded, hsql, -⟩ := gives_of_render h
    exact ⟨sql, recorded, hsql⟩
  · rintro ⟨sql, recorded, hsql⟩
    exact ⟨_, render_of_gives hsql⟩

/-- A list is rendered exactly if each of its operands is. -/
theorem renders_iff_operands {v : Value} {args : List Value} (h : v.listOperands? = some args) :
    (∃ result, (of s none none).render .tree v = .ok result) ↔
      ∀ w ∈ args, ∃ result, (of s none none).render .tree w = .ok result := by
  obtain ⟨n, hn, htag, rfl, -⟩ := pieces_of_listOperands? (s := s) h
  have hnode : (of s none none).perform v .tree = (of s none none).full .tree n :=
    (of s none none).perform_node .tree hn
  have hperform : (of s none none).perform v .tree =
      Rendering.each (of s none none).operands.tree n.args >>=
        fun parts => pure (Sql.joined s.listSeparator parts) := by
    rw [hnode, full_eq_render _ (lookup_list htag)]
    rfl
  have hregular : ∀ w, Rendering.Regular ((of s none none).operands.tree w) :=
    (of s none none).regular_operands .tree
  have heach : Rendering.Regular (Rendering.each (of s none none).operands.tree n.args) :=
    Rendering.closed_regular.each fun w _ => hregular w
  rw [renders_iff_ends, hperform, Rendering.ends_bind_iff heach fun _ => Rendering.regular_pure _]
  simp only [renders_iff_ends, perform_tree]
  rw [← Rendering.ends_each_iff hregular]
  constructor
  · rintro ⟨parts, recorded, hparts, -⟩
    exact ⟨parts, recorded, hparts⟩
  · rintro ⟨parts, recorded, hparts⟩
    exact ⟨parts, recorded, hparts, Rendering.ends_pure _⟩

/-- A value is rendered exactly if each of its items is. -/
theorem renders_iff_items (v : Value) :
    (∃ result, (of s none none).render .tree v = .ok result) ↔
      ∀ item ∈ v.items, ∃ result, (of s none none).render .tree item = .ok result := by
  induction v using Value.list_induction with
  | step v ih =>
      cases hlist : v.listOperands? with
      | none => rw [Value.items_of_none hlist, List.forall_mem_singleton]
      | some args =>
          rw [Value.items_of_some hlist, renders_iff_operands hlist, List.forall_mem_flatMap]
          exact forall₂_congr fun w hw => ih args hlist w hw

end Renderer

end QueryTree
