import QueryTree.Proofs.KeyOrder
import QueryTree.Proofs.Template

/-!
# Statements are composed of their clauses

A select, an insert and a delete end with SQL if their shape is right, their joins
are accepted and each of their clauses ends with SQL on its own.  Their SQL is then
their template with the clauses' SQL filled in, and their literals are those of the
clauses one after another.

The order in which the entries of a map are entered plays no part, at any depth, if
the names of aliases are texts.  Maps with the same entries are the same to whoever
receives a literal, so literals are compared up to that order as well.

The main statement is `Renderer.statement_composed`.
-/

namespace QueryTree.Renderer

/-! ## Statements -/

/-- A statement ends with SQL if its shape is right, its joins are accepted and each
clause ends with SQL on its own, and then with its template filled in.  Entries in
any other order lead to the same SQL and literals, or to an error as well. -/
theorem statement_composed (s : Settings) {k : Straight} {entries : Fields}
    (h : k.Named entries) :
    (∀ result, (of s none none).render k.request (.map entries) = .ok result ↔
      k.issues (k.node entries) = [] ∧ ∃ slots, k.template (k.node entries) = .ok slots ∧
        ∃ parts, List.Forall₂ (Slot.Filled (of s none none)) slots parts ∧
          result = .joined parts) ∧
    ∀ w, Value.Reordered (.map entries) w →
      (of s none none).PlainNames k.request (.map entries) →
        Agree Value.Reordered ((of s none none).render k.request (.map entries))
          ((of s none none).render k.request w) := by
  constructor
  · intro result
    exact Straight.render_ok_iff s h
  · intro w hw hnames
    exact agree_of_alike _ (perform_reordered hnames hw)

/-! ### A select in two orders -/

/-- A literal under another name. -/
def namedLiteral : Fields :=
  [(.str "type", .str "alias"), (.str "ident", .list [.str "-value", .int 7]), (.str "as", .str "u")]

/-- A select of a literal under another name. -/
def orderedSelect : Fields :=
  [(.str "type", .str "select"), (.str "columns", .list [.str "-list", .map namedLiteral]),
    (.str "from", .list [.str "-name", .str "t"])]

/-- The same select with the entries in other orders, at both levels. -/
def reorderedSelect : Fields :=
  [(.str "from", .list [.str "-name", .str "t"]), (.str "type", .str "select"),
    (.str "columns", .list [.str "-list", .map namedLiteral.reverse])]

theorem reordered_orderedSelect : Value.Reordered (.map orderedSelect) (.map reorderedSelect) := by
  have hnamed : Value.Reordered (.map namedLiteral) (.map namedLiteral.reverse) :=
    .map (by decide) (.cons _ (.same _) (.cons _ (.same _) (.cons _ (.same _) .nil)))
      (List.reverse_perm _).symm
  have hcolumns : Value.Reordered (.list [.str "-list", .map namedLiteral])
      (.list [.str "-list", .map namedLiteral.reverse]) :=
    .list (.cons (.same _) (.cons hnamed .nil))
  refine .map (by decide) (.cons _ (.same _) (.cons _ hcolumns (.cons _ (.same _) .nil))) ?_
  exact List.perm_append_singleton _ [_, _]

/-- The nodes that are rendered for the select. -/
inductive OfSelect : Place → Node → Prop
  | select : OfSelect .tree (Straight.select.node orderedSelect)
  | list : OfSelect .tree { tag := "-list", args := [.map namedLiteral] }
  | aliased : OfSelect .tree { tag := "-alias", fields := namedLiteral.without "type" }
  | value : OfSelect .tree { tag := "-value", args := [.int 7] }
  | name : OfSelect .tree { tag := "-name", args := [.str "t"] }

theorem plainNames_orderedSelect : (of {} none none).PlainNames .select (.map orderedSelect) := by
  have hrendered : ∀ place n, (of {} none none).Renders (.map orderedSelect) .select place n →
      OfSelect place n := by
    intro place n h
    induction h with
    | asked hw hn =>
        obtain ⟨rfl, rfl⟩ := Piece.below.inj (List.mem_singleton.mp hw)
        obtain rfl := Except.ok.inj hn
        exact .select
    | operand _ hw hn ih =>
        cases ih with
        | select =>
            have hpieces : ((of {} none none).outline .tree (Straight.select.node orderedSelect)).pieces =
                [.text "SELECT", .text " ", .below .tree (.list [.str "-list", .map namedLiteral]),
                  .text " ", .text "FROM", .text " ", .below .tree (.list [.str "-name", .str "t"])] :=
              rfl
            simp only [hpieces, List.mem_cons, reduceCtorEq, Piece.below.injEq, List.not_mem_nil,
              false_or, or_false] at hw
            rcases hw with ⟨rfl, rfl⟩ | ⟨rfl, rfl⟩
            · obtain rfl := Except.ok.inj hn
              exact .list
            · obtain rfl := Except.ok.inj hn
              exact .name
        | list =>
            obtain ⟨rfl, rfl⟩ := Piece.below.inj (List.mem_singleton.mp hw)
            obtain rfl := Except.ok.inj hn
            exact .aliased
        | aliased =>
            rcases List.mem_cons.mp hw with hw | hw
            · obtain ⟨rfl, rfl⟩ := Piece.below.inj hw
              obtain rfl := Except.ok.inj hn
              exact .value
            · cases List.mem_singleton.mp hw
        | value => cases List.mem_singleton.mp hw
        | name => cases List.mem_singleton.mp hw
  intro place n hn hlookup
  cases hrendered place n hn with
  | aliased => exact Or.inr ⟨"u", rfl⟩
  | _ => cases hlookup

/-- In both orders the select is rendered with one text, and its parts are those of
its template. -/
theorem statement_composed_reordered :
    (∃ parts, List.Forall₂ (Slot.Filled (of {} none none))
        [.text "SELECT", .text " ", .clause .tree (.list [.str "-list", .map namedLiteral]), .text " ",
          .text "FROM", .text " ", .clause .tree (.list [.str "-name", .str "t"])] parts ∧
      (⟨"SELECT ? AS u FROM t", [.int 7]⟩ : Result) = .joined parts) ∧
    Agree Value.Reordered (.ok ⟨"SELECT ? AS u FROM t", [.int 7]⟩)
      ((of {} none none).render .select (.map reorderedSelect)) := by
  have hcomposed := @statement_composed {} .select orderedSelect (Or.inr ⟨"select", rfl, rfl⟩)
  constructor
  · obtain ⟨-, slots, hslots, hparts⟩ := (hcomposed.1 ⟨"SELECT ? AS u FROM t", [.int 7]⟩).mp rfl
    obtain rfl := Except.ok.inj hslots
    exact hparts
  · exact hcomposed.2 _ reordered_orderedSelect plainNames_orderedSelect

end QueryTree.Renderer
