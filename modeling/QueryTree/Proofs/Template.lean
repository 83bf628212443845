import Mathlib.Data.List.Forall2
import QueryTree.Proofs.LiteralOrder

/-!
# Templates of statements

A select, an insert and a delete are put together from clauses.  Which clauses, in
which order, and what is written around them is the *template* of the statement: a
list of slots, each a fixed text or a clause (`Slot`).  A clause is a value together
with what is asked for, so it can be rendered on its own.

* A select is `SELECT`, the columns, `FROM`, the source, each join, and the WHERE,
  GROUP BY and ORDER BY clauses whose keys are there, with single spaces between.
* An insert is `INSERT INTO`, the target, the columns in parentheses if their key is
  there, and `VALUES` with the values in parentheses.
* A delete is `DELETE FROM`, the source, and the WHERE clause if its key is there.

The main statement is `Renderer.statement_eq_fill`: a statement whose shape is right
and whose joins are accepted renders its template, slot by slot.  What slots give is
what each of them gives on its own (`Renderer.result_fill_iff`), so it does not
matter what was recorded for the slots before.
-/

namespace QueryTree

open Rendering (each fault Gives Regular)

/-! ## Slots -/

/-- A part of a statement. -/
inductive Slot where
  /-- A text of the statement itself. -/
  | text (t : String)
  /-- A clause: what is asked for of a value. -/
  | clause (request : Renderer.Request) (v : Value)

namespace Slot

/-- What a slot is filled with.  A clause is filled with its own result. -/
inductive Filled (r : Renderer) : Slot → Renderer.Result → Prop
  | text (t : String) : Filled r (.text t) ⟨t, []⟩
  | clause {request : Renderer.Request} {v : Value} {result : Renderer.Result} :
    r.render request v = .ok result → Filled r (.clause request v) result

theorem filled_text_inv {r : Renderer} {t : String} {slots : List Slot}
    {parts : List Renderer.Result} (h : List.Forall₂ (Filled r) (.text t :: slots) parts) :
    ∃ rest, parts = ⟨t, []⟩ :: rest ∧ List.Forall₂ (Filled r) slots rest := by
  cases h with
  | cons ht hrest =>
      cases ht
      exact ⟨_, rfl, hrest⟩

theorem filled_clause_inv {r : Renderer} {request : Renderer.Request} {v : Value}
    {slots : List Slot} {parts : List Renderer.Result}
    (h : List.Forall₂ (Filled r) (.clause request v :: slots) parts) :
    ∃ result rest, r.render request v = .ok result ∧ parts = result :: rest ∧
      List.Forall₂ (Filled r) slots rest := by
  cases h with
  | cons hv hrest =>
      cases hv with
      | clause hresult => exact ⟨_, _, hresult, rfl, hrest⟩

/-- The SQL of a slot. -/
def rendering (r : Renderer) : Slot → Rendering Sql
  | text t => pure (.ofText t)
  | clause request v => r.perform v request

/-- Slots with single spaces between them. -/
def spaced (slots : List Slot) : List Slot := slots.intersperse (.text " ")

end Slot

/-- The result of filled slots in a row: the texts after one another, and the literals
after one another. -/
def Renderer.Result.joined (parts : List Renderer.Result) : Renderer.Result :=
  ⟨String.join (parts.map (·.sql)), parts.flatMap (·.binds)⟩

/-! ## Maps that name a statement -/

namespace Keyword

/-- The type of a map is missing or blank, or it names a keyword. -/
def Names (k : Keyword) (entries : Fields) : Prop :=
  (entries.get "type").isBlank = true ∨
    ∃ type, entries.get "type" = .str type ∧ tagOfType type = k.tag

theorem tagOfType_tag (k : Keyword) : tagOfType k.tag = k.tag := by
  cases k <;> rfl

/-- A map stands for a statement exactly if its type allows it, and then for the
statement with its other entries. -/
theorem ofValue_iff {k : Keyword} {entries : Fields} {n : Node} :
    Node.ofValue (.map entries) (some k.tag) = .ok n ∧ n.tag = k.tag ↔
      k.Names entries ∧ n = { tag := k.tag, fields := entries.without "type" } := by
  simp only [Node.ofValue, Node.ofMap, Names]
  cases hblank : (entries.get "type").isBlank with
  | true =>
      rw [if_pos rfl, k.tagOfType_tag]
      constructor
      · rintro ⟨h, -⟩
        exact ⟨Or.inl rfl, (Except.ok.inj h).symm⟩
      · rintro ⟨-, rfl⟩
        exact ⟨rfl, rfl⟩
  | false =>
      rw [if_neg Bool.false_ne_true]
      constructor
      · rintro ⟨h, htag⟩
        cases htype : entries.get "type" with
        | str type =>
            rw [htype] at h
            obtain rfl := Except.ok.inj h
            have hnamed : tagOfType type = k.tag := htag
            exact ⟨Or.inr ⟨type, rfl, hnamed⟩, by rw [hnamed]⟩
        | _ =>
            rw [htype] at h
            cases h
      · rintro ⟨h, rfl⟩
        obtain ⟨type, htype, hnamed⟩ := h.resolve_left Bool.false_ne_true
        rw [htype, Node.tagOf, Except.map, hnamed]
        exact ⟨rfl, rfl⟩

end Keyword

/-! ## Templates -/

/-- The statements whose clauses are rendered in the order of their text. -/
inductive Straight where
  /-- A select. -/
  | select
  /-- An insert. -/
  | insert
  /-- A delete. -/
  | delete
deriving DecidableEq, Repr

namespace Straight

/-- The keyword of a statement. -/
def keyword : Straight → Keyword
  | select => .select
  | insert => .insert
  | delete => .delete

/-- The request for a statement. -/
def request : Straight → Renderer.Request
  | select => .select
  | insert => .insert
  | delete => .delete

/-- The issues of the shape of a statement. -/
def issues : Straight → Node → List Issue
  | select => Shape.select
  | insert => Shape.insert
  | delete => Shape.delete

/-- The slots of what is under a key, none if the key is not there. -/
def under (n : Node) (key : String) (slots : Value → List Slot) : List Slot :=
  match n.fields.get? key with
  | some v => slots v
  | none => []

/-- The slot of a WHERE clause. -/
def whereSlots (n : Node) : List Slot := under n "where" fun v => [.clause .conditions v]

/-- A grouping or an ordering that stands alone: a tree of a type with its items
under a key of the same name. -/
def items (key : String) (v : Value) : Value := .map [(.str "type", .str key), (.str key, v)]

/-- The slot of a grouping or an ordering. -/
def itemSlots (n : Node) (key : String) : List Slot :=
  under n key fun v => [.clause .tree (items key v)]

/-- The joins of a select, if they are accepted. -/
def joins (n : Node) : Except Fault (List Value) :=
  match n.fields.get? "join" with
  | some v => Clause.joinList v
  | none => .ok []

/-- The template of a select with given joins. -/
def selectSlots (n : Node) (joins : List Value) : List Slot :=
  Slot.spaced ([.text "SELECT", .clause .tree (n.fields.get "columns"), .text "FROM",
      .clause .tree (n.fields.get "from")]
    ++ joins.map (.clause .tree) ++ whereSlots n ++ itemSlots n "group_by"
    ++ itemSlots n "order_by")

/-- The template of an insert. -/
def insertSlots (n : Node) : List Slot :=
  [.text "INSERT INTO ", .clause .tree (n.fields.get "into")]
    ++ (under n "columns" fun v => [.text " (", .clause .tree v, .text ")"])
    ++ [.text " VALUES (", .clause .tree (n.fields.get "values"), .text ")"]

/-- The template of a delete. -/
def deleteSlots (n : Node) : List Slot :=
  Slot.spaced ([.text "DELETE FROM", .clause .tree (n.fields.get "from")] ++ whereSlots n)

/-- The template of a statement. -/
def template : Straight → Node → Except Fault (List Slot)
  | select, n => (joins n).map (selectSlots n)
  | insert, n => .ok (insertSlots n)
  | delete, n => .ok (deleteSlots n)

/-- The type of a map is missing or blank, or it names the statement. -/
def Named (k : Straight) (entries : Fields) : Prop :=
  (entries.get "type").isBlank = true ∨
    ∃ type, entries.get "type" = .str type ∧ tagOfType type = k.keyword.tag

/-- The statement that a map stands for. -/
def node (k : Straight) (entries : Fields) : Node :=
  { tag := k.keyword.tag, fields := entries.without "type" }

end Straight

/-- A statement with issues is refused, whatever it would be rendered as. -/
theorem Statement.checked_of_issues {issues : List Issue} (h : issues ≠ [])
    (rendering : Rendering Sql) :
    Statement.checked issues rendering = Rendering.fault (.issues issues) := by
  cases issues with
  | nil => exact absurd rfl h
  | cons issue rest => rfl

/-! ## What slots give -/

namespace Rendering

variable {α β : Type}

/-- Items rendered one by one end with results if each does, and then with the
results and the literals of each. -/
theorem gives_each_ok_iff {f : α → Rendering β} (hf : ∀ a, Regular (f a)) {items : List α}
    {bs : List β} {recorded : List Value} :
    Gives (each f items) (.ok bs) recorded ↔
      ∃ parts : List (β × List Value), List.Forall₂ (fun a p => Gives (f a) (.ok p.1) p.2) items parts ∧
        bs = parts.map (·.1) ∧ recorded = parts.flatMap (·.2) := by
  have hregular : ∀ items : List α, Regular (each f items) := fun _ =>
    closed_regular.each fun a _ => hf a
  induction items generalizing bs recorded with
  | nil =>
      constructor
      · intro h
        obtain ⟨hbs, rfl⟩ := h.unique (gives_pure [])
        exact ⟨[], .nil, Except.ok.inj hbs, rfl⟩
      · rintro ⟨parts, hparts, rfl, rfl⟩
        cases hparts
        exact gives_pure []
  | cons a items ih =>
      rw [each_cons]
      constructor
      · intro h
        obtain ⟨b, r, _, hb, hrest, rfl⟩ := h.bind_ok_inv (hf a) fun b =>
          (hregular items).bind fun bs => regular_pure (b :: bs)
        obtain ⟨bs', r', _, hbs, hlast, rfl⟩ :=
          hrest.bind_ok_inv (hregular items) fun bs => regular_pure (b :: bs)
        obtain ⟨heq, rfl⟩ := hlast.unique (gives_pure (b :: bs'))
        obtain ⟨parts, hparts, rfl, rfl⟩ := ih.mp hbs
        exact ⟨(b, r) :: parts, .cons hb hparts, Except.ok.inj heq, by simp⟩
      · rintro ⟨parts, hparts, rfl, rfl⟩
        cases hparts with
        | @cons _ p _ parts hp hparts =>
            have hrest : Gives (each f items >>= fun bs => pure (p.1 :: bs))
                (.ok (p.1 :: parts.map (·.1))) (parts.flatMap (·.2) ++ []) :=
              gives_bind_ok (ih.mpr ⟨parts, hparts, rfl, rfl⟩) (gives_pure _)
            rw [List.append_nil] at hrest
            exact gives_bind_ok hp hrest

end Rendering

namespace Renderer

variable (r : Renderer)

/-- The SQL of a template. -/
def fill (slots : List Slot) : Rendering Sql := do
  let parts ← each (Slot.rendering r) slots
  return parts.flatten

theorem regular_rendering (slot : Slot) : Regular (slot.rendering r) := by
  cases slot with
  | text t => exact Rendering.regular_pure _
  | clause request v => exact r.regular_perform v request

/-- A slot's SQL and literals as its result. -/
def written (p : Sql × List Value) : Result := ⟨p.1.write r.settings.placeholder, p.2⟩

theorem result_of_gives {x : Rendering Sql} {sql : Sql} {recorded : List Value}
    (h : Gives x (.ok sql) recorded) : r.result x = .ok (r.written (sql, recorded)) := by
  rw [Renderer.result, h []]
  rfl

theorem result_of_gives_error {x : Rendering Sql} {e : RenderError} {recorded : List Value}
    (h : Gives x (.error e) recorded) : r.result x = .error e := by
  rw [Renderer.result, h []]
  rfl

/-- A rendering that is asked for ends with a result if it gives SQL. -/
theorem result_eq_ok_iff {x : Rendering Sql} (hx : Regular x) {result : Result} :
    r.result x = .ok result ↔
      ∃ sql, Gives x (.ok sql) result.binds ∧ result.sql = sql.write r.settings.placeholder := by
  obtain ⟨answer, recorded, h⟩ := hx
  cases answer with
  | error e =>
      rw [r.result_of_gives_error h]
      constructor
      · intro heq
        cases heq
      · rintro ⟨sql, hsql, -⟩
        cases (hsql.unique h).1
  | ok sql =>
      rw [r.result_of_gives h]
      constructor
      · intro heq
        obtain rfl := Except.ok.inj heq
        exact ⟨sql, h, rfl⟩
      · rintro ⟨sql', hsql, htext⟩
        obtain ⟨heq, hbinds⟩ := hsql.unique h
        obtain rfl := Except.ok.inj heq
        obtain ⟨text, binds⟩ := result
        dsimp only at hbinds htext
        rw [hbinds, htext, written]

theorem filled_iff {slot : Slot} {result : Result} :
    slot.Filled r result ↔
      ∃ sql, Gives (slot.rendering r) (.ok sql) result.binds ∧
        result.sql = sql.write r.settings.placeholder := by
  cases slot with
  | clause request v =>
      have hrender : r.render request v = .ok result ↔ _ :=
        r.result_eq_ok_iff (r.regular_perform v request)
      constructor
      · intro h
        cases h with
        | clause h => exact hrender.mp h
      · intro h
        exact .clause (hrender.mpr h)
  | text t =>
      have hwrite : (Sql.ofText t).write r.settings.placeholder = t := by
        simp [Sql.ofText, Sql.write, Sql.writeFragment]
      constructor
      · intro h
        cases h
        exact ⟨_, Rendering.gives_pure _, hwrite.symm⟩
      · rintro ⟨sql, hsql, htext⟩
        obtain ⟨heq, hbinds⟩ := hsql.unique (Rendering.gives_pure _)
        obtain rfl := Except.ok.inj heq
        obtain ⟨text, binds⟩ := result
        dsimp only at hbinds htext
        rw [hbinds, htext, hwrite]
        exact .text t

theorem write_flatten (p : String) (parts : List Sql) :
    Sql.write p parts.flatten = String.join (parts.map (Sql.write p)) := by
  induction parts with
  | nil => rfl
  | cons s parts ih =>
      rw [List.flatten_cons, Sql.write, List.map_append, String.join_append, List.map_cons,
        String.join_cons, ← ih]
      rfl

/-- What a template gives is made of what its slots give. -/
theorem gives_fill_iff {slots : List Slot} {sql : Sql} {recorded : List Value} :
    Gives (r.fill slots) (.ok sql) recorded ↔
      ∃ parts : List (Sql × List Value),
        List.Forall₂ (fun slot p => Gives (slot.rendering r) (.ok p.1) p.2) slots parts ∧
          sql = (parts.map (·.1)).flatten ∧ recorded = parts.flatMap (·.2) := by
  have hslots := r.regular_rendering
  have heach : Regular (each (Slot.rendering r) slots) :=
    Rendering.closed_regular.each fun slot _ => hslots slot
  constructor
  · intro h
    obtain ⟨bs, recorded, _, hbs, hlast, rfl⟩ :=
      h.bind_ok_inv heach fun _ => Rendering.regular_pure _
    obtain ⟨heq, rfl⟩ := hlast.unique (Rendering.gives_pure _)
    obtain ⟨parts, hparts, rfl, rfl⟩ := (Rendering.gives_each_ok_iff hslots).mp hbs
    exact ⟨parts, hparts, Except.ok.inj heq, List.append_nil _⟩
  · rintro ⟨parts, hparts, rfl, rfl⟩
    have hall := (Rendering.gives_each_ok_iff hslots).mpr ⟨parts, hparts, rfl, rfl⟩
    have hfill : Gives (r.fill slots) (.ok (parts.map (·.1)).flatten)
        (parts.flatMap (·.2) ++ []) := Rendering.gives_bind_ok hall (Rendering.gives_pure _)
    rwa [List.append_nil] at hfill

theorem forall₂_filled_iff {slots : List Slot} {parts : List Result} :
    List.Forall₂ (Slot.Filled r) slots parts ↔
      ∃ pieces : List (Sql × List Value),
        List.Forall₂ (fun slot p => Gives (slot.rendering r) (.ok p.1) p.2) slots pieces ∧
          parts = pieces.map r.written := by
  constructor
  · intro h
    induction h with
    | nil => exact ⟨[], .nil, rfl⟩
    | @cons slot part _ _ hslot _ ih =>
        obtain ⟨sql, hsql, htext⟩ := r.filled_iff.mp hslot
        obtain ⟨pieces, hpieces, rfl⟩ := ih
        refine ⟨(sql, part.binds) :: pieces, .cons hsql hpieces, ?_⟩
        rw [List.map_cons, written, ← htext]
  · rintro ⟨pieces, hpieces, rfl⟩
    exact List.forall₂_map_right_iff.mpr (hpieces.imp fun _ p hp => r.filled_iff.mpr ⟨p.1, hp, rfl⟩)

/-- The text and the literals of parts in a row. -/
theorem joined_written (pieces : List (Sql × List Value)) :
    Result.joined (pieces.map r.written) =
      ⟨Sql.write r.settings.placeholder (pieces.map (·.1)).flatten, pieces.flatMap (·.2)⟩ := by
  rw [Result.joined, write_flatten, List.map_map, List.map_map, List.flatMap_map]
  rfl

/-- A template ends with a result if each slot is filled on its own, and then with
the texts and the literals of the slots. -/
theorem result_fill_iff {slots : List Slot} {result : Result} :
    r.result (r.fill slots) = .ok result ↔
      ∃ parts, List.Forall₂ (Slot.Filled r) slots parts ∧ result = .joined parts := by
  have hfill : Regular (r.fill slots) :=
    (Rendering.closed_regular.each fun slot _ => r.regular_rendering slot).bind
      fun _ => Rendering.regular_pure _
  rw [r.result_eq_ok_iff hfill]
  constructor
  · rintro ⟨sql, hsql, htext⟩
    obtain ⟨pieces, hpieces, rfl, hbinds⟩ := r.gives_fill_iff.mp hsql
    refine ⟨_, r.forall₂_filled_iff.mpr ⟨pieces, hpieces, rfl⟩, ?_⟩
    rw [joined_written, ← htext, ← hbinds]
  · rintro ⟨parts, hparts, rfl⟩
    obtain ⟨pieces, hpieces, rfl⟩ := r.forall₂_filled_iff.mp hparts
    rw [joined_written]
    exact ⟨_, r.gives_fill_iff.mpr ⟨pieces, hpieces, rfl, rfl⟩, rfl⟩

theorem fill_cons (slot : Slot) (slots : List Slot) :
    r.fill (slot :: slots) = do
      let part ← slot.rendering r
      let parts ← r.fill slots
      return part ++ parts := by
  simp [fill, Rendering.each_cons]

/-- Slots with spaces between them are joined with spaces. -/
theorem fill_spaced :
    ∀ slots : List Slot, r.fill (Slot.spaced slots) = do
      let parts ← each (Slot.rendering r) slots
      return Sql.joined " " parts
  | [] => rfl
  | [slot] => by simp [fill, Slot.spaced, Rendering.each_cons, Sql.joined]
  | slot :: next :: slots => by
      have ih := fill_spaced (next :: slots)
      rw [Slot.spaced, List.intersperse_cons_cons, ← Slot.spaced, fill_cons, fill_cons, ih]
      simp [Rendering.each_cons, Sql.joined, Slot.rendering, Sql.ofText]

/-! ## Statements fill their templates -/

theorem perform_tree (v : Value) : r.perform v .tree = r.operands.tree v := by
  rw [perform_eq, pieces, Piece.renderAll_below, Piece.at_tree]

theorem perform_conditions (v : Value) :
    r.perform v .conditions = Clause.whereConditions r.settings r.operands v := by
  rw [perform_eq, pieces, Piece.renderAll_whereConditions]

/-- A node is rendered by the handler of its tag. -/
theorem full_eq_render {place : Place} {n : Node} {h : Handler}
    (hlookup : (r.table place).lookup n.tag = some h) :
    r.full place n = h.render r.settings r.operands n := by
  rw [full_eq, outline, hlookup, Handler.render_eq_outline]

/-- A tree is rendered by the handler of the node that it stands for. -/
theorem perform_eq_render {v : Value} {n : Node} {h : Handler} (hv : Node.ofValue v = .ok n)
    (hlookup : (r.table .tree).lookup n.tag = some h) :
    r.perform v .tree = h.render r.settings r.operands n := by
  rw [perform_tree, ← Piece.at_tree, r.operands_at_ok .tree hv, r.full_eq_render hlookup]

/-! ## Values as statements -/

section

variable {k : Keyword} {v : Value} {n : Node}

/-- A value that stands for a node of a type is rendered as that node. -/
theorem statement_of_node (hn : Node.ofValue v (some k.tag) = .ok n) (htag : n.tag = k.tag) :
    r.statement k v = r.full .tree n := by
  rw [statement_eq, statementPiece, hn]
  dsimp only
  rw [if_pos htag, Piece.renderAll_below, r.operands_at_ok .tree (Node.ofValue_toValue n none)]

/-- A value that stands for a node of another type is refused. -/
theorem statement_of_other (hn : Node.ofValue v (some k.tag) = .ok n) (htag : n.tag ≠ k.tag) :
    r.statement k v = Rendering.fault (.otherType n.tag k.tag) := by
  rw [statement_eq, statementPiece, hn]
  dsimp only
  rw [if_neg htag, Piece.renderAll_stop, Rendering.fault]

/-- A value that stands for no node is refused. -/
theorem statement_of_malformed {cause : Malformed}
    (hn : Node.ofValue v (some k.tag) = .error cause) :
    r.statement k v = Rendering.fault (.malformed cause) := by
  rw [statement_eq, statementPiece, hn, Piece.renderAll_stop, Rendering.fault]

end

/-- A map that names a statement is rendered by the handler of the statement. -/
theorem statement_eq_render {k : Keyword} {entries : Fields} {h : Handler}
    (hlookup : (r.table .tree).lookup k.tag = some h) (hnames : k.Names entries) :
    r.statement k (.map entries) =
      h.render r.settings r.operands { tag := k.tag, fields := entries.without "type" } := by
  obtain ⟨hvalue, htag⟩ := Keyword.ofValue_iff.mpr ⟨hnames, rfl⟩
  rw [r.statement_of_node hvalue htag]
  exact r.full_eq_render hlookup

/-- A map that is rendered as a statement names it. -/
theorem names_of_statement {k : Keyword} {entries : Fields} {sql : Sql} {recorded : List Value}
    (h : Gives (r.statement k (.map entries)) (.ok sql) recorded) : k.Names entries := by
  cases hvalue : Node.ofValue (.map entries) (some k.tag) with
  | error cause =>
      rw [r.statement_of_malformed hvalue] at h
      cases (h.unique (Rendering.gives_fail _)).1
  | ok n =>
      by_cases htag : n.tag = k.tag
      · exact (Keyword.ofValue_iff.mp ⟨hvalue, htag⟩).1
      · rw [r.statement_of_other hvalue htag] at h
        cases (h.unique (Rendering.gives_fail _)).1

end Renderer

namespace Straight

variable (s : Settings)

/-- The handler of a statement. -/
def handler : Straight → Handler
  | select => .select
  | insert => .insert
  | delete => .delete

theorem lookup_handler (k : Straight) :
    ((Renderer.of s none none).table .tree).lookup k.keyword.tag = some k.handler := by
  cases k <;> rfl

/-- The slots of what is under a key are what is rendered if the key is there. -/
theorem each_under {r : Renderer} {n : Node} {key : String} {slots : Value → List Slot}
    {render : Value → Rendering (List Sql)}
    (h : ∀ v, n.fields.get? key = some v → each (Slot.rendering r) (slots v) = render v) :
    each (Slot.rendering r) (under n key slots) = Statement.optional n key render := by
  unfold under Statement.optional
  cases hv : n.fields.get? key with
  | none => rfl
  | some v => exact h v hv

theorem each_whereSlots (r : Renderer) (n : Node) :
    each (Slot.rendering r) (whereSlots n) = Statement.conditions r.settings r.operands n := by
  apply each_under
  intro v _
  simp only [Rendering.each_cons, Rendering.each_nil, Slot.rendering, r.perform_conditions, pure_bind]

theorem each_clauses (r : Renderer) (vs : List Value) :
    each (Slot.rendering r) (vs.map (.clause .tree)) = each r.operands.tree vs := by
  rw [Rendering.each_map]
  simp only [Slot.rendering, r.perform_tree]

/-- A grouping that stands alone is rendered like the one of a select. -/
theorem perform_grouping {v : Value} (hv : v.isSequence = true) :
    (Renderer.of s none none).perform (items "group_by" v) .tree =
      Clause.groupItems (Renderer.of s none none).operands (v.sequence?.getD []) := by
  obtain ⟨vs, hvs⟩ := Option.isSome_iff_exists.mp hv
  have hnode : Node.ofValue (items "group_by" v) =
      .ok { tag := Keyword.groupBy.tag, fields := [(.str "group_by", v)] } := rfl
  have hlookup : ((Renderer.of s none none).table .tree).lookup Keyword.groupBy.tag =
      some .groupBy := rfl
  rw [Renderer.perform_eq_render _ hnode hlookup]
  simp [Handler.render, Clause.groupBy, Clause.items, Fields.get?, hvs]

/-- An ordering that stands alone is rendered like the one of a select. -/
theorem perform_ordering {v : Value} (hv : v.isSequence = true) :
    (Renderer.of s none none).perform (items "order_by" v) .tree =
      Clause.orderItems (Renderer.of s none none).operands (v.sequence?.getD []) := by
  obtain ⟨vs, hvs⟩ := Option.isSome_iff_exists.mp hv
  have hnode : Node.ofValue (items "order_by" v) =
      .ok { tag := Keyword.orderBy.tag, fields := [(.str "order_by", v)] } := rfl
  have hlookup : ((Renderer.of s none none).table .tree).lookup Keyword.orderBy.tag =
      some .orderBy := rfl
  rw [Renderer.perform_eq_render _ hnode hlookup]
  simp [Handler.render, Clause.orderBy, Clause.items, Fields.get?, hvs]

theorem isSequence_of_needsSequence {n : Node} {key : String} {v : Value}
    (h : Shape.needsSequence n Value.isSequence key = []) (hv : n.fields.get? key = some v) :
    v.isSequence = true := by
  rw [Shape.needsSequence, hv] at h
  by_contra hseq
  simp [hseq] at h

/-- A select whose shape is right and whose joins are accepted fills its template. -/
theorem select_eq_fill {n : Node} {found : List Value} (hshape : Shape.select n = [])
    (hjoins : joins n = .ok found) :
    Statement.select s (Renderer.of s none none).operands n =
      (Renderer.of s none none).fill (selectSlots n found) := by
  have hissues := hshape
  simp only [Shape.select, List.append_eq_nil_iff] at hissues
  obtain ⟨⟨-, hgroup⟩, horder⟩ := hissues
  have hjoin : Statement.joins (Renderer.of s none none).operands n =
      each (Renderer.of s none none).operands.tree found := by
    unfold joins at hjoins
    unfold Statement.joins Statement.optional
    cases hv : n.fields.get? "join" with
    | none =>
        rw [hv] at hjoins
        obtain rfl := Except.ok.inj hjoins
        rfl
    | some v =>
        simp only [hv] at hjoins
        simp [hjoins]
  have hgrouping : each (Slot.rendering (Renderer.of s none none)) (itemSlots n "group_by") =
      Statement.grouping (Renderer.of s none none).operands n := by
    refine each_under fun v hv => ?_
    simp [Rendering.each_cons, Slot.rendering,
      ← perform_grouping s (isSequence_of_needsSequence hgroup hv)]
  have hordering : each (Slot.rendering (Renderer.of s none none)) (itemSlots n "order_by") =
      Statement.ordering (Renderer.of s none none).operands n := by
    refine each_under fun v hv => ?_
    simp [Rendering.each_cons, Slot.rendering,
      ← perform_ordering s (isSequence_of_needsSequence horder hv)]
  rw [Statement.select, hshape, Statement.checked, selectSlots, Renderer.fill_spaced]
  simp only [Rendering.each_append, each_clauses, each_whereSlots, hgrouping, hordering, hjoin,
    Rendering.each_cons, Slot.rendering, Renderer.perform_tree, pure_bind, bind_assoc,
    List.cons_append, List.nil_append]
  rfl

/-- An insert whose shape is right fills its template. -/
theorem insert_eq_fill (r : Renderer) {n : Node} (hshape : Shape.insert n = []) :
    Statement.insert r.operands n = r.fill (insertSlots n) := by
  rw [Statement.insert, hshape, Statement.checked, insertSlots, under, Statement.optional]
  cases n.fields.get? "columns" <;>
    simp [Renderer.fill, Rendering.each_cons, Slot.rendering, Renderer.perform_tree, Sql.ofText]

/-- A delete whose shape is right fills its template. -/
theorem delete_eq_fill (r : Renderer) {n : Node} (hshape : Shape.delete n = []) :
    Statement.delete r.settings r.operands n = r.fill (deleteSlots n) := by
  rw [Statement.delete, hshape, Statement.checked, deleteSlots, Renderer.fill_spaced]
  simp only [each_whereSlots, Rendering.each_cons, Slot.rendering, Renderer.perform_tree, pure_bind,
    bind_assoc, List.cons_append, List.nil_append]

/-- A statement is rendered by its handler. -/
theorem perform_eq_render {k : Straight} {entries : Fields} (h : k.Named entries) :
    (Renderer.of s none none).perform (.map entries) k.request =
      k.handler.render s (Renderer.of s none none).operands (k.node entries) := by
  have hstatement : (Renderer.of s none none).perform (.map entries) k.request =
      (Renderer.of s none none).statement k.keyword (.map entries) := by
    cases k <;> rfl
  rw [hstatement]
  exact (Renderer.of s none none).statement_eq_render (lookup_handler s k) h

/-- A statement with issues is refused. -/
theorem render_of_issues (r : Renderer) {k : Straight} {n : Node} (h : k.issues n ≠ []) :
    k.handler.render r.settings r.operands n =
      Rendering.fault (.issues (k.issues n)) := by
  cases k <;> exact Statement.checked_of_issues h _

/-- A statement whose shape is right fills its template. -/
theorem render_eq_fill {k : Straight} {n : Node} {slots : List Slot} (hshape : k.issues n = [])
    (hslots : k.template n = .ok slots) :
    k.handler.render s (Renderer.of s none none).operands n =
      (Renderer.of s none none).fill slots := by
  cases k with
  | select =>
      rw [template] at hslots
      cases hjoins : joins n with
      | error f =>
          rw [hjoins] at hslots
          cases hslots
      | ok found =>
          rw [hjoins] at hslots
          obtain rfl := Except.ok.inj hslots
          exact select_eq_fill s hshape hjoins
  | insert =>
      obtain rfl := Except.ok.inj hslots
      exact insert_eq_fill _ hshape
  | delete =>
      obtain rfl := Except.ok.inj hslots
      exact delete_eq_fill _ hshape

theorem stop_mem_joinGroups {n : Node} {f : Fault} (h : joins n = .error f) :
    [.stop (.structural f)] ∈ Piece.joinGroups n := by
  unfold joins at h
  unfold Piece.joinGroups Piece.optional
  cases hv : n.fields.get? "join" with
  | none =>
      rw [hv] at h
      cases h
  | some v =>
      simp only [hv] at h
      simp [h]

/-- The joins of a statement that ends with SQL are accepted. -/
theorem template_of_gives (r : Renderer) {k : Straight} {n : Node} {sql : Sql}
    {recorded : List Value}
    (h : Gives (k.handler.render r.settings r.operands n) (.ok sql) recorded) :
    ∃ slots, k.template n = .ok slots := by
  cases k with
  | insert => exact ⟨_, rfl⟩
  | delete => exact ⟨_, rfl⟩
  | select =>
      cases hjoins : joins n with
      | ok found => exact ⟨_, by rw [template, hjoins]; rfl⟩
      | error f =>
          have hmem : .stop (.structural f) ∈ Piece.separated " " (Piece.selectGroups r.settings n) := by
            have hgroup : [.stop (.structural f)] ∈ Piece.selectGroups r.settings n := by
              simp only [Piece.selectGroups, List.mem_append]
              exact Or.inl (Or.inl (Or.inl (Or.inr (stop_mem_joinGroups hjoins))))
            exact Renderer.mem_separated " " List.mem_cons_self hgroup
          cases hshape : Shape.select n with
          | cons issue rest =>
              rw [render_of_issues r (by rw [issues, hshape]; exact List.cons_ne_nil _ _)] at h
              cases (h.unique (Rendering.gives_fail _)).1
          | nil =>
              rw [handler, Handler.render_eq_outline, Handler.outline, Outline.select, hshape,
                Outline.checked, Outline.render_straight] at h
              obtain ⟨_, _, hstop, -⟩ := Piece.gives_of_mem r.steady_operands h hmem
              cases (hstop.unique (Rendering.gives_fail _)).1

/-- A statement ends with a result if its shape is right, its joins are accepted and
each clause is rendered on its own, and then with the result of its template. -/
theorem render_ok_iff {k : Straight} {entries : Fields} (h : k.Named entries)
    {result : Renderer.Result} :
    (Renderer.of s none none).render k.request (.map entries) = .ok result ↔
      k.issues (k.node entries) = [] ∧ ∃ slots, k.template (k.node entries) = .ok slots ∧
        ∃ parts, List.Forall₂ (Slot.Filled (Renderer.of s none none)) slots parts ∧
          result = .joined parts := by
  have hregular : Regular (k.handler.render s (Renderer.of s none none).operands (k.node entries)) :=
    perform_eq_render s h ▸ Renderer.regular_perform _ _ _
  rw [Renderer.render, perform_eq_render s h]
  by_cases hshape : k.issues (k.node entries) = []
  · constructor
    · intro hresult
      obtain ⟨sql, hsql, -⟩ := (Renderer.result_eq_ok_iff _ hregular).mp hresult
      obtain ⟨slots, hslots⟩ := template_of_gives (Renderer.of s none none) hsql
      rw [render_eq_fill s hshape hslots] at hresult
      exact ⟨hshape, slots, hslots, (Renderer.result_fill_iff _).mp hresult⟩
    · rintro ⟨-, slots, hslots, hparts⟩
      rw [render_eq_fill s hshape hslots]
      exact (Renderer.result_fill_iff _).mpr hparts
  · constructor
    · intro hresult
      obtain ⟨sql, hsql, -⟩ := (Renderer.result_eq_ok_iff _ hregular).mp hresult
      have hrefused : k.handler.render s (Renderer.of s none none).operands (k.node entries) =
          Rendering.fault (.issues (k.issues (k.node entries))) :=
        render_of_issues (Renderer.of s none none) hshape
      rw [hrefused] at hsql
      cases (hsql.unique (Rendering.gives_fail _)).1
    · rintro ⟨hnil, -⟩
      exact absurd hnil hshape

end Straight

end QueryTree
