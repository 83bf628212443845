import QueryTree.Proofs.Alike.Outlines
import QueryTree.Proofs.KeyOrder.Reordering
import QueryTree.Proofs.Texts

/-!
# Asking for one statement

A caller who asks for a select, an insert, an update or a delete names it by the
*verb* of the request (`Verb`).  Only some values are accepted then
(`Verb.Accepts`).

* A map without a type, or with a blank one.
* A map whose type is the verb, with or without the hyphen.
* A node with the tag of the verb.

An accepted value is rendered as the same value with its type written out
(`Verb.typed`), and it does not matter whether that is asked for as the statement or
as any tree.  Every other value is refused: maps and nodes of another type, array
forms, and what is no node.  An array form with the right tag is refused too.  It has
no operands by name, and every statement needs some.

The main statement is `Verb.render_request`.  It also says how the text begins.
-/

namespace QueryTree

open Rendering (Gives fault)

/-- A map whose type is set stands for its other entries under the tag of the type, whatever
the default. -/
theorem Node.ofValue_set_type {type : String} (htype : type.isEmpty = false) (entries : Fields)
    (default? : Option String) :
    ofValue (.map (Fields.set entries "type" (.str type))) default? =
      .ok { tag := tagOfType type, fields := entries.without "type" } := by
  have hget : (Fields.set entries "type" (.str type)).get "type" = .str type := by
    rw [Fields.get, Fields.get?_set, if_pos rfl, Option.getD_some]
  simp only [ofValue, ofMap, hget, Value.isBlank, htype, Fields.without_set, tagOf]
  rfl

/-- A statement that is asked for. -/
inductive Verb where
  /-- A select. -/
  | select
  /-- An insert. -/
  | insert
  /-- An update. -/
  | update
  /-- A delete. -/
  | delete
deriving DecidableEq, Repr

namespace Verb

/-- The keyword of a verb. -/
def keyword : Verb → Keyword
  | select => .select
  | insert => .insert
  | update => .update
  | delete => .delete

/-- A verb as a type without the hyphen. -/
def name : Verb → String
  | select => "select"
  | insert => "insert"
  | update => "update"
  | delete => "delete"

/-- The request for a statement. -/
def request : Verb → Renderer.Request
  | select => .select
  | insert => .insert
  | update => .update
  | delete => .delete

/-- How the text of a statement begins. -/
def opening : Verb → String
  | select => "SELECT "
  | insert => "INSERT INTO "
  | update => "UPDATE "
  | delete => "DELETE FROM "

/-- The values that can be the statement that is asked for. -/
inductive Accepts (k : Verb) : Value → Prop
  | blank {entries : Fields} : (entries.get "type").isBlank = true → Accepts k (.map entries)
  | named {entries : Fields} : entries.get "type" = .str k.name → Accepts k (.map entries)
  | tagged {entries : Fields} : entries.get "type" = .str k.keyword.tag → Accepts k (.map entries)
  | node (args : List Value) (fields : Fields) : Accepts k (.node k.keyword.tag args fields)

/-- A value with its type written out.  A node has its type already. -/
def typed (k : Verb) : Value → Value
  | .map entries => .map (Fields.set entries "type" (.str k.name))
  | v => v

/-! ## Types -/

theorem tagOfType_name (k : Verb) : tagOfType k.name = k.keyword.tag := by
  cases k <;> rfl

/-- Two types stand for the tag of a verb. -/
theorem tagOfType_eq_iff {k : Verb} {type : String} :
    tagOfType type = k.keyword.tag ↔ type = k.name ∨ type = k.keyword.tag := by
  constructor
  · intro h
    unfold tagOfType at h
    split at h
    · exact Or.inr h
    · have hhyphen : k.keyword.tag = "-" ++ k.name := by
        cases k <;> rfl
      exact Or.inl (String.append_right_inj _ |>.mp (h.trans hhyphen))
  · rintro (rfl | rfl)
    · exact k.tagOfType_name
    · exact k.keyword.tagOfType_tag

/-- A map is accepted if its type allows the statement. -/
theorem names_iff {k : Verb} {entries : Fields} :
    k.keyword.Names entries ↔ k.Accepts (.map entries) := by
  constructor
  · rintro (hblank | ⟨type, htype, htag⟩)
    · exact .blank hblank
    · rcases tagOfType_eq_iff.mp htag with rfl | rfl
      · exact .named htype
      · exact .tagged htype
  · intro h
    cases h with
    | blank hblank => exact Or.inl hblank
    | named htype => exact Or.inr ⟨_, htype, k.tagOfType_name⟩
    | tagged htype => exact Or.inr ⟨_, htype, k.keyword.tagOfType_tag⟩

/-! ## Nodes -/

/-- The statement that a map stands for. -/
def node (k : Verb) (entries : Fields) : Node :=
  { tag := k.keyword.tag, fields := entries.without "type" }

/-- A map with its type written out stands for the statement, whatever the default. -/
theorem ofValue_typed_map (k : Verb) (entries : Fields) (default? : Option String) :
    Node.ofValue (k.typed (.map entries)) default? = .ok (k.node entries) := by
  have hname : k.name.isEmpty = false := by
    cases k <;> rfl
  rw [typed, Node.ofValue_set_type hname, k.tagOfType_name, node]

/-- What is accepted stands for the same node with its type written out. -/
theorem Accepts.stands {k : Verb} {v : Value} (h : k.Accepts v) :
    ∃ n : Node, n.tag = k.keyword.tag ∧ Node.ofValue v (some k.keyword.tag) = .ok n ∧
      ∀ default?, Node.ofValue (k.typed v) default? = .ok n := by
  have hmap : ∀ {entries : Fields}, k.Accepts (.map entries) →
      Node.ofValue (.map entries) (some k.keyword.tag) = .ok (k.node entries) := fun hentries =>
    (Keyword.ofValue_iff.mpr ⟨names_iff.mpr hentries, rfl⟩).1
  cases h with
  | node args fields => exact ⟨⟨_, args, fields⟩, rfl, rfl, fun _ => rfl⟩
  | blank htype => exact ⟨_, rfl, hmap (.blank htype), k.ofValue_typed_map _⟩
  | named htype => exact ⟨_, rfl, hmap (.named htype), k.ofValue_typed_map _⟩
  | tagged htype => exact ⟨_, rfl, hmap (.tagged htype), k.ofValue_typed_map _⟩

/-- What stands for the statement is accepted, or it is an array form. -/
theorem accepts_or_array {k : Verb} {v : Value} {n : Node}
    (hn : Node.ofValue v (some k.keyword.tag) = .ok n) (htag : n.tag = k.keyword.tag) :
    k.Accepts v ∨ n.fields = [] := by
  have hsequence : ∀ {items : List Value}, v.sequence? = some items → n.fields = [] := by
    intro items hitems
    obtain ⟨tag, operands, rfl, rfl⟩ := Node.array_of_ofValue hitems hn
    rw [Value.tag_ofArray] at htag
    rw [htag]
    cases k <;> rfl
  cases v with
  | node tag args fields =>
      obtain rfl := Except.ok.inj hn
      obtain rfl : tag = k.keyword.tag := htag
      exact Or.inl (.node args fields)
  | map entries => exact Or.inl (names_iff.mp (Keyword.ofValue_iff.mp ⟨hn, htag⟩).1)
  | list items => exact Or.inr (hsequence rfl)
  | tuple items => exact Or.inr (hsequence rfl)
  | _ => cases hn

/-! ## Handlers -/

/-- The handler of a statement. -/
def handler : Verb → Handler
  | select => .select
  | insert => .insert
  | update => .update
  | delete => .delete

/-- The issues of the shape of a statement. -/
def issues : Verb → Node → List Issue
  | select => Shape.select
  | insert => Shape.insert
  | update => Shape.update
  | delete => Shape.delete

/-- Every statement needs an operand by name. -/
theorem issues_ne_nil (k : Verb) {n : Node} (h : n.fields = []) : k.issues n ≠ [] := by
  have hmissing : ∀ statement key, Shape.needsTree n statement key ≠ [] := by
    intro statement key
    simp [Shape.needsTree, h, Fields.get, Fields.get?, Value.isNodeLike, Value.isArrayForm,
      Value.arrayForm?, Value.sequence?]
  cases k with
  | select => simp [issues, Shape.select, hmissing]
  | insert => simp [issues, Shape.insert, Fields.contains, h, Fields.get?, hmissing]
  | update => simp [issues, Shape.update, hmissing]
  | delete => exact hmissing _ _

theorem lookup_handler (s : Settings) (k : Verb) :
    ((Renderer.of s none none).table .tree).lookup k.keyword.tag = some k.handler := by
  cases k <;> rfl

/-- A statement with issues is refused. -/
theorem full_of_issues (s : Settings) {k : Verb} {n : Node} (htag : n.tag = k.keyword.tag)
    (h : k.issues n ≠ []) :
    (Renderer.of s none none).full .tree n = fault (.issues (k.issues n)) := by
  rw [Renderer.full_eq_render _ (htag ▸ lookup_handler s k)]
  cases k <;> exact Statement.checked_of_issues h _

/-- The shape of a statement that ends with SQL is right. -/
theorem shape_of_gives (s : Settings) {k : Verb} {n : Node} {sql : Sql} {recorded : List Value}
    (htag : n.tag = k.keyword.tag)
    (h : Gives ((Renderer.of s none none).full .tree n) (.ok sql) recorded) : k.issues n = [] := by
  by_contra hissues
  rw [full_of_issues s htag hissues] at h
  cases (h.unique (Rendering.gives_fail _)).1

/-- The pieces of a statement whose shape is right begin with its opening. -/
theorem pieces_of_shape (s : Settings) {k : Verb} {n : Node} (h : k.issues n = []) :
    ∃ ts ps, String.join ts = k.opening ∧
      (k.handler.outline s n).pieces = ts.map .text ++ ps := by
  cases k with
  | select =>
      rw [handler, Handler.outline, Outline.select, show Shape.select n = [] from h,
        Outline.checked, Outline.pieces_straight]
      exact ⟨["SELECT", " "], _, rfl, rfl⟩
  | insert =>
      rw [handler, Handler.outline, Outline.insert, show Shape.insert n = [] from h,
        Outline.checked, Outline.pieces_straight]
      exact ⟨["INSERT INTO "], _, rfl, rfl⟩
  | update =>
      rw [handler, Handler.outline, Outline.update, show Shape.update n = [] from h,
        Outline.checked]
      exact ⟨["UPDATE", " "], _, rfl, rfl⟩
  | delete =>
      rw [handler, Handler.outline, Outline.delete, show Shape.delete n = [] from h,
        Outline.checked, Outline.pieces_straight]
      exact ⟨["DELETE FROM", " "], _, by decide, rfl⟩

/-! ## Requests -/

section

variable (s : Settings) {k : Verb} {v : Value} {n : Node}

theorem perform_request (r : Renderer) (k : Verb) (v : Value) :
    r.perform v k.request = r.statement k.keyword v := by
  cases k <;> rfl

/-- What is accepted is rendered as its node, and so is the value with its type
written out. -/
theorem Accepts.perform (r : Renderer) (h : k.Accepts v) :
    ∃ n, n.tag = k.keyword.tag ∧ Node.ofValue (k.typed v) = .ok n ∧
      r.perform v k.request = r.full .tree n ∧
      r.perform (k.typed v) k.request = r.full .tree n ∧
      r.perform (k.typed v) .tree = r.full .tree n := by
  obtain ⟨n, htag, hv, htyped⟩ := h.stands
  refine ⟨n, htag, htyped none, ?_, ?_, r.perform_node .tree (htyped none)⟩
  · rw [perform_request, r.statement_of_node hv htag]
  · rw [perform_request, r.statement_of_node (htyped _) htag]

/-- What is not accepted is refused with a fault. -/
theorem perform_of_not_accepts (h : ¬ k.Accepts v) :
    ∃ f, (Renderer.of s none none).perform v k.request = fault f := by
  rw [perform_request]
  cases hn : Node.ofValue v (some k.keyword.tag) with
  | error cause => exact ⟨_, Renderer.statement_of_malformed _ hn⟩
  | ok n =>
      by_cases htag : n.tag = k.keyword.tag
      · have hfields := (accepts_or_array hn htag).resolve_left h
        rw [Renderer.statement_of_node _ hn htag, full_of_issues s htag (k.issues_ne_nil hfields)]
        exact ⟨_, rfl⟩
      · exact ⟨_, Renderer.statement_of_other _ hn htag⟩

/-- The text of a statement begins with its opening. -/
theorem sql_of_render {result : Renderer.Result} (hn : Node.ofValue v = .ok n)
    (htag : n.tag = k.keyword.tag)
    (h : (Renderer.of s none none).render .tree v = .ok result) :
    ∃ rest, result.sql = k.opening ++ rest := by
  have hfull := (Renderer.of s none none).perform_node .tree hn
  obtain ⟨sql, recorded, hsql, -⟩ := Renderer.gives_of_render h
  rw [Renderer.Place.request] at hfull
  have hshape := shape_of_gives s htag (hfull ▸ hsql)
  obtain ⟨parts, hparts, htext⟩ := @Renderer.node_written _ .tree _ _ _ hn h
  obtain ⟨ts, ps, hopening, hpieces⟩ := pieces_of_shape s hshape
  rw [Renderer.outline_eq (htag ▸ lookup_handler s k)] at hparts
  have hsplit : List.Forall₂ (Piece.Written (Renderer.of s none none)) (ts.map .text ++ ps) parts :=
    hpieces ▸ hparts
  obtain ⟨first, rest, hfirst, -, rfl⟩ := forall₂_append_inv hsplit
  refine ⟨Renderer.textOf rest, ?_⟩
  rw [htext, Renderer.textOf_append, Piece.written_texts hfirst, hopening]

end

/-- With the built-in tables, an accepted value is rendered as the value with its type
written out, asked for as the statement or as any tree.  Any other value is refused with
a fault.  So every result is that of the value with its type written out, and its text
begins as the statement does. -/
theorem render_request (s : Settings) (k : Verb) (v : Value) :
    (k.Accepts v →
      (Renderer.of s none none).render k.request v =
        (Renderer.of s none none).render k.request (k.typed v) ∧
      (Renderer.of s none none).render k.request v =
        (Renderer.of s none none).render .tree (k.typed v)) ∧
    (¬ k.Accepts v →
      ∃ f, (Renderer.of s none none).render k.request v = .error (.structural f)) ∧
    ∀ result, (Renderer.of s none none).render k.request v = .ok result →
      (Renderer.of s none none).render .tree (k.typed v) = .ok result ∧
      ∃ rest, result.sql = k.opening ++ rest := by
  have hrefused : ¬ k.Accepts v →
      ∃ f, (Renderer.of s none none).render k.request v = .error (.structural f) := by
    intro h
    obtain ⟨f, hf⟩ := perform_of_not_accepts s h
    exact ⟨f, by rw [Renderer.render, hf]; rfl⟩
  refine ⟨fun h => ?_, hrefused, fun result hresult => ?_⟩
  · obtain ⟨n, -, -, hrequest, htyped, htree⟩ := h.perform (Renderer.of s none none)
    constructor
    · rw [Renderer.render, Renderer.render, hrequest, htyped]
    · rw [Renderer.render, Renderer.render, hrequest, htree]
  · have haccepts : k.Accepts v := by
      by_contra h
      obtain ⟨f, hf⟩ := hrefused h
      cases hf.symm.trans hresult
    obtain ⟨n, htag, hn, hrequest, -, htree⟩ := haccepts.perform (Renderer.of s none none)
    have hsame : (Renderer.of s none none).render .tree (k.typed v) = .ok result := by
      rw [← hresult, Renderer.render, Renderer.render, hrequest, htree]
    exact ⟨hsame, sql_of_render s hn htag hsame⟩

/-- A delete that does not say its type. -/
def untypedDelete : Value := .map [(.str "from", .list [.str "-name", .str "t"])]

/-- A delete without a type is rendered if a delete is asked for.  With its type written
out it is refused if a select is. -/
theorem render_request_delete :
    (Renderer.of {} none none).render .delete untypedDelete =
      (Renderer.of {} none none).render .tree (delete.typed untypedDelete) ∧
    (Renderer.of {} none none).render .tree (delete.typed untypedDelete) =
      .ok ⟨"DELETE FROM t", []⟩ ∧
    (∃ rest, "DELETE FROM t" = "DELETE FROM " ++ rest) ∧
    ∃ f, (Renderer.of {} none none).render .select (delete.typed untypedDelete) =
      .error (.structural f) := by
  have hdelete := render_request {} delete untypedDelete
  have hresult : (Renderer.of {} none none).render .delete untypedDelete =
      .ok ⟨"DELETE FROM t", []⟩ := rfl
  obtain ⟨htyped, hopening⟩ := hdelete.2.2 _ hresult
  have hother : ¬ select.Accepts (delete.typed untypedDelete) := by
    intro h
    cases h with
    | blank htype => cases htype
    | named htype => exact absurd (Value.str.inj htype) (by decide)
    | tagged htype => exact absurd (Value.str.inj htype) (by decide)
  exact ⟨(hdelete.1 (.blank rfl)).2, htyped, hopening, (render_request {} select _).2.1 hother⟩

end Verb

end QueryTree
