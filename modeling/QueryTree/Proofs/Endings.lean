import QueryTree.Proofs.Phrase
import QueryTree.Proofs.Verb

/-!
# Endings of statements

Conditions, a grouping and an ordering stand at the end of a statement, in this order, if
their keys are there.  A statement is its *body* (`Verb.body`) followed by its *endings*
(`Verb.endings`), each after a space.

The body does not depend on what is under the keys of endings, and neither does the shape,
as long as there are sequences.  So a statement with one more ending is the statement
without it, with the ending written at its place.

The main statement is `Verb.render_adds`.  A statement that is rendered without an ending
has, with it, the result of the ending between two parts of its own result.
-/

namespace QueryTree

open Phrase (ClauseKind)
open Rendering (Gives Regular)

/-! ## Endings -/

namespace Phrase.ClauseKind

/-- The key of a clause in a statement. -/
def key : ClauseKind → String
  | conditions => "where"
  | grouping => "group_by"
  | ordering => "order_by"

/-- The pieces of a clause. -/
def written (s : Settings) : ClauseKind → Value → List Piece
  | conditions, v => .text "WHERE " :: Piece.conditions s v
  | grouping, v => Piece.groupItems (v.sequence?.getD [])
  | ordering, v => Piece.orderItems (v.sequence?.getD [])

/-- The pieces of a clause of a statement: none if its key is not there, and otherwise the
clause after a space. -/
def ending (s : Settings) (n : Node) (c : ClauseKind) : List Piece :=
  match n.fields.get? c.key with
  | some v => .text " " :: c.written s v
  | none => []

/-- The keys of all clauses. -/
def keys : List String := ["where", "group_by", "order_by"]

theorem key_mem_keys (c : ClauseKind) : c.key ∈ keys := by
  cases c <;> decide

theorem key_ne_type (c : ClauseKind) : c.key ≠ "type" := by
  cases c <;> decide

theorem key_injective {c d : ClauseKind} (h : c.key = d.key) : c = d := by
  cases c <;> cases d <;> first | rfl | exact absurd h (by decide)

end Phrase.ClauseKind

/-! ## Entries with and without clauses -/

namespace Fields

/-- The entries without some text keys. -/
def withoutAll (fields : Fields) (keys : List String) : Fields := keys.foldl without fields

theorem get?_withoutAll (key : String) :
    ∀ (keys : List String) (fields : Fields),
      (fields.withoutAll keys).get? key = if key ∈ keys then none else fields.get? key
  | [], fields => rfl
  | removed :: keys, fields => by
      have ih := get?_withoutAll key keys (fields.without removed)
      rw [get?_without] at ih
      rw [withoutAll, List.foldl_cons, ← withoutAll, ih]
      by_cases hkey : key ∈ keys
      · rw [if_pos hkey, if_pos (List.mem_cons_of_mem removed hkey)]
      · by_cases heq : key = removed
        · rw [if_neg hkey, if_pos heq, if_pos (heq ▸ List.mem_cons_self)]
        · rw [if_neg hkey, if_neg heq, if_neg fun h => (List.mem_cons.mp h).elim heq hkey]

/-- Entries that have a value more than others, under a text key. -/
structure Adds (key : String) (v : Value) (fields fields' : Fields) : Prop where
  /-- The key is not there before. -/
  absent : fields.get? key = none
  /-- The value is there after. -/
  present : fields'.get? key = some v
  /-- What is under any other key stays. -/
  other : ∀ {k : String}, k ≠ key → fields'.get? k = fields.get? k

end Fields

/-! ## Results in a row -/

namespace Renderer

variable (r : Renderer) {x y : Rendering Sql}

/-- The result of a rendering after another is that of both in a row, or the error of the
first that has one. -/
theorem result_append (hx : Regular x) (hy : Regular y) :
    r.result (do let a ← x; let b ← y; return a ++ b) = (do
      let first ← r.result x
      let second ← r.result y
      return .joined [first, second]) := by
  obtain ⟨answer, recorded, hx⟩ := hx
  obtain ⟨answer', recorded', hy⟩ := hy
  cases answer with
  | error e =>
      have herror : Gives (do let a ← x; let b ← y; return a ++ b) (.error e) recorded :=
        Rendering.gives_bind_error hx
      rw [r.result_of_gives_error herror, r.result_of_gives_error hx]
      rfl
  | ok a =>
      rw [r.result_of_gives hx]
      cases answer' with
      | error e =>
          have herror : Gives (do let a ← x; let b ← y; return a ++ b) (.error e)
              (recorded ++ recorded') :=
            Rendering.gives_bind_ok hx (Rendering.gives_bind_error hy)
          rw [r.result_of_gives_error herror, r.result_of_gives_error hy]
          rfl
      | ok b =>
          have hboth : Gives (do let a ← x; let b ← y; return a ++ b) (.ok (a ++ b))
              (recorded ++ (recorded' ++ [])) :=
            Rendering.gives_bind_ok hx (Rendering.gives_bind_ok hy (Rendering.gives_pure _))
          have hjoined : r.written (a ++ b, recorded ++ (recorded' ++ [])) =
              .joined [r.written (a, recorded), r.written (b, recorded')] := by
            simp [written, Result.joined, Sql.write_append]
          rw [r.result_of_gives hboth, r.result_of_gives hy, hjoined]
          rfl

theorem result_pieces (ps qs : List Piece) :
    r.result (Piece.renderAll r.operands (ps ++ qs)) = (do
      let first ← r.result (Piece.renderAll r.operands ps)
      let second ← r.result (Piece.renderAll r.operands qs)
      return .joined [first, second]) := by
  rw [Piece.renderAll_append]
  exact r.result_append (Piece.regular_renderAll r.steady_operands ps)
    (Piece.regular_renderAll r.steady_operands qs)

theorem result_text (t : String) (ps : List Piece) :
    r.result (Piece.renderAll r.operands (.text t :: ps)) =
      (r.result (Piece.renderAll r.operands ps)).map fun rest => .joined [⟨t, []⟩, rest] := by
  have htext : r.result (Piece.renderAll r.operands [.text t]) = .ok ⟨t, []⟩ := by
    have hgives : Gives (Piece.renderAll r.operands [.text t]) (.ok [.text t]) [] := by
      rw [Piece.renderAll_text]
      exact Rendering.gives_pure _
    rw [r.result_of_gives hgives]
    simp [written, Sql.write, Sql.writeFragment]
  have hpieces := r.result_pieces [.text t] ps
  rw [htext] at hpieces
  exact hpieces

end Renderer

/-! ## Statements and their endings -/

namespace Outline

/-- An outline with more pieces at the end. -/
def followed (o : Outline) (ps : List Piece) : Outline := { o with rest := o.rest ++ ps }

theorem followed_append (o : Outline) (ps qs : List Piece) :
    o.followed (ps ++ qs) = (o.followed ps).followed qs := by
  simp [followed]

@[simp] theorem followed_nil (o : Outline) : o.followed [] = o := by
  rw [followed, List.append_nil]

/-- What follows an outline is rendered after it. -/
theorem render_followed (b : Below) (o : Outline) (ps : List Piece) :
    (o.followed ps).render b = do
      let body ← o.render b
      let rest ← Piece.renderAll b ps
      return body ++ rest := by
  simp only [render, followed, Piece.renderAll_append, bind_assoc, pure_bind, List.append_assoc]

theorem render_straight_append (b : Below) (ps qs : List Piece) :
    (straight (ps ++ qs)).render b = ((straight ps).followed qs).render b := by
  rw [render_followed, render_straight, render_straight, Piece.renderAll_append]

theorem regular_render {b : Below} (hb : b.Steady) (o : Outline) : Regular (o.render b) :=
  Rendering.closed_regular.outline fun p _ => Piece.regular_render hb p

/-- What follows an outline has its result after that of the outline. -/
theorem result_followed (r : Renderer) (o : Outline) (ps : List Piece) :
    r.result ((o.followed ps).render r.operands) = (do
      let first ← r.result (o.render r.operands)
      let second ← r.result (Piece.renderAll r.operands ps)
      return .joined [first, second]) := by
  rw [render_followed]
  exact r.result_append (regular_render r.steady_operands o)
    (Piece.regular_renderAll r.steady_operands ps)

/-- Pieces put between an outline and what follows it have their result, after a space,
between those of the two. -/
theorem result_inserted (r : Renderer) {o : Outline} {ps : List Piece} {result : Renderer.Result}
    (h : r.result ((o.followed ps).render r.operands) = .ok result) :
    ∃ before after : Renderer.Result, r.result (o.render r.operands) = .ok before ∧
      result = .joined [before, after] ∧
      ∀ qs, r.result ((o.followed ((.text " " :: qs) ++ ps)).render r.operands) =
        (r.result (Piece.renderAll r.operands qs)).map fun clause =>
          .joined [before, ⟨" ", []⟩, clause, after] := by
  rw [result_followed] at h
  cases hbefore : r.result (o.render r.operands) with
  | error e =>
      rw [hbefore] at h
      cases h
  | ok before =>
      cases hafter : r.result (Piece.renderAll r.operands ps) with
      | error e =>
          rw [hbefore, hafter] at h
          cases h
      | ok after =>
          rw [hbefore, hafter] at h
          refine ⟨before, after, rfl, (Except.ok.inj h).symm, fun qs => ?_⟩
          rw [result_followed, hbefore, r.result_pieces, r.result_text, hafter]
          cases r.result (Piece.renderAll r.operands qs) with
          | error e => rfl
          | ok clause =>
              have hjoined : Renderer.Result.joined
                  [before, .joined [.joined [⟨" ", []⟩, clause], after]] =
                    .joined [before, ⟨" ", []⟩, clause, after] := by
                simp [Renderer.Result.joined, String.append_assoc]
              exact congrArg Except.ok hjoined

end Outline

namespace Verb

/-- The clauses at the end of a statement, in order. -/
def endings : Verb → List ClauseKind
  | select => [.conditions, .grouping, .ordering]
  | insert => []
  | update => [.conditions]
  | delete => [.conditions]

/-- The outline of a statement without its endings. -/
def body (s : Settings) (n : Node) : Verb → Outline
  | select => .straight (Piece.separated " " ([[.text "SELECT"], [.below .tree (n.fields.get "columns")],
      [.text "FROM"], [.below .tree (n.fields.get "from")]] ++ Piece.joinGroups n))
  | insert => .straight (.text "INSERT INTO " :: .below .tree (n.fields.get "into") ::
      Piece.insertColumns n ++ [.text " VALUES (", .below .tree (n.fields.get "values"), .text ")"])
  | update =>
    { lead := [.text "UPDATE", .text " "]
      late := [.below .tree (n.fields.get "table")]
      early := .text " " :: .text "SET" :: .text " " ::
        Piece.separated s.listSeparator ((Statement.assignments n).map Piece.assignment) }
  | delete => .straight [.text "DELETE FROM", .text " ", .below .tree (n.fields.get "from")]

theorem ending_eq (s : Settings) (n : Node) (c : ClauseKind) :
    c.ending s n =
      (Piece.optional n c.key fun v => [c.written s v]).flatMap (.text " " :: ·) := by
  unfold ClauseKind.ending Piece.optional
  cases n.fields.get? c.key with
  | none => rfl
  | some v => simp

/-- The groups of the endings of a select, each after a space. -/
theorem endings_select (s : Settings) (n : Node) :
    (Piece.whereGroups s n ++ Piece.groupingGroups n ++ Piece.orderingGroups n).flatMap
        (.text " " :: ·) = select.endings.flatMap (ClauseKind.ending s n) := by
  simp only [endings, List.flatMap_append, List.flatMap_cons, List.flatMap_nil, ending_eq,
    List.append_nil, List.append_assoc]
  rfl

/-- The group of conditions, after a space. -/
theorem endings_conditions (s : Settings) (n : Node) :
    (Piece.whereGroups s n).flatMap (.text " " :: ·) =
      [ClauseKind.conditions].flatMap (ClauseKind.ending s n) := by
  rw [List.flatMap_singleton, ending_eq]
  rfl

/-- A statement whose shape is right is its body followed by its endings. -/
theorem render_outline (s : Settings) (b : Below) {k : Verb} {n : Node} (h : k.issues n = []) :
    (k.handler.outline s n).render b =
      ((k.body s n).followed (k.endings.flatMap (ClauseKind.ending s n))).render b := by
  cases k with
  | select =>
      rw [handler, Handler.outline, Outline.select, show Shape.select n = [] from h,
        Outline.checked, ← endings_select, body, ← Outline.render_straight_append]
      simp only [Piece.selectGroups, List.cons_append, List.nil_append, Piece.separated_eq,
        List.flatMap_append, List.flatMap_cons, List.append_assoc]
  | insert =>
      rw [handler, Handler.outline, Outline.insert, show Shape.insert n = [] from h,
        Outline.checked, endings, List.flatMap_nil, body, ← Outline.render_straight_append,
        List.append_nil]
  | update =>
      rw [handler, Handler.outline, Outline.update, show Shape.update n = [] from h,
        Outline.checked, endings, ← endings_conditions]
      rfl
  | delete =>
      rw [handler, Handler.outline, Outline.delete, show Shape.delete n = [] from h,
        Outline.checked, endings, ← endings_conditions, body, ← Outline.render_straight_append]
      simp only [List.cons_append, List.nil_append, Piece.separated_eq, List.flatMap_cons]

/-! ## Statements with other endings -/

/-- The same is under every key, apart from the keys of endings. -/
def SameBody (fields fields' : Fields) : Prop :=
  ∀ key, key ∉ ClauseKind.keys → fields'.get? key = fields.get? key

/-- What is under the key of an ending can be there in a statement of the right shape: it is
what is there in another one, or nothing, or a sequence. -/
def Suits (fields fields' : Fields) (c : ClauseKind) : Prop :=
  fields'.get? c.key = fields.get? c.key ∨ fields'.get? c.key = none ∨
    ∃ v, fields'.get? c.key = some v ∧ v.isSequence = true

section

variable {s : Settings} {k : Verb} {n m : Node} {key : String}

theorem SameBody.get {fields fields' : Fields} (h : SameBody fields fields')
    (hkey : key ∉ ClauseKind.keys) : fields'.get key = fields.get key := by
  rw [Fields.get, Fields.get, h key hkey]

theorem SameBody.same (h : SameBody n.fields m.fields) (hkey : key ∉ ClauseKind.keys) :
    Shape.Same (m.fields.get key) (n.fields.get key) := .of_eq (h.get hkey)

/-- The body of a statement does not depend on its endings. -/
theorem body_congr (h : SameBody n.fields m.fields) : k.body s m = k.body s n := by
  cases k with
  | select =>
      have hcolumns : m.fields.get "columns" = n.fields.get "columns" := h.get (by decide)
      have hsource : m.fields.get "from" = n.fields.get "from" := h.get (by decide)
      simp only [body, Piece.joinGroups, Piece.optional, hcolumns, hsource, h "join" (by decide)]
  | insert =>
      have hinto : m.fields.get "into" = n.fields.get "into" := h.get (by decide)
      have hvalues : m.fields.get "values" = n.fields.get "values" := h.get (by decide)
      simp only [body, Piece.insertColumns, Piece.optional, hinto, hvalues, h "columns" (by decide)]
  | update =>
      have htable : m.fields.get "table" = n.fields.get "table" := h.get (by decide)
      have hset : m.fields.get "set" = n.fields.get "set" := h.get (by decide)
      simp only [body, Statement.assignments, htable, hset]
  | delete =>
      have hsource : m.fields.get "from" = n.fields.get "from" := h.get (by decide)
      simp only [body, hsource]

theorem needsSequence_of_suits {c : ClauseKind} {accepts : Value → Bool}
    (haccepts : ∀ v : Value, v.isSequence = true → accepts v = true) (h : Suits n.fields m.fields c)
    (hn : Shape.needsSequence n accepts c.key = []) : Shape.needsSequence m accepts c.key = [] := by
  rcases h with h | h | ⟨v, h, hv⟩
  · rw [Shape.needsSequence_of_eq h]
    exact hn
  · rw [Shape.needsSequence, h]
  · rw [Shape.needsSequence, h]
    exact if_pos (haccepts v hv)

/-- A statement of the right shape keeps it if its endings change. -/
theorem issues_of_suits (h : SameBody n.fields m.fields) (hsuits : ∀ c, Suits n.fields m.fields c)
    (hn : k.issues n = []) : k.issues m = [] := by
  cases k with
  | select =>
      have hconditions : ∀ v : Value, v.isSequence = true → Shape.isConditions v = true := by
        intro v hv
        cases v <;> first | exact hv | rfl
      simp only [issues, Shape.select, List.append_eq_nil_iff] at hn ⊢
      obtain ⟨⟨⟨⟨⟨hcolumns, hfrom⟩, hlist⟩, hwhere⟩, hgroup⟩, horder⟩ := hn
      rw [Shape.needsTree_congr _ (h.same (by decide)), Shape.needsTree_congr _ (h.same (by decide)),
        Shape.needsList_congr (h.same (by decide))]
      exact ⟨⟨⟨⟨⟨hcolumns, hfrom⟩, hlist⟩,
        needsSequence_of_suits hconditions (hsuits .conditions) hwhere⟩,
        needsSequence_of_suits (fun _ hv => hv) (hsuits .grouping) hgroup⟩,
        needsSequence_of_suits (fun _ hv => hv) (hsuits .ordering) horder⟩
  | insert =>
      have hthere : m.fields.contains "columns" = n.fields.contains "columns" := by
        rw [Fields.contains, Fields.contains, h "columns" (by decide)]
      rw [issues, Shape.insert_congr (h.same (by decide)) hthere (h.same (by decide))
        (h.same (by decide))]
      exact hn
  | update =>
      have hset : m.fields.get "set" = n.fields.get "set" := h.get (by decide)
      rw [issues, Shape.update, Shape.needsTree_congr _ (h.same (by decide)), hset]
      exact hn
  | delete =>
      rw [issues, Shape.delete_congr (h.same (by decide))]
      exact hn

end

/-! ## A clause under its key -/

section

variable (s : Settings) {k : Verb}

/-- A map that names a statement is rendered as the outline of its node says. -/
theorem perform_of_names {entries : Fields} (h : k.keyword.Names entries) :
    (Renderer.of s none none).perform (.map entries) k.request =
      (k.handler.outline s (k.node entries)).render (Renderer.of s none none).operands := by
  rw [perform_request, Renderer.statement_eq_render _ (lookup_handler s k) h,
    Handler.render_eq_outline]
  rfl

/-- A map that is rendered as a statement names it, and its shape is right. -/
theorem names_of_render {entries : Fields} {result : Renderer.Result}
    (h : (Renderer.of s none none).render k.request (.map entries) = .ok result) :
    k.keyword.Names entries ∧ k.issues (k.node entries) = [] := by
  obtain ⟨sql, recorded, hsql, -⟩ := Renderer.gives_of_render h
  rw [perform_request] at hsql
  have hnames := (Renderer.of s none none).names_of_statement hsql
  obtain ⟨hnode, htag⟩ := Keyword.ofValue_iff.mpr ⟨hnames, rfl⟩
  rw [Renderer.statement_of_node _ hnode htag] at hsql
  exact ⟨hnames, shape_of_gives s htag hsql⟩

theorem node_get? (k : Verb) (entries : Fields) {key : String} (hkey : key ≠ "type") :
    (k.node entries).fields.get? key = entries.get? key := by
  rw [node, Fields.get?_without, if_neg hkey]

theorem endings_congr {n m : Node} {cs : List ClauseKind}
    (h : ∀ c ∈ cs, m.fields.get? c.key = n.fields.get? c.key) :
    cs.flatMap (ClauseKind.ending s m) = cs.flatMap (ClauseKind.ending s n) :=
  List.flatMap_congr fun c hc => by rw [ClauseKind.ending, ClauseKind.ending, h c hc]

theorem endings_absent {n : Node} {cs : List ClauseKind}
    (h : ∀ c ∈ cs, n.fields.get? c.key = none) : cs.flatMap (ClauseKind.ending s n) = [] := by
  refine List.flatMap_eq_nil_iff.mpr fun c hc => ?_
  rw [ClauseKind.ending, h c hc]

variable {entries entries' : Fields} {earlier later : List ClauseKind} {c : ClauseKind}

/-- A clause ends a statement only once. -/
theorem endings_apart (hends : k.endings = earlier ++ c :: later) :
    c ∉ earlier ∧ c ∉ later ∧ ∀ d ∈ earlier, d ∉ later := by
  have hnodup : k.endings.Nodup := by
    cases k <;> decide
  rw [hends] at hnodup
  obtain ⟨-, hrest, hapart⟩ := List.nodup_append.mp hnodup
  refine ⟨fun h => hapart c h c List.mem_cons_self rfl, (List.nodup_cons.mp hrest).1, ?_⟩
  exact fun d hd h => hapart d hd d (List.mem_cons_of_mem c h) rfl

/-- A statement with the body of another, and the same endings before a clause, is that body
and these endings, followed by the clause and the endings after it. -/
theorem perform_variant (hnames : k.keyword.Names entries) (hshape : k.issues (k.node entries) = [])
    (hends : k.endings = earlier ++ c :: later) (hbody : SameBody entries entries')
    (hsuits : ∀ d, Suits entries entries' d)
    (hearlier : ∀ d ∈ earlier, entries'.get? d.key = entries.get? d.key) :
    (Renderer.of s none none).perform (.map entries') k.request =
      (((k.body s (k.node entries)).followed
          (earlier.flatMap (ClauseKind.ending s (k.node entries)))).followed
        ((c :: later).flatMap (ClauseKind.ending s (k.node entries')))).render
        (Renderer.of s none none).operands := by
  have htype : entries'.get "type" = entries.get "type" := hbody.get (by decide)
  have hnames' : k.keyword.Names entries' := by
    rw [Keyword.Names, htype]
    exact hnames
  have hnodes : SameBody (k.node entries).fields (k.node entries').fields := by
    intro key hkey
    rw [node, node, Fields.get?_without, Fields.get?_without, hbody key hkey]
  have hkeys : ∀ d : ClauseKind, Suits (k.node entries).fields (k.node entries').fields d := by
    intro d
    rw [Suits, node_get? k _ d.key_ne_type, node_get? k _ d.key_ne_type]
    exact hsuits d
  have hendings : ∀ d ∈ earlier, (k.node entries').fields.get? d.key =
      (k.node entries).fields.get? d.key := by
    intro d hd
    rw [node_get? k _ d.key_ne_type, node_get? k _ d.key_ne_type, hearlier d hd]
  rw [perform_of_names s hnames', render_outline s _ (issues_of_suits hnodes hkeys hshape), hends,
    List.flatMap_append, Outline.followed_append, body_congr hnodes, endings_congr s hendings]

/-- Without a clause and those after it, a statement is its body and the endings before. -/
theorem perform_front (hnames : k.keyword.Names entries) (hshape : k.issues (k.node entries) = [])
    (hends : k.endings = earlier ++ c :: later) (habsent : entries.get? c.key = none) :
    (Renderer.of s none none).perform (.map (entries.withoutAll (later.map ClauseKind.key)))
        k.request =
      ((k.body s (k.node entries)).followed
        (earlier.flatMap (ClauseKind.ending s (k.node entries)))).render
        (Renderer.of s none none).operands := by
  have hmem : ∀ d : ClauseKind, d.key ∈ later.map ClauseKind.key ↔ d ∈ later := by
    intro d
    rw [List.mem_map]
    exact ⟨fun ⟨e, he, heq⟩ => ClauseKind.key_injective heq ▸ he, fun hd => ⟨d, hd, rfl⟩⟩
  have hget : ∀ d : ClauseKind, (entries.withoutAll (later.map ClauseKind.key)).get? d.key =
      if d ∈ later then none else entries.get? d.key := by
    intro d
    simp only [Fields.get?_withoutAll, hmem]
  have hbody : SameBody entries (entries.withoutAll (later.map ClauseKind.key)) := by
    intro key hkey
    rw [Fields.get?_withoutAll, if_neg]
    intro h
    obtain ⟨d, -, rfl⟩ := List.mem_map.mp h
    exact hkey d.key_mem_keys
  have hsuits : ∀ d, Suits entries (entries.withoutAll (later.map ClauseKind.key)) d := by
    intro d
    by_cases hd : d ∈ later
    · exact Or.inr (Or.inl (by rw [hget, if_pos hd]))
    · exact Or.inl (by rw [hget, if_neg hd])
  obtain ⟨-, hc, hapart⟩ := endings_apart hends
  have hearlier : ∀ d ∈ earlier, (entries.withoutAll (later.map ClauseKind.key)).get? d.key =
      entries.get? d.key := by
    intro d hd
    rw [hget, if_neg (hapart d hd)]
  have hgone : ∀ d ∈ c :: later,
      (k.node (entries.withoutAll (later.map ClauseKind.key))).fields.get? d.key = none := by
    intro d hd
    rw [node_get? k _ d.key_ne_type, hget]
    rcases List.mem_cons.mp hd with rfl | hd
    · rw [if_neg hc, habsent]
    · rw [if_pos hd]
  rw [perform_variant s hnames hshape hends hbody hsuits hearlier, endings_absent s hgone,
    Outline.followed_nil]

/-- With a clause added, a statement is its body and the endings before, followed by the
clause after a space and the endings after it. -/
theorem perform_adds {v : Value} (hnames : k.keyword.Names entries)
    (hshape : k.issues (k.node entries) = []) (hends : k.endings = earlier ++ c :: later)
    (hadds : Fields.Adds c.key v entries entries') (hv : v.isSequence = true) :
    (Renderer.of s none none).perform (.map entries') k.request =
      (((k.body s (k.node entries)).followed
          (earlier.flatMap (ClauseKind.ending s (k.node entries)))).followed
        ((.text " " :: c.written s v) ++
          later.flatMap (ClauseKind.ending s (k.node entries)))).render
        (Renderer.of s none none).operands := by
  have hother : ∀ {d : ClauseKind}, d ≠ c → entries'.get? d.key = entries.get? d.key := fun hd =>
    hadds.other fun heq => hd (ClauseKind.key_injective heq)
  have hbody : SameBody entries entries' := fun key hkey =>
    hadds.other fun heq => hkey (heq ▸ c.key_mem_keys)
  have hsuits : ∀ d, Suits entries entries' d := by
    intro d
    by_cases hd : d = c
    · exact Or.inr (Or.inr ⟨v, by rw [hd, hadds.present], hv⟩)
    · exact Or.inl (hother hd)
  obtain ⟨hbefore, hafter, -⟩ := endings_apart hends
  have hearlier : ∀ d ∈ earlier, entries'.get? d.key = entries.get? d.key := fun d hd =>
    hother fun heq => hbefore (heq ▸ hd)
  have hlater : ∀ d ∈ later, (k.node entries').fields.get? d.key =
      (k.node entries).fields.get? d.key := by
    intro d hd
    rw [node_get? k _ d.key_ne_type, node_get? k _ d.key_ne_type,
      hother fun heq => hafter (heq ▸ hd)]
  have hclause : c.ending s (k.node entries') = .text " " :: c.written s v := by
    rw [ClauseKind.ending, node_get? k _ c.key_ne_type, hadds.present]
  rw [perform_variant s hnames hshape hends hbody hsuits hearlier, List.flatMap_cons, hclause,
    endings_congr s hlater]

/-- A statement that is rendered without a clause is rendered with it exactly if the clause
is.  Then the clause stands after a space between two parts of the statement, and the first
part is the statement without the clauses that come later. -/
theorem render_adds {v : Value} {result : Renderer.Result} (hends : k.endings = earlier ++ c :: later)
    (hadds : Fields.Adds c.key v entries entries') (hv : v.isSequence = true)
    (h : (Renderer.of s none none).render k.request (.map entries) = .ok result) :
    ∃ before after : Renderer.Result,
      (Renderer.of s none none).render k.request
        (.map (entries.withoutAll (later.map ClauseKind.key))) = .ok before ∧
      result = .joined [before, after] ∧
      (Renderer.of s none none).render k.request (.map entries') =
        ((Renderer.of s none none).result (Piece.renderAll (Renderer.of s none none).operands
          (c.written s v))).map fun clause => .joined [before, ⟨" ", []⟩, clause, after] := by
  obtain ⟨hnames, hshape⟩ := names_of_render s h
  have hwhole := perform_variant s hnames hshape hends (fun _ _ => rfl) (fun _ => Or.inl rfl)
    fun _ _ => rfl
  have habsent : c.ending s (k.node entries) = [] := by
    rw [ClauseKind.ending, node_get? k _ c.key_ne_type, hadds.absent]
  rw [List.flatMap_cons, habsent, List.nil_append] at hwhole
  rw [Renderer.render, hwhole] at h
  obtain ⟨before, after, hbefore, hresult, hinserted⟩ := Outline.result_inserted _ h
  refine ⟨before, after, ?_, hresult, ?_⟩
  · rw [Renderer.render, perform_front s hnames hshape hends hadds.absent, hbefore]
  · rw [Renderer.render, perform_adds s hnames hshape hends hadds hv, hinserted]

end

end Verb

end QueryTree
