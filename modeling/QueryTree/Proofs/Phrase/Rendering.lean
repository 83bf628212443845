import QueryTree.Proofs.Outline.Runs
import QueryTree.Proofs.Phrase.Lexing
import QueryTree.Proofs.Phrase.Standing

/-!
# Rendered phrases

With the built-in tables and quoted identifiers, a value that stands for a phrase is
rendered as the text of its lexemes, and its literals are recorded as `Phrase.binds`
lists them.

The pieces of an outline are compared with lexemes character by character, since a
space between two words belongs to one of them as a lexeme and is a piece of its own
in a select.
-/

namespace QueryTree

open Rendering

/-- The characters of SQL with the default placeholder. -/
def Sql.chars (s : Sql) : List Char :=
  s.flatMap fun fragment => (Sql.writeFragment ({} : Settings).placeholder fragment).toList

theorem Sql.toList_write (s : Sql) : (s.write ({} : Settings).placeholder).toList = s.chars := by
  simp only [write, chars, String.toList_join, List.flatMap_map]

namespace Rendering

/-- A rendering ends with SQL of these characters and records these literals. -/
def Writes (x : Rendering Sql) (cs : List Char) (recorded : List Value) : Prop :=
  ∃ sql : Sql, Gives x (.ok sql) recorded ∧ sql.chars = cs

/-- One rendering after another writes and records one thing after another. -/
theorem Writes.append {x y : Rendering Sql} {cs ds : List Char} {us vs : List Value}
    (hx : Writes x cs us) (hy : Writes y ds vs) :
    Writes (do
      let s ← x
      let t ← y
      return s ++ t) (cs ++ ds) (us ++ vs) := by
  obtain ⟨s, hs, rfl⟩ := hx
  obtain ⟨t, ht, rfl⟩ := hy
  have hend : Gives (y >>= fun t => pure (s ++ t)) (.ok (s ++ t)) vs := by
    have h := gives_bind_ok (f := fun t => pure (s ++ t)) ht (gives_pure (s ++ t))
    rwa [List.append_nil] at h
  exact ⟨s ++ t, gives_bind_ok hs hend, List.flatMap_append⟩

end Rendering

/-! ## Pieces -/

namespace Piece

variable {b : Below} {ps qs : List Piece} {cs ds : List Char} {us vs : List Value}

theorem writes_nil : Writes (renderAll b []) [] [] := ⟨[], gives_pure [], rfl⟩

theorem writes_cons {p : Piece} (hp : Writes (p.render b) cs us)
    (hps : Writes (renderAll b ps) ds vs) :
    Writes (renderAll b (p :: ps)) (cs ++ ds) (us ++ vs) := by
  rw [renderAll_cons]
  exact hp.append hps

theorem writes_text (t : String) (hps : Writes (renderAll b ps) cs vs) :
    Writes (renderAll b (text t :: ps)) (t.toList ++ cs) vs := by
  have htext : Writes ((text t).render b) t.toList [] := by
    refine ⟨_, gives_pure _, ?_⟩
    simp [Sql.chars, Sql.ofText, Sql.writeFragment]
  exact writes_cons htext hps

theorem writes_append (hps : Writes (renderAll b ps) cs us) (hqs : Writes (renderAll b qs) ds vs) :
    Writes (renderAll b (ps ++ qs)) (cs ++ ds) (us ++ vs) := by
  rw [renderAll_append]
  exact hps.append hqs

theorem writes_single {p : Piece} (hp : Writes (p.render b) cs vs) :
    Writes (renderAll b [p]) cs vs := by
  have h := writes_cons hp writes_nil
  rwa [List.append_nil, List.append_nil] at h

end Piece

open Piece in
/-- What an outline exchanges is written `late` first and recorded `early` first. -/
theorem Outline.writes {b : Below} {late early : List Piece} {cs ds : List Char}
    {us vs : List Value} (hlate : Writes (renderAll b late) cs us)
    (hearly : Writes (renderAll b early) ds vs) :
    Writes (Outline.render b { lead := [], late, early }) (cs ++ ds) (vs ++ us) := by
  obtain ⟨s, hs, rfl⟩ := hlate
  obtain ⟨t, ht, rfl⟩ := hearly
  have hend : Gives (renderAll b late >>= fun s => pure (s ++ t)) (.ok (s ++ t)) us := by
    have h := gives_bind_ok (f := fun s => pure (s ++ t)) hs (gives_pure (s ++ t))
    rwa [List.append_nil] at h
  refine ⟨s ++ t, ?_, List.flatMap_append⟩
  have h := gives_bind_ok (f := fun t => renderAll b late >>= fun s => pure (s ++ t)) ht hend
  simpa [Outline.render] using h

/-! ## The renderer -/

namespace Renderer

/-- The renderer with built-in tables and default settings, but with quoted
identifiers. -/
def quoting : Renderer := of { quoteIdentifiers := true } none none

theorem quoting_comparison {tag token : String} (h : defaultOperators.lookup tag = some token) :
    (quoting.table .condition).lookup tag = some .comparison := by
  have hall : ∀ entry ∈ defaultOperators,
      (quoting.table .condition).lookup entry.1 = some .comparison := by decide
  obtain ⟨l₁, l₂, hsplit, -⟩ := List.lookup_eq_some_iff.mp h
  exact hall (tag, token) (hsplit ▸ List.mem_append_right l₁ List.mem_cons_self)

theorem quoting_membership (negated : Bool) :
    (quoting.table .condition).lookup (if negated then Keyword.notIn else Keyword.isIn).tag =
      some .membership := by
  cases negated <;> rfl

/-- A node is written as the outline of its handler. -/
theorem writes_full {place : Place} {n : Node} {h : Handler} {cs : List Char} {vs : List Value}
    (hlookup : (quoting.table place).lookup n.tag = some h)
    (hwrites : Writes ((h.outline quoting.settings n).render quoting.operands) cs vs) :
    Writes (quoting.full place n) cs vs := by
  rw [full_eq, outline_eq hlookup]
  exact hwrites

/-- A value is written as the node it stands for. -/
theorem writes_below {place : Place} {v : Value} {n : Node} {cs : List Char} {vs : List Value}
    (hv : Node.ofValue v = .ok n) (hwrites : Writes (quoting.full place n) cs vs) :
    Writes ((Piece.below place v).render quoting.operands) cs vs := by
  rw [Piece.render_below, operands_at_ok _ _ hv]
  exact hwrites

end Renderer

namespace Phrase

open Piece Renderer

/-! ## Pieces of phrases -/

/-- The pieces of a value in a place. -/
def Slot.pieces : Slot → Value → List Piece
  | term, v => [.below .tree v]
  | condition, v => [.below .condition v]
  | item, v => orderItem v

/-- The pieces of a clause. -/
def ClauseKind.pieces : ClauseKind → Value → List Piece
  | conditions, v => .text "WHERE " :: Piece.conditions quoting.settings v
  | grouping, v => groupItems (v.sequence?.getD [])
  | ordering, v => orderItems (v.sequence?.getD [])

/-- The pieces of a clause that is there, after a space. -/
def ClauseKind.optional (k : ClauseKind) : Option Value → List Piece
  | none => []
  | some v => .text " " :: k.pieces v

/-- The pieces of joins, each after a space. -/
def joinPieces (joins : List Value) : List Piece :=
  joins.flatMap fun v => [.text " ", .below .tree v]

/-- The pieces of the joins of a select. -/
def joinsPieces : Option Value → List Piece
  | none => []
  | some v =>
    match Clause.joinList v with
    | .ok joins => joinPieces joins
    | .error f => [.text " ", .stop (.structural f)]

/-- Pieces that make one phrase of another: they are written after it. -/
def Adds (ps : List Piece) (p q : Phrase) : Prop :=
  ∃ xs vs, Writes (renderAll quoting.operands ps) (chars xs) vs ∧ q.lexemes = p.lexemes ++ xs ∧
    q.binds = p.binds ++ vs

theorem Adds.refl (p : Phrase) : Adds [] p p :=
  ⟨[], [], writes_nil, (List.append_nil _).symm, (List.append_nil _).symm⟩

theorem Adds.trans {ps qs : List Piece} {p q r : Phrase} (h : Adds ps p q) (h' : Adds qs q r) :
    Adds (ps ++ qs) p r := by
  obtain ⟨xs, us, hps, hq, hbinds⟩ := h
  obtain ⟨ys, vs, hqs, hr, hbinds'⟩ := h'
  refine ⟨xs ++ ys, us ++ vs, ?_, by rw [hr, hq, List.append_assoc],
    by rw [hbinds', hbinds, List.append_assoc]⟩
  rw [chars_append]
  exact writes_append hps hqs

theorem lexemesAll_append (w : Word) {ps qs : List Phrase} (hps : ps ≠ []) (hqs : qs ≠ []) :
    lexemesAll w (ps ++ qs) = lexemesAll w ps ++ .word w :: lexemesAll w qs := by
  obtain ⟨q, qs, rfl⟩ := List.exists_cons_of_ne_nil hqs
  induction ps with
  | nil => exact absurd rfl hps
  | cons p ps ih =>
      cases ps with
      | nil => rfl
      | cons p' ps =>
          have h := ih (List.cons_ne_nil p' ps)
          simp only [List.cons_append] at h
          simp only [List.cons_append, lexemesAll, h, List.append_assoc]

theorem bindsAll_append (ps qs : List Phrase) : bindsAll (ps ++ qs) = bindsAll ps ++ bindsAll qs := by
  induction ps with
  | nil => rfl
  | cons p ps ih => rw [List.cons_append, bindsAll, bindsAll, ih, List.append_assoc]

theorem StandsAll.ne_nil {s : Slot} : ∀ {vs : List Value} {ps : List Phrase}, vs ≠ [] →
    StandsAll s vs ps → ps ≠ []
  | _, _, h, .nil _ => absurd rfl h
  | _, _, _, .cons _ _ => List.cons_ne_nil _ _
  | _, _, _, .spread _ _ _ hps _ => by
      have h := hps.ne_nil (List.cons_ne_nil _ _)
      exact fun happend => h (List.append_eq_nil_iff.mp happend).1

theorem StandsAll.eq_nil {s : Slot} {ps : List Phrase} (h : StandsAll s [] ps) : ps = [] := by
  cases h
  rfl

/-- A list is written as its items. -/
theorem writes_listed {v : Value} {vs us : List Value} {cs : List Char} (h : Listed v vs)
    (hwrites : Writes (renderAll quoting.operands (separated ", " (vs.map Slot.term.pieces))) cs us) :
    Writes ((Piece.below .tree v).render quoting.operands) cs us := by
  obtain ⟨n, hv, htag, rfl⟩ := h
  refine writes_below hv (writes_full (h := .list) (htag ▸ rfl) ?_)
  rw [Handler.outline, Outline.render_straight]
  exact hwrites

theorem memberWords_atoms (rank : Connective → Option Int) (outer : Int) (vs : List Value) :
    Condition.memberWords rank outer (vs.map .atom) = vs.map fun v => [.atom v] := by
  induction vs with
  | nil => rfl
  | cons v vs ih => rw [List.map_cons, Condition.memberWords, ih]; rfl

/-- Conditions joined by AND are written with the word between them. -/
theorem conditions_eq_separated {v w : Value} {vs : List Value} (h : Conjoined v (w :: vs)) :
    Piece.conditions quoting.settings v =
      separated " AND " ((w :: vs).map Slot.condition.pieces) := by
  have hjoined : ∀ (w : Value) (vs : List Value),
      (Condition.joined .and ((w :: vs).map fun v => [.atom v])).map ofWord =
        separated " AND " ((w :: vs).map Slot.condition.pieces) := by
    intro w vs
    induction vs generalizing w with
    | nil => rfl
    | cons u vs ih =>
        have hrest := ih u
        simp only [List.map_cons] at hrest ⊢
        rw [Condition.joined_cons, List.map_append, separated_cons, ← hrest]
        rfl
  have hrank : quoting.settings.rank .and = some 10 := rfl
  rw [Piece.conditions, h]
  simp only [List.map_cons, Condition.words, hrank, memberWords_atoms]
  exact hjoined w vs

/-- Without conditions the constant stands that always holds. -/
theorem conditions_eq_always {v : Value} (h : Conjoined v []) :
    Piece.conditions quoting.settings v = [.text "1 = 1"] := by
  rw [Piece.conditions, h]
  rfl

theorem writes_conjoined {v : Value} {vs : List Value} {ps : List Phrase} (h : Conjoined v vs)
    (hps : StandsAll .condition vs ps)
    (hwrites : vs ≠ [] →
      Writes (renderAll quoting.operands (separated " AND " (vs.map Slot.condition.pieces)))
        (chars (lexemesAll .and ps)) (bindsAll ps)) :
    Writes (renderAll quoting.operands (Piece.conditions quoting.settings v))
      (chars (lexemesAll .and ps)) (bindsAll ps) := by
  cases vs with
  | nil =>
      obtain rfl := hps.eq_nil
      rw [conditions_eq_always h]
      exact writes_text _ writes_nil
  | cons w vs =>
      rw [conditions_eq_separated h]
      exact hwrites (List.cons_ne_nil w vs)

/-! ## Values that stand for phrases -/

theorem Stands.ne_null {p : Phrase} {v : Value} (h : Stands .term v p) : v ≠ .null := by
  rintro rfl
  cases h with
  | term hv _ => cases hv

theorem Conjoined.ne_null {v : Value} {vs : List Value} (h : Conjoined v vs) : v ≠ .null := by
  rintro rfl
  cases h

theorem outline_aliased {n : Node} {t : String} (hident : n.fields.get "ident" ≠ .null)
    (has : n.fields.get "as" = .str t) :
    Outline.aliased n = .straight [.below .tree (n.fields.get "ident"), .text (" AS " ++ t)] := by
  unfold Outline.aliased
  rw [has]
  generalize n.fields.get "ident" = ident at hident ⊢
  cases ident with
  | null => exact absurd rfl hident
  | _ => rfl

theorem writes_closing {ps : List Piece} {xs : List Lexeme} {vs : List Value}
    (h : Writes (renderAll quoting.operands ps) (chars xs) vs) :
    Writes (renderAll quoting.operands (ps ++ [.text ")"])) (chars (xs ++ [.word .close])) vs := by
  rw [chars_append, ← List.append_nil vs]
  exact writes_append h (writes_text ")" writes_nil)

/-! ### Nodes -/

section

variable {place : Renderer.Place} {n : Node}

theorem writes_name {m : Name} (htag : n.tag = Keyword.name.tag)
    (hargs : n.args = m.segments.map .str) :
    Writes (quoting.full place n) (chars (name m).lexemes) (name m).binds := by
  refine writes_full (h := .name) (htag ▸ by cases place <;> rfl) ?_
  have hrender : Identifier.render quoting.settings.activeQuotes quoting.settings.nameSeparator
      (m.segments.map .str) = .ok m.text := Identifier.render_eq_spelled m.ne_nil m.star_last
  rw [Handler.outline, Outline.name, hargs, hrender]
  dsimp only
  rw [Outline.render_straight]
  exact writes_text m.text writes_nil

theorem writes_literal {v : Value} (htag : n.tag = Keyword.value.tag) (hargs : n.args = [v]) :
    Writes (quoting.full place n) (chars (literal v).lexemes) (literal v).binds := by
  refine writes_full (h := .literal) (htag ▸ by cases place <;> rfl) ?_
  rw [Handler.outline, Outline.literal, hargs]
  dsimp only
  rw [Outline.render_straight]
  exact writes_single ⟨_, gives_bindLiteral v, rfl⟩

theorem writes_listOfOne {v : Value} {us : List Value} {cs : List Char}
    (htag : n.tag = Keyword.list.tag) (hargs : n.args = [v])
    (hv : Writes (renderAll quoting.operands (Slot.term.pieces v)) cs us) :
    Writes (quoting.full place n) cs us := by
  refine writes_full (h := .list) (htag ▸ by cases place <;> rfl) ?_
  rw [Handler.outline, hargs, Outline.render_straight]
  exact hv

theorem writes_aliased {p : Phrase} {a : Alias} (htag : n.tag = Keyword.aliased.tag)
    (hident : n.fields.get "ident" ≠ .null) (has : n.fields.get "as" = .str a.text)
    (hp : Writes (renderAll quoting.operands (Slot.term.pieces (n.fields.get "ident")))
      (chars p.lexemes) p.binds) :
    Writes (quoting.full place n) (chars (aliased p a).lexemes) (aliased p a).binds := by
  refine writes_full (h := .aliased) (htag ▸ by cases place <;> rfl) ?_
  rw [Handler.outline, outline_aliased hident has, Outline.render_straight, lexemes, chars_append,
    binds, ← List.append_nil p.binds]
  exact writes_append hp (writes_text _ writes_nil)

theorem writes_comparison {c : Comparator} {v w : Value} {l r : Phrase}
    (htag : defaultOperators.lookup n.tag = some c.token) (hargs : n.args = [v, w])
    (hl : Writes (renderAll quoting.operands (Slot.condition.pieces v)) (chars l.lexemes) l.binds)
    (hr : Writes (renderAll quoting.operands (Slot.condition.pieces w)) (chars r.lexemes) r.binds) :
    Writes (quoting.full .condition n) (chars (comparison c l r).lexemes)
      (comparison c l r).binds := by
  refine writes_full (quoting_comparison htag) ?_
  have htoken : quoting.settings.operators.lookup n.tag = some c.token := htag
  rw [Handler.outline, Outline.comparison, hargs]
  dsimp only
  rw [htoken]
  dsimp only
  rw [Outline.render_straight, lexemes, chars_append, binds]
  exact writes_append hl (writes_text _ hr)

theorem writes_membership {negated : Bool} {v w : Value} {vs : List Value} {field : Phrase}
    {values : List Phrase} (htag : n.tag = (if negated then Keyword.notIn else Keyword.isIn).tag)
    (hargs : n.args = v :: w :: vs)
    (hfield : Writes (renderAll quoting.operands (Slot.condition.pieces v)) (chars field.lexemes)
      field.binds)
    (hvalues : Writes (renderAll quoting.operands (separated ", " ((w :: vs).map Slot.term.pieces)))
      (chars (lexemesAll .comma values)) (bindsAll values)) :
    Writes (quoting.full .condition n) (chars (membership negated field values).lexemes)
      (membership negated field values).binds := by
  refine writes_full (htag ▸ quoting_membership negated) ?_
  have hword : (if n.tag = Keyword.notIn.tag then " NOT" else "") ++ " IN (" =
      (Word.membership negated).text := by
    rw [htag]
    cases negated <;> rfl
  rw [Handler.outline, Outline.membership, hargs]
  dsimp only
  rw [hword, lexemes, binds, List.append_assoc, chars_append]
  exact Outline.writes hfield (writes_text _ (writes_closing hvalues))

end

/-! ### Joins and clauses -/

theorem outline_joined {n : Node} (hargs : n.args = []) (htable : n.fields.get "tablespec" ≠ .null)
    (hon : n.fields.get "on" ≠ .null) (hshared : n.fields.get "using" = .null) :
    Outline.join quoting.settings n =
      .straight (.text "JOIN " :: (Slot.term.pieces (n.fields.get "tablespec") ++ .text " ON (" ::
        (Piece.conditions quoting.settings (n.fields.get "on") ++ [.text ")"]))) := by
  simp only [Outline.join, hargs, List.isEmpty_nil, hshared, Clause.isPresent, Bool.not_true,
    Bool.false_eq_true, if_false]
  rfl

theorem outline_shared {n : Node} (hargs : n.args = []) (htable : n.fields.get "tablespec" ≠ .null)
    (hon : n.fields.get "on" = .null) (hshared : n.fields.get "using" ≠ .null) :
    Outline.join quoting.settings n =
      .straight (.text "JOIN " :: (Slot.term.pieces (n.fields.get "tablespec") ++ .text " USING (" ::
        (Slot.term.pieces (n.fields.get "using") ++ [.text ")"]))) := by
  simp only [Outline.join, hargs, List.isEmpty_nil, hon, Clause.isPresent, Bool.not_true,
    Bool.false_eq_true, if_false]
  rfl

/-- A join is written after a space. -/
theorem adds_join {v : Value} {n : Node} {p q : Phrase} {o : Outline} (xs : List Lexeme)
    (vs : List Value) (hv : Node.ofValue v = .ok n) (htag : n.tag = Keyword.join.tag)
    (ho : Outline.join quoting.settings n = o)
    (hwrites : Writes (o.render quoting.operands) ("JOIN ".toList ++ chars xs) vs)
    (hlexemes : q.lexemes = p.lexemes ++ .word .join :: xs) (hbinds : q.binds = p.binds ++ vs) :
    Adds [.text " ", .below .tree v] p q := by
  have hn : Writes (quoting.full .tree n) ("JOIN ".toList ++ chars xs) vs := by
    refine writes_full (h := .join) (htag ▸ rfl) ?_
    rw [Handler.outline, ho]
    exact hwrites
  exact ⟨.word .join :: xs, vs, writes_text " " (writes_single (writes_below hv hn)), hlexemes, hbinds⟩

theorem adds_joined {v : Value} {n : Node} {table : Phrase} {conditions : List Phrase} (p : Phrase)
    (hv : Node.ofValue v = .ok n) (htag : n.tag = Keyword.join.tag) (hargs : n.args = [])
    (htable : n.fields.get "tablespec" ≠ .null) (hon : n.fields.get "on" ≠ .null)
    (hshared : n.fields.get "using" = .null)
    (hwtable : Writes (renderAll quoting.operands (Slot.term.pieces (n.fields.get "tablespec")))
      (chars table.lexemes) table.binds)
    (hwon : Writes (renderAll quoting.operands
      (Piece.conditions quoting.settings (n.fields.get "on")))
      (chars (lexemesAll .and conditions)) (bindsAll conditions)) :
    Adds [.text " ", .below .tree v] p (joined p table conditions) := by
  refine adds_join
    (table.lexemes ++ .word .on :: (lexemesAll .and conditions ++ [.word .close]))
    (table.binds ++ bindsAll conditions) hv htag (outline_joined hargs htable hon hshared) ?_ ?_ ?_
  · rw [Outline.render_straight, chars_append]
    exact writes_text _ (writes_append hwtable (writes_text _ (writes_closing hwon)))
  · simp only [lexemes, List.append_assoc, List.cons_append]
  · simp only [binds, List.append_assoc]

theorem adds_shared {v : Value} {n : Node} {table : Phrase} {columns : List Phrase} (p : Phrase)
    (hv : Node.ofValue v = .ok n) (htag : n.tag = Keyword.join.tag) (hargs : n.args = [])
    (htable : n.fields.get "tablespec" ≠ .null) (hon : n.fields.get "on" = .null)
    (hshared : n.fields.get "using" ≠ .null)
    (hwtable : Writes (renderAll quoting.operands (Slot.term.pieces (n.fields.get "tablespec")))
      (chars table.lexemes) table.binds)
    (hwshared : Writes (renderAll quoting.operands (Slot.term.pieces (n.fields.get "using")))
      (chars (lexemesAll .comma columns)) (bindsAll columns)) :
    Adds [.text " ", .below .tree v] p (shared p table columns) := by
  refine adds_join
    (table.lexemes ++ .word .shared :: (lexemesAll .comma columns ++ [.word .close]))
    (table.binds ++ bindsAll columns) hv htag (outline_shared hargs htable hon hshared) ?_ ?_ ?_
  · rw [Outline.render_straight, chars_append]
    exact writes_text _ (writes_append hwtable (writes_text _ (writes_closing hwshared)))
  · simp only [lexemes, List.append_assoc, List.cons_append]
  · simp only [binds, List.append_assoc]

theorem adds_clause {k : ClauseKind} {v : Value} {vs : List Value} {items : List Phrase} (p : Phrase)
    (hitems : k.Items v vs) (hstands : StandsAll k.slot vs items)
    (hwrites : ∀ {separator : String}, separator.toList = k.separator.text.toList →
      k.separator = .comma ∨ k.slot = .condition ∧ vs ≠ [] →
        Writes (renderAll quoting.operands (separated separator (vs.map k.slot.pieces)))
          (chars (lexemesAll k.separator items)) (bindsAll items)) :
    Adds (.text " " :: k.pieces v) p (clause p k items) := by
  refine ⟨.word (.clause k) :: lexemesAll k.separator items, bindsAll items, ?_, rfl, rfl⟩
  cases k with
  | conditions =>
      exact writes_text " " (writes_text "WHERE "
        (writes_conjoined hitems hstands fun hne => hwrites rfl (.inr ⟨rfl, hne⟩)))
  | grouping =>
      have hvs : v.sequence? = some vs := hitems
      rw [ClauseKind.pieces, hvs]
      exact writes_text " " (writes_text "GROUP BY " (hwrites rfl (.inl rfl)))
  | ordering =>
      have hvs : v.sequence? = some vs := hitems
      rw [ClauseKind.pieces, hvs]
      exact writes_text " " (writes_text "ORDER BY " (hwrites rfl (.inl rfl)))

/-! ### Selects -/

theorem joinGroups_spaced (n : Node) :
    (joinGroups n).flatMap (.text " " :: ·) = joinsPieces (n.fields.get? "join") := by
  unfold joinGroups Piece.optional joinsPieces
  cases n.fields.get? "join" with
  | none => rfl
  | some v =>
      dsimp only
      cases Clause.joinList v with
      | error f => rfl
      | ok joins =>
          simp only [trees, joinPieces, List.flatMap_map]

/-- The group of a clause that is there is written after a space. -/
theorem optional_spaced (k : ClauseKind) (n : Node) (key : String) :
    (Piece.optional n key fun v => [k.pieces v]).flatMap (.text " " :: ·) =
      k.optional (n.fields.get? key) := by
  unfold Piece.optional
  cases n.fields.get? key with
  | none => rfl
  | some v => exact List.append_nil _

theorem clauseGroups_spaced (n : Node) :
    (whereGroups quoting.settings n).flatMap (.text " " :: ·) =
        ClauseKind.conditions.optional (n.fields.get? "where") ∧
      (groupingGroups n).flatMap (.text " " :: ·) =
        ClauseKind.grouping.optional (n.fields.get? "group_by") ∧
      (orderingGroups n).flatMap (.text " " :: ·) =
        ClauseKind.ordering.optional (n.fields.get? "order_by") :=
  ⟨optional_spaced .conditions n "where", optional_spaced .grouping n "group_by",
    optional_spaced .ordering n "order_by"⟩

/-- The pieces of the clauses of a select after its source. -/
def clausePieces (n : Node) : List Piece :=
  joinsPieces (n.fields.get? "join") ++
    (ClauseKind.conditions.optional (n.fields.get? "where") ++
      (ClauseKind.grouping.optional (n.fields.get? "group_by") ++
        ClauseKind.ordering.optional (n.fields.get? "order_by")))

theorem select_pieces (n : Node) :
    separated " " (selectGroups quoting.settings n) =
      .text "SELECT" :: .text " " :: (Slot.term.pieces (n.fields.get "columns") ++
        .text " " :: .text "FROM" :: .text " " :: (Slot.term.pieces (n.fields.get "from") ++
          clausePieces n)) := by
  obtain ⟨hwhere, hgrouping, hordering⟩ := clauseGroups_spaced n
  simp only [selectGroups, List.cons_append, List.nil_append, separated_eq, List.flatMap_cons,
    List.flatMap_append, joinGroups_spaced, hwhere, hgrouping, hordering, clausePieces,
    Slot.pieces, List.append_assoc]

theorem writes_select {place : Renderer.Place} {n : Node} {columns : List Phrase}
    {source q : Phrase} (htag : n.tag = Keyword.select.tag) (hshape : Shape.select n = [])
    (hcolumns : Writes (renderAll quoting.operands (Slot.term.pieces (n.fields.get "columns")))
      (chars (lexemesAll .comma columns)) (bindsAll columns))
    (hsource : Writes (renderAll quoting.operands (Slot.term.pieces (n.fields.get "from")))
      (chars source.lexemes) source.binds)
    (hclauses : Adds (clausePieces n) (select columns source) q) :
    Writes (quoting.full place n) (chars q.lexemes) q.binds := by
  refine writes_full (h := .select) (htag ▸ by cases place <;> rfl) ?_
  obtain ⟨xs, vs, hxs, hlexemes, hbinds⟩ := hclauses
  rw [Handler.outline, Outline.select, hshape, Outline.checked, Outline.render_straight,
    select_pieces, hlexemes, hbinds, lexemes, binds, List.append_assoc, List.append_assoc,
    List.cons_append, List.cons_append, chars_cons, chars_append, chars_cons, chars_append]
  have htail := writes_append hcolumns (writes_text " " (writes_text "FROM" (writes_text " "
    (writes_append hsource hxs))))
  exact writes_text "SELECT" (writes_text " " htail)

/-- One value more is written before the others, with a separator after it. -/
theorem writes_next {s : Slot} {separator : String} {w : Word} {v : Value} {vs : List Value}
    {ps qs : List Phrase} (hseparator : separator.toList = w.text.toList) (hps : ps ≠ [])
    (hv : Writes (renderAll quoting.operands (s.pieces v)) (chars (lexemesAll w ps)) (bindsAll ps))
    (hvs : StandsAll s vs qs)
    (hrest : vs ≠ [] → Writes (renderAll quoting.operands (separated separator (vs.map s.pieces)))
      (chars (lexemesAll w qs)) (bindsAll qs)) :
    Writes (renderAll quoting.operands (separated separator ((v :: vs).map s.pieces)))
      (chars (lexemesAll w (ps ++ qs))) (bindsAll (ps ++ qs)) := by
  cases vs with
  | nil =>
      obtain rfl := hvs.eq_nil
      rw [List.append_nil]
      exact hv
  | cons u vs =>
      have hqs := hvs.ne_nil (List.cons_ne_nil u vs)
      rw [List.map_cons, List.map_cons, separated_cons, lexemesAll_append w hps hqs, chars_append,
        chars_cons, Lexeme.text, ← hseparator, bindsAll_append]
      exact writes_append hv (writes_text separator (hrest (List.cons_ne_nil u vs)))

theorem Slot.pieces_of_no_direction {s : Slot} {v : Value} (hs : s ≠ .condition)
    (hv : Clause.direction? v = none) : s.pieces v = [.below .tree v] := by
  cases s with
  | term => rfl
  | condition => exact absurd rfl hs
  | item => rw [pieces, orderItem, hv]

mutual

/-- A value that stands for a phrase is written as its lexemes. -/
theorem writes_stands : ∀ {s : Slot} {v : Value} {p : Phrase}, Stands s v p →
    Writes (renderAll quoting.operands (s.pieces v)) (chars p.lexemes) p.binds
  | _, _, _, .term hv hn => writes_single (writes_below hv (writes_node hn))
  | _, _, _, .condition hv hn => writes_single (writes_below hv (writes_node hn))
  | _, v, _, .item hdirection hv => by
      have h := writes_stands hv
      rwa [Slot.pieces, orderItem, hdirection]
  | _, v, _, @Stands.directed _ w d p hdirection hoperands hv => by
      have h := writes_append (writes_stands hv) (writes_text (" " ++ d.word) writes_nil)
      rw [Slot.pieces, orderItem, hdirection]
      dsimp only
      rw [hoperands, lexemes, chars_append, binds, ← List.append_nil p.binds]
      exact h

theorem writes_standsAll : ∀ {s : Slot} {vs : List Value} {ps : List Phrase}, StandsAll s vs ps →
    ∀ {separator : String} {w : Word}, separator.toList = w.text.toList →
      w = .comma ∨ s = .condition ∧ vs ≠ [] →
        Writes (renderAll quoting.operands (separated separator (vs.map s.pieces)))
          (chars (lexemesAll w ps)) (bindsAll ps)
  | _, _, _, .nil s, _, _, _, hw => by
      obtain rfl := hw.resolve_right fun h => h.2 rfl
      exact writes_nil
  | _, _, _, @StandsAll.cons s v p vs ps hv hvs, _, w, hseparator, hw => by
      refine writes_next hseparator (List.cons_ne_nil p []) ?_ hvs fun hne =>
        writes_standsAll hvs hseparator (hw.imp_right fun h => ⟨h.1, hne⟩)
      rw [bindsAll, bindsAll, List.append_nil]
      exact writes_stands hv
  | _, _, _, .spread hs hdirection hlisted hps hvs, _, _, hseparator, hw => by
      obtain rfl := hw.resolve_right fun h => hs h.1
      refine writes_next hseparator (hps.ne_nil (List.cons_ne_nil _ _)) ?_ hvs fun _ =>
        writes_standsAll hvs hseparator (.inl rfl)
      rw [Slot.pieces_of_no_direction hs hdirection]
      exact writes_single (writes_listed hlisted (writes_standsAll hps rfl (.inl rfl)))

theorem writes_node : ∀ {place : Renderer.Place} {n : Node} {p : Phrase}, NodeStands place n p →
    Writes (quoting.full place n) (chars p.lexemes) p.binds
  | _, _, _, .name _ _ htag hargs => writes_name htag hargs
  | _, _, _, .literal _ htag hargs => writes_literal htag hargs
  | _, _, _, .single _ htag hargs hv => writes_listOfOne htag hargs (writes_stands hv)
  | _, _, _, .aliased _ htag hident has =>
      writes_aliased htag hident.ne_null has (writes_stands hident)
  | _, _, _, .comparison htag hargs hl hr =>
      writes_comparison htag hargs (writes_stands hl) (writes_stands hr)
  | _, _, _, .membership htag hargs hfield hvalues =>
      writes_membership htag hargs (writes_stands hfield)
        (writes_standsAll hvalues rfl (.inl rfl))
  | _, _, _, .select _ htag hshape hlisted hcolumns hsource hjoins hwhere hgrouping hordering =>
      writes_select htag hshape
        (writes_single (writes_listed hlisted (writes_standsAll hcolumns rfl (.inl rfl))))
        (writes_stands hsource)
        ((adds_joinsStand hjoins).trans ((adds_clauseStands hwhere).trans
          ((adds_clauseStands hgrouping).trans (adds_clauseStands hordering))))

theorem adds_joinsStand : ∀ {v : Option Value} {p q : Phrase}, JoinsStand v p q →
    Adds (joinsPieces v) p q
  | _, _, _, .absent p => .refl p
  | _, _, _, .present hjoins hall => by
      rw [joinsPieces, hjoins]
      exact adds_joinStandsAll hall

theorem adds_joinStandsAll : ∀ {vs : List Value} {p q : Phrase}, JoinStandsAll vs p q →
    Adds (joinPieces vs) p q
  | _, _, _, .nil p => .refl p
  | _, _, _, .cons hv hjoin hall => (adds_joinStands hv hjoin).trans (adds_joinStandsAll hall)

theorem adds_joinStands : ∀ {v : Value} {n : Node} {p q : Phrase}, Node.ofValue v = .ok n →
    JoinStands n p q → Adds [.text " ", .below .tree v] p q
  | _, _, _, _, hv, .joined p htag hargs htable hshared hon hconditions =>
      adds_joined p hv htag hargs htable.ne_null hon.ne_null hshared (writes_stands htable)
        (writes_conjoined hon hconditions fun hne =>
          writes_standsAll hconditions rfl (.inr ⟨rfl, hne⟩))
  | _, _, _, _, hv, .shared p htag hargs htable hon hshared hcolumns =>
      adds_shared p hv htag hargs htable.ne_null hon hshared (writes_stands htable)
        (writes_standsAll hcolumns rfl (.inl rfl))

theorem adds_clauseStands : ∀ {k : ClauseKind} {v : Option Value} {p q : Phrase},
    ClauseStands k v p q → Adds (k.optional v) p q
  | _, _, _, _, .absent _ p => .refl p
  | _, _, _, _, .present p hitems hstands =>
      adds_clause p hitems hstands fun hseparator hw => writes_standsAll hstands hseparator hw

end

end Phrase

end QueryTree
