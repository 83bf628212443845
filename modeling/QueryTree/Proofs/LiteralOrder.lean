import QueryTree.Proofs.Outline.Runs

/-!
# The order of bound literals

Each placeholder of rendered SQL remembers its literal.  Read from left to right,
these literals need not come in the order in which they were recorded, which is
the order of the result.  Two handlers are to blame.  A membership test writes its
field before its values and renders it after them.  An update writes its table
before its assignments and renders it after them.

A node *crosses* if it is one of the two and both sides record a literal
(`Renderer.Crosses`).  The nodes that a request renders are those of its pieces,
and of the pieces of their outlines (`Renderer.Renders`).

The main statement is `Renderer.binds_in_order`.  The literals of the text are
those recorded, up to their order.  If no node crosses that is rendered, the order
is the same.  If the literals are all different, it is the same only then.
-/

namespace QueryTree

open Rendering

/-! ## Lists -/

/-- Two lists in either order are the same only if one is empty, unless something
occurs twice. -/
theorem eq_nil_or_eq_nil_of_swap {α : Type} {as bs cs ds : List α} (h : as ++ bs = ds ++ cs)
    (hac : as.Perm cs) (hnodup : (ds ++ cs).Nodup) : cs = [] ∨ ds = [] := by
  cases as with
  | nil => exact Or.inl hac.nil_eq.symm
  | cons a as =>
      cases ds with
      | nil => exact Or.inr rfl
      | cons d ds =>
          obtain rfl : a = d := (List.cons.inj h).1
          have hcs : a ∈ cs := hac.subset List.mem_cons_self
          have hdisjoint := (List.nodup_append.mp hnodup).2.2
          exact absurd rfl (hdisjoint a List.mem_cons_self a hcs)

/-- Parts that are the same up to their order are where the other parts are. -/
theorem append_inj_of_perm {α : Type} {as bs cs ds : List α} (h : as ++ bs = cs ++ ds)
    (hperm : as.Perm cs) : as = cs ∧ bs = ds :=
  List.append_inj h hperm.length_eq

/-! ## Literals of pieces -/

namespace Piece

variable {b : Below}

/-- A relation of written and recorded literals that holds of each piece holds of
all pieces in a row. -/
theorem literals_renderAll {T : List Value → List Value → Prop} (hb : b.Steady) (hnil : T [] [])
    (happend : ∀ {as bs cs ds}, T as bs → T cs ds → T (as ++ cs) (bs ++ ds)) :
    ∀ {ps : List Piece} {sql : Sql} {recorded : List Value},
      (∀ p ∈ ps, ∀ s r, Gives (p.render b) (.ok s) r → T s.literals r) →
        Gives (renderAll b ps) (.ok sql) recorded → T sql.literals recorded
  | [], _, _, _, h => by
      obtain ⟨rfl, rfl⟩ := gives_nil_inv h
      exact hnil
  | p :: ps, _, _, hps, h => by
      obtain ⟨s, r, s', r', hs, hs', rfl, rfl⟩ := gives_cons_inv hb h
      rw [Sql.literals_append]
      have hrest : ∀ q ∈ ps, ∀ s r, Gives (q.render b) (.ok s) r → T s.literals r := fun q hq =>
        hps q (List.mem_cons_of_mem p hq)
      exact happend (hps p List.mem_cons_self s r hs) (literals_renderAll hb hnil happend hrest hs')

theorem perm_renderAll (hb : b.Steady) {ps : List Piece} {sql : Sql} {recorded : List Value}
    (hps : ∀ p ∈ ps, ∀ s r, Gives (p.render b) (.ok s) r → s.literals.Perm r)
    (h : Gives (renderAll b ps) (.ok sql) recorded) : sql.literals.Perm recorded :=
  literals_renderAll hb (.refl []) (fun h h' => h.append h') hps h

theorem eq_renderAll (hb : b.Steady) {ps : List Piece} {sql : Sql} {recorded : List Value}
    (hps : ∀ p ∈ ps, ∀ s r, Gives (p.render b) (.ok s) r → s.literals = r)
    (h : Gives (renderAll b ps) (.ok sql) recorded) : sql.literals = recorded :=
  literals_renderAll hb rfl (by rintro _ _ _ _ rfl rfl; rfl) hps h

/-- If the literals of pieces in a row come in the order recorded, those of each
piece do. -/
theorem faithful_of_mem (hb : b.Steady) {p : Piece} :
    ∀ {ps : List Piece} {sql : Sql} {recorded : List Value},
      (∀ p ∈ ps, ∀ s r, Gives (p.render b) (.ok s) r → s.literals.Perm r) →
        Gives (renderAll b ps) (.ok sql) recorded → sql.literals = recorded → recorded.Nodup →
          p ∈ ps → ∃ s r, Gives (p.render b) (.ok s) r ∧ s.literals = r ∧ r.Nodup
  | q :: ps, _, _, hps, h, heq, hnodup, hp => by
      obtain ⟨s, r, s', r', hs, hs', rfl, rfl⟩ := gives_cons_inv hb h
      rw [Sql.literals_append] at heq
      obtain ⟨hfirst, hrest⟩ := append_inj_of_perm heq (hps q List.mem_cons_self s r hs)
      obtain ⟨hnodup₁, hnodup₂, -⟩ := List.nodup_append.mp hnodup
      rcases List.mem_cons.mp hp with rfl | hp
      · exact ⟨s, r, hs, hfirst, hnodup₁⟩
      · have hps' : ∀ q ∈ ps, ∀ s r, Gives (q.render b) (.ok s) r → s.literals.Perm r := fun t ht =>
          hps t (List.mem_cons_of_mem q ht)
        exact faithful_of_mem hb hps' hs' hrest hnodup₂ hp

end Piece

namespace Renderer

/-- A piece that ends with SQL is a node below, or writes what it records. -/
theorem gives_piece_inv (r : Renderer) {p : Piece} {s : Sql} {recorded : List Value}
    (h : Gives (p.render r.operands) (.ok s) recorded) :
    s.literals = recorded ∨
      ∃ q v m, p = .below q v ∧ Node.ofValue v = .ok m ∧ Gives (r.full q m) (.ok s) recorded := by
  cases p with
  | text t =>
      obtain ⟨hs, rfl⟩ := h.unique (gives_pure _)
      obtain rfl := Except.ok.inj hs
      exact Or.inl rfl
  | literal v =>
      obtain ⟨hs, rfl⟩ := h.unique (gives_bindLiteral v)
      obtain rfl := Except.ok.inj hs
      exact Or.inl rfl
  | stop e => cases (h.unique (gives_fail e)).1
  | below q v =>
      rw [Piece.render_below, operands_at] at h
      cases hv : Node.ofValue v with
      | error cause =>
          rw [nodeOf_error hv, fault_bind] at h
          cases (h.unique (gives_fail _)).1
      | ok m =>
          rw [nodeOf_ok hv, pure_bind] at h
          exact Or.inr ⟨q, v, m, rfl, hv, h⟩

/-- The literals that a node writes are those it records, up to their order. -/
theorem perm_full (r : Renderer) (place : Place) (n : Node) {sql : Sql} {recorded : List Value}
    (h : Gives (r.full place n) (.ok sql) recorded) : sql.literals.Perm recorded := by
  induction place, n using r.node_induction generalizing sql recorded with
  | step place n ih =>
      have hpieces : ∀ p ∈ (r.outline place n).pieces, ∀ s t,
          Gives (p.render r.operands) (.ok s) t → s.literals.Perm t := by
        intro p hp s t hst
        rcases r.gives_piece_inv hst with heq | ⟨q, v, m, rfl, hv, hm⟩
        · exact heq ▸ List.Perm.refl _
        · exact ih q v m hp hv hm
      obtain ⟨hlead, hlate, hearly, hrest⟩ := Outline.forall_mem_pieces.mp hpieces
      rw [full_eq] at h
      obtain ⟨s₁, r₁, s₂, r₂, s₃, r₃, s₄, r₄, h₁, h₂, h₃, h₄, rfl, rfl⟩ :=
        Outline.gives_inv r.steady_operands h
      have p₁ := Piece.perm_renderAll r.steady_operands hlead h₁
      have p₂ := Piece.perm_renderAll r.steady_operands hlate h₂
      have p₃ := Piece.perm_renderAll r.steady_operands hearly h₃
      have p₄ := Piece.perm_renderAll r.steady_operands hrest h₄
      simp only [Sql.literals_append, List.append_assoc]
      refine p₁.append ?_
      rw [← List.append_assoc, ← List.append_assoc]
      exact ((p₂.append p₃).trans List.perm_append_comm).append p₄

theorem perm_piece (r : Renderer) {p : Piece} {s : Sql} {recorded : List Value}
    (h : Gives (p.render r.operands) (.ok s) recorded) : s.literals.Perm recorded := by
  rcases r.gives_piece_inv h with heq | ⟨q, v, m, -, -, hm⟩
  · exact heq ▸ List.Perm.refl _
  · exact r.perm_full q m hm

/-! ## Nodes that cross -/

/-- Rendered on its own, a value binds a literal. -/
def Binds (r : Renderer) (request : Request) (v : Value) : Prop :=
  ∃ result, r.render request v = .ok result ∧ result.binds ≠ []

/-- A node whose handler writes literals in another order than it records them. -/
inductive Crosses (r : Renderer) (place : Place) (n : Node) : Prop
  | membership {field value : Value} {values : List Value} :
    (r.table place).lookup n.tag = some .membership → n.args = field :: values → value ∈ values →
      r.Binds .expression field → r.Binds .tree value → Crosses r place n
  | update {pair : Value × Value} {side : Value} :
    (r.table place).lookup n.tag = some .update → Shape.update n = [] →
      pair ∈ Statement.assignments n → side = pair.1 ∨ side = pair.2 →
        r.Binds .tree (n.fields.get "table") → r.Binds .tree side → Crosses r place n

/-- A node is rendered when something is asked for of a value. -/
inductive Renders (r : Renderer) (v : Value) (request : Request) : Place → Node → Prop
  | asked {place : Place} {w : Value} {n : Node} :
    .below place w ∈ r.pieces v request → Node.ofValue w = .ok n → Renders r v request place n
  | operand {place q : Place} {w : Value} {n m : Node} :
    Renders r v request place n → .below q w ∈ (r.outline place n).pieces →
      Node.ofValue w = .ok m → Renders r v request q m

/-- The request that renders a value at a place. -/
def Place.request : Place → Request
  | .tree => .tree
  | .condition => .expression

theorem perform_place (r : Renderer) (place : Place) (v : Value) :
    r.perform v place.request = r.operands.at place v := by
  cases place with
  | tree => rw [Place.request, perform_eq, pieces, Piece.renderAll_below]
  | condition => rw [Place.request, perform_eq, pieces, Piece.renderAll_below]

theorem perform_node (r : Renderer) (place : Place) {v : Value} {n : Node}
    (h : Node.ofValue v = .ok n) : r.perform v place.request = r.full place n := by
  rw [perform_place, operands_at_ok r place h]

theorem binds_iff (r : Renderer) (place : Place) (v : Value) :
    r.Binds place.request v ↔
      ∃ s recorded, Gives (r.operands.at place v) (.ok s) recorded ∧ recorded ≠ [] := by
  rw [Binds, render, result, perform_place]
  obtain ⟨answer, recorded, h⟩ := r.regular_operands place v
  rw [h []]
  cases answer with
  | error e =>
      constructor
      · rintro ⟨_, hresult, -⟩
        cases hresult
      · rintro ⟨s, t, hst, -⟩
        cases (hst.unique h).1
  | ok s =>
      constructor
      · rintro ⟨_, hresult, hne⟩
        obtain rfl := Except.ok.inj hresult
        exact ⟨s, recorded, h, hne⟩
      · rintro ⟨s', t, hst, hne⟩
        obtain ⟨-, rfl⟩ := hst.unique h
        exact ⟨_, rfl, hne⟩

/-- Most handlers write in the order in which they render. -/
theorem late_eq_nil (s : Settings) (n : Node) {h : Handler} (hmembership : h ≠ .membership)
    (hupdate : h ≠ .update) : (h.outline s n).late = [] := by
  have hchecked : ∀ (issues : List Issue) (ps : List Piece),
      (Outline.checked issues (.straight ps)).late = [] := by
    intro issues ps
    cases issues <;> rfl
  cases h with
  | select => exact hchecked _ _
  | insert => exact hchecked _ _
  | delete => exact hchecked _ _
  | update => exact absurd rfl hupdate
  | membership => exact absurd rfl hmembership
  | orderBy | groupBy =>
      simp only [Handler.outline, Outline.ofItems]
      split <;> rfl
  | join =>
      simp only [Handler.outline, Outline.join]
      split
      · rfl
      · split
        · rfl
        · split <;> rfl
  | aliased =>
      simp only [Handler.outline, Outline.aliased]
      split <;> rfl
  | name =>
      simp only [Handler.outline, Outline.name]
      split <;> rfl
  | literal =>
      simp only [Handler.outline, Outline.literal]
      split <;> rfl
  | comparison =>
      simp only [Handler.outline, Outline.comparison]
      split
      · split <;> rfl
      · rfl
  | _ => rfl

/-- The exchanged parts of a membership test are its field and its values. -/
theorem membership_sides {n : Node} {field value : Value} {values : List Value}
    (hargs : n.args = field :: value :: values) :
    (Outline.membership n).late = [.below .condition field] ∧
      (Outline.membership n).early =
        .text ((if n.tag = Keyword.notIn.tag then " NOT" else "") ++ " IN (") ::
          Piece.separated ", " (Piece.trees (value :: values)) ++ [.text ")"] := by
  rw [Outline.membership, hargs]
  exact ⟨rfl, rfl⟩

/-- The exchanged parts of an update are its table and its assignments. -/
theorem update_sides (s : Settings) {n : Node} (hshape : Shape.update n = []) :
    (Outline.update s n).late = [.below .tree (n.fields.get "table")] ∧
      (Outline.update s n).early = .text " " :: .text "SET" :: .text " " ::
        Piece.separated s.listSeparator ((Statement.assignments n).map Piece.assignment) := by
  rw [Outline.update, hshape]
  exact ⟨rfl, rfl⟩

theorem late_cases (s : Settings) (n : Node) (h : Handler) :
    (h.outline s n).late = [] ∨
      (h = .membership ∧ ∃ field value values, n.args = field :: value :: values) ∨
      (h = .update ∧ Shape.update n = []) := by
  by_cases hmembership : h = .membership
  · rw [hmembership, Handler.outline, Outline.membership]
    rcases hargs : n.args with _ | ⟨field, _ | ⟨value, values⟩⟩
    · exact Or.inl rfl
    · exact Or.inl rfl
    · exact Or.inr (Or.inl ⟨rfl, field, value, values, rfl⟩)
  · by_cases hupdate : h = .update
    · rw [hupdate, Handler.outline, Outline.update]
      cases hshape : Shape.update n with
      | nil => exact Or.inr (Or.inr ⟨rfl, rfl⟩)
      | cons issue rest => exact Or.inl rfl
    · exact Or.inl (late_eq_nil s n hmembership hupdate)

theorem not_text_of_recorded {b : Below} {p : Piece} {s : Sql} {recorded : List Value}
    (h : Gives (p.render b) (.ok s) recorded) (hne : recorded ≠ []) (t : String) : p ≠ .text t := by
  rintro rfl
  exact hne (h.unique (gives_pure _)).2

theorem binds_of_gives (r : Renderer) {place : Place} {v : Value} {s : Sql} {recorded : List Value}
    (h : Gives ((Piece.below place v).render r.operands) (.ok s) recorded) (hne : recorded ≠ []) :
    r.Binds place.request v := (r.binds_iff place v).mpr ⟨s, recorded, h, hne⟩

theorem recorded_of_binds (r : Renderer) (place : Place) {v : Value} {ps : List Piece} {s : Sql}
    {recorded : List Value} (hv : r.Binds place.request v) (hmem : .below place v ∈ ps)
    (h : Gives (Piece.renderAll r.operands ps) (.ok s) recorded) : recorded ≠ [] := by
  obtain ⟨t, bound, ht, hne⟩ := (r.binds_iff place v).mp hv
  obtain ⟨t', bound', ht', hsub⟩ := Piece.gives_of_mem r.steady_operands h hmem
  obtain ⟨-, rfl⟩ := Gives.unique ht ht'
  rintro rfl
  exact hne (List.subset_nil.mp hsub)

theorem mem_trees {vs : List Value} {p : Piece} {separator : String}
    (h : p ∈ Piece.separated separator (Piece.trees vs)) :
    (∃ t, p = .text t) ∨ ∃ v ∈ vs, p = .below .tree v := by
  refine Piece.forall_mem_separated (P := fun p => (∃ t, p = .text t) ∨ ∃ v ∈ vs, p = .below .tree v)
    (Or.inl ⟨separator, rfl⟩) (fun ps hps q hq => ?_) p h
  obtain ⟨v, hv, rfl⟩ := List.mem_map.mp hps
  exact Or.inr ⟨v, hv, List.mem_singleton.mp hq⟩

theorem mem_assignments {pairs : List (Value × Value)} {p : Piece} {separator : String}
    (h : p ∈ Piece.separated separator (pairs.map Piece.assignment)) :
    (∃ t, p = .text t) ∨ ∃ pair ∈ pairs, p = .below .tree pair.1 ∨ p = .below .tree pair.2 := by
  refine Piece.forall_mem_separated (P := fun p => (∃ t, p = .text t) ∨
    ∃ pair ∈ pairs, p = .below .tree pair.1 ∨ p = .below .tree pair.2)
    (Or.inl ⟨separator, rfl⟩) (fun ps hps q hq => ?_) p h
  obtain ⟨pair, hpair, rfl⟩ := List.mem_map.mp hps
  simp only [Piece.assignment, List.mem_cons, List.not_mem_nil, or_false] at hq
  rcases hq with rfl | rfl | rfl
  · exact Or.inr ⟨pair, hpair, Or.inl rfl⟩
  · exact Or.inl ⟨_, rfl⟩
  · exact Or.inr ⟨pair, hpair, Or.inr rfl⟩

/-- The early part of a membership test is made of texts and its values. -/
theorem mem_early_membership {n : Node} {field value : Value} {values : List Value} {p : Piece}
    (hargs : n.args = field :: value :: values) (hp : p ∈ (Outline.membership n).early) :
    (∃ t, p = .text t) ∨ ∃ v ∈ value :: values, p = .below .tree v := by
  rw [(membership_sides hargs).2] at hp
  simp only [List.cons_append, List.mem_cons, List.mem_append, List.not_mem_nil, or_false] at hp
  rcases hp with rfl | hp | rfl
  · exact Or.inl ⟨_, rfl⟩
  · exact mem_trees hp
  · exact Or.inl ⟨_, rfl⟩

/-- The early part of an update is made of texts and the sides of its assignments. -/
theorem mem_early_update {s : Settings} {n : Node} {p : Piece} (hshape : Shape.update n = [])
    (hp : p ∈ (Outline.update s n).early) :
    (∃ t, p = .text t) ∨
      ∃ pair ∈ Statement.assignments n, p = .below .tree pair.1 ∨ p = .below .tree pair.2 := by
  rw [(update_sides s hshape).2] at hp
  simp only [List.mem_cons] at hp
  rcases hp with rfl | rfl | rfl | hp
  · exact Or.inl ⟨_, rfl⟩
  · exact Or.inl ⟨_, rfl⟩
  · exact Or.inl ⟨_, rfl⟩
  · exact mem_assignments hp

/-- If both exchanged parts of an outline record literals, the node crosses. -/
theorem crosses_of_recorded (r : Renderer) {place : Place} {n : Node} {s₂ s₃ : Sql}
    {r₂ r₃ : List Value}
    (hlate : Gives (Piece.renderAll r.operands (r.outline place n).late) (.ok s₂) r₂)
    (hearly : Gives (Piece.renderAll r.operands (r.outline place n).early) (.ok s₃) r₃)
    (h₂ : r₂ ≠ []) (h₃ : r₃ ≠ []) : r.Crosses place n := by
  obtain ⟨p, hp, s, t, hst, ht⟩ := Piece.exists_mem_of_recorded r.steady_operands hlate h₂
  obtain ⟨p', hp', s', t', hst', ht'⟩ := Piece.exists_mem_of_recorded r.steady_operands hearly h₃
  have htext := not_text_of_recorded hst' ht'
  cases hlookup : (r.table place).lookup n.tag with
  | none =>
      rw [outline, hlookup] at hp
      cases hp
  | some handler =>
      rw [outline_eq hlookup] at hp hp'
      rcases late_cases r.settings n handler with hnil | ⟨rfl, field, value, values, hargs⟩ |
        ⟨rfl, hshape⟩
      · rw [hnil] at hp
        cases hp
      · rw [Handler.outline, (membership_sides hargs).1] at hp
        obtain rfl := List.mem_singleton.mp hp
        rcases mem_early_membership hargs hp' with ⟨t, rfl⟩ | ⟨side, hside, rfl⟩
        · exact absurd rfl (htext t)
        · exact .membership hlookup hargs hside (r.binds_of_gives hst ht) (r.binds_of_gives hst' ht')
      · rw [Handler.outline, (update_sides r.settings hshape).1] at hp
        obtain rfl := List.mem_singleton.mp hp
        have htable := r.binds_of_gives hst ht
        rcases mem_early_update hshape hp' with ⟨t, rfl⟩ | ⟨pair, hpair, rfl | rfl⟩
        · exact absurd rfl (htext t)
        · exact .update hlookup hshape hpair (Or.inl rfl) htable (r.binds_of_gives hst' ht')
        · exact .update hlookup hshape hpair (Or.inr rfl) htable (r.binds_of_gives hst' ht')

theorem mem_separated (separator : String) {ps : List Piece} {p : Piece} (hp : p ∈ ps) :
    ∀ {groups : List (List Piece)}, ps ∈ groups → p ∈ Piece.separated separator groups
  | [qs], h => by
      obtain rfl := List.mem_singleton.mp h
      exact hp
  | qs :: rs :: rest, h => by
      rw [Piece.separated_cons, List.mem_append]
      rcases List.mem_cons.mp h with rfl | h
      · exact Or.inl hp
      · exact Or.inr (List.mem_cons_of_mem _ (mem_separated separator hp h))

theorem Crosses.recorded {r : Renderer} {place : Place} {n : Node} (h : r.Crosses place n)
    {s₂ s₃ : Sql} {r₂ r₃ : List Value}
    (hlate : Gives (Piece.renderAll r.operands (r.outline place n).late) (.ok s₂) r₂)
    (hearly : Gives (Piece.renderAll r.operands (r.outline place n).early) (.ok s₃) r₃) :
    r₂ ≠ [] ∧ r₃ ≠ [] := by
  cases h with
  | @membership field value values hlookup hargs hvalue hfield hbinds =>
      obtain ⟨first, rest, rfl⟩ := List.exists_cons_of_ne_nil (List.ne_nil_of_mem hvalue)
      rw [outline_eq hlookup, Handler.outline, (membership_sides hargs).1] at hlate
      rw [outline_eq hlookup, Handler.outline, (membership_sides hargs).2] at hearly
      refine ⟨r.recorded_of_binds .condition hfield List.mem_cons_self hlate,
        r.recorded_of_binds .tree hbinds ?_ hearly⟩
      have hmem : Piece.below .tree value ∈ Piece.separated ", " (Piece.trees (first :: rest)) :=
        mem_separated ", " List.mem_cons_self (List.mem_map_of_mem hvalue)
      exact List.mem_append_left _ (List.mem_cons_of_mem _ hmem)
  | @update pair side hlookup hshape hpair hside htable hbinds =>
      rw [outline_eq hlookup, Handler.outline, (update_sides r.settings hshape).1] at hlate
      rw [outline_eq hlookup, Handler.outline, (update_sides r.settings hshape).2] at hearly
      refine ⟨r.recorded_of_binds .tree htable List.mem_cons_self hlate,
        r.recorded_of_binds .tree hbinds ?_ hearly⟩
      have hassigned : Piece.below .tree side ∈ Piece.assignment pair := by
        rcases hside with rfl | rfl <;> simp [Piece.assignment]
      have hmem := mem_separated r.settings.listSeparator hassigned (List.mem_map_of_mem hpair)
      exact List.mem_cons_of_mem _ (List.mem_cons_of_mem _ (List.mem_cons_of_mem _ hmem))

/-! ## The order of a result -/

/-- Without a node that crosses, a rendered node writes what it records. -/
theorem faithful_full (r : Renderer) {v : Value} {request : Request}
    (hcross : ∀ place n, r.Renders v request place n → ¬ r.Crosses place n) {place : Place}
    {n : Node} (hn : r.Renders v request place n) {sql : Sql} {recorded : List Value}
    (h : Gives (r.full place n) (.ok sql) recorded) : sql.literals = recorded := by
  induction place, n using r.node_induction generalizing sql recorded with
  | step place n ih =>
      have hpieces : ∀ p ∈ (r.outline place n).pieces, ∀ s t,
          Gives (p.render r.operands) (.ok s) t → s.literals = t := by
        intro p hp s t hst
        rcases r.gives_piece_inv hst with heq | ⟨q, w, m, rfl, hw, hm⟩
        · exact heq
        · exact ih q w m hp hw (.operand hn hp hw) hm
      obtain ⟨hlead, hlate, hearly, hrest⟩ := Outline.forall_mem_pieces.mp hpieces
      rw [full_eq] at h
      obtain ⟨s₁, r₁, s₂, r₂, s₃, r₃, s₄, r₄, h₁, h₂, h₃, h₄, rfl, rfl⟩ :=
        Outline.gives_inv r.steady_operands h
      obtain rfl := Piece.eq_renderAll r.steady_operands hlead h₁
      obtain rfl := Piece.eq_renderAll r.steady_operands hlate h₂
      obtain rfl := Piece.eq_renderAll r.steady_operands hearly h₃
      obtain rfl := Piece.eq_renderAll r.steady_operands hrest h₄
      have hswap : s₂.literals ++ s₃.literals = s₃.literals ++ s₂.literals := by
        by_cases hl : s₂.literals = []
        · rw [hl, List.nil_append, List.append_nil]
        · by_cases he : s₃.literals = []
          · rw [he, List.nil_append, List.append_nil]
          · exact absurd (r.crosses_of_recorded h₂ h₃ hl he) (hcross place n hn)
      simp only [Sql.literals_append, List.append_assoc]
      rw [← List.append_assoc s₂.literals, hswap, List.append_assoc]

/-- If the literals of a node come in the order recorded and are all different,
the node does not cross, and those of each piece come in order. -/
theorem faithful_inv (r : Renderer) {place : Place} {n : Node} {sql : Sql} {recorded : List Value}
    (h : Gives (r.full place n) (.ok sql) recorded) (heq : sql.literals = recorded)
    (hnodup : recorded.Nodup) :
    ¬ r.Crosses place n ∧ ∀ p ∈ (r.outline place n).pieces,
      ∃ s t, Gives (p.render r.operands) (.ok s) t ∧ s.literals = t ∧ t.Nodup := by
  have hb := r.steady_operands
  have hperm : ∀ ps : List Piece, ∀ p ∈ ps, ∀ s t, Gives (p.render r.operands) (.ok s) t →
      s.literals.Perm t := fun _ _ _ _ _ hst => r.perm_piece hst
  rw [full_eq] at h
  obtain ⟨s₁, r₁, s₂, r₂, s₃, r₃, s₄, r₄, h₁, h₂, h₃, h₄, rfl, rfl⟩ := Outline.gives_inv hb h
  have p₁ := Piece.perm_renderAll hb (hperm _) h₁
  have p₂ := Piece.perm_renderAll hb (hperm _) h₂
  have p₃ := Piece.perm_renderAll hb (hperm _) h₃
  simp only [Sql.literals_append, List.append_assoc] at heq hnodup
  obtain ⟨heq₁, heq⟩ := append_inj_of_perm heq p₁
  rw [← List.append_assoc, ← List.append_assoc r₃] at heq
  obtain ⟨hmid, heq₄⟩ :=
    append_inj_of_perm heq ((p₂.append p₃).trans List.perm_append_comm)
  obtain ⟨hnodup₁, hnodup, -⟩ := List.nodup_append.mp hnodup
  rw [← List.append_assoc] at hnodup
  obtain ⟨hnodup', hnodup₄, -⟩ := List.nodup_append.mp hnodup
  obtain ⟨hnodup₃, hnodup₂, -⟩ := List.nodup_append.mp hnodup'
  have hempty := eq_nil_or_eq_nil_of_swap hmid p₂ hnodup'
  have hparts : s₂.literals = r₂ ∧ s₃.literals = r₃ := by
    rcases hempty with rfl | rfl
    · have hs₂ : s₂.literals = [] := p₂.eq_nil
      rw [hs₂, List.nil_append, List.append_nil] at hmid
      exact ⟨hs₂, hmid⟩
    · have hs₃ : s₃.literals = [] := p₃.eq_nil
      rw [hs₃, List.nil_append, List.append_nil] at hmid
      exact ⟨hmid, hs₃⟩
  refine ⟨fun hcross => ?_, ?_⟩
  · obtain ⟨hne₂, hne₃⟩ := hcross.recorded h₂ h₃
    rcases hempty with hnil | hnil
    · exact hne₂ hnil
    · exact hne₃ hnil
  · exact Outline.forall_mem_pieces.mpr
      ⟨fun p => Piece.faithful_of_mem hb (hperm _) h₁ heq₁ hnodup₁,
        fun p => Piece.faithful_of_mem hb (hperm _) h₂ hparts.1 hnodup₂,
        fun p => Piece.faithful_of_mem hb (hperm _) h₃ hparts.2 hnodup₃,
        fun p => Piece.faithful_of_mem hb (hperm _) h₄ heq₄ hnodup₄⟩

/-- If the literals of a text come in the order recorded and are all different,
so it is for every node that is rendered. -/
theorem Renders.faithful {r : Renderer} {v : Value} {request : Request} {sql : Sql}
    {recorded : List Value} (h : Gives (r.perform v request) (.ok sql) recorded)
    (heq : sql.literals = recorded) (hnodup : recorded.Nodup) {place : Place} {n : Node}
    (hn : r.Renders v request place n) :
    ∃ s t, Gives (r.full place n) (.ok s) t ∧ s.literals = t ∧ t.Nodup := by
  have hbelow : ∀ {q : Place} {w : Value} {m : Node}, Node.ofValue w = .ok m →
      (∃ s t, Gives ((Piece.below q w).render r.operands) (.ok s) t ∧ s.literals = t ∧ t.Nodup) →
        ∃ s t, Gives (r.full q m) (.ok s) t ∧ s.literals = t ∧ t.Nodup := by
    intro q w m hw hpiece
    rw [Piece.render_below, r.operands_at_ok q hw] at hpiece
    exact hpiece
  induction hn with
  | asked hp hw =>
      rw [perform_eq] at h
      exact hbelow hw (Piece.faithful_of_mem r.steady_operands
        (fun _ _ _ _ hst => r.perm_piece hst) h heq hnodup hp)
  | operand _ hp hw ih =>
      obtain ⟨s, t, hst, heq', hnodup'⟩ := ih
      exact hbelow hw ((r.faithful_inv hst heq' hnodup').2 _ hp)

theorem perm_perform (r : Renderer) {v : Value} {request : Request} {sql : Sql}
    {recorded : List Value} (h : Gives (r.perform v request) (.ok sql) recorded) :
    sql.literals.Perm recorded := by
  rw [perform_eq] at h
  exact Piece.perm_renderAll r.steady_operands (fun _ _ _ _ hst => r.perm_piece hst) h

/-- The literals of the text, read from left to right, are the bound literals up
to their order.  They come in the order of the result if no node crosses that is
rendered, and if they are all different, only then. -/
theorem binds_in_order (r : Renderer) (v : Value) (request : Request) {sql : Sql}
    {binds : List Value} (h : (r.perform v request).outcome [] = (.ok sql, binds)) :
    sql.literals.Perm binds ∧
      ((∀ place n, r.Renders v request place n → ¬ r.Crosses place n) → sql.literals = binds) ∧
      (binds.Nodup → sql.literals = binds →
        ∀ place n, r.Renders v request place n → ¬ r.Crosses place n) := by
  obtain ⟨recorded, rfl, hgives⟩ := (r.regular_perform v request).gives h
  refine ⟨r.perm_perform hgives, fun hcross => ?_, fun hnodup heq place n hn => ?_⟩
  · have hpieces := hgives
    rw [perform_eq] at hpieces
    refine Piece.eq_renderAll r.steady_operands (fun p hp s t hst => ?_) hpieces
    rcases r.gives_piece_inv hst with heq | ⟨q, w, m, rfl, hw, hm⟩
    · exact heq
    · exact r.faithful_full hcross (.asked hp hw) hm
  · obtain ⟨s, t, hst, heq', hnodup'⟩ := hn.faithful hgives heq hnodup
    exact (r.faithful_inv hst heq' hnodup').1

/-- A membership test of one literal in another crosses. -/
theorem binds_in_order_membership :
    ∃ place n, (Renderer.of {} none none).Renders
        (.list [.str "-in", .list [.str "-value", .int 1], .list [.str "-value", .int 2]])
        .expression place n ∧
      (Renderer.of {} none none).Crosses place n := by
  refine Classical.byContradiction fun hno => ?_
  have hcross := fun place n hn hc => hno ⟨place, n, hn, hc⟩
  have hrendered : ((Renderer.of {} none none).perform
      (.list [.str "-in", .list [.str "-value", .int 1], .list [.str "-value", .int 2]])
      .expression).outcome [] =
        (.ok [.placeholder (.int 1), .text " IN (", .placeholder (.int 2), .text ")"],
          [.int 2, .int 1]) := rfl
  have heq := (binds_in_order _ _ _ hrendered).2.1 hcross
  have hlists : [Value.int 1, Value.int 2] = [.int 2, .int 1] := heq
  simp at hlists

/-- The literals of a membership test and of an update may come in another order
than those of their texts. -/
theorem binds_out_of_order :
    (∃ sql binds, ((Renderer.of {} none none).perform
        (.list [.str "-in", .list [.str "-value", .int 1], .list [.str "-value", .int 2]])
        .expression).outcome [] = (.ok sql, binds) ∧ sql.literals ≠ binds) ∧
    ∃ sql binds, ((Renderer.of {} none none).perform
        (.map [(.str "table", .list [.str "-alias", .list [.str "-value", .int 1], .str "t"]),
          (.str "set", .list [.list [.list [.str "-name", .str "a"],
            .list [.str "-value", .int 2]]])])
        .update).outcome [] = (.ok sql, binds) ∧ sql.literals ≠ binds := by
  refine ⟨⟨[.placeholder (.int 1), .text " IN (", .placeholder (.int 2), .text ")"],
    [.int 2, .int 1], rfl, ?_⟩,
    ⟨[.text "UPDATE", .text " ", .placeholder (.int 1), .text " AS t", .text " ", .text "SET",
      .text " ", .text "a", .text " = ", .placeholder (.int 2)], [.int 2, .int 1], rfl, ?_⟩⟩
  · simp [Sql.literals]
  · simp [Sql.literals]

end Renderer

end QueryTree
