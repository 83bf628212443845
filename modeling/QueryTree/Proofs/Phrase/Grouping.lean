import QueryTree.Builder
import QueryTree.Proofs.Phrase.Reading
import QueryTree.Proofs.Phrase.Rendering

/-!
# What the text says about grouping

Whatever stands for a phrase is rendered, and two of them have one result exactly if
they have the same lexemes and the same literals (`Renderer.render_eq_iff`).

No parentheses show how comparisons and selects are nested.  So a tree may have the
text of another tree (`Renderer.render_regrouped`, `Renderer.regrouped_alike`).  But
trees of determined phrases have one result only if the phrases are the same
(`Renderer.grouping_kept`).
-/

namespace QueryTree

open Phrase Rendering

namespace Renderer

variable {request request' : Request} {v w : Value} {p q : Phrase}

/-- What stands for a phrase is rendered as the text of its lexemes, with its
literals. -/
theorem render_asked (h : Asked request v p) :
    ∃ sql, quoting.render request v = .ok ⟨sql, p.binds⟩ ∧ sql.toList = chars p.lexemes := by
  have hwrites : Writes (quoting.perform v request) (chars p.lexemes) p.binds := by
    rw [perform_eq]
    cases h with
    | expression hv => exact writes_stands hv
    | tree hv => exact writes_stands hv
    | @select v n p hv htag hn =>
        have hpiece : statementPiece .select v = .below .tree n.toValue := by
          rw [statementPiece, hv]
          exact if_pos htag
        rw [pieces, hpiece]
        exact Piece.writes_single (writes_below rfl (writes_node hn))
  obtain ⟨sql, hgives, hchars⟩ := hwrites
  refine ⟨sql.write quoting.settings.placeholder, ?_, sql.toList_write.trans hchars⟩
  rw [render, result, hgives []]
  rfl

/-- Two phrases have one result exactly if they have the same lexemes and the same
literals. -/
theorem render_eq_iff (hv : Asked request v p) (hw : Asked request' w q) :
    quoting.render request v = quoting.render request' w ↔
      p.lexemes = q.lexemes ∧ p.binds = q.binds := by
  obtain ⟨sql, hp, hsql⟩ := render_asked hv
  obtain ⟨sql', hq, hsql'⟩ := render_asked hw
  rw [hp, hq]
  constructor
  · intro h
    obtain ⟨rfl, hbinds⟩ := Result.mk.inj (Except.ok.inj h)
    exact ⟨lexemes_eq_of_chars_eq (hsql.symm.trans hsql'), hbinds⟩
  · rintro ⟨hlexemes, hbinds⟩
    have htext : sql = sql' := String.toList_inj.mp (by rw [hsql, hsql', hlexemes])
    rw [htext, hbinds]

/-! ## Text shared by several trees -/

/-- A comparison on the left of another one is rendered like one on its right. -/
theorem render_regrouped {c d : Comparator} {l m r : Phrase}
    (hv : Asked request v (.comparison d (.comparison c l m) r))
    (hw : Asked request' w (.comparison c l (.comparison d m r))) :
    quoting.render request v = quoting.render request' w := by
  rw [render_eq_iff hv hw]
  simp [lexemes, binds]

/-- Different expressions with one result. -/
def Regrouped (v w : Value) : Prop :=
  v ≠ w ∧ ∃ result, quoting.render .expression v = .ok result ∧
    quoting.render .expression w = .ok result

/-- Whether two expressions have one text, without literals. -/
def sameText (v w : Value) : Bool :=
  match quoting.render .expression v, quoting.render .expression w with
  | .ok ⟨sql, []⟩, .ok ⟨sql', []⟩ => sql = sql'
  | _, _ => false

/-- Two comparisons are regrouped, whatever their operands. -/
theorem regrouped_comparisons {c d : Comparator} {l m r : Phrase} (hne : v ≠ w)
    (hv : Asked .expression v (.comparison d (.comparison c l m) r))
    (hw : Asked .expression w (.comparison c l (.comparison d m r))) : Regrouped v w := by
  obtain ⟨sql, hok, -⟩ := render_asked hv
  exact ⟨hne, _, hok, (render_regrouped hv hw).symm.trans hok⟩

theorem regrouped_of_sameText (hne : v ≠ w) (h : sameText v w) : Regrouped v w := by
  refine ⟨hne, ?_⟩
  rw [sameText] at h
  split at h
  case h_1 sql sql' hv hw =>
    obtain rfl : sql = sql' := of_decide_eq_true h
    exact ⟨_, hv, hw⟩
  case h_2 => contradiction

/-- A comparison on the left or on the right of another one, a membership test on the
right of a comparison, a comparison with a select or in its conditions, conditions of
a select inside or outside, an alias of a select or of its source, an alias that looks
like two, an expression after a grouping or in it, a table after a select or in its
source, and a list in a list. -/
theorem regrouped_alike :
    let a := Tree.name [.str "a"]
    let b := Tree.name [.str "b"]
    let plain : SelectBuilder := { columns := [a], source := b }
    let restricted := plain.restrict [Tree.equal a b]
    Regrouped (Tree.equal (Tree.equal a b) a) (Tree.equal a (Tree.equal b a)) ∧
      Regrouped (Tree.isIn (Tree.equal a b) [a]) (Tree.equal a (Tree.isIn b [a])) ∧
      Regrouped (Tree.equal restricted.build a)
        (plain.restrict [Tree.equal (Tree.equal a b) a]).build ∧
      Regrouped (restricted.fromTable (Tree.list [plain.build])).build
        (plain.fromTable (Tree.list [restricted.build])).build ∧
      Regrouped (Tree.aliased plain.build (.str "x"))
        (plain.fromTable (Tree.aliased b (.str "x"))).build ∧
      Regrouped (Tree.aliased b (.str "x AS y"))
        (Tree.aliased (Tree.aliased b (.str "x")) (.str "y")) ∧
      Regrouped (Tree.isIn a [Tree.list [(plain.groupBy [a]).build, b]])
        (Tree.isIn a [(plain.groupBy [a, b]).build]) ∧
      Regrouped (Tree.isIn a [Tree.list [plain.build, b]])
        (Tree.isIn a [(plain.fromTable (Tree.list [b, b])).build]) ∧
      Regrouped (Tree.isIn a [Tree.list [a, Tree.list [b, a]]])
        (Tree.isIn a [Tree.list [a, b, a]]) := by
  intro a b plain restricted
  have ha : Stands .condition a (.name ⟨["a"], by decide, by decide⟩) :=
    .condition rfl (.name _ _ rfl rfl)
  have hb : Stands .condition b (.name ⟨["b"], by decide, by decide⟩) :=
    .condition rfl (.name _ _ rfl rfl)
  have hequal {v w : Value} {p q : Phrase} (hv : Stands .condition v p) (hw : Stands .condition w q) :
      Stands .condition (Tree.equal v w) (.comparison .equal p q) :=
    .condition rfl (.comparison rfl rfl hv hw)
  refine ⟨?_, ?_, ?_, ?_, ?_, ?_, ?_, ?_, ?_⟩
  · refine regrouped_comparisons ?_ (.expression (hequal (hequal ha hb) ha))
      (.expression (hequal ha (hequal hb ha)))
    simp [a, b, Tree.equal, Tree.binary, Tree.name, Tree.tagged, Keyword.tag]
  -- in the other pairs a part of another kind is regrouped, so each text is looked at
  all_goals
    refine regrouped_of_sameText ?_ (by decide +kernel)
    simp [a, b, plain, restricted, Tree.equal, Tree.binary, Tree.isIn, Tree.aliased, Tree.list,
      Tree.name, Tree.tagged, Keyword.tag, SelectBuilder.build, SelectBuilder.restrict,
      SelectBuilder.fromTable, SelectBuilder.groupBy, SelectBuilder.listEntry]

/-! ## Text of a determined phrase -/

/-- Whatever stands for a phrase is rendered.  Two phrases have one result exactly if
they have the same lexemes and the same literals, and determined phrases only if they
are the same. -/
theorem grouping_kept {request request' : Request} {v w : Value} {p q : Phrase}
    (hv : Asked request v p) (hw : Asked request' w q) :
    (∃ result, quoting.render request v = .ok result) ∧
      (quoting.render request v = quoting.render request' w ↔
        p.lexemes = q.lexemes ∧ p.binds = q.binds) ∧
      (Determined .condition p → Determined .condition q →
        quoting.render request v = quoting.render request' w → p = q) := by
  refine ⟨?_, render_eq_iff hv hw, fun hp hq h => ?_⟩
  · obtain ⟨sql, hok, -⟩ := render_asked hv
    exact ⟨_, hok⟩
  · obtain ⟨hlexemes, hbinds⟩ := (render_eq_iff hv hw).mp h
    exact hp.eq_of_lexemes_eq hq hlexemes hbinds

/-- Two comparisons tested for being in a select with conditions: both tests are
determined, and they have different results. -/
theorem grouping_kept_nested :
    let a : Name := ⟨["a"], by decide, by decide⟩
    let b : Name := ⟨["b"], by decide, by decide⟩
    let ab : Phrase := .comparison .equal (.name a) (.name b)
    let ba : Phrase := .comparison .equal (.name b) (.name a)
    let tested (p : Phrase) : Phrase :=
      .membership false p [.clause (.select [.name a] (.name b)) .conditions [ab]]
    let abTree := Tree.equal (Tree.name [.str "a"]) (Tree.name [.str "b"])
    let baTree := Tree.equal (Tree.name [.str "b"]) (Tree.name [.str "a"])
    let select : SelectBuilder := { columns := [Tree.name [.str "a"]], source := Tree.name [.str "b"] }
    let testedTree (v : Value) : Value := Tree.isIn v [(select.restrict [abTree]).build]
    Asked .expression (testedTree abTree) (tested ab) ∧
      Asked .expression (testedTree baTree) (tested ba) ∧
      Determined .condition (tested ab) ∧ Determined .condition (tested ba) ∧
      quoting.render .expression (testedTree abTree) ≠
        quoting.render .expression (testedTree baTree) := by
  intro a b ab ba tested abTree baTree select testedTree
  have ha (place : Place) : NodeStands place ⟨"-name", [.str "a"], []⟩ (.name a) :=
    .name place a rfl rfl
  have hb (place : Place) : NodeStands place ⟨"-name", [.str "b"], []⟩ (.name b) :=
    .name place b rfl rfl
  have hab : Stands .condition abTree ab :=
    .condition rfl (.comparison rfl rfl (.condition rfl (ha _)) (.condition rfl (hb _)))
  have hba : Stands .condition baTree ba :=
    .condition rfl (.comparison rfl rfl (.condition rfl (hb _)) (.condition rfl (ha _)))
  have hasked {v : Value} {p : Phrase} (hv : Stands .condition v p) :
      Asked .expression (testedTree v) (tested p) := by
    refine .expression (.condition rfl (.membership rfl rfl hv (.cons (.term rfl ?_) (.nil _))))
    refine .select _ rfl rfl ⟨_, rfl, rfl, rfl⟩ (.cons (.term rfl (ha _)) (.nil _))
      (.term rfl (hb _)) (.absent _) ?_ (.absent _ _) (.absent _ _)
    have hconjoined : Conjoined (.list [abTree]) [abTree] := rfl
    exact .present _ hconjoined (.cons hab (.nil _))
  have hequal (m n : Name) : Determined .condition (.comparison .equal (.name m) (.name n)) :=
    .comparison (.name _ m) rfl (.name _ n)
  have hdetermined {p : Phrase} (hp : Determined .condition p)
      (hfree : p.takes (.word (.membership false)) = false) : Determined .condition (tested p) :=
    .membership hp hfree (.last (.clause _ (.select _ (.last (.name _ a)) (.name _ b)) rfl rfl
      (.last (hequal a b))))
  refine ⟨hasked hab, hasked hba, hdetermined (hequal a b) rfl, hdetermined (hequal b a) rfl,
    fun h => ?_⟩
  have hsame : tested ab = tested ba := (grouping_kept (hasked hab) (hasked hba)).2.2
    (hdetermined (hequal a b) rfl) (hdetermined (hequal b a) rfl) h
  simp [tested, ab, ba, a, b] at hsame

end Renderer

end QueryTree
