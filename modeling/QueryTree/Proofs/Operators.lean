import Mathlib.Data.List.Perm.Subperm
import QueryTree.Proofs.Refusal
import QueryTree.Proofs.Table
import QueryTree.Proofs.Template

/-!
# Operators in the table and in the settings

An operator is known in two ways.  The table of conditions has a comparison under it,
and the settings have its token.  The table is derived from the settings, or it is the
built-in one, which a renderer shares if the settings have the built-in tokens in any
order (`Renderer.sharesConditions`).

*Keys.*  Settings that are obtained have one token for each operator
(`Settings.Obtained.nodup_operators`).  So tokens that are those of another map have
the same operators (`Renderer.mem_keys_of_sameEntries`), and the shared table and a
derived one find the same handlers (`Renderer.lookup_conditions`).

*Errors.*  Only a comparison stops for want of a token, and it names the tag of its
node (`Handler.mem_outline`).

The main statement is `Renderer.operators_agree`: the comparisons of the table are the
operators with a token, so no operator is found without one.
-/

namespace QueryTree

namespace Settings

/-! ## One token for each operator -/

theorem nodup_withEntry {α : Type} {entries : List (String × α)}
    (h : (entries.map (·.1)).Nodup) (e : String × α) :
    ((withEntry entries e).map (·.1)).Nodup := by
  rw [withEntry]
  split
  · have hkeys : (entries.map fun old => if old.1 = e.1 then e else old).map (·.1) =
        entries.map (·.1) := by
      rw [List.map_map]
      refine List.map_congr_left fun old _ => ?_
      rw [Function.comp]
      split
      · next heq => exact heq.symm
      · rfl
    rw [hkeys]
    exact h
  · next hnew =>
      rw [List.map_append]
      refine List.nodup_append.mpr ⟨h, List.pairwise_singleton _ _, ?_⟩
      rintro key hkey _ hlast rfl
      obtain ⟨old, hold, rfl⟩ := List.mem_map.mp hkey
      refine hnew (List.lookup_isSome_iff.mpr ⟨old, hold, ?_⟩)
      rw [List.mem_singleton.mp hlast]
      exact beq_self_eq_true e.1

theorem nodup_of_textMap {α : Type} {check : List String → Value → Checked α}
    {path : List String} {v : Value} {entries : List (String × α)}
    (h : textMap check path v = .valid entries) : (entries.map (·.1)).Nodup := by
  have hfold : ∀ (new done : List (String × α)), (done.map (·.1)).Nodup →
      ((new.foldl withEntry done).map (·.1)).Nodup := by
    intro new
    induction new with
    | nil => exact fun done hdone => hdone
    | cons e rest ih => exact fun done hdone => ih _ (nodup_withEntry hdone e)
  cases v with
  | map found =>
      obtain ⟨new, -, rfl⟩ := Checked.map_valid h
      exact hfold new [] List.nodup_nil
  | _ => cases h

/-- Each operator of obtained settings has one token. -/
theorem Obtained.nodup_operators {s : Settings} (h : Obtained s) :
    (s.operators.map (·.1)).Nodup := by
  induction h with
  | loaded h =>
      obtain ⟨fields, hread⟩ := readFrom_of_load h
      have hoperators := hread.operators
      rw [field] at hoperators
      split at hoperators
      · exact nodup_of_textMap hoperators
      · rw [← Checked.valid.inj hoperators]
        decide
  | adapted _ h ih =>
      obtain ⟨d, rfl⟩ := settingsFor_eq h
      exact ih

theorem lookup_operators_eq_none_iff (s : Settings) (op : String) :
    s.operators.lookup op = none ↔ op ∉ s.operators.map (·.1) := by
  rw [List.lookup_eq_none_iff, List.mem_map]
  constructor
  · rintro hnone ⟨e, he, rfl⟩
    simpa using hnone e he
  · intro hmem e he
    rw [bne_iff_ne]
    rintro rfl
    exact hmem ⟨e, he, rfl⟩

end Settings

namespace Renderer

/-! ## The table of conditions -/

/-- Maps with the same entries have the same keys. -/
theorem mem_keys_of_sameEntries {xs ys : List (String × String)} (hxs : (xs.map (·.1)).Nodup)
    (h : sameEntries xs ys = true) (key : String) : key ∈ xs.map (·.1) ↔ key ∈ ys.map (·.1) := by
  obtain ⟨hlength, hentries⟩ := (Bool.and_eq_true _ _).mp h
  have hsubset : xs.map (·.1) ⊆ ys.map (·.1) := by
    intro k hk
    obtain ⟨e, he, rfl⟩ := List.mem_map.mp hk
    have hlookup : ys.lookup e.1 = some e.2 := by
      simpa using List.all_eq_true.mp hentries e he
    obtain ⟨before, after, rfl, -⟩ := List.lookup_eq_some_iff.mp hlookup
    simp
  have hle : (ys.map (·.1)).length ≤ (xs.map (·.1)).length := by
    rw [List.length_map, List.length_map]
    exact Nat.le_of_eq (eq_of_beq hlength).symm
  exact ((List.subperm_of_subset hxs hsubset).perm_of_length_le hle).mem_iff

/-- The handler of a tag among conditions, whether the table is shared or derived. -/
theorem lookup_conditions {s : Settings} (hs : s.Obtained) (generic? : Option Table)
    (tag : String) :
    (of s generic? none).conditions.lookup tag =
      if tag ∈ s.operators.map (·.1) then some .comparison
      else (Table.fixed? tag).or ((generic?.getD .generic).lookup tag) := by
  rw [of]
  cases generic? with
  | some generic => exact Table.lookup_withConditions generic _ tag
  | none =>
      rw [Option.isNone_none, Bool.true_and, Option.getD_none, Option.getD_none]
      cases hshares : sharesConditions s with
      | false => exact Table.lookup_withConditions Table.generic _ tag
      | true =>
          have hkeys := mem_keys_of_sameEntries hs.nodup_operators hshares tag
          rw [if_pos rfl, Table.conditions, Table.lookup_withConditions]
          exact if_congr hkeys.symm rfl rfl

/-- No comparison is fixed for a tag. -/
theorem fixed?_ne_comparison (tag : String) : Table.fixed? tag ≠ some .comparison := by
  simp [Table.fixed?, Table.conditionLayer, Table.ofKeywords, Table.lastIn]

/-- The comparisons among conditions are the operators, if the table of trees has none. -/
theorem lookup_conditions_eq_comparison_iff {s : Settings} (hs : s.Obtained)
    {generic? : Option Table}
    (hgeneric : ∀ tag, (generic?.getD .generic).lookup tag ≠ some .comparison) (tag : String) :
    (of s generic? none).conditions.lookup tag = some .comparison ↔
      tag ∈ s.operators.map (·.1) := by
  rw [lookup_conditions hs]
  split
  · next hmem => exact iff_of_true rfl hmem
  · next hmem =>
      refine iff_of_false ?_ hmem
      intro hor
      rcases Option.or_eq_some_iff.mp hor with hfixed | ⟨-, hlookup⟩
      · exact fixed?_ne_comparison tag hfixed
      · exact hgeneric tag hlookup

/-! ## Operators without a token -/

/-- An operator without a token is found as a comparison in one of the tables. -/
theorem Stops.lookup_eq_comparison {r : Renderer} {op : String}
    (h : r.Stops (.unmappedOperator op)) :
    r.settings.operators.lookup op = none ∧
      ∃ place, (r.table place).lookup op = some .comparison := by
  cases h with
  | @outline place n _ hstop =>
      rw [Renderer.outline] at hstop
      cases hlookup : (r.table place).lookup n.tag with
      | none =>
          rw [hlookup] at hstop
          have heq := Piece.stop.inj (List.mem_singleton.mp hstop)
          rw [Place.unknown] at heq
          split at heq <;> cases heq
      | some handler =>
          rw [hlookup] at hstop
          rcases Handler.mem_outline hstop with hmade | ⟨rfl, heq, hnone⟩
          · cases hmade with
            | stop habout => exact habout.elim
          · obtain rfl := RenderError.unmappedOperator.inj (Piece.stop.inj heq)
            exact ⟨hnone, place, hlookup⟩
  | asked hstop => exact (r.aboutOperands_of_mem_pieces hstop).elim

/-! ## Comparisons -/

/-- A comparison fills a template of its operands and its token. -/
theorem perform_comparison {r : Renderer} {v : Value} {n : Node} {lhs rhs : Value}
    {token : String} (hn : Node.ofValue v = .ok n) (hargs : n.args = [lhs, rhs])
    (hlookup : r.conditions.lookup n.tag = some .comparison)
    (htoken : r.settings.operators.lookup n.tag = some token) :
    r.perform v .expression = r.fill
      [.clause .expression lhs, .text (" " ++ token ++ " "), .clause .expression rhs] := by
  have hoperand : ∀ w, r.perform w .expression = r.operands.condition w :=
    r.perform_place .condition
  have hnode : r.perform v .expression = r.full .condition n := r.perform_node .condition hn
  have htable : (r.table .condition).lookup n.tag = some .comparison := hlookup
  rw [hnode, r.full_eq_render htable, Handler.render_eq_outline, Handler.outline,
    Outline.comparison, hargs]
  simp only [htoken, Outline.render_straight, Piece.renderAll_cons, Piece.render_below,
    Piece.render_text, fill_cons, Slot.rendering, hoperand]
  rfl

/-- Operands that are rendered on their own, with the token between them. -/
theorem render_comparison {r : Renderer} {v : Value} {n : Node} {lhs rhs : Value}
    {token : String} {left right : Result} (hn : Node.ofValue v = .ok n)
    (hargs : n.args = [lhs, rhs]) (hlookup : r.conditions.lookup n.tag = some .comparison)
    (htoken : r.settings.operators.lookup n.tag = some token)
    (hleft : r.render .expression lhs = .ok left) (hright : r.render .expression rhs = .ok right) :
    r.render .expression v =
      .ok ⟨left.sql ++ " " ++ token ++ " " ++ right.sql, left.binds ++ right.binds⟩ := by
  rw [render, perform_comparison hn hargs hlookup htoken, result_fill_iff]
  refine ⟨[left, ⟨" " ++ token ++ " ", []⟩, right], ?_, ?_⟩
  · exact .cons (.clause hleft) (.cons (.text _) (.cons (.clause hright) .nil))
  · simp [Result.joined, String.join, String.append_assoc]

/-- A bare word without a handler is refused as an operator. -/
theorem render_unknown_operator {r : Renderer} {v : Value} {n : Node}
    (hn : Node.ofValue v = .ok n) (hbare : isOperation n.tag = false)
    (hlookup : r.conditions.lookup n.tag = none) :
    r.render .expression v = .error (.unknownOperator n.tag) := by
  have htable : (r.table .condition).lookup n.tag = none := hlookup
  have hunknown : Place.condition.unknown n.tag = .unknownOperator n.tag := by
    rw [Place.unknown, hbare, if_neg Bool.false_ne_true]
  have hnode : r.perform v .expression = r.full .condition n := r.perform_node .condition hn
  have hperform : r.perform v .expression = Rendering.fail (.unknownOperator n.tag) := by
    rw [hnode, full_eq, outline, htable, hunknown]
    exact Outline.render_stop _ _
  rw [render, hperform]
  rfl

/-! ## The table and the settings agree -/

/-- Let settings be obtained, and let the table of trees have no comparison.  Then the
comparisons among conditions are the operators that have a token.  So no request fails
for want of a token; an operator with two operands is rendered as its operands with its
token between them; and a bare word that is neither an operator nor a tag of the table
of trees is refused as an operator. -/
theorem operators_agree {s : Settings} (hs : s.Obtained) {generic? : Option Table}
    (hgeneric : ∀ tag, (generic?.getD .generic).lookup tag ≠ some .comparison) :
    (∀ tag, (of s generic? none).conditions.lookup tag = some .comparison ↔
        (s.operators.lookup tag).isSome) ∧
      (∀ request v op, (of s generic? none).render request v ≠ .error (.unmappedOperator op)) ∧
      (∀ v n lhs rhs token left right, Node.ofValue v = .ok n → n.args = [lhs, rhs] →
        s.operators.lookup n.tag = some token →
        (of s generic? none).render .expression lhs = .ok left →
        (of s generic? none).render .expression rhs = .ok right →
          (of s generic? none).render .expression v =
            .ok ⟨left.sql ++ " " ++ token ++ " " ++ right.sql, left.binds ++ right.binds⟩) ∧
      (∀ v n, Node.ofValue v = .ok n → isOperation n.tag = false →
        s.operators.lookup n.tag = none → (of s generic? none).generic.lookup n.tag = none →
          (of s generic? none).render .expression v = .error (.unknownOperator n.tag)) := by
  have hcomparison : ∀ tag, (of s generic? none).conditions.lookup tag = some .comparison ↔
      (s.operators.lookup tag).isSome := by
    intro tag
    rw [lookup_conditions_eq_comparison_iff hs hgeneric, ← Option.ne_none_iff_isSome, Ne,
      s.lookup_operators_eq_none_iff, not_not]
  refine ⟨hcomparison, ?_, ?_, ?_⟩
  · intro request v op h
    obtain ⟨hnone, place, hlookup⟩ := (stops_of_render_error h).lookup_eq_comparison
    cases place with
    | tree => exact hgeneric op hlookup
    | condition =>
        have hunmapped : s.operators.lookup op = none := hnone
        have hsome := (hcomparison op).mp hlookup
        rw [hunmapped] at hsome
        cases hsome
  · intro v n lhs rhs token left right hn hargs htoken hleft hright
    have hlookup := (hcomparison n.tag).mpr (Option.isSome_of_mem htoken)
    exact render_comparison hn hargs hlookup htoken hleft hright
  · intro v n hn hbare hoperator htree
    refine render_unknown_operator hn hbare ?_
    have hfixed : Table.fixed? n.tag = none := by
      cases hfixed : Table.fixed? n.tag with
      | none => rfl
      | some handler =>
          rw [Table.isOperation_of_fixed? hfixed] at hbare
          cases hbare
    rw [lookup_conditions hs, if_neg (s.lookup_operators_eq_none_iff n.tag |>.mp hoperator),
      hfixed, Option.none_or]
    exact htree

/-- An operator of its own, and a word that is none. -/
theorem operators_agree_matches :
    ∃ s, Settings.load [] [(.str "binop_mapping", .map [(.str "matches", .str "~")])] = .ok s ∧
      (of s none none).render .expression
          (.list [.str "matches", .list [.str "-name", .str "a"], .list [.str "-value", .int 1]]) =
        .ok ⟨"a ~ ?", [.int 1]⟩ ∧
      (of s none none).render .expression (.list [.str "=", .null, .null]) =
        .error (.unknownOperator "=") ∧
      ∀ request v op, (of s none none).render request v ≠ .error (.unmappedOperator op) := by
  have hload : Settings.load [] [(.str "binop_mapping", .map [(.str "matches", .str "~")])] =
      .ok { operators := [("matches", "~")] } := rfl
  have hgeneric : ∀ tag, Table.generic.lookup tag ≠ some .comparison := by
    intro tag hlookup
    have hentries : ∀ e ∈ Table.generic.entries, e.2 ≠ .comparison := by decide
    obtain ⟨e, he, -, heq⟩ := Table.exists_of_lookup hlookup
    exact hentries e he heq
  obtain ⟨-, hmapped, hcomparison, hunknown⟩ :=
    @operators_agree { operators := [("matches", "~")] } (.loaded hload) none hgeneric
  exact ⟨_, hload, hcomparison _ _ _ _ "~" ⟨"a", []⟩ ⟨"?", [.int 1]⟩ rfl rfl rfl rfl rfl,
    hunknown _ ⟨"=", [.null, .null], []⟩ rfl rfl rfl rfl, hmapped⟩

end Renderer

end QueryTree
