import QueryTree.Proofs.Budget

/-!
# Look-up in layered tables

The handler of a tag in a table with a layer on top is the one the layer last gives
the tag, or else the one the table had (`Table.lookup_layered`).  Tables of entries
and what is derived from them hold each tag once (`Table.Distinct`), so it does not
matter from which end such a table is searched.

A table of conditions is derived by a layer of two parts (`Table.withConditions`).
The later part has a comparison for each operator.  The earlier part has six tags
with handlers of their own (`Table.fixed?`).  So such a table is searched in three
steps (`Table.lookup_withConditions`): the operators, the six tags, and then the
table it is derived from.

The main statement is `Renderer.condition_handler_iff`.  A handler that a caller puts
into the table of trees serves conditions as well if its tag is neither an operator
nor one of the six, or is one of the six with the handler that it has anyway.  It
does not for any other of the six: `Renderer.name_handler_ignored` is such a case.
-/

namespace QueryTree

namespace Table

/-! ## Layers -/

/-- The handler that some entries last give a tag. -/
def lastIn (tag : String) : List (Label × Handler) → Option Handler
  | [] => none
  | (label, handler) :: rest => (lastIn tag rest).or (if label.tag = tag then some handler else none)

/-- Each tag has one entry. -/
def Distinct (t : Table) : Prop := t.toList.Nodup

theorem lookup_cons (label : Label) (handler : Handler) (rest : List (Label × Handler))
    (tag : String) :
    (⟨(label, handler) :: rest⟩ : Table).lookup tag =
      if label.tag = tag then some handler else (⟨rest⟩ : Table).lookup tag := by
  by_cases h : label.tag = tag <;> simp [lookup, h]

/-- A handler that is found has an entry. -/
theorem exists_of_lookup {t : Table} {tag : String} {handler : Handler}
    (h : t.lookup tag = some handler) : ∃ e ∈ t.entries, e.1.tag = tag ∧ e.2 = handler := by
  obtain ⟨e, he, rfl⟩ := Option.map_eq_some_iff.mp h
  have htag := List.find?_some he
  exact ⟨e, List.mem_of_find?_eq_some he, of_decide_eq_true htag, rfl⟩

theorem lookup_enter (entries : List (Label × Handler)) (new : Label × Handler) (tag : String) :
    (⟨enter entries new⟩ : Table).lookup tag =
      if new.1.tag = tag then some new.2 else (⟨entries⟩ : Table).lookup tag := by
  induction entries with
  | nil => exact lookup_cons new.1 new.2 [] tag
  | cons entry rest ih =>
      obtain ⟨label, handler⟩ := entry
      rw [enter]
      split
      · next hlabel =>
          rw [lookup_cons, lookup_cons, hlabel]
          split <;> rfl
      · next hlabel =>
          rw [lookup_cons, lookup_cons, ih]
          by_cases hnew : new.1.tag = tag
          · rw [if_pos hnew, if_pos hnew, if_neg fun heq => hlabel (heq.trans hnew.symm)]
          · rw [if_neg hnew, if_neg hnew]

theorem lookup_layered (t : Table) (layer : List (Label × Handler)) (tag : String) :
    (t.layered layer).lookup tag = (lastIn tag layer).or (t.lookup tag) := by
  induction layer generalizing t with
  | nil => rfl
  | cons new rest ih =>
      have hstep : t.layered (new :: rest) = layered ⟨enter t.entries new⟩ rest := rfl
      rw [hstep, ih, lookup_enter, lastIn, Option.or_assoc]
      congr 1
      split <;> rfl

theorem lookup_ofList (entries : List (Label × Handler)) (tag : String) :
    (ofList entries).lookup tag = lastIn tag entries := by
  have hempty : empty.lookup tag = none := rfl
  rw [ofList, lookup_layered, hempty, Option.or_none]

theorem lastIn_append (tag : String) (earlier later : List (Label × Handler)) :
    lastIn tag (earlier ++ later) = (lastIn tag later).or (lastIn tag earlier) := by
  induction earlier with
  | nil => rw [List.nil_append, lastIn, Option.or_none]
  | cons entry rest ih => rw [List.cons_append, lastIn, lastIn, ih, Option.or_assoc]

/-! ## Each tag once -/

theorem map_tag_enter (entries : List (Label × Handler)) (new : Label × Handler) :
    (enter entries new).map (·.1.tag) =
      if new.1.tag ∈ entries.map (·.1.tag) then entries.map (·.1.tag)
      else entries.map (·.1.tag) ++ [new.1.tag] := by
  induction entries with
  | nil => rfl
  | cons entry rest ih =>
      obtain ⟨label, handler⟩ := entry
      rw [enter]
      by_cases hlabel : label.tag = new.1.tag
      · simp [hlabel]
      · rw [if_neg hlabel, List.map_cons, ih]
        by_cases hrest : new.1.tag ∈ rest.map (·.1.tag)
        · simp [hrest]
        · simp [hrest, Ne.symm hlabel]

theorem distinct_enter {t : Table} (h : t.Distinct) (new : Label × Handler) :
    Distinct ⟨enter t.entries new⟩ := by
  rw [Distinct, toList, map_tag_enter]
  split
  · exact h
  · next hnew =>
      refine List.nodup_append.mpr ⟨h, List.pairwise_singleton _ _, ?_⟩
      rintro tag htag _ hlast rfl
      exact hnew (List.mem_singleton.mp hlast ▸ htag)

theorem distinct_layered {t : Table} (h : t.Distinct) (layer : List (Label × Handler)) :
    (t.layered layer).Distinct := by
  induction layer generalizing t with
  | nil => exact h
  | cons new rest ih => exact ih (distinct_enter h new)

theorem distinct_empty : empty.Distinct := List.nodup_nil

theorem distinct_ofList (entries : List (Label × Handler)) : (ofList entries).Distinct :=
  distinct_layered distinct_empty entries

/-- A table that holds each tag once may be searched from either end. -/
theorem lastIn_entries {t : Table} (h : t.Distinct) (tag : String) :
    lastIn tag t.entries = t.lookup tag := by
  obtain ⟨entries⟩ := t
  induction entries with
  | nil => rfl
  | cons entry rest ih =>
      obtain ⟨label, handler⟩ := entry
      obtain ⟨hlabel, hrest⟩ := List.nodup_cons.mp h
      rw [lastIn, lookup_cons, ih hrest]
      by_cases heq : label.tag = tag
      · have hnone : (⟨rest⟩ : Table).lookup tag = none := by
          rw [lookup, Option.map_eq_none_iff, List.find?_eq_none]
          intro e he htag
          exact hlabel (List.mem_map.mpr ⟨e, he, (of_decide_eq_true htag).trans heq.symm⟩)
        rw [hnone, if_pos heq, Option.none_or]
      · rw [if_neg heq, if_neg heq, Option.or_none]

/-! ## Tables of conditions -/

/-- The handler that a table of conditions has for a tag unless it is an operator,
whatever table it is derived from. -/
def fixed? (tag : String) : Option Handler := lastIn tag conditionLayer

theorem lastIn_comparisons (tag : String) (operators : List String) :
    lastIn tag (operators.map fun op => (.word op, .comparison)) =
      if tag ∈ operators then some .comparison else none := by
  induction operators with
  | nil => rfl
  | cons op rest ih =>
      have hlabel : (Label.word op).tag = op := rfl
      rw [List.map_cons, lastIn, ih, hlabel]
      by_cases hrest : tag ∈ rest
      · simp [hrest]
      · rw [if_neg hrest, Option.none_or]
        by_cases hop : op = tag
        · simp [hop]
        · simp [hrest, hop, Ne.symm hop]

/-- In a table of conditions the operators come first, then the fixed tags, and then
the table it is derived from. -/
theorem lookup_withConditions (t : Table) (operators : List String) (tag : String) :
    (t.withConditions operators).lookup tag =
      if tag ∈ operators then some .comparison else (fixed? tag).or (t.lookup tag) := by
  rw [withConditions, lookup_layered, lastIn_entries (distinct_ofList _), lookup_ofList,
    lastIn_append, lastIn_comparisons, ← fixed?]
  split <;> rfl

/-- The fixed tags are operations. -/
theorem isOperation_of_fixed? {tag : String} {h : Handler} (hfixed : fixed? tag = some h) :
    isOperation tag = true := by
  have hnone : ∀ entries : List (Keyword × Handler), (∀ e ∈ entries, e.1.tag ≠ tag) →
      lastIn tag (ofKeywords entries) = none := by
    intro entries hentries
    induction entries with
    | nil => rfl
    | cons e rest ih =>
        have hlabel : (Label.keyword e.1).tag ≠ tag := hentries e List.mem_cons_self
        rw [ofKeywords, List.map_cons, lastIn, if_neg hlabel, Option.or_none]
        exact ih fun e' he' => hentries e' (List.mem_cons_of_mem e he')
  have hkeyword : ∀ k : Keyword, isOperation k.tag = true := by
    intro k
    cases k <;> rfl
  cases hbare : isOperation tag with
  | true => rfl
  | false =>
      have hne : ∀ k : Keyword, k.tag ≠ tag := by
        rintro k rfl
        rw [hkeyword k] at hbare
        cases hbare
      rw [fixed?, conditionLayer, hnone _ fun e _ => hne e.1] at hfixed
      cases hfixed

end Table

namespace Renderer

/-! ## Handlers for trees and for conditions -/

/-- A node is rendered alike at both places if both tables have one handler for it. -/
theorem render_expression_eq (r : Renderer) {v : Value}
    (h : ∀ n, Node.ofValue v = .ok n → r.conditions.lookup n.tag = r.generic.lookup n.tag)
    (hsome : ∀ n, Node.ofValue v = .ok n → (r.generic.lookup n.tag).isSome) :
    r.render .expression v = r.render .tree v := by
  have hperform : r.perform v .expression = r.perform v .tree := by
    refine nodeOf_bind_congr fun n hn => ?_
    obtain ⟨budget, hbudget⟩ : ∃ budget, v.weight = budget + 1 := ⟨v.weight - 1, by
      have := v.weight_pos
      omega⟩
    obtain ⟨handler, hhandler⟩ := Option.isSome_iff_exists.mp (hsome n hn)
    have hcondition : (r.table .condition).lookup n.tag = some handler := (h n hn).trans hhandler
    have htree : (r.table .tree).lookup n.tag = some handler := hhandler
    rw [hbudget, node_succ, node_succ, hcondition, htree]
  rw [render, render, hperform]

/-- A handler of the table of trees whose tag is no operator serves conditions exactly
if no other handler is fixed for its tag, and then the trees of this tag are rendered
alike at both places. -/
theorem condition_handler_iff (s : Settings) (generic : Table) {tag : String} {handler : Handler}
    (hlookup : generic.lookup tag = some handler) (hoperator : tag ∉ s.operators.map (·.1)) :
    ((of s (some generic) none).conditions.lookup tag = some handler ↔
        ∀ fixed, Table.fixed? tag = some fixed → fixed = handler) ∧
      ((∀ fixed, Table.fixed? tag = some fixed → fixed = handler) →
        ∀ v n, Node.ofValue v = .ok n → n.tag = tag →
          (of s (some generic) none).render .expression v =
            (of s (some generic) none).render .tree v) := by
  have hconditions : (of s (some generic) none).conditions.lookup tag =
      (Table.fixed? tag).or (generic.lookup tag) := by
    have htable : (of s (some generic) none).conditions =
        generic.withConditions (s.operators.map (·.1)) := rfl
    rw [htable, Table.lookup_withConditions, if_neg hoperator]
  have hserves : (of s (some generic) none).conditions.lookup tag = some handler ↔
      ∀ fixed, Table.fixed? tag = some fixed → fixed = handler := by
    rw [hconditions, hlookup]
    cases Table.fixed? tag with
    | none => simp
    | some fixed => simp
  refine ⟨hserves, fun hfixed v n hn htag => ?_⟩
  refine render_expression_eq _ (fun m hm => ?_) fun m hm => ?_
  · obtain rfl := Except.ok.inj (hn.symm.trans hm)
    rw [htag, hserves.mpr hfixed]
    exact hlookup.symm
  · obtain rfl := Except.ok.inj (hn.symm.trans hm)
    rw [htag]
    exact Option.isSome_of_mem hlookup

/-- A function that stands for lists serves conditions. -/
theorem condition_handler_iff_list :
    let generic := Table.generic.layered [(.keyword .list, .call "ROW")]
    let r := of {} (some generic) none
    r.conditions.lookup "-list" = some (.call "ROW") ∧
      r.render .expression (.list [.str "-list", .list [.str "-value", .int 1]]) =
        r.render .tree (.list [.str "-list", .list [.str "-value", .int 1]]) := by
  have hfixed : ∀ fixed, Table.fixed? "-list" = some fixed → fixed = .call "ROW" := by
    intro fixed h
    cases h
  have hserves := @condition_handler_iff {} (Table.generic.layered [(.keyword .list, .call "ROW")])
    "-list" (.call "ROW") rfl (by decide)
  exact ⟨hserves.1.mpr hfixed, hserves.2 hfixed _ _ rfl rfl⟩

/-- A text that a caller puts in place of names stands for them among trees only. -/
theorem name_handler_ignored :
    let generic := Table.generic.layered [(.keyword .name, .constant "X")]
    let r := of {} (some generic) none
    generic.lookup "-name" = some (.constant "X") ∧ "-name" ∉ r.settings.operators.map (·.1) ∧
      "-name" ≠ "-in" ∧ "-name" ≠ "-not_in" ∧ r.conditions.lookup "-name" = some .name ∧
      r.render .tree (.list [.str "-name", .str "a"]) = .ok ⟨"X", []⟩ ∧
      r.render .expression (.list [.str "-name", .str "a"]) = .ok ⟨"a", []⟩ :=
  ⟨rfl, by decide, by decide, by decide, rfl, rfl, rfl⟩

end Renderer

end QueryTree
