import QueryTree.Proofs.Alike.Around
import QueryTree.Proofs.Condition.Meaning

/-!
# Groups in groups of the same connective

A group in a group of the same connective may be *spliced*: its items take its place
among those of the group around it (`Spliced.here`).  The group around it may be a
member of a further group, and so on (`Spliced.member`), or it may be the one clause
that the items of a group make up together (`Spliced.flat`).  Each of the groups may be
a list, a tuple or a node, and the outermost an AND group without a tag (`Grouped`).

Splicing does not change the text.

* A member with the connective of its group has the priority of its group.  So it is
  not put in parentheses, whatever the priorities are (`enclosed_same`).
* Its own members are joined by the word that stands around it (`joined_append`).

A group without members is a constant, so it cannot be spliced.

The main statement is `Clause.groups_associate`.  The conditions are rendered by the same
steps, so the text, the literals and the error, if there is one, are the same.  In any
tree around them the text and the literals are the same as well, or the errors are of one
kind.
-/

namespace QueryTree

namespace Condition

/-! ## Groups in a tree -/

/-- Items that are the members of their group one by one: there are none, or the first
is a clause. -/
def Separate (items : List Value) : Prop := ∀ v ∈ items.head?, isClause v = true

/-- A value that stands for a group of items.  An AND group needs no tag. -/
inductive Grouped : Value → Connective → List Value → Prop
  | headed {v : Value} {c : Connective} {items : List Value} : Headed v c items → Grouped v c items
  | implicit {v : Value} {items : List Value} :
    v.sequence? = some items → Separate items → Grouped v .and items

/-- The items of a group, and the items if one group in it, at any depth, is spliced into
the group of the same connective around it. -/
inductive Spliced : Connective → List Value → List Value → Prop
  | here {c : Connective} {inner : Value} {before items after : List Value} :
    Separate before → Separate items → items ≠ [] → Headed inner c items →
      Spliced c (before ++ inner :: after) (before ++ items ++ after)
  | member {c d : Connective} {v w : Value} {before items items' after : List Value} :
    Separate before → Headed v d items → Headed w d items' → Spliced d items items' →
      Spliced c (before ++ v :: after) (before ++ w :: after)
  | flat {c d : Connective} {items items' : List Value} :
    Spliced d items items' → Spliced c (.str d.tag :: items) (.str d.tag :: items')

theorem Headed.isClause_eq {v : Value} {c : Connective} {items : List Value} (h : Headed v c items) :
    isClause v = true := by
  cases h <;> rfl

theorem separate_cons {v : Value} (h : isClause v = true) (items : List Value) :
    Separate (v :: items) := by
  rintro _ ⟨⟩
  exact h

theorem Separate.append {items after : List Value} (h : Separate items) (hafter : Separate after) :
    Separate (items ++ after) := by
  cases items with
  | nil => exact hafter
  | cons v items => exact separate_cons (h v rfl) _

/-- Items that are members one by one are read one by one. -/
theorem Separate.ofItems_eq {items : List Value} (h : Separate items) (c : Connective) :
    ofItems c items = .group c (items.map ofMember) := by
  cases items with
  | nil => rfl
  | cons v items => rw [ofItems_cons, if_pos (h v rfl)]

theorem Grouped.ofValue_eq {v : Value} {c : Connective} {items : List Value}
    (h : Grouped v c items) : ofValue v = .ok (ofItems c items) := by
  cases h with
  | headed hv => exact ofValue_headed hv
  | implicit hv hitems =>
      refine ofValue_untagged hv fun d rest hd => ?_
      have htag : items.head? = some (.str d.tag) := by
        cases hd with
        | list | tuple =>
            obtain rfl := Option.some.inj hv
            rfl
        | node => cases hv
      exact Bool.false_ne_true (hitems _ htag)

/-! ## Words of members -/

section

variable {rank : Connective → Option Int} {c : Connective}

/-- Joined members are the first and what follows, each after the word between them. -/
theorem joined_eq (c : Connective) (ws : List Word) :
    ∀ rest : List (List Word), joined c (ws :: rest) = ws ++ rest.flatMap (.connective c :: ·)
  | [] => (List.append_nil ws).symm
  | us :: rest => by rw [joined_cons, joined_eq c us rest, List.flatMap_cons, List.cons_append]

/-- Members that are joined already may be joined with the others one by one. -/
theorem joined_append (c : Connective) {parts : List (List Word)} (hparts : parts ≠ [])
    (before after : List (List Word)) :
    joined c (before ++ joined c parts :: after) = joined c (before ++ parts ++ after) := by
  obtain ⟨ws, rest, rfl⟩ := List.exists_cons_of_ne_nil hparts
  cases before with
  | nil => simp only [List.nil_append, List.cons_append, joined_eq, List.flatMap_append, List.append_assoc]
  | cons us before =>
      simp only [List.cons_append, joined_eq, List.flatMap_append, List.flatMap_cons, List.append_assoc]

theorem memberWords_append (outer : Int) (ms ms' : List Condition) :
    memberWords rank outer (ms ++ ms') = memberWords rank outer ms ++ memberWords rank outer ms' := by
  induction ms with
  | nil => rfl
  | cons m ms ih => rw [List.cons_append, memberWords, memberWords, ih, List.cons_append]

/-- The words of a group with members. -/
theorem words_group {ms : List Condition} (h : ms ≠ []) :
    (group c ms).words rank =
      ((rank c).map fun outer => joined c (memberWords rank outer ms)).getD [.unranked c] := by
  obtain ⟨m, ms, rfl⟩ := List.exists_cons_of_ne_nil h
  rw [words]
  cases rank c <;> rfl

/-- A group in one of the same connective stands without parentheses. -/
theorem enclosed_same {outer : Int} (hc : rank c = some outer) (ms : List Condition) (ws : List Word) :
    enclosed rank outer (.group c ms) ws = ws := by
  simp [enclosed, hc]

/-- A group with members may be spliced into one of the same connective. -/
theorem words_spliced {ms : List Condition} (hms : ms ≠ []) (before after : List Condition) :
    (group c (before ++ .group c ms :: after)).words rank =
      (group c (before ++ ms ++ after)).words rank := by
  rw [words_group (by simp), words_group (by simp [hms])]
  cases hc : rank c with
  | none => rfl
  | some outer =>
      have hparts : memberWords rank outer ms ≠ [] := by
        obtain ⟨m, ms, rfl⟩ := List.exists_cons_of_ne_nil hms
        exact List.cons_ne_nil _ _
      simp only [Option.map_some, Option.getD_some, memberWords_append, memberWords,
        enclosed_same hc, words_group hms, hc, joined_append c hparts]

/-- A member may be replaced by a group of the same connective with the same words. -/
theorem words_member {d : Connective} {ms ms' : List Condition}
    (h : (group d ms).words rank = (group d ms').words rank) (before after : List Condition) :
    (group c (before ++ .group d ms :: after)).words rank =
      (group c (before ++ .group d ms' :: after)).words rank := by
  rw [words_group (by simp), words_group (by simp)]
  simp only [memberWords_append, memberWords, enclosed, h]

end

/-! ## Spliced groups -/

/-- The items of a group stand for a group of its connective. -/
theorem exists_ofItems_eq (c : Connective) (items : List Value) :
    ∃ ms, ofItems c items = .group c ms := by
  cases items with
  | nil => exact ⟨[], rfl⟩
  | cons v items => exact ⟨_, ofItems_cons c v items⟩

/-- The words of a tree are the same if a group in it is spliced. -/
theorem Spliced.words_eq {c : Connective} {items items' : List Value} (h : Spliced c items items')
    (rank : Connective → Option Int) :
    (ofItems c items).words rank = (ofItems c items').words rank := by
  induction h with
  | @here c inner before items after hbefore hitems hne hinner =>
      have hgroup : ofMember inner = .group c (items.map ofMember) := by
        rw [ofMember_headed hinner, hitems.ofItems_eq]
      have hnested : Separate (before ++ inner :: after) :=
        hbefore.append (separate_cons hinner.isClause_eq after)
      have hspliced : Separate (before ++ items ++ after) := by
        obtain ⟨v, items, rfl⟩ := List.exists_cons_of_ne_nil hne
        rw [List.append_assoc]
        exact hbefore.append (separate_cons (hitems v rfl) _)
      rw [hnested.ofItems_eq, hspliced.ofItems_eq]
      simp only [List.map_append, List.map_cons, hgroup]
      exact words_spliced (by simpa using hne) _ _
  | @member c d v w before items items' after hbefore hv hw _ ih =>
      obtain ⟨ms, hms⟩ := exists_ofItems_eq d items
      obtain ⟨ms', hms'⟩ := exists_ofItems_eq d items'
      rw [hms, hms'] at ih
      have hnested := hbefore.append (separate_cons hv.isClause_eq after)
      have hnested' := hbefore.append (separate_cons hw.isClause_eq after)
      rw [hnested.ofItems_eq, hnested'.ofItems_eq]
      simp only [List.map_append, List.map_cons, ofMember_headed hv, ofMember_headed hw, hms, hms']
      exact words_member ih _ _
  | @flat c d items items' _ ih =>
      obtain ⟨ms, hms⟩ := exists_ofItems_eq d items
      obtain ⟨ms', hms'⟩ := exists_ofItems_eq d items'
      rw [hms, hms'] at ih
      have hflat : ∀ rest, ofItems c (.str d.tag :: rest) = .group c [ofItems d rest] := by
        intro rest
        rw [ofItems_cons, if_neg (by exact Bool.false_ne_true), ofMember_headed (.list d rest)]
      rw [hflat, hflat, hms, hms']
      exact words_member ih [] []

end Condition

/-! ## Rendered conditions -/

/-- Spliced conditions are laid out as the same pieces. -/
theorem Condition.Spliced.conditionsMatch {v w : Value} {c : Connective} {items items' : List Value}
    (hv : Grouped v c items) (hw : Grouped w c items') (h : Spliced c items items') (s : Settings)
    (N : Renderer.Place → Node → Node → Prop) : ConditionsMatch s Eq N v w := by
  have hreadv := isConditions_of_ofValue hv.ofValue_eq
  have hreadw := isConditions_of_ofValue hw.ofValue_eq
  refine .of_eq (fun _ => rfl) (hreadv.1.trans hreadw.1.symm) (hreadv.2.trans hreadw.2.symm) ?_
  rw [Piece.conditions, Piece.conditions, hv.ofValue_eq, hw.ofValue_eq]
  dsimp only
  rw [h.words_eq]

open Condition in
/-- A group in a group of the same connective is rendered as if its items stood in its
place.  This is so whatever the priorities are, in whatever form the groups are written,
and at any depth, in conditions of their own and in any tree around them. -/
theorem Clause.groups_associate {v w : Value} {c : Connective} {items items' : List Value}
    (hv : Grouped v c items) (hw : Grouped w c items') (h : Spliced c items items') :
    (∀ s b, Clause.conditions s b v = Clause.conditions s b w) ∧
      ∀ r : Renderer, r.conditionTree v = r.conditionTree w ∧
        r.render .conditions v = r.render .conditions w ∧
          ∀ request v' w', r.Around v w request v' w' →
            Renderer.Agree Eq (r.render request v') (r.render request w') := by
  have hconditions : ∀ s b, Clause.conditions s b v = Clause.conditions s b w := by
    intro s b
    rw [Clause.conditions, Clause.conditions, hv.ofValue_eq, hw.ofValue_eq, Rendering.ofExcept_ok,
      Rendering.ofExcept_ok, pure_bind, pure_bind, h.words_eq]
  have htree : ∀ r : Renderer, r.conditionTree v = r.conditionTree w := by
    intro r
    rw [r.conditionTree_eq, r.conditionTree_eq, Piece.renderAll_conditions,
      Piece.renderAll_conditions, hconditions]
  refine ⟨hconditions, fun r => ⟨htree r, ?_, fun request v' w' haround => ?_⟩⟩
  · rw [Renderer.render, Renderer.render, Renderer.perform, Renderer.perform, htree r]
  · exact haround.agree fun N => h.conditionsMatch hv hw r.settings N

open Condition in
/-- An OR group as a node in one as a tuple, in an AND group without a tag, with priorities
that are equal, as conditions of their own and of a delete. -/
theorem Clause.groups_associate_nested :
    let r : Renderer := .of { priorities := [("and", 7), ("or", 7)] } none none
    let literal : Value := .list [.str "-value", .int 1]
    let v : Value := .list [literal, .tuple [.str "-or", literal, .node "-or" [literal, literal] []]]
    let w : Value := .list [literal, .tuple [.str "-or", literal, literal, literal]]
    let delete := fun conditions : Value =>
      Value.map [(.str "from", .list [.str "-name", .str "t"]), (.str "where", conditions)]
    r.render .conditions v = r.render .conditions w ∧
      r.render .conditions v = .ok ⟨"WHERE ? AND ? OR ? OR ?", [.int 1, .int 1, .int 1, .int 1]⟩ ∧
      Renderer.Agree Eq (r.render .delete (delete v)) (r.render .delete (delete w)) := by
  intro r literal v w delete
  have hone : Separate [literal] := separate_cons rfl []
  have hspliced : Spliced .or ([literal] ++ [.node "-or" [literal, literal] []])
      ([literal] ++ [literal, literal] ++ []) :=
    .here hone (separate_cons rfl [literal]) (List.cons_ne_nil _ _) (.node .or _ [])
  have hmember : Spliced .and ([literal] ++ [.tuple [.str "-or", literal, .node "-or" [literal, literal] []]])
      ([literal] ++ [.tuple [.str "-or", literal, literal, literal]]) :=
    .member hone (.tuple .or _) (.tuple .or _) hspliced
  have hassociate := Clause.groups_associate (v := v) (w := w) (.implicit rfl (separate_cons rfl _))
    (.implicit rfl (separate_cons rfl _)) hmember
  have hnode : Around r v w .tree
      ⟨"-delete", [], [(.str "from", .list [.str "-name", .str "t"]), (.str "where", v)]⟩
      ⟨"-delete", [], [(.str "from", .list [.str "-name", .str "t"]), (.str "where", w)]⟩ :=
    .under (n := ⟨"-delete", [], [(.str "from", .list [.str "-name", .str "t"]), (.str "where", v)]⟩)
      (h := .delete) rfl rfl rfl
  have haround : r.Around v w .delete (delete v) (delete w) :=
    .within id (.statement (k := .delete) (by decide) rfl rfl hnode)
  exact ⟨(hassociate.2 r).2.1, rfl, (hassociate.2 r).2.2 _ _ _ haround⟩

end QueryTree
