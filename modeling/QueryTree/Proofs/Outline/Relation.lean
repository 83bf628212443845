import Mathlib.Data.List.Forall2
import QueryTree.Proofs.Budget

/-!
# Relations of outlines

A relation of pieces is *fair* if each text is related to itself and errors of one
kind are related (`Piece.Fair`).  Which literals are related, and which values
below, is left open.

Such a relation is lifted to outlines part by part (`Outline.Related`).  For each
handler there is one lemma that says what has to be related for the outlines of two
nodes to be.  Wherever a handler decides something before it renders, such as
whether a shape is right or an operand is there, it has to decide the same.
-/

namespace QueryTree

open Renderer (Place)

/-- Each text is related to itself, and errors of one kind are related. -/
structure Piece.Fair (R : Piece → Piece → Prop) : Prop where
  text : ∀ t, R (.text t) (.text t)
  stop : ∀ {e e' : RenderError}, e.kind? = e'.kind? → R (.stop e) (.stop e')

/-- Outlines whose parts are related piece by piece. -/
structure Outline.Related (R : Piece → Piece → Prop) (o o' : Outline) : Prop where
  lead : List.Forall₂ R o.lead o'.lead
  late : List.Forall₂ R o.late o'.late
  early : List.Forall₂ R o.early o'.early
  rest : List.Forall₂ R o.rest o'.rest

/-! ## Shapes -/

namespace Shape

/-- Values of which a shape takes one for the other: trees of one tag, as many items
if they are lists, or no trees. -/
structure Same (v w : Value) : Prop where
  tag?_eq : v.tag? = w.tag?
  length_eq : v.tag? = some Keyword.list.tag → v.operands.length = w.operands.length

variable {n m : Node} {key : String}

theorem Same.of_eq {v w : Value} (h : v = w) : Same v w := by
  rw [h]
  exact ⟨rfl, fun _ => rfl⟩

theorem Same.isNodeLike_eq {v w : Value} (h : Same v w) : v.isNodeLike = w.isNodeLike := by
  rw [v.isNodeLike_eq, w.isNodeLike_eq, h.tag?_eq]

theorem needsTree_congr (statement : String)
    (h : Same (n.fields.get key) (m.fields.get key)) :
    needsTree n statement key = needsTree m statement key := by
  rw [needsTree, needsTree, h.isNodeLike_eq]

theorem needsList_congr (h : Same (n.fields.get key) (m.fields.get key)) :
    needsList n key = needsList m key := by
  rw [needsList, needsList, h.tag?_eq]

theorem needsSequence_of_eq {accepts : Value → Bool} (h : n.fields.get? key = m.fields.get? key) :
    needsSequence n accepts key = needsSequence m accepts key := by
  rw [needsSequence, needsSequence, h]

theorem needsSequence_congr {accepts : Value → Bool}
    (h : Option.Rel (fun v w => accepts v = accepts w) (n.fields.get? key) (m.fields.get? key)) :
    needsSequence n accepts key = needsSequence m accepts key := by
  rw [needsSequence, needsSequence]
  generalize n.fields.get? key = v at h ⊢
  generalize m.fields.get? key = w at h ⊢
  cases h with
  | none => rfl
  | some h => simp only [h]

theorem select_congr (hcolumns : Same (n.fields.get "columns") (m.fields.get "columns"))
    (hfrom : Same (n.fields.get "from") (m.fields.get "from"))
    (hwhere : Option.Rel (fun v w => isConditions v = isConditions w) (n.fields.get? "where")
      (m.fields.get? "where"))
    (hgroup : Option.Rel (fun v w => v.isSequence = w.isSequence) (n.fields.get? "group_by")
      (m.fields.get? "group_by"))
    (horder : Option.Rel (fun v w => v.isSequence = w.isSequence) (n.fields.get? "order_by")
      (m.fields.get? "order_by")) : select n = select m := by
  rw [select, select, needsTree_congr "select" hcolumns, needsTree_congr "select" hfrom,
    needsList_congr hcolumns, needsSequence_congr hwhere, needsSequence_congr hgroup,
    needsSequence_congr horder]

/-- The tag of a tree that has to be a list and is. -/
theorem tag?_of_needsList (htree : (n.fields.get key).isNodeLike = true)
    (h : needsList n key = []) : (n.fields.get key).tag? = some Keyword.list.tag := by
  rw [Value.isNodeLike_eq] at htree
  obtain ⟨tag, htag⟩ := Option.isSome_iff_exists.mp htree
  rw [needsList, htag] at h
  dsimp only at h
  split at h
  · next heq => rw [htag, heq]
  · cases h

theorem isNodeLike_of_needsTree {statement : String} (h : needsTree n statement key = []) :
    (n.fields.get key).isNodeLike = true := by
  rw [needsTree] at h
  split at h
  · assumption
  · cases h

theorem insert_congr (hinto : Same (n.fields.get "into") (m.fields.get "into"))
    (hcontains : n.fields.contains "columns" = m.fields.contains "columns")
    (hcolumns : Same (n.fields.get "columns") (m.fields.get "columns"))
    (hvalues : Same (n.fields.get "values") (m.fields.get "values")) : insert n = insert m := by
  have hcols : insertColumns n = insertColumns m := by
    rw [insertColumns, insertColumns, hcolumns.isNodeLike_eq, needsList_congr hcolumns]
  have hrequired : needsTree n "insert" "into" ++ needsTree n "insert" "values" ++ needsList n "values"
      = needsTree m "insert" "into" ++ needsTree m "insert" "values" ++ needsList m "values" := by
    rw [needsTree_congr "insert" hinto, needsTree_congr "insert" hvalues, needsList_congr hvalues]
  simp only [insert, ← hcontains, ← hrequired, ← hcols]
  split
  · split
    · next hissues =>
        -- both are lists here, so there are as many items
        obtain ⟨hreq, hcol⟩ := List.append_eq_nil_iff.mp hissues
        obtain ⟨hreq, hvaluesList⟩ := List.append_eq_nil_iff.mp hreq
        obtain ⟨-, hvaluesTree⟩ := List.append_eq_nil_iff.mp hreq
        have hvtag := tag?_of_needsList (isNodeLike_of_needsTree hvaluesTree) hvaluesList
        have hctag : (n.fields.get "columns").tag? = some Keyword.list.tag := by
          rw [insertColumns] at hcol
          split at hcol
          · next htree => exact tag?_of_needsList htree hcol
          · cases hcol
        rw [insertArity, insertArity, hcolumns.length_eq hctag, hvalues.length_eq hvtag]
    · rfl
  · rfl

theorem assignments_congr {vs ws : List Value}
    (h : List.Forall₂ (fun v w => (pair? v).isSome = (pair? w).isSome) vs ws) (i : Nat) :
    assignments i vs = assignments i ws := by
  induction h generalizing i with
  | nil => rfl
  | cons h _ ih => rw [assignments, assignments, h, ih]

theorem update_congr (htable : Same (n.fields.get "table") (m.fields.get "table"))
    (hset : Option.Rel (List.Forall₂ fun v w => (pair? v).isSome = (pair? w).isSome)
      (n.fields.get "set").sequence? (m.fields.get "set").sequence?) : update n = update m := by
  rw [update, update, needsTree_congr "update" htable]
  congr 1
  generalize (n.fields.get "set").sequence? = vs at hset ⊢
  generalize (m.fields.get "set").sequence? = ws at hset ⊢
  cases hset with
  | none => rfl
  | some h =>
      cases h with
      | nil => rfl
      | cons h hs => exact assignments_congr (.cons h hs) 0

theorem delete_congr (hfrom : Same (n.fields.get "from") (m.fields.get "from")) :
    delete n = delete m := needsTree_congr "delete" hfrom

end Shape

/-! ## Conditions -/

namespace Condition

variable (A : Value → Value → Prop)

mutual

/-- Trees that differ in related atoms and in what can be no condition. -/
inductive Related : Condition → Condition → Prop
  | atom {v w : Value} : A v w → Related (.atom v) (.atom w)
  | invalid (v w : Value) : Related (.invalid v) (.invalid w)
  | group (c : Connective) {ms ms' : List Condition} :
    MembersRelated ms ms' → Related (.group c ms) (.group c ms')

/-- Members of a group that differ in the same. -/
inductive MembersRelated : List Condition → List Condition → Prop
  | nil : MembersRelated [] []
  | cons {m m' : Condition} {ms ms' : List Condition} :
    Related m m' → MembersRelated ms ms' → MembersRelated (m :: ms) (m' :: ms')

end

/-- Words that differ in the same. -/
inductive Word.Related : Word → Word → Prop
  | atom {v w : Value} : A v w → Related (.atom v) (.atom w)
  | constant (holds : Bool) : Related (.constant holds) (.constant holds)
  | connective (c : Connective) : Related (.connective c) (.connective c)
  | opening : Related .opening .opening
  | closing : Related .closing .closing
  | unranked (c : Connective) : Related (.unranked c) (.unranked c)
  | invalid (v w : Value) : Related (.invalid v) (.invalid w)

/-- Values that are read as related trees, or as none. -/
inductive ReadRelated : Value → Value → Prop
  | trees {v w : Value} {t t' : Condition} :
    ofValue v = .ok t → ofValue w = .ok t' → Related A t t' → ReadRelated v w
  | refused {v w : Value} {f f' : Fault} :
    ofValue v = .error f → ofValue w = .error f' → ReadRelated v w

variable {A} {rank : Connective → Option Int}

mutual

theorem Related.imp {B : Value → Value → Prop} (himp : ∀ {v w}, A v w → B v w) {t t' : Condition} :
    Related A t t' → Related B t t'
  | .atom h => .atom (himp h)
  | .invalid v w => .invalid v w
  | .group c hs => .group c (hs.imp himp)

theorem MembersRelated.imp {B : Value → Value → Prop} (himp : ∀ {v w}, A v w → B v w)
    {ms ms' : List Condition} : MembersRelated A ms ms' → MembersRelated B ms ms'
  | .nil => .nil
  | .cons h hs => .cons (h.imp himp) (hs.imp himp)

end

theorem ReadRelated.imp {B : Value → Value → Prop} (himp : ∀ {v w}, A v w → B v w) {v w : Value}
    (h : ReadRelated A v w) : ReadRelated B v w := by
  cases h with
  | trees hv hw ht => exact .trees hv hw (ht.imp himp)
  | refused hv hw => exact .refused hv hw

theorem related_joined {c : Connective} :
    ∀ {us vs : List (List Word)}, List.Forall₂ (List.Forall₂ (Word.Related A)) us vs →
      List.Forall₂ (Word.Related A) (joined c us) (joined c vs)
  | _, _, .nil => .nil
  | _, _, .cons h .nil => h
  | _, _, .cons h (.cons h' hs) => by
      rw [joined_cons, joined_cons]
      exact List.rel_append h (.cons (.connective c) (related_joined (.cons h' hs)))

theorem related_enclosed {outer : Int} {t t' : Condition} {us vs : List Word}
    (ht : Related A t t') (h : List.Forall₂ (Word.Related A) us vs) :
    List.Forall₂ (Word.Related A) (enclosed rank outer t us) (enclosed rank outer t' vs) := by
  cases ht with
  | atom => exact h
  | invalid => exact h
  | group c _ =>
      rw [enclosed, enclosed]
      split
      · exact .cons (.unranked c) .nil
      · split
        · exact List.rel_append (.cons .opening h) (.cons .closing .nil)
        · exact h

mutual

/-- Related trees are laid out as related words. -/
theorem related_words {t t' : Condition} :
    Related A t t' → List.Forall₂ (Word.Related A) (t.words rank) (t'.words rank)
  | .atom h => .cons (.atom h) .nil
  | .invalid v w => .cons (.invalid v w) .nil
  | .group c .nil => .cons (.constant _) .nil
  | .group c (.cons h hs) => by
      rw [words, words]
      split
      · exact .cons (.unranked c) .nil
      · exact related_joined (.cons (related_enclosed h (related_words h)) (related_memberWords hs))

theorem related_memberWords {outer : Int} {ms ms' : List Condition} :
    MembersRelated A ms ms' → List.Forall₂ (List.Forall₂ (Word.Related A))
      (memberWords rank outer ms) (memberWords rank outer ms')
  | .nil => .nil
  | .cons h hs => .cons (related_enclosed h (related_words h)) (related_memberWords hs)

end

theorem membersRelated_of_forall₂ {ms ms' : List Condition} (h : List.Forall₂ (Related A) ms ms') :
    MembersRelated A ms ms' := by
  induction h with
  | nil => exact .nil
  | cons h _ ih => exact .cons h ih

end Condition

/-! ## Pieces -/

namespace Piece

variable {R : Piece → Piece → Prop} {n m : Node} {key : String}

theorem related_separated (hR : Fair R) {separator : String} :
    ∀ {gs hs : List (List Piece)}, List.Forall₂ (List.Forall₂ R) gs hs →
      List.Forall₂ R (separated separator gs) (separated separator hs)
  | _, _, .nil => .nil
  | _, _, .cons h .nil => h
  | _, _, .cons h (.cons h' hs) => by
      rw [separated_cons, separated_cons]
      exact List.rel_append h (.cons (hR.text separator) (related_separated hR (.cons h' hs)))

/-- Values that are related if they are rendered at a place. -/
def At (R : Piece → Piece → Prop) (place : Place) (v w : Value) : Prop :=
  R (.below place v) (.below place w)

theorem related_trees {vs ws : List Value} (h : List.Forall₂ (At R .tree) vs ws) :
    List.Forall₂ (List.Forall₂ R) (trees vs) (trees ws) :=
  List.rel_map (fun _ _ hvw => .cons hvw .nil) h

theorem related_ofWord (hR : Fair R) {u w : Condition.Word}
    (h : Condition.Word.Related (At R .condition) u w) : R (ofWord u) (ofWord w) := by
  cases h with
  | atom h => exact h
  | unranked c => exact hR.stop rfl
  | invalid v w => exact hR.stop rfl
  | _ => exact hR.text _

theorem related_conditions (hR : Fair R) {s : Settings} {v w : Value}
    (h : Condition.ReadRelated (At R .condition) v w) :
    List.Forall₂ R (conditions s v) (conditions s w) := by
  cases h with
  | trees hv hw ht =>
      rw [conditions, conditions, hv, hw]
      exact List.rel_map (fun _ _ hword => related_ofWord hR hword) (Condition.related_words ht)
  | refused hv hw =>
      rw [conditions, conditions, hv, hw]
      exact .cons (hR.stop rfl) .nil

/-- Items of an ordering that are related plainly, or with one direction. -/
inductive OrderRelated (R : Piece → Piece → Prop) : Value → Value → Prop
  | plain {v w : Value} :
    Clause.direction? v = none → Clause.direction? w = none → At R .tree v w → OrderRelated R v w
  | directed {v w : Value} {d : Direction} :
    Clause.direction? v = some d → Clause.direction? w = some d →
      List.Forall₂ (At R .tree) v.operands w.operands → OrderRelated R v w

theorem related_orderItem (hR : Fair R) {v w : Value} (h : OrderRelated R v w) :
    List.Forall₂ R (orderItem v) (orderItem w) := by
  cases h with
  | plain hv hw h =>
      rw [orderItem, orderItem, hv, hw]
      exact .cons h .nil
  | directed hv hw h =>
      rw [orderItem, orderItem, hv, hw]
      generalize v.operands = vs at h ⊢
      generalize w.operands = ws at h ⊢
      cases h with
      | nil => exact .cons (hR.stop rfl) .nil
      | cons h hs =>
          cases hs with
          | nil => exact .cons h (.cons (hR.text _) .nil)
          | cons h' hs => exact .cons (hR.stop rfl) .nil

theorem related_orderItems (hR : Fair R) {vs ws : List Value}
    (h : List.Forall₂ (OrderRelated R) vs ws) :
    List.Forall₂ R (orderItems vs) (orderItems ws) :=
  .cons (hR.text _)
    (related_separated hR (List.rel_map (fun _ _ hitem => related_orderItem hR hitem) h))

theorem related_groupItems (hR : Fair R) {vs ws : List Value}
    (h : List.Forall₂ (At R .tree) vs ws) : List.Forall₂ R (groupItems vs) (groupItems ws) :=
  .cons (hR.text _) (related_separated hR (related_trees h))

/-! ### Clauses of statements -/

theorem related_optional {Q : Value → Value → Prop} {groups : Value → List (List Piece)}
    (h : Option.Rel Q (n.fields.get? key) (m.fields.get? key))
    (hgroups : ∀ {v w}, Q v w → List.Forall₂ (List.Forall₂ R) (groups v) (groups w)) :
    List.Forall₂ (List.Forall₂ R) (Piece.optional n key groups) (Piece.optional m key groups) := by
  rw [Piece.optional, Piece.optional]
  generalize n.fields.get? key = v at h ⊢
  generalize m.fields.get? key = w at h ⊢
  cases h with
  | none => exact .nil
  | some h => exact hgroups h

theorem related_whereGroups (hR : Fair R) {s : Settings}
    (h : Option.Rel (Condition.ReadRelated (At R .condition)) (n.fields.get? "where")
      (m.fields.get? "where")) :
    List.Forall₂ (List.Forall₂ R) (whereGroups s n) (whereGroups s m) :=
  related_optional h fun hvw => .cons (.cons (hR.text _) (related_conditions hR hvw)) .nil

/-- Values that are related as the joins of a select. -/
inductive JoinsRelated (R : Piece → Piece → Prop) : Value → Value → Prop
  | refused {v w : Value} {f f' : Fault} :
    Clause.joinList v = .error f → Clause.joinList w = .error f' → JoinsRelated R v w
  | joins {v w : Value} {vs ws : List Value} :
    Clause.joinList v = .ok vs → Clause.joinList w = .ok ws →
      List.Forall₂ (At R .tree) vs ws → JoinsRelated R v w

theorem related_joinGroups (hR : Fair R)
    (h : Option.Rel (JoinsRelated R) (n.fields.get? "join") (m.fields.get? "join")) :
    List.Forall₂ (List.Forall₂ R) (joinGroups n) (joinGroups m) := by
  refine related_optional h fun hvw => ?_
  cases hvw with
  | refused hv hw =>
      rw [hv, hw]
      exact .cons (.cons (hR.stop rfl) .nil) .nil
  | joins hv hw h =>
      rw [hv, hw]
      exact related_trees h

theorem related_groupingGroups (hR : Fair R)
    (h : Option.Rel (fun v w => List.Forall₂ (At R .tree) (v.sequence?.getD []) (w.sequence?.getD []))
      (n.fields.get? "group_by") (m.fields.get? "group_by")) :
    List.Forall₂ (List.Forall₂ R) (groupingGroups n) (groupingGroups m) :=
  related_optional h fun hvw => .cons (related_groupItems hR hvw) .nil

theorem related_orderingGroups (hR : Fair R)
    (h : Option.Rel
      (fun v w => List.Forall₂ (OrderRelated R) (v.sequence?.getD []) (w.sequence?.getD []))
      (n.fields.get? "order_by") (m.fields.get? "order_by")) :
    List.Forall₂ (List.Forall₂ R) (orderingGroups n) (orderingGroups m) :=
  related_optional h fun hvw => .cons (related_orderItems hR hvw) .nil

theorem related_insertColumns (hR : Fair R)
    (h : Option.Rel (At R .tree) (n.fields.get? "columns") (m.fields.get? "columns")) :
    List.Forall₂ R (insertColumns n) (insertColumns m) :=
  List.rel_flatten (related_optional h fun hvw =>
    .cons (.cons (hR.text _) (.cons hvw (.cons (hR.text _) .nil))) .nil)

end Piece

/-! ## Outlines -/

namespace Outline

open Piece

variable {R : Piece → Piece → Prop} {n m : Node} {s : Settings} {key : String}

theorem related_straight {ps qs : List Piece} (h : List.Forall₂ R ps qs) :
    Related R (straight ps) (straight qs) := ⟨h, .nil, .nil, .nil⟩

theorem related_stop (hR : Fair R) {e e' : RenderError} (h : e.kind? = e'.kind?) :
    Related R (stop e) (stop e') := related_straight (.cons (hR.stop h) .nil)

theorem related_text (hR : Fair R) (t : String) :
    Related R (straight [.text t]) (straight [.text t]) := related_straight (.cons (hR.text t) .nil)

theorem related_checked (hR : Fair R) {issues issues' : List Issue} {o o' : Outline}
    (hissues : issues = issues') (h : Related R o o') :
    Related R (checked issues o) (checked issues' o') := by
  subst hissues
  cases issues with
  | nil => exact h
  | cons issue rest => exact related_stop hR rfl

theorem related_select (hR : Fair R) (hshape : Shape.select n = Shape.select m)
    (hcolumns : At R .tree (n.fields.get "columns") (m.fields.get "columns"))
    (hfrom : At R .tree (n.fields.get "from") (m.fields.get "from"))
    (hjoins : List.Forall₂ (List.Forall₂ R) (joinGroups n) (joinGroups m))
    (hwhere : List.Forall₂ (List.Forall₂ R) (whereGroups s n) (whereGroups s m))
    (hgroup : List.Forall₂ (List.Forall₂ R) (groupingGroups n) (groupingGroups m))
    (horder : List.Forall₂ (List.Forall₂ R) (orderingGroups n) (orderingGroups m)) :
    Related R (select s n) (select s m) := by
  refine related_checked hR hshape (related_straight (related_separated hR ?_))
  have hhead : List.Forall₂ (List.Forall₂ R)
      [[.text "SELECT"], [.below .tree (n.fields.get "columns")], [.text "FROM"],
        [.below .tree (n.fields.get "from")]]
      [[.text "SELECT"], [.below .tree (m.fields.get "columns")], [.text "FROM"],
        [.below .tree (m.fields.get "from")]] :=
    .cons (.cons (hR.text _) .nil) (.cons (.cons hcolumns .nil)
      (.cons (.cons (hR.text _) .nil) (.cons (.cons hfrom .nil) .nil)))
  exact List.rel_append (List.rel_append (List.rel_append (List.rel_append hhead hjoins) hwhere)
    hgroup) horder

theorem related_insert (hR : Fair R) (hshape : Shape.insert n = Shape.insert m)
    (hinto : At R .tree (n.fields.get "into") (m.fields.get "into"))
    (hcolumns : List.Forall₂ R (insertColumns n) (insertColumns m))
    (hvalues : At R .tree (n.fields.get "values") (m.fields.get "values")) :
    Related R (insert n) (insert m) := by
  refine related_checked hR hshape (related_straight ?_)
  exact List.rel_append (.cons (hR.text _) (.cons hinto hcolumns))
    (.cons (hR.text _) (.cons hvalues (.cons (hR.text _) .nil)))

theorem related_update (hR : Fair R) (hshape : Shape.update n = Shape.update m)
    (htable : At R .tree (n.fields.get "table") (m.fields.get "table"))
    (hset : List.Forall₂ (fun p q : Value × Value => At R .tree p.1 q.1 ∧ At R .tree p.2 q.2)
      (Statement.assignments n) (Statement.assignments m))
    (hwhere : List.Forall₂ (List.Forall₂ R) (whereGroups s n) (whereGroups s m)) :
    Related R (update s n) (update s m) := by
  refine related_checked hR hshape ⟨?_, ?_, ?_, ?_⟩
  · exact .cons (hR.text _) (.cons (hR.text _) .nil)
  · exact .cons htable .nil
  · refine .cons (hR.text _) (.cons (hR.text _) (.cons (hR.text _) (related_separated hR ?_)))
    exact List.rel_map (fun _ _ hpq => .cons hpq.1 (.cons (hR.text _) (.cons hpq.2 .nil))) hset
  · exact List.rel_flatMap hwhere fun _ _ h => .cons (hR.text _) h

theorem related_delete (hR : Fair R) (hshape : Shape.delete n = Shape.delete m)
    (hfrom : At R .tree (n.fields.get "from") (m.fields.get "from"))
    (hwhere : List.Forall₂ (List.Forall₂ R) (whereGroups s n) (whereGroups s m)) :
    Related R (delete s n) (delete s m) := by
  refine related_checked hR hshape (related_straight (related_separated hR ?_))
  exact List.rel_append (.cons (.cons (hR.text _) .nil) (.cons (.cons hfrom .nil) .nil)) hwhere

theorem related_join (hR : Fair R) (hargs : n.args.length = m.args.length)
    (htable : At R .tree (n.fields.get "tablespec") (m.fields.get "tablespec"))
    (htable' : Clause.isPresent (n.fields.get "tablespec") = Clause.isPresent (m.fields.get "tablespec"))
    (hon : List.Forall₂ R (conditions s (n.fields.get "on")) (conditions s (m.fields.get "on")))
    (hon' : Clause.isPresent (n.fields.get "on") = Clause.isPresent (m.fields.get "on"))
    (husing : At R .tree (n.fields.get "using") (m.fields.get "using"))
    (husing' : Clause.isPresent (n.fields.get "using") = Clause.isPresent (m.fields.get "using")) :
    Related R (join s n) (join s m) := by
  have hempty : n.args.isEmpty = m.args.isEmpty := by
    rw [Bool.eq_iff_iff, List.isEmpty_iff_length_eq_zero, List.isEmpty_iff_length_eq_zero, hargs]
  simp only [join, hempty, htable', hon', husing']
  split
  · exact related_stop hR rfl
  · split
    · exact related_stop hR rfl
    · split
      · exact related_stop hR rfl
      · exact related_stop hR rfl
      · exact related_straight (List.rel_append (.cons (hR.text _) (.cons htable
          (.cons (hR.text _) hon))) (.cons (hR.text _) .nil))
      · exact related_straight (.cons (hR.text _) (.cons htable (.cons (hR.text _)
          (.cons husing (.cons (hR.text _) .nil)))))

theorem related_aliased (hR : Fair R)
    (hident : At R .tree (n.fields.get "ident") (m.fields.get "ident"))
    (hpresent : Clause.isPresent (n.fields.get "ident") = Clause.isPresent (m.fields.get "ident"))
    (has : n.fields.get "as" = m.fields.get "as") : Related R (aliased n) (aliased m) := by
  rw [aliased, aliased, ← has]
  generalize n.fields.get "as" = name
  generalize n.fields.get "ident" = v at hident hpresent ⊢
  generalize m.fields.get "ident" = w at hident hpresent ⊢
  split
  · cases w with
    | null => exact related_stop hR rfl
    | _ => cases hpresent
  · split
    · exact related_stop hR rfl
    · exact related_stop hR rfl
    · contradiction
  · split
    · cases v with
      | null => contradiction
      | _ => cases hpresent
    · contradiction
    · exact related_straight (.cons hident (.cons (hR.text _) .nil))

theorem related_literal (hR : Fair R)
    (h : List.Forall₂ (fun v w => R (.literal v) (.literal w)) n.args m.args) :
    Related R (literal n) (literal m) := by
  rw [literal, literal]
  generalize n.args = vs at h ⊢
  generalize m.args = ws at h ⊢
  cases h with
  | nil => exact related_stop hR rfl
  | cons h hs =>
      cases hs with
      | nil => exact related_straight (.cons h .nil)
      | cons _ _ => exact related_stop hR rfl

/-- Segments that make one name, or none. -/
theorem related_name (hR : Fair R)
    (h : (∃ t, Identifier.render s.activeQuotes s.nameSeparator n.args = .ok t ∧
        Identifier.render s.activeQuotes s.nameSeparator m.args = .ok t) ∨
      ∃ f f', Identifier.render s.activeQuotes s.nameSeparator n.args = .error f ∧
        Identifier.render s.activeQuotes s.nameSeparator m.args = .error f') :
    Related R (name s n) (name s m) := by
  rw [name, name]
  rcases h with ⟨t, hn, hm⟩ | ⟨f, f', hn, hm⟩
  · rw [hn, hm]
    exact related_text hR t
  · rw [hn, hm]
    exact related_stop hR rfl

theorem related_comparison (hR : Fair R) (htag : n.tag = m.tag)
    (h : List.Forall₂ (At R .condition) n.args m.args) :
    Related R (comparison s n) (comparison s m) := by
  rw [comparison, comparison, htag]
  generalize n.args = vs at h ⊢
  generalize m.args = ws at h ⊢
  cases h with
  | nil => exact related_stop hR rfl
  | cons h hs =>
      cases hs with
      | nil => exact related_stop hR rfl
      | cons h' hs =>
          cases hs with
          | cons _ _ => exact related_stop hR rfl
          | nil =>
              dsimp only
              split
              · exact related_stop hR rfl
              · exact related_straight (.cons h (.cons (hR.text _) (.cons h' .nil)))

theorem related_unfielded (hR : Fair R) (hn : n.args = []) (hm : m.args = []) :
    Related R (membership n) (membership m) := by
  rw [membership, membership, hn, hm]
  exact related_stop hR rfl

theorem related_membership (hR : Fair R) (htag : n.tag = m.tag) {v w : Value} {vs ws : List Value}
    (hn : n.args = v :: vs) (hm : m.args = w :: ws) (hfield : At R .condition v w)
    (hvalues : List.Forall₂ (At R .tree) vs ws) : Related R (membership n) (membership m) := by
  rw [membership, membership, hn, hm, htag]
  cases hvalues with
  | nil => exact related_text hR _
  | cons h hs =>
      refine ⟨.nil, .cons hfield .nil, ?_, .nil⟩
      exact .cons (hR.text _) (List.rel_append (related_separated hR (related_trees (.cons h hs)))
        (.cons (hR.text _) .nil))

theorem related_whereClause (hR : Fair R)
    (h : Condition.ReadRelated (At R .condition) ((n.fields.get? "where").getD (.list n.args))
      ((m.fields.get? "where").getD (.list m.args))) :
    Related R (whereClause s n) (whereClause s m) :=
  related_straight (.cons (hR.text _) (related_conditions hR h))

theorem related_ofItems (hR : Fair R) {pieces : List Value → List Piece}
    (h : (∃ vs ws, Clause.items n key = .ok vs ∧ Clause.items m key = .ok ws ∧
        List.Forall₂ R (pieces vs) (pieces ws)) ∨
      ∃ f f', Clause.items n key = .error f ∧ Clause.items m key = .error f') :
    Related R (ofItems n key pieces) (ofItems m key pieces) := by
  rw [ofItems, ofItems]
  rcases h with ⟨vs, ws, hn, hm, h⟩ | ⟨f, f', hn, hm⟩
  · rw [hn, hm]
    exact related_straight h
  · rw [hn, hm]
    exact related_stop hR rfl

theorem related_listed (hR : Fair R) {separator : String} {vs ws : List Value}
    (h : List.Forall₂ (At R .tree) vs ws) :
    Related R (straight (separated separator (trees vs))) (straight (separated separator (trees ws))) :=
  related_straight (related_separated hR (related_trees h))

theorem related_call (hR : Fair R) (function : String) (h : List.Forall₂ (At R .tree) n.args m.args) :
    Related R (Handler.outline s n (.call function)) (Handler.outline s m (.call function)) :=
  related_straight (List.rel_append (.cons (hR.text _) (related_separated hR (related_trees h)))
    (.cons (hR.text _) .nil))

end Outline

end QueryTree
