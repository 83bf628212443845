import QueryTree.Proofs.Outline.Handlers
import QueryTree.Proofs.Weight

/-!
# What pieces an outline has

Whatever the handler, the pieces of its outline are of few kinds (`Piece.Fits`).

* A literal is the one operand of the node.
* A value below the node stands for a lighter node, if for any.
* An error has one of the kinds in `ErrorKind`, or names a connective that the
  settings do not rank.

Errors are about what stands below the node (`Piece.Made`), with one exception: a
comparison stops if its operator has no token.

What holds of the operands of a node may be passed on to what handlers take out of them
and to what they render (`Node.Passes`).  It then holds of all pieces
(`Handler.from_mem_outline`).  This is where every handler is looked at once.  That values
below stand for lighter nodes is one such property (`Node.passes_over`), and gives the main
statements `Handler.mem_outline` and `Handler.fits_outline`.
-/

namespace QueryTree

/-! ## Kinds of errors -/

/-- The kinds of errors a caller can tell apart. -/
inductive ErrorKind where
  /-- A clause is missing or has the wrong shape. -/
  | structural
  /-- An operation is in no table. -/
  | unknownTag
  /-- A bare operator is in no table. -/
  | unknownOperator
  /-- An operator has no token. -/
  | unmappedOperator
  /-- A node has several alternative operands, or none. -/
  | configuration
deriving DecidableEq, Repr

namespace RenderError

/-- The kind of an error.  A connective without priority and a budget used up have
none. -/
def kind? : RenderError → Option ErrorKind
  | structural _ => some .structural
  | unknownTag .. => some .unknownTag
  | unknownOperator _ => some .unknownOperator
  | unmappedOperator _ => some .unmappedOperator
  | joinConditionTwice => some .configuration
  | joinConditionMissing => some .configuration
  | unranked _ => none
  | tooDeep => none

/-- An error that handlers stop with. -/
def Expected (s : Settings) : RenderError → Prop
  | unranked c => s.rank c = none
  | e => e.kind?.isSome

/-- An error about what stands below a node, and not about its tag. -/
def AboutOperands (s : Settings) : RenderError → Prop
  | structural _ => True
  | joinConditionTwice => True
  | joinConditionMissing => True
  | unranked c => s.rank c = none
  | _ => False

theorem AboutOperands.expected {s : Settings} {e : RenderError} (h : e.AboutOperands s) :
    e.Expected s := by
  cases e with
  | unranked c => exact h
  | structural f => exact rfl
  | joinConditionTwice => exact rfl
  | joinConditionMissing => exact rfl
  | _ => exact h.elim

end RenderError

/-! ## Words of conditions -/

namespace Condition

/-- A word that a tree with given atoms may have. -/
def Word.Fits (rank : Connective → Option Int) (as : List Value) : Word → Prop
  | .atom v => v ∈ as
  | .unranked c => rank c = none
  | _ => True

variable {rank : Connective → Option Int} {as bs : List Value}

theorem Word.Fits.mono {w : Word} (h : w.Fits rank as) (hsub : as ⊆ bs) : w.Fits rank bs := by
  cases w with
  | atom v => exact hsub h
  | _ => exact h

theorem fits_enclosed {outer : Int} {ws : List Word} (t : Condition)
    (h : ∀ w ∈ ws, w.Fits rank as) : ∀ w ∈ enclosed rank outer t ws, w.Fits rank as := by
  cases t with
  | atom v => exact h
  | invalid v => exact h
  | group c ms =>
      rw [enclosed]
      cases hc : rank c with
      | none =>
          intro w hw
          obtain rfl := List.mem_singleton.mp hw
          exact hc
      | some inner =>
          dsimp only
          split
          · rw [List.forall_mem_append, List.forall_mem_cons]
            exact ⟨⟨trivial, h⟩, fun w hw => List.mem_singleton.mp hw ▸ trivial⟩
          · exact h

theorem joined_cons (c : Connective) (us vs : List Word) (rest : List (List Word)) :
    joined c (us :: vs :: rest) = us ++ .connective c :: joined c (vs :: rest) := by
  rw [joined]
  exact List.cons_ne_nil vs rest

theorem fits_joined {c : Connective} :
    ∀ {parts : List (List Word)}, (∀ ws ∈ parts, ∀ w ∈ ws, w.Fits rank as) →
      ∀ w ∈ joined c parts, w.Fits rank as
  | [], _, w, hw => by cases hw
  | [ws], h, w, hw => h ws List.mem_cons_self w hw
  | us :: vs :: rest, h, w, hw => by
      rw [joined_cons, List.mem_append, List.mem_cons] at hw
      rcases hw with hw | rfl | hw
      · exact h us List.mem_cons_self w hw
      · trivial
      · exact fits_joined (fun ws hws => h ws (List.mem_cons_of_mem us hws)) w hw

mutual

theorem fits_words : ∀ (t : Condition), ∀ w ∈ t.words rank, w.Fits rank t.atoms
  | atom v => by simp [words, Word.Fits, atoms]
  | invalid v => by simp [words, Word.Fits]
  | group c [] => by simp [words, Word.Fits]
  | group c (m :: ms) => by
      rw [words]
      cases hc : rank c with
      | none =>
          intro w hw
          obtain rfl := List.mem_singleton.mp hw
          exact hc
      | some outer =>
          apply fits_joined
          intro ws hws
          exact fits_memberWords outer (m :: ms) ws hws

theorem fits_memberWords (outer : Int) :
    ∀ (ms : List Condition), ∀ ws ∈ memberWords rank outer ms, ∀ w ∈ ws,
      w.Fits rank (memberAtoms ms)
  | [], _, hws => by cases hws
  | m :: ms, ws, hws => by
      intro w hw
      rw [memberAtoms]
      rcases List.mem_cons.mp hws with rfl | hws
      · exact (fits_enclosed m (fits_words m) w hw).mono (List.subset_append_left _ _)
      · exact (fits_memberWords outer ms ws hws w hw).mono (List.subset_append_right _ _)

end

end Condition

/-! ## Joins of a select -/

namespace Clause

theorem weight_asJoin {v w : Value} (h : asJoin v = .ok w) : w.weight = v.weight := by
  cases v with
  | map entries =>
      obtain rfl := Except.ok.inj h
      simp only [Value.weight, Value.weightEntries_set]
  | node tag args fields =>
      rw [asJoin] at h
      split at h
      · obtain rfl := Except.ok.inj h
        rfl
      · cases h
  | _ => cases h

theorem mem_asJoins {w : Value} :
    ∀ {vs joins : List Value}, asJoins vs = .ok joins → w ∈ joins → ∃ v ∈ vs, asJoin v = .ok w
  | [], _, h, hw => by
      obtain rfl := Except.ok.inj h
      cases hw
  | v :: rest, joins, h, hw => by
      rw [asJoins] at h
      cases hv : asJoin v with
      | error f =>
          rw [hv] at h
          cases h
      | ok join =>
          rw [hv] at h
          cases hrest : asJoins rest with
          | error f =>
              rw [hrest] at h
              cases h
          | ok more =>
              rw [hrest] at h
              obtain rfl := Except.ok.inj h
              rcases List.mem_cons.mp hw with rfl | hw
              · exact ⟨v, List.mem_cons_self, hv⟩
              · obtain ⟨v', hv', hw'⟩ := mem_asJoins hrest hw
                exact ⟨v', List.mem_cons_of_mem v hv', hw'⟩

/-- A join of a select is one value, or an item of it, made a join. -/
theorem mem_joinList {v w : Value} {joins : List Value} (h : joinList v = .ok joins)
    (hw : w ∈ joins) :
    asJoin v = .ok w ∨ ∃ items, v.sequence? = some items ∧ ∃ u ∈ items, asJoin u = .ok w := by
  unfold joinList at h
  split at h
  · cases hv : asJoin v with
    | error f =>
        rw [hv] at h
        cases h
    | ok join =>
        rw [hv] at h
        obtain rfl := Except.ok.inj h
        obtain rfl := List.mem_singleton.mp hw
        exact Or.inl rfl
  · cases hv : v.sequence? with
    | none =>
        rw [hv] at h
        cases h
    | some items =>
        rw [hv] at h
        match items with
        | [] => cases h
        | join :: rest => exact Or.inr ⟨_, rfl, mem_asJoins h hw⟩

end Clause

/-! ## What a node passes on -/

/-- A node passes on `P` and `Q`.  `P` holds of its operands and of what handlers take
out of them, and `Q` of what they render. -/
structure Node.Passes (n : Node) (P Q : Value → Prop) : Prop where
  null : P .null
  arg : ∀ {v}, v ∈ n.args → P v
  get? : ∀ {key v}, n.fields.get? key = some v → P v
  item : ∀ {v w items}, P w → w.sequence? = some items → v ∈ items → P v
  operand : ∀ {v w}, P w → v ∈ w.operands → P v
  join : ∀ {v w}, P v → Clause.asJoin v = .ok w → P w
  rendered : ∀ {v}, P v → Q v
  atom : ∀ {v t a}, P v → Condition.ofValue v = .ok t → a ∈ t.atoms → Q a
  /-- The conditions of a WHERE clause may be all its operands together. -/
  ownAtom : ∀ {t a}, Condition.ofValue (.list n.args) = .ok t → a ∈ t.atoms → Q a

namespace Node

variable {n : Node} {P Q : Value → Prop}

theorem Passes.get (h : n.Passes P Q) (key : String) : P (n.fields.get key) := by
  rw [Fields.get]
  cases hv : n.fields.get? key with
  | none => exact h.null
  | some v => exact h.get? hv

theorem Passes.item_getD (h : n.Passes P Q) {v w : Value} (hw : P w)
    (hv : v ∈ w.sequence?.getD []) : P v := by
  cases hitems : w.sequence? with
  | none =>
      rw [hitems] at hv
      cases hv
  | some items =>
      rw [hitems] at hv
      exact h.item hw hitems hv

theorem Passes.joinList (h : n.Passes P Q) {v w : Value} {joins : List Value} (hv : P v)
    (hjoins : Clause.joinList v = .ok joins) (hw : w ∈ joins) : P w := by
  rcases Clause.mem_joinList hjoins hw with hjoin | ⟨items, hitems, u, hu, hjoin⟩
  · exact h.join hv hjoin
  · exact h.join (h.item hv hitems hu) hjoin

theorem Passes.pair (h : n.Passes P Q) {v : Value} {pair : Value × Value} (hv : P v)
    (hp : Shape.pair? v = some pair) : P pair.1 ∧ P pair.2 := by
  unfold Shape.pair? at hp
  split at hp
  · next target value hseq =>
      split at hp
      · obtain rfl := Option.some.inj hp
        exact ⟨h.item hv hseq (by simp), h.item hv hseq (by simp)⟩
      · cases hp
  · cases hp

/-- A node is heavier than its operands, and so than the nodes that are rendered. -/
theorem passes_over (n : Node) : n.Passes n.Outweighs n.Over where
  null := fun h => absurd rfl h
  arg := outweighs_arg
  get? := outweighs_get?
  item := Outweighs.item
  operand := Outweighs.operand
  join := by
    intro v w hv hjoin
    refine hv.of_le ?_ (Nat.le_of_eq (Clause.weight_asJoin hjoin))
    rintro rfl
    cases hjoin
  rendered := Outweighs.over
  atom := fun hv ht => Condition.outweighs_atoms hv ht _
  ownAtom := by
    intro t a ht ha m hm
    -- the list weighs as much as the node, but its items together are lighter
    have := Condition.weight_le_of_mem_sequence rfl ht ha hm
    show m.weight < 1 + Value.weightItems n.args + n.fields.weight
    omega

end Node

/-! ## Pieces -/

namespace Piece

/-- A piece that a handler may make of a node. -/
inductive Fits (s : Settings) (n : Node) : Piece → Prop
  | text (t : String) : Fits s n (.text t)
  | literal {v : Value} : n.args = [v] → Fits s n (.literal v)
  | below {place : Renderer.Place} {v : Value} : n.Over v → Fits s n (.below place v)
  | stop {e : RenderError} : e.Expected s → Fits s n (.stop e)

/-- A piece that a handler makes of what stands below a node. -/
inductive Made (s : Settings) (n : Node) : Piece → Prop
  | text (t : String) : Made s n (.text t)
  | literal {v : Value} : n.args = [v] → Made s n (.literal v)
  | below {place : Renderer.Place} {v : Value} : n.Over v → Made s n (.below place v)
  | stop {e : RenderError} : e.AboutOperands s → Made s n (.stop e)

/-- A piece that a handler makes of a node that passes on `Q` to what is rendered. -/
inductive From (s : Settings) (n : Node) (Q : Value → Prop) : Piece → Prop
  | text (t : String) : From s n Q (.text t)
  | literal {v : Value} : n.args = [v] → From s n Q (.literal v)
  | below {place : Renderer.Place} {v : Value} : Q v → From s n Q (.below place v)
  | stop {e : RenderError} : e.AboutOperands s → From s n Q (.stop e)

variable {s : Settings} {n : Node} {P Q : Value → Prop}

theorem Made.fits {p : Piece} (h : p.Made s n) : p.Fits s n := by
  cases h with
  | text t => exact .text t
  | literal hargs => exact .literal hargs
  | below hv => exact .below hv
  | stop he => exact .stop he.expected

theorem From.made {p : Piece} (h : p.From s n n.Over) : p.Made s n := by
  cases h with
  | text t => exact .text t
  | literal hargs => exact .literal hargs
  | below hv => exact .below hv
  | stop he => exact .stop he

theorem forall_mem_separated {P : Piece → Prop} {separator : String} (htext : P (.text separator)) :
    ∀ {groups : List (List Piece)}, (∀ ps ∈ groups, ∀ p ∈ ps, P p) →
      ∀ p ∈ separated separator groups, P p
  | [], _, p, hp => by cases hp
  | [ps], h, p, hp => h ps List.mem_cons_self p hp
  | ps :: qs :: rest, h, p, hp => by
      rw [separated_cons, List.mem_append, List.mem_cons] at hp
      rcases hp with hp | rfl | hp
      · exact h ps List.mem_cons_self p hp
      · exact htext
      · exact forall_mem_separated htext (fun rs hrs => h rs (List.mem_cons_of_mem ps hrs)) p hp

theorem from_separated {separator : String} {groups : List (List Piece)}
    (h : ∀ ps ∈ groups, ∀ p ∈ ps, From s n Q p) : ∀ p ∈ separated separator groups, From s n Q p :=
  forall_mem_separated (.text separator) h

theorem from_trees {vs : List Value} (h : ∀ v ∈ vs, Q v) :
    ∀ ps ∈ trees vs, ∀ p ∈ ps, From s n Q p := by
  intro ps hps p hp
  obtain ⟨v, hv, rfl⟩ := List.mem_map.mp hps
  obtain rfl := List.mem_singleton.mp hp
  exact .below (h v hv)

theorem from_conditions {v : Value}
    (h : ∀ t a, Condition.ofValue v = .ok t → a ∈ t.atoms → Q a) :
    ∀ p ∈ conditions s v, From s n Q p := by
  unfold conditions
  cases ht : Condition.ofValue v with
  | error f =>
      intro p hp
      obtain rfl := List.mem_singleton.mp hp
      exact .stop trivial
  | ok t =>
      intro p hp
      obtain ⟨w, hw, rfl⟩ := List.mem_map.mp hp
      have hfits := Condition.fits_words t w hw
      cases w with
      | atom a => exact .below (h t a ht hfits)
      | unranked c => exact .stop hfits
      | invalid a => exact .stop trivial
      | _ => exact .text _

/-- The values below the conditions of a value are the atoms of its tree. -/
theorem mem_conditions {place : Renderer.Place} {v a : Value}
    (h : .below place a ∈ conditions s v) :
    ∃ t, Condition.ofValue v = .ok t ∧ a ∈ t.atoms := by
  unfold conditions at h
  cases ht : Condition.ofValue v with
  | error f =>
      rw [ht] at h
      cases List.mem_singleton.mp h
  | ok t =>
      rw [ht] at h
      obtain ⟨w, hw, heq⟩ := List.mem_map.mp h
      cases w with
      | atom b =>
          obtain ⟨-, rfl⟩ := Piece.below.inj heq
          exact ⟨t, rfl, Condition.fits_words t _ hw⟩
      | _ => cases heq

section

variable (h : n.Passes P Q)

include h

theorem from_orderItem {v : Value} (hv : P v) : ∀ p ∈ orderItem v, From s n Q p := by
  unfold orderItem
  intro p hp
  split at hp
  · obtain rfl := List.mem_singleton.mp hp
    exact .below (h.rendered hv)
  · split at hp
    · next hoperands =>
        rcases List.mem_cons.mp hp with rfl | hp
        · exact .below (h.rendered (h.operand hv (hoperands ▸ List.mem_cons_self)))
        · obtain rfl := List.mem_singleton.mp hp
          exact .text _
    · obtain rfl := List.mem_singleton.mp hp
      exact .stop trivial

theorem from_orderItems {vs : List Value} (hvs : ∀ v ∈ vs, P v) :
    ∀ p ∈ orderItems vs, From s n Q p := by
  rw [orderItems, List.forall_mem_cons]
  refine ⟨.text _, from_separated fun ps hps => ?_⟩
  obtain ⟨v, hv, rfl⟩ := List.mem_map.mp hps
  exact from_orderItem h (hvs v hv)

theorem from_groupItems {vs : List Value} (hvs : ∀ v ∈ vs, P v) :
    ∀ p ∈ groupItems vs, From s n Q p := by
  rw [groupItems, List.forall_mem_cons]
  exact ⟨.text _, from_separated (from_trees fun v hv => h.rendered (hvs v hv))⟩

theorem from_optional {key : String} {groups : Value → List (List Piece)}
    (hgroups : ∀ v, P v → ∀ ps ∈ groups v, ∀ p ∈ ps, From s n Q p) :
    ∀ ps ∈ Piece.optional n key groups, ∀ p ∈ ps, From s n Q p := by
  unfold Piece.optional
  intro ps hps
  cases hv : n.fields.get? key with
  | none =>
      rw [hv] at hps
      cases hps
  | some v =>
      rw [hv] at hps
      exact hgroups v (h.get? hv) ps hps

theorem from_whereGroups : ∀ ps ∈ whereGroups s n, ∀ p ∈ ps, From s n Q p := by
  refine from_optional h fun v hv ps hps => ?_
  obtain rfl := List.mem_singleton.mp hps
  rw [List.forall_mem_cons]
  exact ⟨.text _, from_conditions fun _ _ => h.atom hv⟩

theorem from_joinGroups : ∀ ps ∈ joinGroups n, ∀ p ∈ ps, From s n Q p := by
  refine from_optional h fun v hv ps hps => ?_
  cases hjoins : Clause.joinList v with
  | error f =>
      simp only [hjoins, List.mem_singleton] at hps
      subst hps
      intro p hp
      obtain rfl := List.mem_singleton.mp hp
      exact .stop trivial
  | ok joins =>
      simp only [hjoins] at hps
      exact from_trees (fun w hw => h.rendered (h.joinList hv hjoins hw)) ps hps

theorem from_groupingGroups : ∀ ps ∈ groupingGroups n, ∀ p ∈ ps, From s n Q p := by
  refine from_optional h fun v hv ps hps => ?_
  obtain rfl := List.mem_singleton.mp hps
  exact from_groupItems h fun w hw => h.item_getD hv hw

theorem from_orderingGroups : ∀ ps ∈ orderingGroups n, ∀ p ∈ ps, From s n Q p := by
  refine from_optional h fun v hv ps hps => ?_
  obtain rfl := List.mem_singleton.mp hps
  exact from_orderItems h fun w hw => h.item_getD hv hw

theorem from_get (place : Renderer.Place) (key : String) :
    From s n Q (.below place (n.fields.get key)) := .below (h.rendered (h.get key))

theorem from_assignments :
    ∀ ps ∈ (Statement.assignments n).map assignment, ∀ p ∈ ps, From s n Q p := by
  intro ps hps
  obtain ⟨pair, hpair, rfl⟩ := List.mem_map.mp hps
  obtain ⟨v, hv, hvpair⟩ := List.mem_filterMap.mp hpair
  obtain ⟨htarget, hvalue⟩ := h.pair (h.item_getD (h.get "set") hv) hvpair
  simp only [assignment, List.forall_mem_cons]
  exact ⟨.below (h.rendered htarget), .text _, .below (h.rendered hvalue), List.forall_mem_nil _⟩

end

end Piece

/-! ## Outlines -/

namespace Outline

open Piece

variable {s : Settings} {n : Node} {P Q : Value → Prop}

/-- All pieces of an outline may be made of a node. -/
def Fits (s : Settings) (n : Node) (o : Outline) : Prop := ∀ p ∈ o.pieces, p.Fits s n

/-- All pieces of an outline are made of a node that passes on `Q`. -/
def From (s : Settings) (n : Node) (Q : Value → Prop) (o : Outline) : Prop :=
  ∀ p ∈ o.pieces, p.From s n Q

theorem fits_stop {e : RenderError} (h : e.Expected s) : (stop e).Fits s n :=
  fun _ hp => List.mem_singleton.mp hp ▸ .stop h

theorem from_straight {ps : List Piece} (h : ∀ p ∈ ps, p.From s n Q) :
    (straight ps).From s n Q := by
  rw [From, pieces_straight]
  exact h

theorem from_stop {e : RenderError} (h : e.AboutOperands s) : (stop e).From s n Q :=
  from_straight fun _ hp => List.mem_singleton.mp hp ▸ .stop h

theorem from_checked {issues : List Issue} {o : Outline} (h : o.From s n Q) :
    (checked issues o).From s n Q := by
  cases issues with
  | nil => exact h
  | cons issue rest => exact from_stop trivial

theorem from_literal : (literal n).From s n Q := by
  unfold literal
  split
  · next v hargs =>
      apply from_straight
      rw [List.forall_mem_singleton]
      exact .literal hargs
  · exact from_stop trivial

theorem from_name : (name s n).From s n Q := by
  unfold name
  split
  · apply from_straight
    rw [List.forall_mem_singleton]
    exact .text _
  · exact from_stop trivial

section

variable (h : n.Passes P Q)

include h

theorem from_select : (select s n).From s n Q := by
  refine from_checked (from_straight (from_separated ?_))
  simp only [selectGroups, List.forall_mem_append, List.forall_mem_cons, List.not_mem_nil,
    false_implies, implies_true, and_true]
  exact ⟨⟨⟨⟨⟨.text _, from_get h _ _, .text _, from_get h _ _⟩, from_joinGroups h⟩,
    from_whereGroups h⟩, from_groupingGroups h⟩, from_orderingGroups h⟩

theorem from_insert : (insert n).From s n Q := by
  have hcolumns : ∀ p ∈ insertColumns n, p.From s n Q := by
    intro p hp
    obtain ⟨ps, hps, hp⟩ := List.mem_flatten.mp hp
    refine from_optional h (fun v hv ps hps => ?_) ps hps p hp
    obtain rfl := List.mem_singleton.mp hps
    simp only [List.forall_mem_cons, List.not_mem_nil, false_implies, implies_true, and_true]
    exact ⟨.text _, .below (h.rendered hv), .text _⟩
  refine from_checked (from_straight ?_)
  simp only [List.forall_mem_append, List.forall_mem_cons, List.not_mem_nil, false_implies,
    implies_true, and_true]
  exact ⟨⟨.text _, from_get h _ _, hcolumns⟩, .text _, from_get h _ _, .text _⟩

theorem from_update : (update s n).From s n Q := by
  have hrest : ∀ p ∈ (whereGroups s n).flatMap (text " " :: ·), p.From s n Q := by
    intro p hp
    obtain ⟨ps, hps, hp⟩ := List.mem_flatMap.mp hp
    rcases List.mem_cons.mp hp with rfl | hp
    · exact .text _
    · exact from_whereGroups h ps hps p hp
  refine from_checked ?_
  simp only [From, pieces, List.forall_mem_append, List.forall_mem_cons, List.not_mem_nil,
    false_implies, implies_true, and_true]
  exact ⟨⟨⟨⟨.text _, .text _⟩, from_get h _ _⟩, .text _, .text _, .text _,
    from_separated (from_assignments h)⟩, hrest⟩

theorem from_delete : (delete s n).From s n Q := by
  refine from_checked (from_straight (from_separated ?_))
  simp only [List.forall_mem_append, List.forall_mem_cons, List.not_mem_nil, false_implies,
    implies_true, and_true]
  exact ⟨⟨.text _, from_get h _ _⟩, from_whereGroups h⟩

theorem from_aliased : (aliased n).From s n Q := by
  have hident : Q (n.fields.get "ident") := h.rendered (h.get "ident")
  unfold aliased
  split
  · exact from_stop trivial
  · exact from_stop trivial
  · apply from_straight
    simp only [List.forall_mem_cons, List.not_mem_nil, false_implies, implies_true, and_true]
    exact ⟨.below hident, .text _⟩

/-- A comparison may also stop because its operator has no token. -/
theorem from_comparison : ∀ p ∈ (comparison s n).pieces,
    p.From s n Q ∨ p = .stop (.unmappedOperator n.tag) ∧ s.operators.lookup n.tag = none := by
  intro p hp
  unfold comparison at hp
  split at hp
  · next lhs rhs hargs =>
      split at hp
      · next hnone => exact Or.inr ⟨List.mem_singleton.mp hp, hnone⟩
      · have hlhs : Q lhs := h.rendered (h.arg (by rw [hargs]; simp))
        have hrhs : Q rhs := h.rendered (h.arg (by rw [hargs]; simp))
        refine Or.inl (from_straight ?_ p hp)
        simp only [List.forall_mem_cons, List.not_mem_nil, false_implies, implies_true, and_true]
        exact ⟨.below hlhs, .text _, .below hrhs⟩
  · obtain rfl := List.mem_singleton.mp hp
    exact Or.inl (.stop trivial)

theorem from_membership : (membership n).From s n Q := by
  unfold membership
  split
  · exact from_stop trivial
  · apply from_straight
    rw [List.forall_mem_singleton]
    exact .text _
  · next field values _ hargs =>
      have hfield : Q field := h.rendered (h.arg (by rw [hargs]; exact List.mem_cons_self))
      have hvalues : ∀ v ∈ values, Q v := fun v hv =>
        h.rendered (h.arg (by rw [hargs]; exact List.mem_cons_of_mem field hv))
      simp only [From, pieces, List.forall_mem_append, List.forall_mem_cons, List.not_mem_nil,
        false_implies, implies_true, and_true, true_and]
      exact ⟨.below hfield, ⟨.text _, from_separated (from_trees hvalues)⟩, .text _⟩

theorem from_whereClause : (whereClause s n).From s n Q := by
  refine from_straight ?_
  rw [List.forall_mem_cons]
  refine ⟨.text _, ?_⟩
  cases hv : n.fields.get? "where" with
  | some v => exact from_conditions fun _ _ => h.atom (h.get? hv)
  | none => exact from_conditions fun _ _ => h.ownAtom

theorem from_join : (join s n).From s n Q := by
  simp only [join]
  split
  · exact from_stop trivial
  · split
    · exact from_stop trivial
    · split
      · exact from_stop trivial
      · exact from_stop trivial
      · apply from_straight
        simp only [List.forall_mem_append, List.forall_mem_cons, List.not_mem_nil, false_implies,
          implies_true, and_true]
        exact ⟨⟨.text _, from_get h _ _, .text _,
          from_conditions fun _ _ => h.atom (h.get "on")⟩, .text _⟩
      · apply from_straight
        simp only [List.forall_mem_cons, List.not_mem_nil, false_implies, implies_true, and_true]
        exact ⟨.text _, from_get h _ _, .text _, from_get h _ _, .text _⟩

theorem from_ofItems {key : String} {pieces : List Value → List Piece}
    (hpieces : ∀ vs, (∀ v ∈ vs, P v) → ∀ p ∈ pieces vs, p.From s n Q) :
    (ofItems n key pieces).From s n Q := by
  unfold ofItems
  cases hitems : Clause.items n key with
  | error f => exact from_stop trivial
  | ok items =>
      refine from_straight (hpieces items fun v hv => ?_)
      unfold Clause.items at hitems
      split at hitems
      · obtain rfl := Except.ok.inj hitems
        exact h.arg hv
      · next w hw =>
          split at hitems
          · next found hfound =>
              obtain rfl := Except.ok.inj hitems
              exact h.item (h.get? hw) hfound hv
          · cases hitems

end

end Outline

namespace Handler

open Piece Outline

variable {s : Settings} {n : Node} {P Q : Value → Prop}

/-- What a node passes on reaches every piece of a handler's outline, unless the handler
is a comparison. -/
theorem from_outline (hpasses : n.Passes P Q) {h : Handler} (hne : h ≠ .comparison) :
    (h.outline s n).From s n Q := by
  have hargs : ∀ v ∈ n.args, Q v := fun _ hv => hpasses.rendered (hpasses.arg hv)
  have htext : ∀ t : String, (straight [.text t]).From s n Q := fun t =>
    from_straight fun _ hp => List.mem_singleton.mp hp ▸ .text t
  cases h with
  | select => exact from_select hpasses
  | insert => exact from_insert hpasses
  | update => exact from_update hpasses
  | delete => exact from_delete hpasses
  | whereClause => exact from_whereClause hpasses
  | orderBy => exact from_ofItems hpasses fun _ => from_orderItems hpasses
  | groupBy => exact from_ofItems hpasses fun _ => from_groupItems hpasses
  | join => exact from_join hpasses
  | list => exact from_straight (from_separated (from_trees hargs))
  | aliased => exact from_aliased hpasses
  | name => exact from_name
  | literal => exact from_literal
  | always => exact htext _
  | never => exact htext _
  | comparison => exact absurd rfl hne
  | membership => exact from_membership hpasses
  | constant t => exact htext t
  | call function =>
      apply from_straight
      simp only [List.forall_mem_append, List.forall_mem_cons, List.not_mem_nil, false_implies,
        implies_true, and_true]
      exact ⟨⟨.text _, from_separated (from_trees hargs)⟩, .text _⟩

/-- A piece of a handler's outline is made of what a node passes on, or the handler is a
comparison and the tag has no token. -/
theorem from_mem_outline (hpasses : n.Passes P Q) {h : Handler} {p : Piece}
    (hp : p ∈ (h.outline s n).pieces) :
    p.From s n Q ∨ h = .comparison ∧ p = .stop (.unmappedOperator n.tag) ∧
      s.operators.lookup n.tag = none := by
  by_cases hcomparison : h = .comparison
  · subst hcomparison
    exact (from_comparison hpasses p hp).imp_right fun hunmapped => ⟨rfl, hunmapped⟩
  · exact Or.inl (from_outline hpasses hcomparison p hp)

/-- A piece of a handler's outline is made of what stands below the node, or the handler
is a comparison and the tag has no token. -/
theorem mem_outline {h : Handler} {p : Piece} (hp : p ∈ (h.outline s n).pieces) :
    p.Made s n ∨ h = .comparison ∧ p = .stop (.unmappedOperator n.tag) ∧
      s.operators.lookup n.tag = none := (from_mem_outline n.passes_over hp).imp_left (·.made)

/-- Every piece of a handler's outline fits the node. -/
theorem fits_outline (s : Settings) (n : Node) (h : Handler) : (h.outline s n).Fits s n := by
  intro p hp
  rcases mem_outline hp with hmade | ⟨-, rfl, -⟩
  · exact hmade.fits
  · exact .stop rfl

end Handler

end QueryTree
