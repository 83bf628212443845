import Mathlib.Data.List.Forall2
import QueryTree.Proofs.Condition.Grammar
import QueryTree.Proofs.Condition.Reading
import QueryTree.Proofs.Rendering
import QueryTree.Renderer

/-!
# The meaning of conditions

A tree of conditions has a truth value once each of its atoms has one
(`Condition.holds`).  An AND group holds if all its members do, an OR group if one
of them does.

Laying a tree out must keep that truth value, and there are few parentheses to do
it with.  The connective with the smaller number binds tighter.  So a group of the
tighter connective is laid out as a chain, and a group of the other one as a whole
text (`groupLevel`).  Three cases arise for a group in a group.

* The same connective twice needs no parentheses, since joining is associative.
* A tighter group in the other one is a chain among chains.
* The other group in a tighter one has the greater number, so it is enclosed.

The main statement is `Clause.conditions_keep_meaning`: rendered conditions are
read in one way only, and so read they mean what the tree means.
-/

namespace QueryTree

namespace Condition

/-! ## Truth values of trees -/

mutual

/-- The truth value of a tree.  The atoms are numbered from left to right,
beginning with `start`. -/
def holds (truth : Nat → Bool) (start : Nat) : Condition → Bool
  | atom _ => truth start
  | invalid _ => false
  | group c ms => membersHold truth start c ms

/-- The truth value of members joined by a connective. -/
def membersHold (truth : Nat → Bool) (start : Nat) (c : Connective) : List Condition → Bool
  | [] => c.neutral
  | m :: ms => c.combine (holds truth start m) (membersHold truth (start + m.atoms.length) c ms)

end

/-! ## Texts with a meaning -/

/-- The connective that binds tighter, by the numbers of AND and OR. -/
def tighter (p q : Int) : Connective := if p < q then .and else .or

/-- Words that are read at a level as a formula with given atoms and truth value. -/
def Means (tight : Connective) (level : Level) (ws : List Word) (atoms : List Value)
    (value : (Nat → Bool) → Nat → Bool) : Prop :=
  ∃ f, Reads tight level ws f ∧ f.atoms = atoms ∧ ∀ truth start, f.holds truth start = value truth start

variable {tight c : Connective} {us ws : List Word} {level : Level} {as bs : List Value}
  {value value' : (Nat → Bool) → Nat → Bool}

theorem Reads.raise {f : Formula} (h : Reads tight .operand ws f) (level : Level) :
    Reads tight level ws f := by
  cases level with
  | operand => exact h
  | chain => exact .chainOne h
  | whole => exact .wholeOne (.chainOne h)

theorem Reads.toWhole {f : Formula} (h : Reads tight level ws f) : Reads tight .whole ws f := by
  cases level with
  | operand => exact h.raise .whole
  | chain => exact .wholeOne h
  | whole => exact h

theorem Means.raise (h : Means tight .operand ws as value) (level : Level) :
    Means tight level ws as value := by
  obtain ⟨f, hf, hatoms, hvalue⟩ := h
  exact ⟨f, hf.raise level, hatoms, hvalue⟩

theorem Means.whole (h : Means tight level ws as value) : Means tight .whole ws as value := by
  obtain ⟨f, hf, hatoms, hvalue⟩ := h
  exact ⟨f, hf.toWhole, hatoms, hvalue⟩

/-! ## Joining from the right -/

/-- A formula joined with one that is joined by the same connective itself, regrouped
so that all is joined from the left. -/
inductive Rejoined (c : Connective) (f : Formula) : Formula → Formula → Prop
  | joined (g : Formula) : Rejoined c f g (.joined c f g)
  | more {g h : Formula} (e : Formula) :
    Rejoined c f g h → Rejoined c f (.joined c g e) (.joined c h e)

theorem Rejoined.atoms_eq {f g h : Formula} (hj : Rejoined c f g h) :
    h.atoms = f.atoms ++ g.atoms := by
  induction hj with
  | joined g => rfl
  | more e _ ih => simp only [Formula.atoms, ih, List.append_assoc]

theorem Rejoined.holds_eq {f g h : Formula} (hj : Rejoined c f g h) (truth : Nat → Bool)
    (start : Nat) :
    h.holds truth start =
      c.combine (f.holds truth start) (g.holds truth (start + f.atoms.length)) := by
  induction hj with
  | joined g => rfl
  | more e hj ih =>
      simp only [Formula.holds, ih, hj.atoms_eq, List.length_append, Connective.combine_assoc,
        Nat.add_assoc]

/-- Two chains with the tighter connective between them are a chain, joined from
the left again. -/
theorem chain_append {us : List Word} {f : Formula} (hf : Reads tight .chain us f) :
    ∀ {ws : List Word} {g : Formula}, Reads tight .chain ws g →
      ∃ h, Reads tight .chain (us ++ .connective tight :: ws) h ∧ Rejoined tight f g h
  | _, g, .chainOne hg => ⟨.joined tight f g, .chainMore hf hg, .joined g⟩
  | _, _, @Reads.chainMore _ vs ws g e hg he => by
      obtain ⟨h, hread, hj⟩ := chain_append hf hg
      refine ⟨.joined tight h e, ?_, hj.more e⟩
      have heq : us ++ Word.connective tight :: (vs ++ .connective tight :: ws)
          = (us ++ .connective tight :: vs) ++ .connective tight :: ws := by simp
      rw [heq]
      exact .chainMore hread he

theorem whole_append {us : List Word} {f : Formula} (hf : Reads tight .whole us f) :
    ∀ {ws : List Word} {g : Formula}, Reads tight .whole ws g →
      ∃ h, Reads tight .whole (us ++ .connective tight.other :: ws) h ∧ Rejoined tight.other f g h
  | _, g, .wholeOne hg => ⟨.joined tight.other f g, .wholeMore hf hg, .joined g⟩
  | _, _, @Reads.wholeMore _ vs ws g e hg he => by
      obtain ⟨h, hread, hj⟩ := whole_append hf hg
      refine ⟨.joined tight.other h e, ?_, hj.more e⟩
      have heq : us ++ Word.connective tight.other :: (vs ++ .connective tight.other :: ws)
          = (us ++ .connective tight.other :: vs) ++ .connective tight.other :: ws := by simp
      rw [heq]
      exact .wholeMore hread he

/-- The level at which groups of a connective are laid out. -/
def groupLevel (tight c : Connective) : Level := if c = tight then .chain else .whole

theorem eq_other_of_ne {tight c : Connective} (h : c ≠ tight) : c = tight.other := by
  cases c <;> cases tight <;> first | rfl | exact absurd rfl h

/-- Texts at the level of a connective may be joined by it. -/
theorem reads_append {us ws : List Word} {f g : Formula}
    (hf : Reads tight (groupLevel tight c) us f) (hg : Reads tight (groupLevel tight c) ws g) :
    ∃ h, Reads tight (groupLevel tight c) (us ++ .connective c :: ws) h ∧ Rejoined c f g h := by
  by_cases hc : c = tight
  · subst hc
    rw [groupLevel, if_pos rfl] at hf hg ⊢
    exact chain_append hf hg
  · rw [groupLevel, if_neg hc] at hf hg ⊢
    obtain rfl : c = tight.other := eq_other_of_ne hc
    exact whole_append hf hg

theorem Means.join (hu : Means tight (groupLevel tight c) us as value)
    (hw : Means tight (groupLevel tight c) ws bs value') :
    Means tight (groupLevel tight c) (us ++ .connective c :: ws) (as ++ bs)
      fun truth start => c.combine (value truth start) (value' truth (start + as.length)) := by
  obtain ⟨f, hf, rfl, hfvalue⟩ := hu
  obtain ⟨g, hg, rfl, hgvalue⟩ := hw
  obtain ⟨h, hread, hj⟩ := reads_append hf hg
  refine ⟨h, hread, hj.atoms_eq, fun truth start => ?_⟩
  rw [hj.holds_eq, hfvalue, hgvalue]

/-! ## Laid out trees -/

/-- A tree's words keep its meaning at a level. -/
def Keeps (tight : Connective) (level : Level) (ws : List Word) (t : Condition) : Prop :=
  Means tight level ws t.atoms fun truth start => t.holds truth start

/-- The level at which a tree is laid out. -/
def treeLevel (tight : Connective) : Condition → Level
  | group c _ => groupLevel tight c
  | _ => .operand

section

variable {rank : Connective → Option Int} {p q : Int}

/-- Both connectives are ranked, and not alike. -/
structure Ranked (rank : Connective → Option Int) (p q : Int) : Prop where
  and_rank : rank .and = some p
  or_rank : rank .or = some q
  ne : p ≠ q

theorem Ranked.isSome (h : Ranked rank p q) (c : Connective) : ∃ i, rank c = some i := by
  cases c with
  | and => exact ⟨p, h.and_rank⟩
  | or => exact ⟨q, h.or_rank⟩

/-- A member is enclosed if its connective is the looser one of two. -/
theorem Ranked.lt_iff (h : Ranked rank p q) {c d : Connective} {outer inner : Int}
    (hc : rank c = some outer) (hd : rank d = some inner) :
    outer < inner ↔ c = tighter p q ∧ d ≠ tighter p q := by
  have hp := h.and_rank
  have hq := h.or_rank
  have hne := h.ne
  unfold tighter
  cases c <;> cases d <;> split <;> simp_all <;> omega

/-- A member is read at the level of the group around it, in parentheses if need be. -/
theorem reads_enclosed (hr : Ranked rank p q) {outer : Int} (hc : rank c = some outer)
    {t : Condition} {f : Formula} (h : Reads (tighter p q) (treeLevel (tighter p q) t) ws f) :
    Reads (tighter p q) (groupLevel (tighter p q) c) (enclosed rank outer t ws) f := by
  cases t with
  | atom v => exact h.raise _
  | invalid v => exact h.raise _
  | group d ms =>
      obtain ⟨inner, hd⟩ := hr.isSome d
      have hlt := hr.lt_iff hc hd
      simp only [enclosed, hd]
      split
      · exact (Reads.enclosed h.toWhole).raise _
      · next hnot =>
          rw [treeLevel] at h
          by_cases hct : c = tighter p q
          · have hdt : d = tighter p q := by
              by_contra hdt
              exact hnot (hlt.mpr ⟨hct, hdt⟩)
            rw [hct, ← hdt]
            rw [← hdt] at h
            exact h
          · have hwhole : groupLevel (tighter p q) c = .whole := if_neg hct
            rw [hwhole]
            exact h.toWhole

/-- A member keeps its meaning at the level of the group around it. -/
theorem keeps_enclosed (hr : Ranked rank p q) {outer : Int} (hc : rank c = some outer)
    {t : Condition} (h : Keeps (tighter p q) (treeLevel (tighter p q) t) ws t) :
    Keeps (tighter p q) (groupLevel (tighter p q) c) (enclosed rank outer t ws) t := by
  obtain ⟨f, hf, hatoms, hvalue⟩ := h
  exact ⟨f, reads_enclosed hr hc hf, hatoms, hvalue⟩

/-- Joined members keep the meaning of their group, one after another. -/
theorem keeps_joined :
    ∀ {parts : List (List Word)} {ms : List Condition},
      List.Forall₂ (fun ws m => Keeps tight (groupLevel tight c) ws m) parts ms → ms ≠ [] →
        Keeps tight (groupLevel tight c) (joined c parts) (.group c ms)
  | _, [m], .cons h .nil, _ => by
      obtain ⟨f, hf, hatoms, hvalue⟩ := h
      refine ⟨f, hf, ?_, fun truth start => ?_⟩
      · rw [hatoms, atoms, memberAtoms, memberAtoms, List.append_nil]
      · simp only [hvalue, holds, membersHold, Connective.combine_neutral]
  | _, _ :: m' :: ms, .cons h (.cons h' hrest), _ => by
      have ih := keeps_joined (.cons h' hrest) (List.cons_ne_nil m' ms)
      have hjoin := Means.join h ih
      rw [joined]
      · exact hjoin
      · exact List.cons_ne_nil _ _

mutual

/-- A tree without faults keeps its meaning when it is laid out. -/
theorem keeps_words (hr : Ranked rank p q) : ∀ t : Condition, t.faults = [] →
    Keeps (tighter p q) (treeLevel (tighter p q) t) (t.words rank) t
  | atom v, _ => ⟨.atom v, .atom v, rfl, fun _ _ => rfl⟩
  | invalid v, h => by simp [faults] at h
  | group c [], _ => by
      have hempty : Means (tighter p q) .operand [.constant (c == .and)] []
          fun _ _ => c.neutral :=
        ⟨.constant (c == .and), .constant _, rfl, fun _ _ => by cases c <;> rfl⟩
      exact hempty.raise _
  | group c (m :: ms), h => by
      obtain ⟨outer, hc⟩ := hr.isSome c
      rw [faults, memberFaults, List.append_eq_nil_iff] at h
      have hm := keeps_enclosed hr hc (keeps_words hr m h.1)
      have hms := keeps_memberWords hr hc ms h.2
      simp only [words, hc]
      exact keeps_joined (.cons hm hms) (List.cons_ne_nil m ms)

theorem keeps_memberWords (hr : Ranked rank p q) {c : Connective} {outer : Int}
    (hc : rank c = some outer) : ∀ ms : List Condition, memberFaults ms = [] →
      List.Forall₂ (fun ws m => Keeps (tighter p q) (groupLevel (tighter p q) c) ws m)
        (memberWords rank outer ms) ms
  | [], _ => .nil
  | m :: ms, h => by
      rw [memberFaults, List.append_eq_nil_iff] at h
      exact .cons (keeps_enclosed hr hc (keeps_words hr m h.1)) (keeps_memberWords hr hc ms h.2)

end

/-! ## Faults are words -/

theorem mem_joined {w : Word} :
    ∀ {parts : List (List Word)}, ws ∈ parts → w ∈ ws → w ∈ joined c parts
  | [us], h, hw => by
      rw [List.mem_singleton.mp h] at hw
      exact hw
  | us :: vs :: rest, h, hw => by
      rw [joined, List.mem_append]
      · rcases List.mem_cons.mp h with rfl | h
        · exact Or.inl hw
        · exact Or.inr (List.mem_cons_of_mem _ (mem_joined h hw))
      · exact List.cons_ne_nil vs rest

theorem mem_enclosed (hr : Ranked rank p q) {outer : Int} {w : Word} (t : Condition) (hw : w ∈ ws) :
    w ∈ enclosed rank outer t ws := by
  cases t with
  | atom v => exact hw
  | invalid v => exact hw
  | group d ms =>
      obtain ⟨inner, hd⟩ := hr.isSome d
      simp only [enclosed, hd]
      split
      · exact List.mem_append_left _ (List.mem_cons_of_mem _ hw)
      · exact hw

mutual

theorem invalid_mem_words (hr : Ranked rank p q) {v : Value} : ∀ t : Condition, v ∈ t.faults →
    Word.invalid v ∈ t.words rank
  | atom _, h => by simp [faults] at h
  | invalid w, h => by
      rw [faults, List.mem_singleton] at h
      simp [words, h]
  | group c [], h => by simp [faults, memberFaults] at h
  | group c (m :: ms), h => by
      obtain ⟨outer, hc⟩ := hr.isSome c
      obtain ⟨ws, hws, hw⟩ := invalid_mem_memberWords hr (m :: ms) outer h
      simp only [words, hc]
      exact mem_joined hws hw

theorem invalid_mem_memberWords (hr : Ranked rank p q) {v : Value} :
    ∀ (ms : List Condition) (outer : Int), v ∈ memberFaults ms →
      ∃ ws ∈ memberWords rank outer ms, Word.invalid v ∈ ws
  | m :: ms, outer, h => by
      rw [memberFaults, List.mem_append] at h
      rcases h with h | h
      · exact ⟨_, List.mem_cons_self, mem_enclosed hr m (invalid_mem_words hr m h)⟩
      · obtain ⟨ws, hws, hw⟩ := invalid_mem_memberWords hr ms outer h
        exact ⟨ws, List.mem_cons_of_mem _ hws, hw⟩

end

/-- If the words of a tree are rendered, there is nothing in it that can be no
condition. -/
theorem faults_eq_nil_of_rendered (hr : Ranked rank p q) {t : Condition}
    {atom : Value → Rendering Sql} {sql : Sql} {binds after : List Value}
    (h : (renderWords atom (t.words rank)).outcome binds = (.ok sql, after)) : t.faults = [] := by
  cases hf : t.faults with
  | nil => rfl
  | cons v vs =>
      have hv : Word.invalid v ∈ t.words rank :=
        invalid_mem_words hr t (hf ▸ List.mem_cons_self)
      obtain ⟨parts, mid, hparts, -⟩ := Rendering.outcome_bind_ok h
      obtain ⟨part, start, stop, hstop⟩ := Rendering.outcome_each_ok hparts _ hv
      cases congrArg Prod.fst hstop

end

end Condition

/-! ## Rendered conditions -/

open Condition in
/-- Rendered conditions mean what the tree means that the value stands for.  They
are words that are read in one way only.  The words have the atoms of the tree in
their order, and whatever truth value each atom has, what is read has that of the
tree. -/
theorem Clause.conditions_keep_meaning (s : Settings) (b : Below) (v : Value) {p q : Int}
    {sql : Sql} {binds after : List Value} (hand : s.rank .and = some p)
    (hor : s.rank .or = some q) (hne : p ≠ q)
    (h : (Clause.conditions s b v).outcome binds = (.ok sql, after)) :
    ∃ (tree : Condition) (words : List Word) (formula : Formula),
      (∀ t, Stands v t ↔ t = tree) ∧
      (renderWords b.condition words).outcome binds = (.ok sql, after) ∧
      words.filterMap Word.atom? = tree.atoms ∧
      (∀ f, Reads (tighter p q) .whole words f ↔ f = formula) ∧
      ∀ truth, formula.holds truth 0 = tree.holds truth 0 := by
  have hr : Ranked s.rank p q := ⟨hand, hor, hne⟩
  cases hv : Condition.ofValue v with
  | error f =>
      rw [Clause.conditions, hv] at h
      cases congrArg Prod.fst h
  | ok tree =>
      rw [Clause.conditions, hv, Rendering.ofExcept_ok, pure_bind] at h
      have hfaults := faults_eq_nil_of_rendered hr h
      have hstands := stands_of_ofValue hv hfaults
      obtain ⟨formula, hread, hatoms, hvalue⟩ := (keeps_words hr tree hfaults).whole
      refine ⟨tree, tree.words s.rank, formula, fun t => ⟨fun ht => ht.unique hstands, ?_⟩, h, ?_,
        fun f => ⟨fun hf => hf.unique hread, ?_⟩, fun truth => hvalue truth 0⟩
      · rintro rfl
        exact hstands
      · rw [← hatoms, hread.atoms_eq]
      · rintro rfl
        exact hread

open Condition in
/-- An OR group of a condition and an AND group, which has an empty OR group in
it.  The AND group needs no parentheses, and the empty group gets them. -/
theorem Clause.conditions_keep_meaning_nested :
    ∃ (tree : Condition) (words : List Word) (formula : Formula),
      (∀ t, Stands (.list [.str "-or", .list [.str "-true"],
        .tuple [.str "-and", .list [.str "-or"], .node "-false" [] []]]) t ↔ t = tree) ∧
      (renderWords ((Renderer.of {} none none).below 8).condition words).outcome [] =
        (.ok ([.text "1 = 1", .text " OR ", .text "(", .text "0 = 1", .text ")", .text " AND ",
          .text "0 = 1"] : Sql), []) ∧
      words.filterMap Word.atom? = tree.atoms ∧
      (∀ f, Reads .and .whole words f ↔ f = formula) ∧
      ∀ truth, formula.holds truth 0 = tree.holds truth 0 :=
  Clause.conditions_keep_meaning {} ((Renderer.of {} none none).below 8) _
    (p := 10) (q := 50) rfl rfl (by decide) rfl

end QueryTree
