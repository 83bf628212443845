import QueryTree.Proofs.Condition.Pairs

/-!
# No parentheses too many

A text is read as a formula, and the formula is an and/or tree again: a group of the
same connective in a group is *spliced* into it, so that what associativity leaves open
plays no part (`Formula.tree`).  A tree of conditions is flattened likewise
(`Condition.flat`).  If each of its groups has two members or more, its text is read as
the tree itself (`reads_flat`).

No pair of parentheses can go.  The reason is a count.  The *enclosures* of a tree are
its groups of the looser connective in groups of the tighter one.

* A text needs a pair for each enclosure of the tree that it is read as
  (`enclosures_le_openings`).
* The text of a tree has just one pair for each (`openings_words`), and flattening keeps
  their number (`enclosures_flat`).

So the text without one of its pairs is read as a tree with fewer enclosures, which is
another tree.

The main statement is `Clause.parentheses_minimal`.  It says besides that of the two
priorities only which is the smaller matters.
-/

namespace QueryTree

namespace Condition

/-! ## Trees of formulas -/

/-- A tree as members of a group: a group of the same connective gives its own. -/
def spliced (c : Connective) : Condition → List Condition
  | group d ms => if d = c then ms else [group d ms]
  | t => [t]

/-- The tree of a formula.  A constant is the group without members that it is laid
out for. -/
def Formula.tree : Formula → Condition
  | .atom v => .atom v
  | .constant b => .group (if b then .and else .or) []
  | .joined c f g => .group c (f.tree.spliced c ++ g.tree.spliced c)

mutual

/-- A tree with each group in a group of the same connective spliced. -/
def flat : Condition → Condition
  | atom v => atom v
  | invalid v => invalid v
  | group c ms => group c (flatMembers c ms)

/-- The members of a group, flat and spliced. -/
def flatMembers (c : Connective) : List Condition → List Condition
  | [] => []
  | m :: ms => spliced c (flat m) ++ flatMembers c ms

end

mutual

/-- A tree of atoms and of groups with two members or more. -/
def Full : Condition → Prop
  | atom _ => True
  | invalid _ => False
  | group _ ms => 2 ≤ ms.length ∧ AllFull ms

/-- Trees of atoms and of groups with two members or more. -/
def AllFull : List Condition → Prop
  | [] => True
  | m :: ms => Full m ∧ AllFull ms

end

theorem Rejoined.tree_eq {c : Connective} {f g h : Formula} (hj : Rejoined c f g h) :
    h.tree = .group c (f.tree.spliced c ++ g.tree.spliced c) := by
  induction hj with
  | joined g => rfl
  | more e _ ih => simp [Formula.tree, ih, spliced]

/-! ## Reading a text as its tree -/

section

variable {tight c : Connective} {rank : Connective → Option Int} {p q : Int}

/-- Joined members are read as a tree that gives the flat members to their group. -/
theorem joined_spliced :
    ∀ {parts : List (List Word)} {ms : List Condition},
      List.Forall₂ (fun ws m => ∃ f, Reads tight (groupLevel tight c) ws f ∧ f.tree = flat m)
        parts ms → ms ≠ [] →
      ∃ f, Reads tight (groupLevel tight c) (joined c parts) f ∧
        f.tree.spliced c = flatMembers c ms ∧
        (2 ≤ ms.length → f.tree = .group c (flatMembers c ms))
  | _, [m], .cons h .nil, _ => by
      obtain ⟨f, hf, htree⟩ := h
      refine ⟨f, hf, by simp [flatMembers, htree], fun hlength => ?_⟩
      simp at hlength
  | _, m :: m' :: ms, .cons h (.cons h' hrest), _ => by
      obtain ⟨f, hf, htree⟩ := h
      obtain ⟨g, hg, hspliced, -⟩ := joined_spliced (.cons h' hrest) (List.cons_ne_nil m' ms)
      obtain ⟨e, he, hj⟩ := reads_append hf hg
      have hwhole : e.tree = .group c (flatMembers c (m :: m' :: ms)) := by
        rw [hj.tree_eq, htree, hspliced]
        rfl
      refine ⟨e, ?_, by simp [hwhole, spliced], fun _ => hwhole⟩
      rw [joined]
      · exact he
      · exact List.cons_ne_nil _ _

mutual

/-- The text of a tree is read as the tree, flattened. -/
theorem reads_flat (hr : Ranked rank p q) : ∀ t : Condition, t.Full →
    ∃ f, Reads (tighter p q) (treeLevel (tighter p q) t) (t.words rank) f ∧ f.tree = flat t
  | atom v, _ => ⟨.atom v, .atom v, rfl⟩
  | group c (m :: ms), h => by
      obtain ⟨outer, hc⟩ := hr.isSome c
      obtain ⟨hlength, hm, hms⟩ := h
      obtain ⟨f, hf, htree⟩ := reads_flat hr m hm
      obtain ⟨g, hg, -, hgroup⟩ := joined_spliced
        (.cons ⟨f, reads_enclosed hr hc hf, htree⟩ (reads_flatMembers hr hc ms hms))
        (List.cons_ne_nil m ms)
      refine ⟨g, ?_, hgroup hlength⟩
      simp only [words, hc]
      exact hg

theorem reads_flatMembers (hr : Ranked rank p q) {c : Connective} {outer : Int}
    (hc : rank c = some outer) : ∀ ms : List Condition, AllFull ms →
      List.Forall₂ (fun ws m => ∃ f,
        Reads (tighter p q) (groupLevel (tighter p q) c) ws f ∧ f.tree = flat m)
        (memberWords rank outer ms) ms
  | [], _ => .nil
  | m :: ms, h => by
      obtain ⟨f, hf, htree⟩ := reads_flat hr m h.1
      exact .cons ⟨f, reads_enclosed hr hc hf, htree⟩ (reads_flatMembers hr hc ms h.2)

end

/-! ## Enclosures -/

/-- One, if a member has to be enclosed in a group: it is a group of the looser
connective in one of the tighter. -/
def enclosure (tight c : Connective) : Condition → Nat
  | group d (_ :: _) => if c = tight ∧ d ≠ tight then 1 else 0
  | _ => 0

mutual

/-- The number of groups of the looser connective in groups of the tighter. -/
def enclosures (tight : Connective) : Condition → Nat
  | group c ms => memberEnclosures tight c ms
  | _ => 0

/-- The enclosures of the members of a group, they themselves included. -/
def memberEnclosures (tight c : Connective) : List Condition → Nat
  | [] => 0
  | m :: ms => enclosure tight c m + enclosures tight m + memberEnclosures tight c ms

end

theorem memberEnclosures_append (ms ms' : List Condition) :
    memberEnclosures tight c (ms ++ ms') = memberEnclosures tight c ms + memberEnclosures tight c ms' := by
  induction ms with
  | nil => simp [memberEnclosures]
  | cons m ms ih => simp [memberEnclosures, ih, Nat.add_assoc]

theorem enclosure_same (ms : List Condition) : enclosure tight c (.group c ms) = 0 := by
  cases ms with
  | nil => rfl
  | cons m ms => simp +contextual [enclosure]

/-- No member is enclosed in a group of the looser connective. -/
theorem enclosure_other (t : Condition) : enclosure tight tight.other t = 0 := by
  unfold enclosure
  split
  · exact if_neg fun h => other_ne tight h.1
  · rfl

/-- Splicing keeps the enclosures. -/
theorem memberEnclosures_spliced (t : Condition) :
    memberEnclosures tight c (t.spliced c) = enclosure tight c t + enclosures tight t := by
  cases t with
  | group d ms =>
      by_cases hd : d = c
      · subst hd
        simp [spliced, enclosures, enclosure_same]
      · simp [spliced, hd, memberEnclosures]
  | _ => simp [spliced, memberEnclosures]

theorem Full.members_ne_nil {ms : List Condition} (h : (group c ms).Full) : ms ≠ [] := by
  rintro rfl
  exact absurd h.1 (by decide)

/-- A group does not become empty when it is flattened. -/
theorem flatMembers_ne_nil (c : Connective) :
    ∀ {ms : List Condition}, AllFull ms → ms ≠ [] → flatMembers c ms ≠ []
  | m :: ms, h, _ => by
      rw [flatMembers]
      refine List.append_ne_nil_of_left_ne_nil ?_ _
      cases m with
      | group d ns =>
          have hns : flatMembers d ns ≠ [] := flatMembers_ne_nil d h.1.2 h.1.members_ne_nil
          by_cases hd : d = c
          · simpa [flat, spliced, hd] using hd ▸ hns
          · simp [flat, spliced, hd]
      | _ => simp [flat, spliced]

/-- A tree is enclosed if it is when it is flattened. -/
theorem enclosure_flat {t : Condition} (h : t.Full) :
    enclosure tight c (flat t) = enclosure tight c t := by
  cases t with
  | group d ms =>
      obtain ⟨n, ns, hns⟩ :=
        List.exists_cons_of_ne_nil (flatMembers_ne_nil d h.2 h.members_ne_nil)
      obtain ⟨m, ms, rfl⟩ := List.exists_cons_of_ne_nil h.members_ne_nil
      rw [flat, hns]
      rfl
  | _ => rfl

mutual

/-- Flattening keeps the enclosures. -/
theorem enclosures_flat : ∀ t : Condition, t.Full → enclosures tight (flat t) = enclosures tight t
  | atom _, _ => rfl
  | group c ms, h => by
      rw [flat, enclosures, enclosures]
      exact memberEnclosures_flat c ms h.2

theorem memberEnclosures_flat (c : Connective) : ∀ ms : List Condition, AllFull ms →
    memberEnclosures tight c (flatMembers c ms) = memberEnclosures tight c ms
  | [], _ => rfl
  | m :: ms, h => by
      rw [flatMembers, memberEnclosures_append, memberEnclosures_spliced, enclosure_flat h.1,
        enclosures_flat m h.1, memberEnclosures_flat c ms h.2, memberEnclosures]

end

/-! ## Counting parentheses -/

/-- The number of opening parentheses. -/
def openings (ws : List Word) : Nat := ws.countP fun
  | .opening => true
  | _ => false

@[simp] theorem openings_nil : openings [] = 0 := rfl

@[simp] theorem openings_append (us ws : List Word) :
    openings (us ++ ws) = openings us + openings ws := by
  simp [openings]

@[simp] theorem openings_opening (ws : List Word) :
    openings (.opening :: ws) = openings ws + 1 := by
  simp [openings]

@[simp] theorem openings_connective (d : Connective) (ws : List Word) :
    openings (.connective d :: ws) = openings ws := by
  simp [openings]

@[simp] theorem openings_closing (ws : List Word) : openings (.closing :: ws) = openings ws := by
  simp [openings]

/-- No parentheses come with the connectives between members. -/
theorem openings_joined (parts : List (List Word)) :
    openings (joined c parts) = openings parts.flatten := by
  induction parts with
  | nil => rfl
  | cons ws parts ih =>
      cases parts with
      | nil => simp [joined]
      | cons us parts => simp [joined, ih]

theorem Freed.openings_eq {ws ws' : List Word} (h : Freed ws ws') :
    openings ws = openings ws' + 1 := by
  cases h with
  | intro pre post => simp; omega

/-- The enclosures of the tree of two joined formulas. -/
theorem enclosures_joined (f g : Formula) :
    enclosures tight (Formula.joined c f g).tree =
      enclosure tight c f.tree + enclosures tight f.tree +
        (enclosure tight c g.tree + enclosures tight g.tree) := by
  rw [Formula.tree, enclosures, memberEnclosures_append, memberEnclosures_spliced,
    memberEnclosures_spliced]

/-- The enclosures of what is read at a level, it itself included if it may stand next
to the tighter connective. -/
def levelEnclosures (tight : Connective) : Level → Condition → Nat
  | .whole, t => enclosures tight t
  | _, t => enclosure tight tight t + enclosures tight t

/-- A text has parentheses for each enclosure of the tree that it is read as. -/
theorem levelEnclosures_le_openings {level : Level} {ws : List Word} {f : Formula}
    (h : Reads tight level ws f) : levelEnclosures tight level f.tree ≤ openings ws := by
  induction h with
  | atom v => exact Nat.le_refl 0
  | constant b => exact Nat.le_refl 0
  | @enclosed ws f _ ih =>
      have hone : enclosure tight tight f.tree ≤ 1 := by
        unfold enclosure
        split
        · split <;> omega
        · omega
      simp only [levelEnclosures, openings_append, List.cons_append, openings_opening] at ih ⊢
      omega
  | chainOne _ ih => exact ih
  | @chainMore us ws f g _ _ ihf ihg =>
      have hsame : enclosure tight tight (Formula.joined tight f g).tree = 0 := enclosure_same _
      simp only [levelEnclosures, hsame, enclosures_joined, openings_append,
        openings_connective] at ihf ihg ⊢
      omega
  | wholeOne _ ih =>
      simp only [levelEnclosures] at ih ⊢
      omega
  | @wholeMore us ws f g _ _ ihf ihg =>
      simp only [levelEnclosures, enclosures_joined, enclosure_other, openings_append,
        openings_connective] at ihf ihg ⊢
      omega

theorem enclosures_le_openings {ws : List Word} {f : Formula} (h : Reads tight .whole ws f) :
    enclosures tight f.tree ≤ openings ws := levelEnclosures_le_openings h

theorem openings_enclosed (hr : Ranked rank p q) {outer : Int} (hc : rank c = some outer)
    {t : Condition} (h : t.Full) (ws : List Word) :
    openings (enclosed rank outer t ws) = enclosure (tighter p q) c t + openings ws := by
  cases t with
  | atom v => simp [enclosed, enclosure]
  | invalid v => exact absurd h id
  | group d ms =>
      obtain ⟨inner, hd⟩ := hr.isSome d
      obtain ⟨m, ms, rfl⟩ := List.exists_cons_of_ne_nil h.members_ne_nil
      simp only [enclosed, hd, enclosure, hr.lt_iff hc hd]
      split
      · simp [Nat.add_comm]
      · simp

mutual

/-- The text of a tree has one pair of parentheses for each enclosure. -/
theorem openings_words (hr : Ranked rank p q) : ∀ t : Condition, t.Full →
    openings (t.words rank) = enclosures (tighter p q) t
  | atom _, _ => rfl
  | group c (m :: ms), h => by
      obtain ⟨outer, hc⟩ := hr.isSome c
      obtain ⟨-, hm, hms⟩ := h
      simp only [words, hc, openings_joined, List.flatten_cons, openings_append, enclosures,
        memberEnclosures, openings_enclosed hr hc hm, openings_words hr m hm,
        openings_memberWords hr hc ms hms]

theorem openings_memberWords (hr : Ranked rank p q) {c : Connective} {outer : Int}
    (hc : rank c = some outer) : ∀ ms : List Condition, AllFull ms →
      openings (memberWords rank outer ms).flatten = memberEnclosures (tighter p q) c ms
  | [], _ => rfl
  | m :: ms, h => by
      simp only [memberWords, List.flatten_cons, openings_append, memberEnclosures,
        openings_enclosed hr hc h.1, openings_words hr m h.1, openings_memberWords hr hc ms h.2]

end

/-! ## Other priorities -/

mutual

/-- The text of a tree depends on the priorities only in which is the smaller. -/
theorem words_congr {rank' : Connective → Option Int} {p' q' : Int} (hr : Ranked rank p q)
    (hr' : Ranked rank' p' q') (hlt : p < q ↔ p' < q') :
    ∀ t : Condition, t.words rank = t.words rank'
  | atom _ => rfl
  | invalid _ => rfl
  | group _ [] => rfl
  | group c (m :: ms) => by
      obtain ⟨outer, hc⟩ := hr.isSome c
      obtain ⟨outer', hc'⟩ := hr'.isSome c
      have hmembers := memberWords_congr hr hr' hlt hc hc' (m :: ms)
      simp only [memberWords] at hmembers
      simp only [words, hc, hc', hmembers]

theorem memberWords_congr {rank' : Connective → Option Int} {p' q' : Int}
    (hr : Ranked rank p q) (hr' : Ranked rank' p' q') (hlt : p < q ↔ p' < q') {c : Connective}
    {outer outer' : Int} (hc : rank c = some outer) (hc' : rank' c = some outer') :
    ∀ ms : List Condition, memberWords rank outer ms = memberWords rank' outer' ms
  | [] => rfl
  | m :: ms => by
      have htight : tighter p q = tighter p' q' := by simp only [tighter, hlt]
      have hm : ∀ ws, enclosed rank outer m ws = enclosed rank' outer' m ws := by
        intro ws
        cases m with
        | group d ns =>
            obtain ⟨inner, hd⟩ := hr.isSome d
            obtain ⟨inner', hd'⟩ := hr'.isSome d
            simp only [enclosed, hd, hd', hr.lt_iff hc hd, hr'.lt_iff hc' hd', htight]
        | _ => rfl
      rw [memberWords, memberWords, words_congr hr hr' hlt m, hm,
        memberWords_congr hr hr' hlt hc hc' ms]

end

end

end Condition

/-! ## Rendered conditions -/

open Condition in
/-- Rendered conditions are the words of the tree that the value stands for.  If each
group has two members or more, there is no pair of parentheses too many: the words are
read in one way only, as the tree, and without any pair of matching parentheses they
are read as another tree.  Other priorities of which the same one is the smaller lead
to the same words. -/
theorem Clause.parentheses_minimal (s : Settings) {v : Value} {tree : Condition} {p q : Int}
    (hand : s.rank .and = some p) (hor : s.rank .or = some q) (hne : p ≠ q)
    (hv : Stands v tree) :
    (∀ b, Clause.conditions s b v = renderWords b.condition (tree.words s.rank)) ∧
    (tree.Full → ∃ f, (∀ g, Reads (tighter p q) .whole (tree.words s.rank) g ↔ g = f) ∧
      f.tree = tree.flat ∧ ∀ ws, Freed (tree.words s.rank) ws →
        ∃ f', (∀ g, Reads (tighter p q) .whole ws g ↔ g = f') ∧ f'.tree ≠ f.tree) ∧
    ∀ (s' : Settings) {p' q' : Int}, s'.rank .and = some p' → s'.rank .or = some q' → p' ≠ q' →
      (p < q ↔ p' < q') →
        ∀ b, Clause.conditions s' b v = renderWords b.condition (tree.words s.rank) := by
  have hr : Ranked s.rank p q := ⟨hand, hor, hne⟩
  have hrendered : ∀ (s' : Settings) (b : Below),
      Clause.conditions s' b v = renderWords b.condition (tree.words s'.rank) := by
    intro s' b
    rw [Clause.conditions, hv.ofValue_eq, Rendering.ofExcept_ok, pure_bind]
  have honly : ∀ {ws : List Word} {f : Formula}, Reads (tighter p q) .whole ws f →
      ∀ g, Reads (tighter p q) .whole ws g ↔ g = f := by
    intro ws f hf g
    constructor
    · intro hg
      exact hg.unique hf
    · rintro rfl
      exact hf
  refine ⟨hrendered s, fun hfull => ?_, fun s' p' q' hand' hor' hne' hlt b => ?_⟩
  · obtain ⟨f, hf, htree⟩ := reads_flat hr tree hfull
    refine ⟨f, honly hf.toWhole, htree, fun ws hfreed => ?_⟩
    obtain ⟨f', hf'⟩ := hf.freed hfreed
    refine ⟨f', honly hf', fun heq => ?_⟩
    -- there are too few parentheses left for the tree
    have hleft := enclosures_le_openings hf'
    rw [heq, htree, enclosures_flat tree hfull, ← openings_words hr tree hfull,
      hfreed.openings_eq] at hleft
    omega
  · rw [hrendered s' b, words_congr hr ⟨hand', hor', hne'⟩ hlt tree]

open Condition in
/-- An OR group in an AND group, with an AND group in it.  There is one pair of
parentheses, and without it the first condition goes with the second only. -/
theorem Clause.parentheses_minimal_nested :
    ∃ f f', Reads .and .whole [.atom (.list [.str "a"]), .connective .and, .opening,
        .atom (.list [.str "b"]), .connective .or, .atom (.list [.str "c"]), .connective .and,
        .atom (.list [.str "d"]), .closing] f ∧
      f.tree = .group .and [.atom (.list [.str "a"]), .group .or [.atom (.list [.str "b"]),
        .group .and [.atom (.list [.str "c"]), .atom (.list [.str "d"])]]] ∧
      Reads .and .whole [.atom (.list [.str "a"]), .connective .and,
        .atom (.list [.str "b"]), .connective .or, .atom (.list [.str "c"]), .connective .and,
        .atom (.list [.str "d"])] f' ∧
      f'.tree ≠ f.tree := by
  let v : Value := .list [.list [.str "a"], .tuple [.str "-or", .list [.str "b"],
    .node "-and" [.list [.str "c"], .list [.str "d"]] []]]
  have hminimal := Clause.parentheses_minimal {} (v := v) (p := 10) (q := 50) rfl rfl (by decide)
    (stands_of_ofValue rfl rfl)
  obtain ⟨f, hread, htree, hfreed⟩ := hminimal.2.1 ⟨by decide, trivial,
    ⟨by decide, trivial, ⟨by decide, trivial, trivial, trivial⟩, trivial⟩, trivial⟩
  have hmid : Balanced [.atom (.list [.str "b"]), .connective .or, .atom (.list [.str "c"]),
      .connective .and, .atom (.list [.str "d"])] :=
    (balanced_word rfl).append ((balanced_word rfl).append ((balanced_word rfl).append
      ((balanced_word rfl).append (balanced_word rfl))))
  obtain ⟨f', hread', hne⟩ := hfreed _ (.intro [.atom (.list [.str "a"]), .connective .and] [] hmid)
  exact ⟨f, f', (hread f).mpr rfl, htree, (hread' f').mpr rfl, hne⟩

end QueryTree
