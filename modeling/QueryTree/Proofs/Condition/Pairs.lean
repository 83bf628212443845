import QueryTree.Proofs.Condition.Meaning

/-!
# Matching parentheses

The *depth* after some words is by how many more parentheses they open than they
close.  Words are *balanced* if their depth never falls below zero and ends at it.  An
opening and a closing parenthesis *match* if the words between them are balanced, and
`Freed ws ws'` says that `ws'` is `ws` without one matching pair.

A pair that matches stays within each balanced part of a text
(`Freed.append_inv`, `Freed.enclosed_inv`).  Read texts are built from balanced parts,
so a pair can be followed down to the operand that it encloses.

The main statement is `Reads.freed`: a text that is read can be read without any of
its matching pairs, though perhaps as another formula.
-/

namespace QueryTree.Condition

/-! ## Depth -/

/-- By how much a word raises the depth. -/
def Word.rise : Word → Int
  | .opening => 1
  | .closing => -1
  | _ => 0

/-- The depth after some words. -/
def depth : List Word → Int
  | [] => 0
  | w :: ws => w.rise + depth ws

@[simp] theorem depth_nil : depth [] = 0 := rfl

@[simp] theorem depth_cons (w : Word) (ws : List Word) : depth (w :: ws) = w.rise + depth ws := rfl

@[simp] theorem depth_append (us ws : List Word) : depth (us ++ ws) = depth us + depth ws := by
  induction us with
  | nil => simp
  | cons u us ih => simp [ih, Int.add_assoc]

/-- Words that close the parentheses they open, and no others. -/
structure Balanced (ws : List Word) : Prop where
  depth_eq : depth ws = 0
  nonneg : ∀ us vs, ws = us ++ vs → 0 ≤ depth us

/-- Words without one matching pair of parentheses. -/
inductive Freed : List Word → List Word → Prop
  | intro (pre post : List Word) {mid : List Word} :
    Balanced mid → Freed (pre ++ .opening :: (mid ++ .closing :: post)) (pre ++ (mid ++ post))

/-! ## Balanced words -/

variable {us ws mid pre post : List Word}

theorem balanced_word {w : Word} (h : w.rise = 0) : Balanced [w] := by
  refine ⟨by simp [h], fun us vs heq => ?_⟩
  cases us with
  | nil => exact Int.le_refl 0
  | cons u us =>
      obtain ⟨rfl, hnil⟩ := List.cons.inj heq
      obtain ⟨rfl, -⟩ := List.append_eq_nil_iff.mp hnil.symm
      simp [h]

theorem Balanced.append (hu : Balanced us) (hw : Balanced ws) : Balanced (us ++ ws) := by
  refine ⟨by rw [depth_append, hu.depth_eq, hw.depth_eq]; rfl, fun as bs heq => ?_⟩
  rcases List.append_eq_append_iff.mp heq with ⟨cs, rfl, hws⟩ | ⟨cs, hus, -⟩
  · have hcs := hw.nonneg cs bs hws
    rw [depth_append, hu.depth_eq]
    omega
  · exact hu.nonneg as cs hus

theorem Balanced.enclosed (h : Balanced ws) : Balanced (.opening :: ws ++ [.closing]) := by
  refine ⟨by simp [Word.rise, h.depth_eq], fun as bs heq => ?_⟩
  cases as with
  | nil => exact Int.le_refl 0
  | cons a as =>
      obtain ⟨rfl, hrest⟩ := List.cons.inj heq
      rw [depth_cons]
      rcases List.append_eq_append_iff.mp hrest with ⟨cs, rfl, hclosing⟩ | ⟨cs, hws, -⟩
      · -- what is left of the closing parenthesis is all of the words, or the parenthesis too
        cases cs with
        | nil => simp [Word.rise, h.depth_eq]
        | cons c cs =>
            obtain ⟨rfl, hnil⟩ := List.cons.inj hclosing
            obtain ⟨rfl, -⟩ := List.append_eq_nil_iff.mp hnil.symm
            simp [Word.rise, h.depth_eq]
      · have has := h.nonneg as cs hws
        simp only [Word.rise]
        omega

/-- Words that are read are balanced. -/
theorem Reads.balanced {tight : Connective} {level : Level} {f : Formula}
    (h : Reads tight level ws f) : Balanced ws := by
  induction h with
  | atom v => exact balanced_word rfl
  | constant b => exact balanced_word rfl
  | enclosed _ ih => exact ih.enclosed
  | chainOne _ ih => exact ih
  | chainMore _ _ ihf ihg => exact ihf.append ((balanced_word rfl).append ihg)
  | wholeOne _ ih => exact ih
  | wholeMore _ _ ihf ihg => exact ihf.append ((balanced_word rfl).append ihg)

/-! ## Following a pair -/

/-- A list in two parts and around two of its items: the items are both in the second
part, the first part ends between them, or they are both in the first part. -/
theorem append_eq_around {α : Type} {us vs pre mid post : List α} {a b : α}
    (h : us ++ vs = pre ++ a :: (mid ++ b :: post)) :
    (∃ as, pre = us ++ as ∧ vs = as ++ a :: (mid ++ b :: post)) ∨
      (∃ as bs, us = pre ++ a :: as ∧ mid = as ++ bs) ∨
      ∃ bs, us = pre ++ a :: (mid ++ b :: bs) ∧ post = bs ++ vs := by
  rcases List.append_eq_append_iff.mp h with hpre | ⟨as, rfl, hvs⟩
  · exact Or.inl hpre
  · rcases List.cons_eq_append_iff.mp hvs with ⟨rfl, hvs⟩ | ⟨as, rfl, hrest⟩
    · exact Or.inl ⟨[], by simp, hvs.symm⟩
    · rcases List.append_eq_append_iff.mp hrest with ⟨bs, rfl, hlast⟩ | ⟨bs, rfl, -⟩
      · rcases List.cons_eq_append_iff.mp hlast with ⟨rfl, -⟩ | ⟨bs, rfl, rfl⟩
        · exact Or.inr (Or.inl ⟨_, [], rfl, by simp⟩)
        · exact Or.inr (Or.inr ⟨bs, rfl, rfl⟩)
      · exact Or.inr (Or.inl ⟨as, bs, rfl, rfl⟩)

/-- Balanced words do not end between an opening parenthesis and the one that matches
it. -/
theorem Balanced.not_within (hu : Balanced us) (hmid : Balanced mid) {as bs : List Word}
    (hus : us = pre ++ .opening :: as) (has : mid = as ++ bs) : False := by
  have hpre := hu.nonneg pre _ hus
  have hinner := hmid.nonneg as bs has
  have hdepth := hu.depth_eq
  rw [hus, depth_append, depth_cons, Word.rise] at hdepth
  omega

/-- A matching pair of a text in two parts, the first of them balanced, is in one of
them. -/
theorem Freed.append_inv {vs ws' : List Word} (hu : Balanced us) (h : Freed (us ++ vs) ws') :
    (∃ us', Freed us us' ∧ ws' = us' ++ vs) ∨ ∃ vs', Freed vs vs' ∧ ws' = us ++ vs' := by
  generalize hws : us ++ vs = ws at h
  cases h with
  | @intro pre post mid hmid =>
      rcases append_eq_around hws with ⟨as, rfl, rfl⟩ | ⟨as, bs, hus, has⟩ | ⟨bs, rfl, rfl⟩
      · exact Or.inr ⟨as ++ (mid ++ post), .intro as post hmid, by simp⟩
      · exact absurd has fun has => hu.not_within hmid hus has
      · exact Or.inl ⟨pre ++ (mid ++ bs), .intro pre bs hmid, by simp⟩

/-- A word that is no parenthesis is in no pair. -/
theorem not_freed_word {w : Word} {ws' : List Word} : ¬ Freed [w] ws' := by
  intro h
  generalize hws : [w] = ws at h
  cases h with
  | intro pre post _ =>
      have hlength := congrArg List.length hws
      simp at hlength
      omega

/-- A matching pair after a word that is no parenthesis. -/
theorem Freed.cons_inv {w : Word} {ws' : List Word} (hw : w.rise = 0) (h : Freed (w :: ws) ws') :
    ∃ ws'', Freed ws ws'' ∧ ws' = w :: ws'' := by
  have hparts : Freed ([w] ++ ws) ws' := h
  rcases hparts.append_inv (balanced_word hw) with ⟨_, hfreed, -⟩ | ⟨ws'', hfreed, rfl⟩
  · exact absurd hfreed not_freed_word
  · exact ⟨ws'', hfreed, rfl⟩

/-- A matching pair of balanced words in parentheses is this pair, or one of the words. -/
theorem Freed.enclosed_inv {ws' : List Word} (hu : Balanced us)
    (h : Freed (.opening :: us ++ [.closing]) ws') :
    ws' = us ∨ ∃ us', Freed us us' ∧ ws' = .opening :: us' ++ [.closing] := by
  generalize hws : Word.opening :: us ++ [.closing] = ws at h
  cases h with
  | @intro pre post mid hmid =>
      cases pre with
      | nil =>
          obtain ⟨-, hrest⟩ := List.cons.inj hws
          rcases List.append_eq_append_iff.mp hrest with ⟨as, rfl, hlast⟩ | ⟨as, hus, hlast⟩
          · rcases List.cons_eq_append_iff.mp hlast with ⟨rfl, hnil⟩ | ⟨as, rfl, hnil⟩
            · obtain ⟨-, rfl⟩ := List.cons.inj hnil
              exact Or.inl (by simp)
            · cases as <;> cases hnil
          · -- words that went on would close a parenthesis that they have not opened
            cases as with
            | nil =>
                obtain ⟨-, rfl⟩ := List.cons.inj hlast
                exact Or.inl (by simp [hus])
            | cons a as =>
                obtain ⟨rfl, -⟩ := List.cons.inj hlast
                have hnonneg := hu.nonneg (mid ++ [.closing]) as (by simp [hus])
                simp [hmid.depth_eq, Word.rise] at hnonneg
      | cons a pre =>
          obtain ⟨rfl, hrest⟩ := List.cons.inj hws
          rcases append_eq_around hrest with ⟨as, rfl, hlast⟩ | ⟨as, bs, hus, has⟩ | ⟨bs, rfl, rfl⟩
          · have hlength := congrArg List.length hlast
            simp at hlength
            omega
          · exact absurd has fun has => hu.not_within hmid hus has
          · exact Or.inr ⟨pre ++ (mid ++ bs), .intro pre bs hmid, by simp⟩

/-! ## Reading without a pair -/

variable {tight : Connective} {f g : Formula}

theorem chain_append_whole (hf : Reads tight .chain us f) :
    ∀ {ws : List Word} {g : Formula}, Reads tight .whole ws g →
      ∃ h, Reads tight .whole (us ++ .connective tight :: ws) h
  | _, _, .wholeOne hg => by
      obtain ⟨h, hread, -⟩ := chain_append hf hg
      exact ⟨h, .wholeOne hread⟩
  | _, _, @Reads.wholeMore _ vs ws _ e hg he => by
      obtain ⟨h, hread⟩ := chain_append_whole hf hg
      have heq : us ++ Word.connective tight :: (vs ++ .connective tight.other :: ws)
          = (us ++ .connective tight :: vs) ++ .connective tight.other :: ws := by simp
      rw [heq]
      exact ⟨_, .wholeMore hread he⟩

/-- Two whole texts with either connective between them are read. -/
theorem whole_join (c : Connective) (hf : Reads tight .whole us f) (hg : Reads tight .whole ws g) :
    ∃ h, Reads tight .whole (us ++ .connective c :: ws) h := by
  by_cases hc : c = tight
  · subst hc
    cases hf with
    | wholeOne hf => exact chain_append_whole hf hg
    | @wholeMore vs us e _ he hf =>
        -- the last chain goes with the text behind it
        obtain ⟨h, hread⟩ := chain_append_whole hf hg
        obtain ⟨h', hread', -⟩ := whole_append he hread
        refine ⟨h', ?_⟩
        have heq : vs ++ Word.connective c.other :: us ++ .connective c :: ws
            = vs ++ .connective c.other :: (us ++ .connective c :: ws) := by simp
        rw [heq]
        exact hread'
  · obtain rfl : c = tight.other := eq_other_of_ne hc
    obtain ⟨h, hread, -⟩ := whole_append hf hg
    exact ⟨h, hread⟩

/-- A text of two with a connective between them is read without a pair of one of them,
if that is. -/
theorem whole_join_freed (c : Connective) {ws' : List Word} (hf : Reads tight .whole us f)
    (hg : Reads tight .whole ws g) (h : Freed (us ++ .connective c :: ws) ws')
    (hus : ∀ us', Freed us us' → ∃ e, Reads tight .whole us' e)
    (hws : ∀ ws', Freed ws ws' → ∃ e, Reads tight .whole ws' e) :
    ∃ e, Reads tight .whole ws' e := by
  rcases h.append_inv hf.balanced with ⟨us', hu, rfl⟩ | ⟨_, hw, rfl⟩
  · obtain ⟨e, he⟩ := hus us' hu
    exact whole_join c he hg
  · obtain ⟨ws'', hfreed, rfl⟩ := hw.cons_inv rfl
    obtain ⟨e, he⟩ := hws ws'' hfreed
    exact whole_join c hf he

/-- A text that is read is also read without a matching pair of parentheses. -/
theorem Reads.freed {level : Level} (h : Reads tight level ws f) :
    ∀ {ws' : List Word}, Freed ws ws' → ∃ g, Reads tight .whole ws' g := by
  induction h with
  | atom v => exact fun hfreed => absurd hfreed not_freed_word
  | constant b => exact fun hfreed => absurd hfreed not_freed_word
  | @enclosed us f hus ih =>
      intro ws' hfreed
      rcases hfreed.enclosed_inv hus.balanced with rfl | ⟨us', hu, rfl⟩
      · exact ⟨f, hus⟩
      · obtain ⟨g, hg⟩ := ih hu
        exact ⟨g, (Reads.enclosed hg).toWhole⟩
  | chainOne _ ih => exact ih
  | chainMore hf hg ihf ihg =>
      intro ws' hfreed
      exact whole_join_freed tight hf.toWhole hg.toWhole hfreed (fun _ => ihf) fun _ => ihg
  | wholeOne _ ih => exact ih
  | wholeMore hf hg ihf ihg =>
      intro ws' hfreed
      exact whole_join_freed tight.other hf hg.toWhole hfreed (fun _ => ihf) fun _ => ihg

end QueryTree.Condition
