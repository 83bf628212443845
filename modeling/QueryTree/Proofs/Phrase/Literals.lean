import QueryTree.Proofs.Phrase

/-!
# The literals of a phrase

The lexemes of a phrase show where its literals stand and not what they are.  A
phrase with null for every literal is *bare*.  A phrase is its bare form, filled
with its literals in the order in which they are recorded (`Phrase.fill_bare`).  So
two phrases with one bare form and the same literals are the same
(`Phrase.eq_of_bare_eq`).
-/

namespace QueryTree.Phrase

mutual

/-- A phrase with null for every literal. -/
def bare : Phrase → Phrase
  | name n => name n
  | literal _ => literal .null
  | aliased p a => aliased p.bare a
  | comparison c l r => comparison c l.bare r.bare
  | membership negated field values => membership negated field.bare (bareAll values)
  | directed d p => directed d p.bare
  | select columns source => select (bareAll columns) source.bare
  | joined p table conditions => joined p.bare table.bare (bareAll conditions)
  | shared p table columns => shared p.bare table.bare (bareAll columns)
  | clause p k items => clause p.bare k (bareAll items)

/-- Phrases with null for every literal. -/
def bareAll : List Phrase → List Phrase
  | [] => []
  | p :: ps => p.bare :: bareAll ps

end

/-! ## Filling -/

mutual

/-- A phrase with literals from a list, in the order in which they are recorded, and
the literals left over. -/
def fill : Phrase → List Value → Phrase × List Value
  | name n, vs => (name n, vs)
  | literal _, vs => (literal (vs.headD .null), vs.tail)
  | aliased p a, vs =>
    let filled := fill p vs
    (aliased filled.1 a, filled.2)
  | comparison c l r, vs =>
    let left := fill l vs
    let right := fill r left.2
    (comparison c left.1 right.1, right.2)
  | membership negated field values, vs =>
    let inside := fillAll values vs
    let tested := fill field inside.2
    (membership negated tested.1 inside.1, tested.2)
  | directed d p, vs =>
    let filled := fill p vs
    (directed d filled.1, filled.2)
  | select columns source, vs =>
    let listed := fillAll columns vs
    let filled := fill source listed.2
    (select listed.1 filled.1, filled.2)
  | joined p table conditions, vs =>
    let before := fill p vs
    let target := fill table before.2
    let on := fillAll conditions target.2
    (joined before.1 target.1 on.1, on.2)
  | shared p table columns, vs =>
    let before := fill p vs
    let target := fill table before.2
    let listed := fillAll columns target.2
    (shared before.1 target.1 listed.1, listed.2)
  | clause p k items, vs =>
    let before := fill p vs
    let listed := fillAll items before.2
    (clause before.1 k listed.1, listed.2)

/-- Phrases with literals from a list, and the literals left over. -/
def fillAll : List Phrase → List Value → List Phrase × List Value
  | [], vs => ([], vs)
  | p :: ps, vs =>
    let filled := fill p vs
    let rest := fillAll ps filled.2
    (filled.1 :: rest.1, rest.2)

end

mutual

/-- A phrase is its bare form, filled with its own literals. -/
theorem fill_bare : ∀ (p : Phrase) (vs : List Value), fill p.bare (p.binds ++ vs) = (p, vs)
  | name _, vs => rfl
  | literal _, vs => rfl
  | aliased p a, vs => by simp only [bare, binds, fill, fill_bare p]
  | comparison c l r, vs => by
      simp only [bare, binds, fill, List.append_assoc, fill_bare l, fill_bare r]
  | membership negated field values, vs => by
      simp only [bare, binds, fill, List.append_assoc, fill_bare field, fillAll_bareAll values]
  | directed d p, vs => by simp only [bare, binds, fill, fill_bare p]
  | select columns source, vs => by
      simp only [bare, binds, fill, List.append_assoc, fill_bare source, fillAll_bareAll columns]
  | joined p table conditions, vs => by
      simp only [bare, binds, fill, List.append_assoc, fill_bare p, fill_bare table,
        fillAll_bareAll conditions]
  | shared p table columns, vs => by
      simp only [bare, binds, fill, List.append_assoc, fill_bare p, fill_bare table,
        fillAll_bareAll columns]
  | clause p k items, vs => by
      simp only [bare, binds, fill, List.append_assoc, fill_bare p, fillAll_bareAll items]

theorem fillAll_bareAll :
    ∀ (ps : List Phrase) (vs : List Value), fillAll (bareAll ps) (bindsAll ps ++ vs) = (ps, vs)
  | [], vs => rfl
  | p :: ps, vs => by
      simp only [bareAll, bindsAll, fillAll, List.append_assoc, fill_bare p, fillAll_bareAll ps]

end

/-- The bare form and the literals determine a phrase. -/
theorem eq_of_bare_eq {p q : Phrase} (hbare : p.bare = q.bare) (hbinds : p.binds = q.binds) :
    p = q := by
  have hp := p.fill_bare []
  rw [hbare, hbinds, q.fill_bare []] at hp
  exact (congrArg Prod.fst hp).symm

/-! ## What may follow a bare phrase -/

@[simp] theorem continues_bare (s : Slot) (x : Lexeme) (p : Phrase) :
    p.bare.continues s x = p.continues s x := by
  cases p <;> rfl

mutual

@[simp] theorem takes_bare (x : Lexeme) : ∀ p : Phrase, p.bare.takes x = p.takes x
  | comparison c l r => by simp only [bare, takes, takes_bare x r, continues_bare]
  | select columns source => by simp only [bare, takes, takes_bare x source, continues_bare]
  | clause p k items => by simp only [bare, takes, takesLast_bareAll x k.slot k.separator items]
  | name _ => rfl
  | literal _ => rfl
  | aliased _ _ => rfl
  | membership _ _ _ => rfl
  | directed _ _ => rfl
  | joined _ _ _ => rfl
  | shared _ _ _ => rfl

@[simp] theorem takesLast_bareAll (x : Lexeme) (s : Slot) (separator : Word) :
    ∀ ps : List Phrase, takesLast x s separator (bareAll ps) = takesLast x s separator ps
  | [] => rfl
  | [p] => by simp only [bareAll, takesLast, takes_bare x p, continues_bare]
  | p :: q :: ps => by
      have h := takesLast_bareAll x s separator (q :: ps)
      simp only [bareAll] at h ⊢
      exact h

end

end QueryTree.Phrase
