import QueryTree.Dialect.Registry

/-!
# Names in order

Names are put into order one by one.  Each goes in front of the first that is greater
(`Registry.insertName`).  Nothing is lost or added (`Registry.perm_foldl_insertName`), and
if no name is there twice, each is less than those after it
(`Registry.pairwise_foldl_insertName`).  `Registry.ordered_foldl_insertName` has both for
names that start from none.
-/

namespace QueryTree.Registry

theorem perm_insertName (name : String) (names : List String) :
    (insertName name names).Perm (name :: names) := by
  induction names with
  | nil => exact .refl _
  | cons other rest ih =>
      rw [insertName]
      split
      · exact .refl _
      · exact (ih.cons other).trans (.swap name other rest)

/-- Of two names that are not the same, one is less. -/
theorem lt_of_not_lt {a b : String} (h : ¬ a < b) (hne : a ≠ b) : b < a := by
  refine Decidable.byContradiction fun hba => hne ?_
  exact String.le_antisymm (String.not_lt.mp hba) (String.not_lt.mp h)

theorem pairwise_insertName {name : String} {names : List String} (h : names.Pairwise (· < ·))
    (hnew : name ∉ names) : (insertName name names).Pairwise (· < ·) := by
  induction h with
  | nil => exact List.pairwise_singleton _ _
  | @cons other rest hother hrest ih =>
      rw [List.mem_cons, not_or] at hnew
      rw [insertName]
      split
      · next hlt =>
          refine .cons (fun found hfound => ?_) (.cons hother hrest)
          rcases List.mem_cons.mp hfound with rfl | hfound
          · exact hlt
          · exact String.lt_trans hlt (hother found hfound)
      · next hlt =>
          refine .cons (fun found hfound => ?_) (ih hnew.2)
          rcases List.mem_cons.mp ((perm_insertName name rest).mem_iff.mp hfound) with rfl | hfound
          · exact lt_of_not_lt hlt hnew.1
          · exact hother found hfound

/-- Putting names into order keeps them all. -/
theorem perm_foldl_insertName (names done : List String) :
    (names.foldl (fun done name => insertName name done) done).Perm (names ++ done) := by
  induction names generalizing done with
  | nil => exact .refl _
  | cons name rest ih =>
      refine (ih (insertName name done)).trans ?_
      exact ((perm_insertName name done).append_left rest).trans List.perm_middle

/-- Names that are not there twice are put into their order. -/
theorem pairwise_foldl_insertName {names done : List String} (h : done.Pairwise (· < ·))
    (hnew : (names ++ done).Nodup) :
    (names.foldl (fun done name => insertName name done) done).Pairwise (· < ·) := by
  induction names generalizing done with
  | nil => exact h
  | cons name rest ih =>
      rw [List.cons_append, List.nodup_cons, List.mem_append, not_or] at hnew
      obtain ⟨⟨hname, hdone⟩, hrest⟩ := hnew
      refine ih (pairwise_insertName h hdone) ?_
      have hperm : (rest ++ insertName name done).Perm (name :: (rest ++ done)) :=
        ((perm_insertName name done).append_left rest).trans List.perm_middle
      rw [hperm.nodup_iff, List.nodup_cons, List.mem_append, not_or]
      exact ⟨⟨hname, hdone⟩, hrest⟩

/-- Names that are not there twice, in order. -/
theorem ordered_foldl_insertName {names : List String} (h : names.Nodup) :
    (names.foldl (fun done name => insertName name done) []).Perm names ∧
      (names.foldl (fun done name => insertName name done) []).Pairwise (· < ·) := by
  have hperm := perm_foldl_insertName names []
  rw [List.append_nil] at hperm
  refine ⟨hperm, pairwise_foldl_insertName .nil ?_⟩
  rw [List.append_nil]
  exact h

end QueryTree.Registry
