import QueryTree.Proofs.Condition.Reading

/-!
# Weights of nodes

A renderer has a budget of nested handlers, and the budget of a value is its
weight.  Here are the facts that make the budget suffice.

The *weight of a node* counts the node and its operands.  An operand that is null
does not count: the array form of an alias has null for what it lacks, so a node
may have more operands than the value it comes from.

* A node weighs no more than the value that stands for it (`Node.weight_le`).
* A value below a node stands for a lighter node, if for any (`Node.Over`).  For
  the operands and what is in them this is so because they are lighter themselves
  (`Node.Outweighs`).
* The atoms of a tree of conditions stand for nodes no heavier than what the tree
  is read from (`Condition.weight_le_of_mem_atoms`).
-/

namespace QueryTree

open Value (weightItems weightEntries weightFields)

/-! ## Weights of values -/

namespace Value

theorem weight_pos (v : Value) : 0 < v.weight := by
  cases v <;> simp only [weight] <;> omega

theorem weight_le_of_mem {v : Value} : ∀ {items : List Value}, v ∈ items → v.weight ≤ weightItems items
  | w :: rest, h => by
      rw [weightItems]
      rcases List.mem_cons.mp h with rfl | h
      · omega
      · have := weight_le_of_mem h
        omega

theorem weight_sequence {v : Value} {items : List Value} (h : v.sequence? = some items) :
    v.weight = 1 + weightItems items := by
  rcases sequence?_eq_some_iff.mp h with rfl | rfl
  · rfl
  · rfl

theorem weightItems_operands_lt (v : Value) : weightItems v.operands < v.weight := by
  have hseq : ∀ items : List Value, weightItems items.tail ≤ weightItems items
    | [] => Nat.le_refl _
    | _ :: rest => Nat.le_add_left _ _
  cases v with
  | list items =>
      have := hseq items
      simp only [operands, sequence?, Option.getD_some, weight]
      omega
  | tuple items =>
      have := hseq items
      simp only [operands, sequence?, Option.getD_some, weight]
      omega
  | node tag args fields =>
      simp only [operands, weight]
      omega
  | _ => exact weight_pos _

theorem weightEntries_set (v : Value) :
    ∀ entries : Fields, weightEntries (entries.set "type" v) = weightEntries entries
  | [] => by simp [Fields.set, weightEntries]
  | (.str k, w) :: rest => by
      rw [Fields.set]
      split
      · next hk => simp [weightEntries, hk]
      · simp only [weightEntries, weightEntries_set v rest]
  | (.null, _) :: rest | (.bool _, _) :: rest | (.int _, _) :: rest | (.float _, _) :: rest
  | (.bytes _, _) :: rest | (.list _, _) :: rest | (.tuple _, _) :: rest | (.map _, _) :: rest
  | (.node .., _) :: rest => by
      simp only [Fields.set, weightEntries, weightEntries_set v rest]

end Value

/-! ## Weights of nodes -/

/-- The weights of the named operands together, those that are null left out. -/
def Fields.weight : Fields → Nat
  | [] => 0
  | (_, .null) :: rest => weight rest
  | (_, v) :: rest => v.weight + weight rest

namespace Fields

theorem weight_cons_le (k v : Value) (rest : Fields) :
    weight ((k, v) :: rest) ≤ v.weight + weight rest := by
  cases v <;> simp only [weight] <;> omega

theorem weight_le_cons (k v : Value) (rest : Fields) : weight rest ≤ weight ((k, v) :: rest) := by
  cases v <;> simp only [weight] <;> omega

theorem weight_le_weightFields : ∀ fields : Fields, weight fields ≤ weightFields fields
  | [] => Nat.le_refl _
  | (k, v) :: rest => by
      have := weight_cons_le k v rest
      have := weight_le_weightFields rest
      rw [weightFields]
      omega

theorem weight_without_type :
    ∀ entries : Fields, weight (entries.without "type") ≤ weightEntries entries
  | [] => Nat.le_refl _
  | (k, v) :: rest => by
      have ih := weight_without_type rest
      have hv := weight_cons_le k v (without rest "type")
      unfold without at ih hv ⊢
      rw [List.filter_cons]
      cases k with
      | str k =>
          by_cases hk : k = "type"
          · simp [hk, weightEntries, ih]
          · simp only [bne_iff_ne, ne_eq, hk, not_false_eq_true, if_true, weightEntries, if_false]
            omega
      | _ =>
          simp only [weightEntries, if_true]
          omega

theorem weight_le_of_get? {key : String} {v : Value} (hv : v ≠ .null) :
    ∀ {fields : Fields}, fields.get? key = some v → v.weight ≤ weight fields
  | (.str k, w) :: rest, h => by
      rw [get?] at h
      have := weight_le_cons (.str k) w rest
      split at h
      · obtain rfl := Option.some.inj h
        cases w with
        | null => exact absurd rfl hv
        | _ => exact Nat.le_add_right _ _
      · have := weight_le_of_get? hv h
        omega
  | (.null, w) :: rest, h | (.bool _, w) :: rest, h | (.int _, w) :: rest, h
  | (.float _, w) :: rest, h | (.bytes _, w) :: rest, h | (.list _, w) :: rest, h
  | (.tuple _, w) :: rest, h | (.map _, w) :: rest, h | (.node .., w) :: rest, h => by
      have hrest : v.weight ≤ weight rest := weight_le_of_get? hv h
      exact Nat.le_trans hrest (weight_le_cons _ w rest)

end Fields

/-- The number of values a node is made of, itself included. -/
def Node.weight (n : Node) : Nat := 1 + weightItems n.args + n.fields.weight

namespace Node

theorem weight_ofArray_le (tag : String) (operands : List Value) :
    (ofArray tag operands).weight ≤ 1 + weightItems operands := by
  unfold ofArray
  split
  · simp only [Node.weight, nameOperands, Fields.weight]
    split
    · next v =>
        cases hv : v.sequence? with
        | none => simp
        | some items =>
            have := Value.weight_sequence hv
            simp only [Option.getD_some, weightItems]
            omega
    · simp
  · split
    · match operands with
      | [] => simp [Node.weight, Fields.weight, weightItems]
      | [v] =>
          have := Fields.weight_cons_le (.str "ident") v [(.str "as", .null)]
          simp only [Node.weight, weightItems, Fields.weight, List.headD, List.tail_cons] at this ⊢
          omega
      | v :: w :: rest =>
          have := Fields.weight_cons_le (.str "ident") v [(.str "as", w)]
          have := Fields.weight_cons_le (.str "as") w []
          simp only [Node.weight, weightItems, Fields.weight, List.headD, List.tail_cons] at *
          omega
    · simp [Node.weight, Fields.weight]

theorem weight_ofSequence_le {v : Value} {items : List Value} {n : Node} {default? : Option String}
    (hv : v.sequence? = some items) (h : ofValue v default? = .ok n) :
    n.weight ≤ weightItems items := by
  obtain ⟨tag, operands, rfl, rfl⟩ := array_of_ofValue hv h
  exact weight_ofArray_le tag operands

/-- The node of a hash form has the other entries as its operands. -/
theorem ofMap_operands {default? : Option String} {entries : Fields} {n : Node}
    (h : ofMap default? entries = .ok n) : n.args = [] ∧ n.fields = entries.without "type" := by
  simp only [ofMap] at h
  split at h
  · cases default? with
    | none => cases h
    | some tag =>
        obtain rfl := Except.ok.inj h
        exact ⟨rfl, rfl⟩
  · cases ht : tagOf (entries.get "type") with
    | error e =>
        rw [ht] at h
        cases h
    | ok tag =>
        rw [ht] at h
        obtain rfl := Except.ok.inj h
        exact ⟨rfl, rfl⟩

/-- A node weighs no more than the value that stands for it. -/
theorem weight_le {v : Value} {n : Node} {default? : Option String}
    (h : ofValue v default? = .ok n) : n.weight ≤ v.weight := by
  cases v with
  | node tag args fields =>
      obtain rfl := Except.ok.inj h
      have := Fields.weight_le_weightFields fields
      simp only [Node.weight, Value.weight]
      omega
  | map entries =>
      obtain ⟨hargs, hfields⟩ := ofMap_operands h
      have := Fields.weight_without_type entries
      rw [Node.weight, hargs, hfields, Value.weight, weightItems]
      omega
  | list items =>
      have := weight_ofSequence_le rfl h
      simp only [Value.weight]
      omega
  | tuple items =>
      have := weight_ofSequence_le rfl h
      simp only [Value.weight]
      omega
  | _ => cases h

/-! ## Values below a node -/

/-- If a value stands for a node, for one lighter than `n`. -/
def Over (n : Node) (v : Value) : Prop := ∀ m, ofValue v = .ok m → m.weight < n.weight

/-- A value is lighter than a node, or null. -/
def Outweighs (n : Node) (v : Value) : Prop := v ≠ .null → v.weight < n.weight

variable {n : Node} {v w : Value}

theorem Outweighs.over (h : n.Outweighs v) : n.Over v := by
  intro m hm
  have hv : v ≠ .null := by
    rintro rfl
    cases hm
  exact Nat.lt_of_le_of_lt (weight_le hm) (h hv)

theorem Outweighs.of_le (h : n.Outweighs v) (hv : v ≠ .null) (hw : w.weight ≤ v.weight) :
    n.Outweighs w := fun _ => Nat.lt_of_le_of_lt hw (h hv)

theorem outweighs_arg (h : v ∈ n.args) : n.Outweighs v := by
  intro _
  have := Value.weight_le_of_mem h
  rw [Node.weight]
  omega

theorem outweighs_get? {key : String} (h : n.fields.get? key = some v) : n.Outweighs v := by
  intro hv
  have := Fields.weight_le_of_get? hv h
  rw [Node.weight]
  omega

theorem Outweighs.item {items : List Value} (h : n.Outweighs w) (hw : w.sequence? = some items)
    (hv : v ∈ items) : n.Outweighs v := by
  have hnull : w ≠ .null := by
    rintro rfl
    cases hw
  have := Value.weight_sequence hw
  have := Value.weight_le_of_mem hv
  exact h.of_le hnull (by omega)

theorem Outweighs.operand (h : n.Outweighs w) (hv : v ∈ w.operands) : n.Outweighs v := by
  have hnull : w ≠ .null := by
    rintro rfl
    cases hv
  have := Value.weight_le_of_mem hv
  have := Value.weightItems_operands_lt w
  exact h.of_le hnull (by omega)

end Node

/-! ## Atoms of conditions -/

namespace Condition

theorem Headed.weightItems_lt {v : Value} {c : Connective} {items : List Value}
    (h : Headed v c items) : weightItems items < v.weight := by
  cases h <;> simp only [Value.weight, weightItems] <;> omega

/-- An atom of the items of a group stands for a node no heavier than the items. -/
theorem weight_le_of_mem_ofItems (c : Connective) (items : List Value) {a : Value} {m : Node}
    (ha : a ∈ (ofItems c items).atoms) (hm : Node.ofValue a = .ok m) :
    m.weight ≤ weightItems items := by
  obtain ⟨v, hv, rfl | ⟨d, rest, hd, hlt, ha⟩⟩ := mem_atoms_ofItems ha
  · rcases hv with hv | rfl
    · exact Nat.le_trans (Node.weight_le hm) (Value.weight_le_of_mem hv)
    · exact Node.weight_ofSequence_le rfl hm
  · have := weight_le_of_mem_ofItems d rest ha hm
    have hrest := hd.weightItems_lt
    rcases hv with hv | rfl
    · have := Value.weight_le_of_mem hv
      omega
    · rw [Value.weight] at hrest
      omega
termination_by sizeOf items

theorem weight_le_of_mem_sequence {v a : Value} {items : List Value} {t : Condition} {m : Node}
    (hv : v.sequence? = some items) (ht : ofValue v = .ok t) (ha : a ∈ t.atoms)
    (hm : Node.ofValue a = .ok m) : m.weight ≤ weightItems items := by
  by_cases hd : ∃ c rest, Headed v c rest
  · obtain ⟨c, rest, hw⟩ := hd
    obtain rfl := Except.ok.inj ((ofValue_headed hw).symm.trans ht)
    have := weight_le_of_mem_ofItems c rest ha hm
    have := hw.weightItems_lt
    have := Value.weight_sequence hv
    omega
  · have hw := ofValue_untagged hv fun c rest hw => hd ⟨c, rest, hw⟩
    obtain rfl := Except.ok.inj (hw.symm.trans ht)
    exact weight_le_of_mem_ofItems .and items ha hm

/-- An atom of a tree stands for a node no heavier than what the tree is read
from. -/
theorem weight_le_of_mem_atoms {v a : Value} {t : Condition} {m : Node}
    (ht : ofValue v = .ok t) (ha : a ∈ t.atoms) (hm : Node.ofValue a = .ok m) :
    m.weight ≤ v.weight := by
  rcases ofValue_cases v with ⟨c, items, hv, heq⟩ | ⟨items, hv, -, -⟩ | ⟨_, _, _, rfl, -, heq⟩ | heq
  · obtain rfl := Except.ok.inj (heq.symm.trans ht)
    have := weight_le_of_mem_ofItems c items ha hm
    have := hv.weightItems_lt
    omega
  · have := weight_le_of_mem_sequence hv ht ha hm
    have := Value.weight_sequence hv
    omega
  · obtain rfl := Except.ok.inj (heq.symm.trans ht)
    obtain rfl := List.mem_singleton.mp ha
    exact Node.weight_le hm
  · rw [ht] at heq
    cases heq

theorem outweighs_atoms {n : Node} {v : Value} (h : n.Outweighs v) {t : Condition}
    (ht : ofValue v = .ok t) : ∀ a ∈ t.atoms, n.Over a := by
  intro a ha m hm
  have hv : v ≠ .null := by
    rintro rfl
    cases ht
  exact Nat.lt_of_le_of_lt (weight_le_of_mem_atoms ht ha hm) (h hv)

end Condition

end QueryTree
