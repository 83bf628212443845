import QueryTree.Node

/-!
# Values and the nodes they stand for

A list and a tuple of the same items have one tag and the same operands, and stand for the
same node.  A proof about a sequence falls into these two cases
(`Value.sequence?_eq_some_iff`).

* A value with a tag is a node, or a sequence of the tag and the operands
  (`Value.node_or_sequence`).
* A sequence headed by a text stands for the node of an array form (`Node.ofValue_array`), and
  any other for none (`Node.ofValue_headless`).
* The node that a value stands for has the tag of the value, and its operands unless it is
  a name or an alias (`Value.node_of_tag?`, `Value.args_eq_operands`).
-/

namespace QueryTree

namespace Value

variable {v : Value} {items operands : List Value} {tag : String}

/-! ## Sequences -/

theorem sequence?_eq_some_iff : v.sequence? = some items ↔ v = .list items ∨ v = .tuple items := by
  cases v <;> simp [sequence?]

/-! ## Tags and operands -/

theorem arrayForm?_eq_some_iff :
    v.arrayForm? = some (tag, operands) ↔ v.sequence? = some (.str tag :: operands) := by
  rw [arrayForm?]
  split
  · next hseq => simp [hseq]
  · next hnot =>
      constructor
      · intro h
        cases h
      · intro h
        exact absurd h (hnot tag operands)

theorem arrayForm?_of_headless (hv : v.sequence? = some items)
    (h : ∀ tag rest, items ≠ .str tag :: rest) : v.arrayForm? = none := by
  rw [Option.eq_none_iff_forall_ne_some]
  rintro ⟨tag, rest⟩ hform
  exact h tag rest (Option.some.inj (hv.symm.trans (arrayForm?_eq_some_iff.mp hform)))

theorem isNodeLike_eq (v : Value) : v.isNodeLike = v.tag?.isSome := by
  cases v with
  | node tag args fields => rfl
  | _ => simp [isNodeLike, isArrayForm, tag?]

theorem tag?_of_sequence (h : v.sequence? = some (.str tag :: operands)) : v.tag? = some tag := by
  rcases sequence?_eq_some_iff.mp h with rfl | rfl
  · rfl
  · rfl

theorem operands_of_sequence (h : v.sequence? = some items) : v.operands = items.tail := by
  rcases sequence?_eq_some_iff.mp h with rfl | rfl
  · rfl
  · rfl

/-- A value with a tag is a node, or a sequence of the tag and the operands. -/
theorem node_or_sequence (h : v.tag? = some tag) :
    (∃ fields, v = .node tag v.operands fields) ∨ v.sequence? = some (.str tag :: v.operands) := by
  have hform : v.arrayForm?.map (·.1) = some tag →
      v.sequence? = some (.str tag :: v.operands) := by
    intro h
    obtain ⟨⟨_, rest⟩, hform, rfl⟩ := Option.map_eq_some_iff.mp h
    have hseq := arrayForm?_eq_some_iff.mp hform
    rw [operands_of_sequence hseq, hseq]
    rfl
  cases v with
  | node tag' args fields =>
      obtain rfl := Option.some.inj h
      exact Or.inl ⟨fields, rfl⟩
  | _ => exact Or.inr (hform h)

end Value

/-! ## Nodes of sequences -/

namespace Node

variable {v : Value} {items operands : List Value} {tag : String} {n : Node}
  {default? : Option String}

/-- The node of a sequence headed by a text is the one of an array form. -/
theorem ofValue_array (default? : Option String) (hv : v.sequence? = some (.str tag :: operands)) :
    ofValue v default? = .ok (ofArray tag operands) := by
  rcases Value.sequence?_eq_some_iff.mp hv with rfl | rfl
  · rfl
  · rfl

/-- Any other sequence stands for no node. -/
theorem ofValue_headless (default? : Option String) (hv : v.sequence? = some items)
    (h : ∀ tag rest, items ≠ .str tag :: rest) : ofValue v default? = .error (.notNode v) := by
  have hform := Value.arrayForm?_of_headless hv h
  rcases Value.sequence?_eq_some_iff.mp hv with rfl | rfl
  · simp only [ofValue, hform]
  · simp only [ofValue, hform]

theorem array_of_ofValue (hv : v.sequence? = some items) (h : ofValue v default? = .ok n) :
    ∃ tag operands, items = .str tag :: operands ∧ n = ofArray tag operands := by
  by_cases hhead : ∃ tag operands, items = .str tag :: operands
  · obtain ⟨tag, operands, rfl⟩ := hhead
    rw [ofValue_array default? hv] at h
    exact ⟨tag, operands, rfl, (Except.ok.inj h).symm⟩
  · rw [ofValue_headless default? hv fun tag rest heq => hhead ⟨tag, rest, heq⟩] at h
    cases h

end Node

namespace Value

variable {v : Value} {n : Node} {tag : String}

theorem tag_ofArray (tag : String) (operands : List Value) :
    (Node.ofArray tag operands).tag = tag := by
  rw [Node.ofArray]
  split
  · rfl
  · split <;> rfl

/-- A node or an array form has a tag and operands, and the node it stands for has
the same tag. -/
theorem node_of_tag? (h : Node.ofValue v = .ok n) (hv : v.tag? = some tag) :
    n.tag = tag ∧ (n.args = v.operands ∨ n = Node.ofArray tag v.operands) := by
  rcases node_or_sequence hv with ⟨fields, hnode⟩ | hseq
  · rw [hnode] at h
    obtain rfl := Except.ok.inj h
    exact ⟨rfl, Or.inl rfl⟩
  · rw [Node.ofValue_array none hseq] at h
    obtain rfl := Except.ok.inj h
    exact ⟨tag_ofArray tag v.operands, Or.inr rfl⟩

/-- The operands of an array form that is neither a name nor an alias are those of its
node. -/
theorem args_eq_operands (h : Node.ofValue v = .ok n) (hv : v.tag? = some tag)
    (hname : tag ≠ Keyword.name.tag) (haliased : tag ≠ Keyword.aliased.tag) :
    n.args = v.operands := by
  rcases (node_of_tag? h hv).2 with hargs | rfl
  · exact hargs
  · rw [Node.ofArray, if_neg hname, if_neg haliased]

theorem operands_of_list (h : Node.ofValue v = .ok n) (hv : v.tag? = some Keyword.list.tag) :
    v.operands = n.args :=
  (args_eq_operands h hv (by decide) (by decide)).symm

end Value

end QueryTree
