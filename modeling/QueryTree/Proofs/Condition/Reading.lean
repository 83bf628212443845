import QueryTree.Condition
import QueryTree.Proofs.Node

/-!
# How conditions are read

The rules by which a value stands for a tree of conditions, apart from the
functions that read it.

* *Headed.*  A sequence headed by `-and` or `-or`, or a node with that tag, is a
  group of what follows (`Headed`).
* *Groups.*  A group may be empty.  If its first item is neither a node nor a
  sequence, the items together are its one member.  Otherwise each item is a
  member (`GroupStands`).
* *Members.*  A member is the group it is headed as.  Any other node or sequence
  is an atom, taken as it is (`MemberStands`).
* *Trees.*  A headed value stands for its group, any other sequence for an AND
  group of its items, and any other node for an AND group of itself (`Stands`).

No rule reads a member that is neither a node nor a sequence.  The main statements
are `stands_of_ofValue`, a tree without such members is read by these rules, and
`Stands.unique`, the rules read a value as one tree only.
-/

namespace QueryTree.Condition

/-! ## Atoms and faults of a tree -/

mutual

/-- The atoms of a tree from left to right. -/
def atoms : Condition → List Value
  | atom v => [v]
  | invalid _ => []
  | group _ ms => memberAtoms ms

/-- The atoms of the members of a group from left to right. -/
def memberAtoms : List Condition → List Value
  | [] => []
  | m :: ms => atoms m ++ memberAtoms ms

end

mutual

/-- The values in a tree that can be no condition. -/
def faults : Condition → List Value
  | atom _ => []
  | invalid v => [v]
  | group _ ms => memberFaults ms

/-- The values in the members of a group that can be no condition. -/
def memberFaults : List Condition → List Value
  | [] => []
  | m :: ms => faults m ++ memberFaults ms

end

theorem mem_memberAtoms {a : Value} :
    ∀ {ms : List Condition}, a ∈ memberAtoms ms → ∃ m ∈ ms, a ∈ m.atoms
  | [], h => by simp [memberAtoms] at h
  | m :: ms, h => by
      rw [memberAtoms, List.mem_append] at h
      rcases h with h | h
      · exact ⟨m, List.mem_cons_self, h⟩
      · obtain ⟨m', hm', ha⟩ := mem_memberAtoms h
        exact ⟨m', List.mem_cons_of_mem m hm', ha⟩

theorem faults_eq_nil_of_mem {m : Condition} :
    ∀ {ms : List Condition}, memberFaults ms = [] → m ∈ ms → m.faults = []
  | _ :: _, h, hm => by
      rw [memberFaults, List.append_eq_nil_iff] at h
      rcases List.mem_cons.mp hm with rfl | hm
      · exact h.1
      · exact faults_eq_nil_of_mem h.2 hm

/-! ## The rules -/

/-- A value headed by the tag of a connective, and the items after the tag. -/
inductive Headed : Value → Connective → List Value → Prop
  | list (c : Connective) (items : List Value) : Headed (.list (.str c.tag :: items)) c items
  | tuple (c : Connective) (items : List Value) : Headed (.tuple (.str c.tag :: items)) c items
  | node (c : Connective) (items : List Value) (fields : Fields) :
    Headed (.node c.tag items fields) c items

mutual

/-- The items after the tag of a group stand for a tree. -/
inductive GroupStands : Connective → List Value → Condition → Prop
  | empty (c : Connective) : GroupStands c [] (.group c [])
  | flat {c : Connective} {v : Value} {rest : List Value} {m : Condition} :
    isClause v = false → MemberStands (.list (v :: rest)) m →
      GroupStands c (v :: rest) (.group c [m])
  | members {c : Connective} {v : Value} {rest : List Value} {ms : List Condition} :
    isClause v = true → MembersStand (v :: rest) ms → GroupStands c (v :: rest) (.group c ms)

/-- A member of a group stands for a tree. -/
inductive MemberStands : Value → Condition → Prop
  | group {v : Value} {c : Connective} {items : List Value} {t : Condition} :
    Headed v c items → GroupStands c items t → MemberStands v t
  | atom {v : Value} : isClause v = true → (∀ c items, ¬ Headed v c items) → MemberStands v (.atom v)

/-- The members of a group stand for trees one by one. -/
inductive MembersStand : List Value → List Condition → Prop
  | nil : MembersStand [] []
  | cons {v : Value} {vs : List Value} {m : Condition} {ms : List Condition} :
    MemberStands v m → MembersStand vs ms → MembersStand (v :: vs) (m :: ms)

end

/-- A value stands for a tree. -/
inductive Stands : Value → Condition → Prop
  | headed {v : Value} {c : Connective} {items : List Value} {t : Condition} :
    Headed v c items → GroupStands c items t → Stands v t
  | untagged {v : Value} {items : List Value} {t : Condition} :
    v.sequence? = some items → (∀ c rest, ¬ Headed v c rest) → GroupStands .and items t → Stands v t
  | node {tag : String} {args : List Value} {fields : Fields} :
    (∀ c items, ¬ Headed (.node tag args fields) c items) →
      Stands (.node tag args fields) (.group .and [.atom (.node tag args fields)])

/-! ## Reading by cases -/

theorem tag_of_ofTag? {s : String} {c : Connective} (h : Connective.ofTag? s = some c) :
    s = c.tag := by
  unfold Connective.ofTag? at h
  split at h
  · next hs =>
      cases h
      exact hs
  · split at h
    · next hs =>
        cases h
        exact hs
    · cases h

theorem Headed.tag? {v : Value} {c : Connective} {items : List Value} (h : Headed v c items) :
    v.tag? = some c.tag := by
  cases h <;> rfl

theorem Headed.operands_eq {v : Value} {c : Connective} {items : List Value} (h : Headed v c items) :
    v.operands = items := by
  cases h <;> rfl

theorem headed_of_sequence {v : Value} {c : Connective} {items : List Value}
    (h : v.sequence? = some (.str c.tag :: items)) : Headed v c items := by
  rcases Value.sequence?_eq_some_iff.mp h with rfl | rfl
  · exact .list c items
  · exact .tuple c items

/-- A value with the tag of a connective is headed by it. -/
theorem headed_of_tag? {v : Value} {c : Connective} (h : v.tag? = some c.tag) :
    Headed v c v.operands := by
  rcases Value.node_or_sequence h with ⟨fields, heq⟩ | hseq
  · rw [heq]
    exact .node c _ fields
  · exact headed_of_sequence hseq

theorem not_headed {v : Value} {tag : String} (hv : v.tag? = some tag)
    (htag : Connective.ofTag? tag = none) (c : Connective) (items : List Value) :
    ¬ Headed v c items := by
  intro h
  obtain rfl := Option.some.inj (hv.symm.trans h.tag?)
  rw [Connective.ofTag?_tag] at htag
  cases htag

theorem Headed.sizeOf_lt {v : Value} {c : Connective} {items : List Value} (h : Headed v c items) :
    sizeOf items < sizeOf v := by
  cases h with
  | list => simp; omega
  | tuple => simp; omega
  | node => simp; omega

/-- A headed list is longer than its items, also if the list is taken bare. -/
theorem Headed.sizeOf_lt_of_list {vs : List Value} {c : Connective} {items : List Value}
    (h : Headed (.list vs) c items) : sizeOf items < sizeOf vs := by
  cases h with
  | list =>
      rw [List.cons.sizeOf_spec]
      exact Nat.lt_add_of_pos_left (Nat.add_pos_left Nat.one_pos _)

theorem ofMembers_eq_map : ∀ vs : List Value, ofMembers vs = vs.map ofMember
  | [] => rfl
  | v :: vs => by rw [ofMembers, ofMembers_eq_map vs, List.map_cons]

theorem ofMember_headed {v : Value} {c : Connective} {items : List Value} (h : Headed v c items) :
    ofMember v = ofItems c items := by
  cases h with
  | list => simp [ofMember]
  | tuple => simp [ofMember]
  | node => simp [ofMember]

theorem ofTag?_eq_none {s : String} (h : ∀ c : Connective, s ≠ c.tag) :
    Connective.ofTag? s = none := by
  cases hc : Connective.ofTag? s with
  | none => rfl
  | some c => exact absurd (tag_of_ofTag? hc) (h c)

/-- A sequence that is headed by no connective is an atom. -/
theorem ofMember_sequence {v : Value} {items : List Value} (hv : v.sequence? = some items)
    (h : ∀ c rest, ¬ Headed v c rest) : ofMember v = .atom v := by
  have htag : ∀ s rest, items = .str s :: rest → Connective.ofTag? s = none :=
    fun s rest heq => ofTag?_eq_none fun c hc =>
      h c rest (headed_of_sequence (by rw [hv, heq, hc]))
  rcases Value.sequence?_eq_some_iff.mp hv with rfl | rfl
  all_goals
    match items, htag with
    | .str s :: rest, htag => simp [ofMember, htag s rest rfl]
    | [], _ | .null :: _, _ | .bool _ :: _, _ | .int _ :: _, _ | .float _ :: _, _
    | .bytes _ :: _, _ | .list _ :: _, _ | .tuple _ :: _, _ | .map _ :: _, _ | .node .. :: _, _ => rfl

/-- A member that is headed by no connective is an atom, or no condition at all. -/
theorem ofMember_unheaded {v : Value} (h : ∀ c items, ¬ Headed v c items) :
    ofMember v = if isClause v then .atom v else .invalid v := by
  cases v with
  | node tag args fields =>
      have hs : Connective.ofTag? tag = none :=
        ofTag?_eq_none fun c hc => h c args (hc ▸ .node c args fields)
      simp [ofMember, hs, isClause]
  | list items => exact ofMember_sequence rfl h
  | tuple items => exact ofMember_sequence rfl h
  | _ => rfl

/-- A member is the group it is headed as, or headed by no connective. -/
theorem ofMember_cases (v : Value) :
    (∃ c items, Headed v c items ∧ ofMember v = ofItems c items) ∨
      (∀ c items, ¬ Headed v c items) ∧
        ofMember v = if isClause v then .atom v else .invalid v := by
  by_cases hd : ∃ c items, Headed v c items
  · obtain ⟨c, items, h⟩ := hd
    exact Or.inl ⟨c, items, h, ofMember_headed h⟩
  · have hnot : ∀ c items, ¬ Headed v c items := fun c items h => hd ⟨c, items, h⟩
    exact Or.inr ⟨hnot, ofMember_unheaded hnot⟩

/-- The items of a group are nothing, one flat member, or members. -/
theorem ofItems_cons (c : Connective) (v : Value) (rest : List Value) :
    ofItems c (v :: rest) =
      .group c (if isClause v then (v :: rest).map ofMember else [ofMember (.list (v :: rest))]) := by
  rw [← ofMembers_eq_map]
  cases v with
  | str s =>
      simp only [ofItems, ofMember, isClause, Value.isSequence, Value.sequence?]
      cases Connective.ofTag? s <;> rfl
  | _ => rfl

/-- An atom of a member is the member, or an atom of the group that it is headed as. -/
theorem mem_atoms_ofMember {v a : Value} (ha : a ∈ (ofMember v).atoms) :
    a = v ∨ ∃ c items, Headed v c items ∧ a ∈ (ofItems c items).atoms := by
  rcases ofMember_cases v with ⟨c, items, hv, heq⟩ | ⟨-, heq⟩
  · exact Or.inr ⟨c, items, hv, heq ▸ ha⟩
  · rw [heq] at ha
    split at ha
    · exact Or.inl (List.mem_singleton.mp ha)
    · cases ha

/-- An atom of a group is an item or the list of all items, or an atom of the smaller group
that one of these is headed as. -/
theorem mem_atoms_ofItems {c : Connective} {items : List Value} {a : Value}
    (ha : a ∈ (ofItems c items).atoms) :
    ∃ v, (v ∈ items ∨ v = .list items) ∧ (a = v ∨
      ∃ d rest, Headed v d rest ∧ sizeOf rest < sizeOf items ∧ a ∈ (ofItems d rest).atoms) := by
  match items with
  | [] => cases ha
  | first :: others =>
      rw [ofItems_cons, atoms] at ha
      obtain ⟨t, ht, ha⟩ := mem_memberAtoms ha
      split at ht
      · obtain ⟨v, hv, rfl⟩ := List.mem_map.mp ht
        refine ⟨v, Or.inl hv, (mem_atoms_ofMember ha).imp_right ?_⟩
        rintro ⟨d, rest, hd, ha⟩
        exact ⟨d, rest, hd, Nat.lt_trans hd.sizeOf_lt (List.sizeOf_lt_of_mem hv), ha⟩
      · -- the items of a flat member are one sequence again, headed or not
        obtain rfl := List.mem_singleton.mp ht
        refine ⟨_, Or.inr rfl, (mem_atoms_ofMember ha).imp_right ?_⟩
        rintro ⟨d, rest, hd, ha⟩
        exact ⟨d, rest, hd, hd.sizeOf_lt_of_list, ha⟩

/-- A sequence is read by its items. -/
theorem ofValue_sequence {v : Value} {items : List Value} (hv : v.sequence? = some items) :
    ofValue v = .ok (ofSequence items) := by
  rcases Value.sequence?_eq_some_iff.mp hv with rfl | rfl
  · rfl
  · rfl

theorem ofValue_headed {v : Value} {c : Connective} {items : List Value} (h : Headed v c items) :
    ofValue v = .ok (ofItems c items) := by
  cases h with
  | list => simp [ofValue, Value.sequence?, ofSequence]
  | tuple => simp [ofValue, Value.sequence?, ofSequence]
  | node => simp [ofValue]

theorem ofSequence_untagged {items : List Value}
    (h : ∀ (c : Connective) (rest : List Value), items ≠ .str c.tag :: rest) :
    ofSequence items = ofItems .and items := by
  match items with
  | [] => rfl
  | .str s :: rest =>
      have hs : Connective.ofTag? s = none := ofTag?_eq_none fun c hc => h c rest (hc ▸ rfl)
      simp [ofSequence, hs]
  | .null :: _ | .bool _ :: _ | .int _ :: _ | .float _ :: _ | .bytes _ :: _ | .list _ :: _
  | .tuple _ :: _ | .map _ :: _ | .node .. :: _ => rfl

theorem ofValue_untagged {v : Value} {items : List Value} (hv : v.sequence? = some items)
    (h : ∀ c rest, ¬ Headed v c rest) : ofValue v = .ok (ofItems .and items) := by
  rw [ofValue_sequence hv, ofSequence_untagged]
  rintro c rest rfl
  exact h c rest (headed_of_sequence hv)

theorem ofValue_node {tag : String} {args : List Value} {fields : Fields}
    (h : ∀ c items, ¬ Headed (.node tag args fields) c items) :
    ofValue (.node tag args fields) = .ok (.group .and [.atom (.node tag args fields)]) := by
  have hs : Connective.ofTag? tag = none :=
    ofTag?_eq_none fun c hc => h c args (hc ▸ .node c args fields)
  simp [ofValue, hs]

/-- A value is headed, another sequence, another node, or stands for no tree. -/
theorem ofValue_cases (v : Value) :
    (∃ c items, Headed v c items ∧ ofValue v = .ok (ofItems c items)) ∨
      (∃ items, v.sequence? = some items ∧ (∀ c rest, ¬ Headed v c rest) ∧
        ofValue v = .ok (ofItems .and items)) ∨
      (∃ tag args fields, v = .node tag args fields ∧ (∀ c items, ¬ Headed v c items) ∧
        ofValue v = .ok (.group .and [.atom v])) ∨
      ofValue v = .error (.conditionsNotSequence v) := by
  by_cases hd : ∃ c items, Headed v c items
  · obtain ⟨c, items, h⟩ := hd
    exact Or.inl ⟨c, items, h, ofValue_headed h⟩
  · have hnot : ∀ c items, ¬ Headed v c items := fun c items h => hd ⟨c, items, h⟩
    cases v with
    | list items => exact Or.inr (Or.inl ⟨items, rfl, hnot, ofValue_untagged rfl hnot⟩)
    | tuple items => exact Or.inr (Or.inl ⟨items, rfl, hnot, ofValue_untagged rfl hnot⟩)
    | node tag args fields =>
        exact Or.inr (Or.inr (Or.inl ⟨tag, args, fields, rfl, hnot, ofValue_node hnot⟩))
    | _ => exact Or.inr (Or.inr (Or.inr rfl))

/-! ## Reading by the rules -/

theorem memberStands_of_groups {v : Value}
    (hgroup : ∀ c items, Headed v c items → (ofItems c items).faults = [] →
      GroupStands c items (ofItems c items))
    (h : (ofMember v).faults = []) : MemberStands v (ofMember v) := by
  rcases ofMember_cases v with ⟨c, items, hv, heq⟩ | ⟨hnot, heq⟩
  · rw [heq] at h ⊢
    exact .group hv (hgroup c items hv h)
  · rw [heq] at h ⊢
    cases hv : isClause v with
    | true => exact .atom hv hnot
    | false => simp [hv, faults] at h

theorem membersStand_of_forall :
    ∀ {vs : List Value}, (∀ v ∈ vs, MemberStands v (ofMember v)) →
      MembersStand vs (vs.map ofMember)
  | [], _ => .nil
  | v :: _, h =>
      .cons (h v List.mem_cons_self)
        (membersStand_of_forall fun w hw => h w (List.mem_cons_of_mem v hw))

/-- A group without faults is read by the rules. -/
theorem groupStands_ofItems (c : Connective) (items : List Value)
    (h : (ofItems c items).faults = []) : GroupStands c items (ofItems c items) := by
  match items with
  | [] => exact .empty c
  | v :: rest =>
      rw [ofItems_cons] at h ⊢
      cases hv : isClause v with
      | true =>
          rw [hv, if_pos rfl, faults] at h
          rw [if_pos rfl]
          refine .members hv (membersStand_of_forall fun w hw => ?_)
          refine memberStands_of_groups (fun c' items' hw' h' => ?_)
            (faults_eq_nil_of_mem h (List.mem_map_of_mem hw))
          -- the items of a headed member are smaller than the member, and that than the group
          have hlt : sizeOf items' < sizeOf (v :: rest) :=
            Nat.lt_trans hw'.sizeOf_lt (List.sizeOf_lt_of_mem hw)
          exact groupStands_ofItems c' items' h'
      | false =>
          simp only [hv, Bool.false_eq_true, if_false, faults, memberFaults,
            List.append_nil] at h ⊢
          refine .flat hv (memberStands_of_groups (fun c' items' hw' h' => ?_) h)
          have hlt : sizeOf items' < sizeOf (v :: rest) := hw'.sizeOf_lt_of_list
          exact groupStands_ofItems c' items' h'
termination_by sizeOf items

/-- A tree without faults is read by the rules. -/
theorem stands_of_ofValue {v : Value} {t : Condition} (h : ofValue v = .ok t)
    (ht : t.faults = []) : Stands v t := by
  rcases ofValue_cases v with ⟨c, items, hv, heq⟩ | ⟨items, hv, hnot, heq⟩ |
    ⟨tag, args, fields, rfl, hnot, heq⟩ | heq
  · obtain rfl : ofItems c items = t := Except.ok.inj (heq.symm.trans h)
    exact .headed hv (groupStands_ofItems c items ht)
  · obtain rfl : ofItems .and items = t := Except.ok.inj (heq.symm.trans h)
    exact .untagged hv hnot (groupStands_ofItems .and items ht)
  · obtain rfl := Except.ok.inj (heq.symm.trans h)
    exact .node hnot
  · rw [h] at heq
    cases heq

/-! ## The rules leave no choice -/

mutual

theorem GroupStands.ofItems_eq {c : Connective} {items : List Value} {t : Condition} :
    GroupStands c items t → ofItems c items = t
  | .empty c => rfl
  | .flat hv hm => by
      rw [ofItems_cons, hv, hm.ofMember_eq]
      rfl
  | .members hv hms => by
      rw [ofItems_cons, hv, hms.map_eq]
      rfl

theorem MemberStands.ofMember_eq {v : Value} {t : Condition} : MemberStands v t → ofMember v = t
  | .group hv hg => by rw [ofMember_headed hv, hg.ofItems_eq]
  | .atom hv hnot => by rw [ofMember_unheaded hnot, if_pos hv]

theorem MembersStand.map_eq {vs : List Value} {ms : List Condition} :
    MembersStand vs ms → vs.map ofMember = ms
  | .nil => rfl
  | .cons hm hms => by rw [List.map_cons, hm.ofMember_eq, hms.map_eq]

end

theorem Stands.ofValue_eq {v : Value} {t : Condition} (h : Stands v t) : ofValue v = .ok t := by
  cases h with
  | headed hv hg => rw [ofValue_headed hv, hg.ofItems_eq]
  | untagged hv hnot hg => rw [ofValue_untagged hv hnot, hg.ofItems_eq]
  | node hnot => exact ofValue_node hnot

/-- A value stands for one tree only. -/
theorem Stands.unique {v : Value} {t t' : Condition} (h : Stands v t) (h' : Stands v t') :
    t = t' := by
  have heq := h.ofValue_eq.symm.trans h'.ofValue_eq
  exact Except.ok.inj heq

end QueryTree.Condition
