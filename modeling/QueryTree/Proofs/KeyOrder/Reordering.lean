import Mathlib.Data.List.Forall2
import QueryTree.Clause
import QueryTree.Statement.Shape
import QueryTree.Proofs.Weight

/-!
# Values up to the order of keys

A map keeps its entries in the order they were entered.  A *reordering* of a value
has the entries of each map, and the named operands of each node, in any other
order, at any depth (`Value.Reordered`).

What looks at entries by their keys does not see the order (`Fields.get?_perm`).  So
a reordering has the same shape wherever a value is looked at, and it stands for a
node with the same tag, with operands that are reorderings by position, and with
operands that are reorderings under each key (`Value.Reordered.stands`).
-/

namespace QueryTree

/-! ## Looking up keys -/

namespace Fields

/-- The text keys, in order. -/
def textKeys (fields : Fields) : List String :=
  fields.filterMap fun entry => match entry.1 with
    | .str k => some k
    | _ => none

theorem get?_cons_str (k key : String) (v : Value) (rest : Fields) :
    get? ((.str k, v) :: rest) key = if k = key then some v else get? rest key := rfl

/-- An entry without a text key is passed over. -/
theorem get?_cons_of_ne {k : Value} (hk : ∀ t, k ≠ .str t) (v : Value) (rest : Fields) (key : String) :
    get? ((k, v) :: rest) key = get? rest key := by
  cases k with
  | str t => exact absurd rfl (hk t)
  | _ => rfl

theorem mem_of_get? {key : String} {v : Value} :
    ∀ {fields : Fields}, fields.get? key = some v → (.str key, v) ∈ fields
  | (k, w) :: rest, h => by
      by_cases hk : ∃ t, k = .str t
      · obtain ⟨t, rfl⟩ := hk
        rw [get?_cons_str] at h
        split at h
        · next heq =>
            obtain rfl := Option.some.inj h
            rw [heq]
            exact List.mem_cons_self
        · exact List.mem_cons_of_mem _ (mem_of_get? h)
      · rw [get?_cons_of_ne (fun t ht => hk ⟨t, ht⟩)] at h
        exact List.mem_cons_of_mem _ (mem_of_get? h)

theorem mem_textKeys {key : String} {v : Value} {fields : Fields} (h : (.str key, v) ∈ fields) :
    key ∈ fields.textKeys := List.mem_filterMap.mpr ⟨_, h, rfl⟩

/-- If each text key occurs once, an entry is what its key leads to. -/
theorem get?_eq_some_iff {key : String} {v : Value} :
    ∀ {fields : Fields}, fields.textKeys.Nodup →
      (fields.get? key = some v ↔ (.str key, v) ∈ fields)
  | [], _ => by simp [get?]
  | (k, w) :: rest, hnodup => by
      refine ⟨mem_of_get?, fun h => ?_⟩
      by_cases hk : ∃ t, k = .str t
      · obtain ⟨t, rfl⟩ := hk
        obtain ⟨hnot, hrest⟩ := List.nodup_cons.mp hnodup
        rw [get?_cons_str]
        rcases List.mem_cons.mp h with heq | h
        · obtain ⟨hkey, rfl⟩ := Prod.mk.inj heq
          rw [if_pos (Value.str.inj hkey).symm]
        · have hne : t ≠ key := fun heq => hnot (heq ▸ mem_textKeys h)
          rw [if_neg hne]
          exact (get?_eq_some_iff hrest).mpr h
      · have hk' : ∀ t, k ≠ .str t := fun t ht => hk ⟨t, ht⟩
        rw [get?_cons_of_ne hk']
        have hrest : textKeys rest = textKeys ((k, w) :: rest) := by
          cases k with
          | str t => exact absurd rfl (hk' t)
          | _ => rfl
        rcases List.mem_cons.mp h with heq | h
        · exact absurd (Prod.mk.inj heq).1.symm (hk' key)
        · exact (get?_eq_some_iff (hrest ▸ hnodup)).mpr h

/-- What a key leads to does not depend on the order of entries. -/
theorem get?_perm {fields fields' : Fields} (h : fields.Perm fields') (hnodup : fields.textKeys.Nodup)
    (key : String) : fields.get? key = fields'.get? key := by
  have hnodup' : fields'.textKeys.Nodup := (h.filterMap _).nodup_iff.mp hnodup
  refine Option.ext fun v => ?_
  rw [get?_eq_some_iff hnodup, get?_eq_some_iff hnodup', h.mem_iff]

theorem get?_without (key removed : String) :
    ∀ fields : Fields,
      (fields.without removed).get? key = if key = removed then none else fields.get? key
  | [] => by simp [without, get?]
  | (k, v) :: rest => by
      have ih := get?_without key removed rest
      by_cases hk : ∃ t, k = .str t
      · obtain ⟨t, rfl⟩ := hk
        by_cases ht : t = removed
        · subst ht
          have hcons : without ((.str t, v) :: rest) t = without rest t := by simp [without]
          rw [hcons, ih, get?_cons_str]
          split
          · rfl
          · next hne => rw [if_neg fun heq => hne heq.symm]
        · have hcons : without ((.str t, v) :: rest) removed = (.str t, v) :: without rest removed := by
            simp [without, ht]
          rw [hcons, get?_cons_str, get?_cons_str, ih]
          split
          · next heq => rw [if_neg fun h => ht (heq.trans h)]
          · rfl
      · have hk' : ∀ t, k ≠ .str t := fun t ht => hk ⟨t, ht⟩
        have hcons : without ((k, v) :: rest) removed = (k, v) :: without rest removed := by
          cases k with
          | str t => exact absurd rfl (hk' t)
          | _ => rfl
        rw [hcons, get?_cons_of_ne hk', get?_cons_of_ne hk', ih]

/-- What is under a key of entries in a row. -/
theorem get?_append (key : String) :
    ∀ fields more : Fields, get? (fields ++ more) key = (fields.get? key).or (more.get? key)
  | [], more => rfl
  | (k, v) :: rest, more => by
      have ih := get?_append key rest more
      by_cases hk : ∃ t, k = .str t
      · obtain ⟨t, rfl⟩ := hk
        rw [List.cons_append, get?_cons_str, get?_cons_str, ih]
        split <;> rfl
      · have hk' : ∀ t, k ≠ .str t := fun t ht => hk ⟨t, ht⟩
        rw [List.cons_append, get?_cons_of_ne hk', get?_cons_of_ne hk', ih]

/-- An entry without a text key stays when a text key is set. -/
theorem set_cons_of_ne {k : Value} (hk : ∀ t, k ≠ .str t) (v : Value) (rest : Fields)
    (changed : String) (w : Value) : set ((k, v) :: rest) changed w = (k, v) :: set rest changed w := by
  cases k with
  | str t => exact absurd rfl (hk t)
  | _ => rfl

theorem get?_set (key changed : String) (w : Value) :
    ∀ fields : Fields,
      (fields.set changed w).get? key = if key = changed then some w else fields.get? key
  | [] => by
      rw [set, get?_cons_str]
      by_cases h : key = changed
      · rw [if_pos h, if_pos h.symm]
      · rw [if_neg h, if_neg fun heq => h heq.symm]
  | (k, v) :: rest => by
      have ih := get?_set key changed w rest
      by_cases hk : ∃ t, k = .str t
      · obtain ⟨t, rfl⟩ := hk
        by_cases ht : t = changed
        · subst ht
          rw [set, if_pos rfl, get?_cons_str, get?_cons_str]
          by_cases h : key = t
          · rw [if_pos h, if_pos h.symm]
          · rw [if_neg h, if_neg fun heq => h heq.symm, if_neg fun heq => h heq.symm]
        · rw [set, if_neg ht, get?_cons_str, get?_cons_str, ih]
          by_cases h : key = changed
          · rw [if_pos h, if_pos h, if_neg fun heq => ht (heq.trans h)]
          · rw [if_neg h, if_neg h]
      · have hk' : ∀ t, k ≠ .str t := fun t ht => hk ⟨t, ht⟩
        rw [set_cons_of_ne hk', get?_cons_of_ne hk', get?_cons_of_ne hk', ih]

/-- A key that is set is not there once it is taken out again. -/
theorem without_set (key : String) (v : Value) :
    ∀ fields : Fields, (fields.set key v).without key = fields.without key
  | [] => by simp [set, without]
  | (k, w) :: rest => by
      have ih := without_set key v rest
      by_cases hk : ∃ t, k = .str t
      · obtain ⟨t, rfl⟩ := hk
        by_cases ht : t = key
        · simp [set, without, ht]
        · have hset : set ((.str t, w) :: rest) key v = (.str t, w) :: set rest key v := by
            rw [set, if_neg ht]
          simp only [without] at ih ⊢
          rw [hset, List.filter_cons, List.filter_cons, ih]
      · simp only [without] at ih ⊢
        rw [set_cons_of_ne fun t ht => hk ⟨t, ht⟩, List.filter_cons, List.filter_cons, ih]

end Fields

/-! ## Reorderings -/

namespace Value

mutual

/-- Values that differ in the order of entries. -/
inductive Reordered : Value → Value → Prop
  | same (v : Value) : Reordered v v
  | list {vs ws : List Value} : ItemsReordered vs ws → Reordered (.list vs) (.list ws)
  | tuple {vs ws : List Value} : ItemsReordered vs ws → Reordered (.tuple vs) (.tuple ws)
  | map {entries mid entries' : Fields} :
    entries.textKeys.Nodup → EntriesReordered entries mid → mid.Perm entries' →
      Reordered (.map entries) (.map entries')
  | node (tag : String) {args args' : List Value} {fields mid fields' : Fields} :
    ItemsReordered args args' → fields.textKeys.Nodup → EntriesReordered fields mid →
      mid.Perm fields' → Reordered (.node tag args fields) (.node tag args' fields')

/-- Items that are reorderings one by one. -/
inductive ItemsReordered : List Value → List Value → Prop
  | nil : ItemsReordered [] []
  | cons {v w : Value} {vs ws : List Value} :
    Reordered v w → ItemsReordered vs ws → ItemsReordered (v :: vs) (w :: ws)

/-- Entries with the same keys whose values are reorderings one by one. -/
inductive EntriesReordered : Fields → Fields → Prop
  | nil : EntriesReordered [] []
  | cons (key : Value) {v w : Value} {entries entries' : Fields} :
    Reordered v w → EntriesReordered entries entries' →
      EntriesReordered ((key, v) :: entries) ((key, w) :: entries')

end

theorem ItemsReordered.forall₂ {vs ws : List Value} :
    ItemsReordered vs ws → List.Forall₂ Reordered vs ws
  | .nil => .nil
  | .cons h hs => .cons h hs.forall₂

theorem itemsReordered_of_forall₂ {vs ws : List Value} (h : List.Forall₂ Reordered vs ws) :
    ItemsReordered vs ws := by
  induction h with
  | nil => exact .nil
  | cons h _ ih => exact .cons h ih

theorem reordered_refl (vs : List Value) : List.Forall₂ Reordered vs vs :=
  List.forall₂_same.mpr fun v _ => .same v

theorem EntriesReordered.textKeys_eq {entries entries' : Fields} :
    EntriesReordered entries entries' → entries.textKeys = entries'.textKeys
  | .nil => rfl
  | .cons key h hs => by
      cases key <;> simp only [Fields.textKeys, List.filterMap_cons] <;>
        simpa [Fields.textKeys] using hs.textKeys_eq

theorem EntriesReordered.get? (key : String) {entries entries' : Fields} :
    EntriesReordered entries entries' →
      Option.Rel Reordered (entries.get? key) (entries'.get? key)
  | .nil => .none
  | @EntriesReordered.cons k v w rest rest' h hs => by
      by_cases hk : ∃ t, k = .str t
      · obtain ⟨t, rfl⟩ := hk
        rw [Fields.get?_cons_str, Fields.get?_cons_str]
        split
        · exact .some h
        · exact hs.get? key
      · have hk' : ∀ t, k ≠ .str t := fun t ht => hk ⟨t, ht⟩
        rw [Fields.get?_cons_of_ne hk', Fields.get?_cons_of_ne hk']
        exact hs.get? key

/-- Under each key of reordered entries is a reordering. -/
theorem get?_reordered {entries mid entries' : Fields} (hnodup : entries.textKeys.Nodup)
    (h : EntriesReordered entries mid) (hperm : mid.Perm entries') (key : String) :
    Option.Rel Reordered (entries.get? key) (entries'.get? key) := by
  rw [← Fields.get?_perm hperm (h.textKeys_eq ▸ hnodup) key]
  exact h.get? key

theorem optionRel_refl (o : Option Value) : Option.Rel Reordered o o := by
  cases o with
  | none => exact .none
  | some v => exact .some (.same v)

/-- What is under a key, where null stands for nothing. -/
theorem getD_reordered {o o' : Option Value} (h : Option.Rel Reordered o o') :
    Reordered (o.getD .null) (o'.getD .null) := by
  cases h with
  | none => exact .same .null
  | some h => exact h

/-! ## What a value says of its shape -/

namespace Reordered

variable {v w : Value}

theorem sequence? (h : Reordered v w) :
    Option.Rel (List.Forall₂ Reordered) v.sequence? w.sequence? := by
  cases h with
  | same =>
      cases v.sequence? with
      | none => exact .none
      | some vs => exact .some (reordered_refl vs)
  | list h => exact .some h.forall₂
  | tuple h => exact .some h.forall₂
  | map => exact .none
  | node => exact .none

theorem isSequence_eq (h : Reordered v w) : v.isSequence = w.isSequence := by
  have hseq := h.sequence?
  rw [isSequence, isSequence]
  cases hv : v.sequence? <;> cases hw : w.sequence? <;> simp_all

theorem getD_sequence? (h : Reordered v w) :
    List.Forall₂ Reordered (v.sequence?.getD []) (w.sequence?.getD []) := by
  have hseq := h.sequence?
  generalize v.sequence? = o at hseq ⊢
  generalize w.sequence? = o' at hseq ⊢
  cases hseq with
  | none => exact .nil
  | some h => exact h

theorem eq_of_str {t : String} (h : Reordered (.str t) w) : w = .str t := by
  cases h
  rfl

theorem str_iff (h : Reordered v w) (t : String) : v = .str t ↔ w = .str t := by
  cases h with
  | same => rfl
  | _ => simp

theorem operands (h : Reordered v w) : List.Forall₂ Reordered v.operands w.operands := by
  have htail : ∀ {vs ws : List Value}, List.Forall₂ Reordered vs ws →
      List.Forall₂ Reordered vs.tail ws.tail := by
    intro vs ws h
    cases h with
    | nil => exact .nil
    | cons _ hs => exact hs
  cases h with
  | same => exact reordered_refl _
  | list h => exact htail h.forall₂
  | tuple h => exact htail h.forall₂
  | map => exact .nil
  | node _ h => exact h.forall₂

/-- Items of which the first is the same text, or not a text. -/
theorem head_str {vs ws : List Value} (h : List.Forall₂ Reordered vs ws) :
    (∃ t vs' ws', vs = .str t :: vs' ∧ ws = .str t :: ws' ∧ List.Forall₂ Reordered vs' ws') ∨
      (∀ t vs', vs ≠ .str t :: vs') ∧ ∀ t ws', ws ≠ .str t :: ws' := by
  cases h with
  | nil => exact Or.inr (by simp)
  | @cons v w vs ws h hs =>
      by_cases hv : ∃ t, v = .str t
      · obtain ⟨t, rfl⟩ := hv
        obtain rfl := h.eq_of_str
        exact Or.inl ⟨t, vs, ws, rfl, rfl, hs⟩
      · refine Or.inr ⟨fun t vs' heq => hv ⟨t, (List.cons.inj heq).1⟩, fun t ws' heq => ?_⟩
        exact hv ⟨t, (h.str_iff t).mpr (List.cons.inj heq).1⟩

/-- An array form of the same tag, or none. -/
theorem arrayForm? (h : Reordered v w) :
    (∃ t vs ws, v.arrayForm? = some (t, vs) ∧ w.arrayForm? = some (t, ws) ∧
      List.Forall₂ Reordered vs ws) ∨ v.arrayForm? = none ∧ w.arrayForm? = none := by
  have hseq := h.sequence?
  generalize hv : v.sequence? = o at hseq
  generalize hw : w.sequence? = o' at hseq
  cases hseq with
  | none => exact Or.inr ⟨by rw [Value.arrayForm?, hv], by rw [Value.arrayForm?, hw]⟩
  | some hitems =>
      rcases head_str hitems with ⟨t, vs, ws, rfl, rfl, hs⟩ | ⟨hvs, hws⟩
      · exact Or.inl ⟨t, vs, ws, arrayForm?_eq_some_iff.mpr hv, arrayForm?_eq_some_iff.mpr hw, hs⟩
      · exact Or.inr ⟨arrayForm?_of_headless hv hvs, arrayForm?_of_headless hw hws⟩

theorem tag?_eq (h : Reordered v w) : v.tag? = w.tag? := by
  have hform : v.arrayForm?.map (·.1) = w.arrayForm?.map (·.1) := by
    rcases h.arrayForm? with ⟨t, vs, ws, hv, hw, -⟩ | ⟨hv, hw⟩
    · rw [hv, hw]
      rfl
    · rw [hv, hw]
  cases h with
  | same => rfl
  | list => exact hform
  | tuple => exact hform
  | map => rfl
  | node => rfl

theorem isNodeLike_eq (h : Reordered v w) : v.isNodeLike = w.isNodeLike := by
  rw [Value.isNodeLike_eq, Value.isNodeLike_eq, h.tag?_eq]

theorem isMap_eq (h : Reordered v w) : v.isMap = w.isMap := by
  cases h <;> rfl

theorem isPresent_eq (h : Reordered v w) : Clause.isPresent v = Clause.isPresent w := by
  cases h <;> rfl

theorem isConditions_eq (h : Reordered v w) : Shape.isConditions v = Shape.isConditions w := by
  cases h <;> rfl

theorem isClause_eq (h : Reordered v w) : Condition.isClause v = Condition.isClause w := by
  cases h <;> rfl

theorem isBlank_eq (h : Reordered v w) : v.isBlank = w.isBlank := by
  have hitems : ∀ {vs ws : List Value}, ItemsReordered vs ws → vs.isEmpty = ws.isEmpty := by
    intro vs ws h
    cases h <;> rfl
  cases h with
  | same => rfl
  | list h => exact hitems h
  | tuple h => exact hitems h
  | map _ h hperm =>
      have hlength := hperm.length_eq
      cases h with
      | nil => rw [List.nil_perm.mp hperm]
      | cons key h hs =>
          rw [isBlank, isBlank, List.isEmpty_cons, eq_comm, List.isEmpty_eq_false_iff]
          rintro rfl
          cases hlength
  | node => rfl

end Reordered

end Value

/-! ## Nodes -/

/-- Nodes whose operands are reorderings, by position and under each key. -/
structure Node.Reordered (n m : Node) : Prop where
  tag_eq : n.tag = m.tag
  args : List.Forall₂ Value.Reordered n.args m.args
  fields : ∀ key, Option.Rel Value.Reordered (n.fields.get? key) (m.fields.get? key)

namespace Value

/-- Values that stand for nodes up to the order of entries, or for none. -/
inductive Stand (default? : Option String) : Value → Value → Prop
  | nodes {v w : Value} {n m : Node} : Node.ofValue v default? = .ok n →
    Node.ofValue w default? = .ok m → n.Reordered m → Stand default? v w
  | malformed {v w : Value} {c c' : Malformed} : Node.ofValue v default? = .error c →
    Node.ofValue w default? = .error c' → Stand default? v w

end Value

namespace Node

open Value (EntriesReordered reordered_refl optionRel_refl get?_reordered getD_reordered)

variable {n m : Node}

theorem Reordered.get (h : n.Reordered m) (key : String) :
    Value.Reordered (n.fields.get key) (m.fields.get key) := getD_reordered (h.fields key)

theorem reordered_nameOperands {vs ws : List Value} (h : List.Forall₂ Value.Reordered vs ws) :
    List.Forall₂ Value.Reordered (nameOperands vs) (nameOperands ws) := by
  unfold nameOperands
  cases h with
  | nil => exact .nil
  | @cons v w _ _ h hs =>
      cases hs with
      | cons h' hs => exact .cons h (.cons h' hs)
      | nil =>
          have hseq := h.sequence?
          dsimp only
          generalize v.sequence? = o at hseq ⊢
          generalize w.sequence? = o' at hseq ⊢
          cases hseq with
          | none => exact .cons h .nil
          | some h => exact h

theorem reordered_ofArray (tag : String) {vs ws : List Value}
    (h : List.Forall₂ Value.Reordered vs ws) : (ofArray tag vs).Reordered (ofArray tag ws) := by
  have hhead : ∀ {vs ws : List Value}, List.Forall₂ Value.Reordered vs ws →
      Value.Reordered (vs.headD .null) (ws.headD .null) := by
    intro vs ws h
    cases h with
    | nil => exact .same .null
    | cons h _ => exact h
  have htail : List.Forall₂ Value.Reordered vs.tail ws.tail := by
    cases h with
    | nil => exact .nil
    | cons _ hs => exact hs
  unfold ofArray
  split
  · exact ⟨rfl, reordered_nameOperands h, fun _ => .none⟩
  · split
    · refine ⟨rfl, .nil, fun key => EntriesReordered.get? key ?_⟩
      exact .cons _ (hhead h) (.cons _ (hhead htail) .nil)
    · exact ⟨rfl, h, fun _ => .none⟩

theorem fields_without {entries entries' : Fields}
    (h : ∀ key, Option.Rel Value.Reordered (entries.get? key) (entries'.get? key))
    (removed key : String) :
    Option.Rel Value.Reordered ((entries.without removed).get? key)
      ((entries'.without removed).get? key) := by
  rw [Fields.get?_without, Fields.get?_without]
  split
  · exact .none
  · exact h key

theorem stand_ofMap (default? : Option String) {entries entries' : Fields}
    (h : ∀ key, Option.Rel Value.Reordered (entries.get? key) (entries'.get? key)) :
    Value.Stand default? (.map entries) (.map entries') := by
  have htype : Value.Reordered (entries.get "type") (entries'.get "type") := getD_reordered (h "type")
  have hfields := fields_without h "type"
  have hblank := htype.isBlank_eq
  by_cases hb : (entries.get "type").isBlank = true
  · have hb' := hblank ▸ hb
    cases default? with
    | some tag =>
        have hn : ofValue (.map entries) (some tag) =
            .ok { tag := tagOfType tag, fields := entries.without "type" } := if_pos hb
        have hm : ofValue (.map entries') (some tag) =
            .ok { tag := tagOfType tag, fields := entries'.without "type" } := if_pos hb'
        exact .nodes hn hm ⟨rfl, .nil, hfields⟩
    | none =>
        have hn : ofValue (.map entries) none = .error (untyped entries) := if_pos hb
        have hm : ofValue (.map entries') none = .error (untyped entries') := if_pos hb'
        exact .malformed hn hm
  · have hb' := hblank ▸ hb
    have hn : ofValue (.map entries) default? = (tagOf (entries.get "type")).map fun tag =>
        { tag, fields := entries.without "type" } := if_neg hb
    have hm : ofValue (.map entries') default? = (tagOf (entries'.get "type")).map fun tag =>
        { tag, fields := entries'.without "type" } := if_neg hb'
    by_cases hstr : ∃ t, entries.get "type" = .str t
    · obtain ⟨t, ht⟩ := hstr
      rw [ht] at hn
      rw [(htype.str_iff t).mp ht] at hm
      exact .nodes hn hm ⟨rfl, .nil, hfields⟩
    · have herror : ∀ {v : Value}, (∀ t, v ≠ .str t) → tagOf v = .error (.badType v) := by
        intro v hv
        cases v with
        | str t => exact absurd rfl (hv t)
        | _ => rfl
      rw [herror fun t ht => hstr ⟨t, ht⟩] at hn
      rw [herror fun t ht => hstr ⟨t, (htype.str_iff t).mpr ht⟩] at hm
      exact .malformed hn hm

theorem reordered_refl (n : Node) : n.Reordered n :=
  ⟨rfl, Value.reordered_refl n.args, fun _ => optionRel_refl _⟩

/-- A reordering stands for a node up to order. -/
theorem stand_of_reordered (default? : Option String) {v w : Value} (h : Value.Reordered v w) :
    Value.Stand default? v w := by
  have hsequence : ∀ {v w : Value} {vs ws : List Value}, v.sequence? = some vs →
      w.sequence? = some ws → List.Forall₂ Value.Reordered vs ws → Value.Stand default? v w := by
    intro v w vs ws hv hw hs
    rcases Value.Reordered.head_str hs with ⟨t, vs', ws', rfl, rfl, hs'⟩ | ⟨hvs, hws⟩
    · exact .nodes (ofValue_array default? hv) (ofValue_array default? hw) (reordered_ofArray t hs')
    · exact .malformed (ofValue_headless default? hv hvs) (ofValue_headless default? hw hws)
  cases h with
  | same =>
      cases hv : ofValue v default? with
      | ok n => exact .nodes hv hv (reordered_refl n)
      | error c => exact .malformed hv hv
  | list h => exact hsequence rfl rfl h.forall₂
  | tuple h => exact hsequence rfl rfl h.forall₂
  | map hnodup h hperm => exact stand_ofMap default? (get?_reordered hnodup h hperm)
  | node tag hargs hnodup h hperm =>
      exact .nodes rfl rfl ⟨rfl, hargs.forall₂, get?_reordered hnodup h hperm⟩

end Node

end QueryTree
