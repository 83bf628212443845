import QueryTree.Settings.Load

/-!
# Errors and the fields they name

A check gets the path of what it checks, and its errors have paths from there on.

*One by one.*  The errors of a value that is checked side by side with another are those of
both, in order (`Checked.errors_seq`), and the errors of a list are those of its items
(`Checked.errors_each`).  So the errors of a record are those of its fields.

*Paths.*  A text, a truth value and a whole number have at most one error, at the path itself
(`Checked.Single`).  The errors of pairs and maps are at the path or below
(`Checked.Within`).

The main statements are `Settings.named_of_loadFrom` and `Issue.ofRecords_eq_error_iff`: an
error about settings names one of their fields, and the errors about records are those of the
first record that is no issue.
-/

namespace QueryTree

theorem map_eq_ok_iff {ε α β : Type} {f : α → β} {x : Except ε α} {b : β} :
    x.map f = .ok b ↔ ∃ a, x = .ok a ∧ b = f a := by
  cases x <;> simp [Except.map, eq_comm]

namespace Checked

variable {α β : Type}

/-! ## Checked values -/

theorem seq_valid {f : Checked (α → β)} {x : Checked α} {b : β} (h : f <*> x = .valid b) :
    ∃ g a, f = .valid g ∧ x = .valid a ∧ g a = b := by
  cases f with
  | invalid errors =>
      cases x with
      | valid a => cases h
      | invalid more => cases h
  | valid g =>
      cases x with
      | invalid errors => cases h
      | valid a => exact ⟨g, a, rfl, rfl, Checked.valid.inj h⟩

theorem map_valid {g : α → β} {x : Checked α} {b : β} (h : g <$> x = .valid b) :
    ∃ a, x = .valid a ∧ g a = b := by
  obtain ⟨g', a, hg, ha, hb⟩ := seq_valid (f := .valid g) h
  obtain rfl := Checked.valid.inj hg
  exact ⟨a, ha, hb⟩

/-! ## Errors -/

/-- The errors, none for a value. -/
def errors : Checked α → List FieldError
  | valid _ => []
  | invalid errors => errors

@[simp] theorem errors_valid (a : α) : (valid a).errors = [] := rfl

@[simp] theorem errors_error (path : List String) (fault : FieldFault) :
    (error path fault : Checked α).errors = [⟨path, fault⟩] := rfl

@[simp] theorem errors_seq (f : Checked (α → β)) (x : Checked α) :
    (f <*> x).errors = f.errors ++ x.errors := by
  cases f with
  | valid g => cases x <;> rfl
  | invalid errors =>
      cases x with
      | valid a => exact (List.append_nil errors).symm
      | invalid more => rfl

@[simp] theorem errors_map (g : α → β) (x : Checked α) : (g <$> x).errors = x.errors :=
  errors_seq (.valid g) x

@[simp] theorem errors_each (check : α → Checked β) (items : List α) :
    (each check items).errors = items.flatMap fun a => (check a).errors := by
  induction items with
  | nil => rfl
  | cons a rest ih => rw [each, errors_seq, errors_map, ih, List.flatMap_cons]

/-! ## Paths of errors -/

/-- A value, or one error at this path. -/
inductive Single (path : List String) : Checked α → Prop
  | valid (a : α) : Single path (.valid a)
  | error (fault : FieldFault) : Single path (.error path fault)

/-- Every error is at this path or below. -/
def Within (path : List String) (x : Checked α) : Prop := ∀ e ∈ x.errors, path <+: e.path

variable {path : List String} {x : Checked α}

theorem Single.path_eq (h : Single path x) : ∀ e ∈ x.errors, e.path = path := by
  cases h with
  | valid a => simp
  | error fault => simp

theorem Single.within (h : Single path x) : Within path x :=
  fun e he => h.path_eq e he ▸ List.prefix_rfl

theorem within_valid (a : α) : Within path (valid a) := nofun

theorem within_error (fault : FieldFault) : Within path (error path fault : Checked α) :=
  (Single.error fault).within

theorem Within.seq {f : Checked (α → β)} (hf : Within path f) (hx : Within path x) :
    Within path (f <*> x) := by
  intro e he
  rw [errors_seq, List.mem_append] at he
  exact he.elim (hf e) (hx e)

theorem Within.map {g : α → β} (h : Within path x) : Within path (g <$> x) := by
  intro e he
  rw [errors_map] at he
  exact h e he

theorem within_each {check : β → Checked α} {items : List β}
    (h : ∀ b ∈ items, Within path (check b)) : Within path (each check items) := by
  intro e he
  rw [errors_each, List.mem_flatMap] at he
  obtain ⟨b, hb, he⟩ := he
  exact h b hb e he

/-- A longer path is below a shorter one. -/
theorem Within.below {more : List String} (h : Within (path ++ more) x) : Within path x :=
  fun e he => (List.prefix_append path more).trans (h e he)

theorem single_text (path : List String) (v : Value) : Single path (text path v) := by
  unfold text
  split
  · exact .valid _
  · split
    · exact .valid _
    · exact .error _
  · exact .error _

end Checked

/-! ## Settings -/

namespace Settings

open Checked

variable {α : Type} {path : List String}

theorem single_booleanOfInt (i : Int) : Single path (booleanOfInt path i) := by
  unfold booleanOfInt
  split
  · exact .valid _
  · split
    · exact .valid _
    · exact .error _

theorem single_booleanOfText (s : String) : Single path (booleanOfText path s) := by
  unfold booleanOfText
  dsimp only
  split
  · exact .valid _
  · split
    · exact .valid _
    · exact .error _

theorem single_boolean (v : Value) : Single path (boolean path v) := by
  unfold boolean
  split
  · exact .valid _
  · split
    · exact single_booleanOfInt _
    · exact .error _
  · split
    · split
      · exact single_booleanOfInt _
      · exact .error _
    · exact .error _
  · exact single_booleanOfText _
  · split
    · exact single_booleanOfText _
    · exact .error _
  · exact .error _

theorem single_integerOfText (s : String) : Single path (integerOfText path s) := by
  unfold integerOfText
  split
  · exact .valid _
  · exact .error _
  · exact .error _

theorem single_integer (v : Value) : Single path (integer path v) := by
  unfold integer
  split
  · exact .valid _
  · exact .valid _
  · split
    · split
      · split
        · exact .valid _
        · exact .error _
      · exact .error _
    · exact .error _
  · exact single_integerOfText _
  · split
    · exact single_integerOfText _
    · exact .error _
  · exact .error _

theorem within_quotePair (v : Value) : Within path (quotePair path v) := by
  unfold quotePair
  split
  · exact within_error _
  · exact ((single_text _ _).within.below.map).seq (single_text _ _).within.below
  · exact ((Single.error _).within.below.map).seq (Single.error _).within.below
  · exact within_error _

theorem within_textMap {check : List String → Value → Checked α}
    (h : ∀ path v, Within path (check path v)) (v : Value) :
    Within path (textMap check path v) := by
  unfold textMap
  split
  · exact (within_each fun e _ => ((single_text _ _).within.below.below.map).seq (h _ _).below).map
  · exact within_error _

theorem within_priorityMap (v : Value) : Within path (priorityMap path v) := by
  have hmap : Within path (textMap integer path v) := within_textMap (fun _ v => (single_integer v).within) v
  unfold priorityMap
  split
  · split
    · exact within_valid _
    · exact within_error _
  · next errors herrors =>
      rw [herrors] at hmap
      exact hmap

theorem within_field {fields : Fields} {key : String} {base : α}
    {check : List String → Value → Checked α} (h : ∀ path v, Within path (check path v)) :
    Within [key] (field fields key base check) := by
  unfold field
  split
  · exact h _ _
  · exact within_valid _

/-- Every error about fields begins with the name of one. -/
theorem named_of_ofFields {fields : Fields} {e : FieldError} (he : e ∈ (ofFields fields).errors) :
    ∃ name ∈ fieldNames, [name] <+: e.path := by
  have htext : ∀ path v, Within path (Checked.text path v) := fun path v => (single_text path v).within
  have hboolean : ∀ path v, Within path (boolean path v) := fun _ v => (single_boolean v).within
  have hpair : ∀ path v, Within path (quotePair path v) := fun _ => within_quotePair
  have hpriorities : ∀ path v, Within path (priorityMap path v) := fun _ => within_priorityMap
  have hoperators : ∀ path v, Within path (textMap Checked.text path v) := fun _ => within_textMap htext
  simp only [ofFields, errors_seq, errors_map, List.mem_append] at he
  rcases he with ((((((he | he) | he) | he) | he) | he) | he) | he
  · exact ⟨"log_level", by decide, within_field htext e he⟩
  · exact ⟨"quote_identifiers", by decide, within_field hboolean e he⟩
  · exact ⟨"quote_chars", by decide, within_field hpair e he⟩
  · exact ⟨"name_separator", by decide, within_field htext e he⟩
  · exact ⟨"list_separator", by decide, within_field htext e he⟩
  · exact ⟨"placeholder", by decide, within_field htext e he⟩
  · exact ⟨"priorities", by decide, within_field hpriorities e he⟩
  · exact ⟨"binop_mapping", by decide, within_field hoperators e he⟩

theorem named_of_invalid {fields : Fields} {errors : List FieldError}
    (h : ofFields fields = .invalid errors) :
    ∀ e ∈ errors, ∃ name ∈ fieldNames, [name] <+: e.path := by
  intro e he
  have hmem : e ∈ (ofFields fields).errors := by rwa [h]
  exact named_of_ofFields hmem

/-- Settings are not assigned to, and the error names the field. -/
theorem errors_assign (s : Settings) (name : String) (v : Value) :
    (∀ s', s.assign name v ≠ .valid s') ∧ ∀ e ∈ (s.assign name v).errors, e.path = [name] :=
  ⟨nofun, (Single.error .frozen).path_eq⟩

/-- An error about settings names a variable that is JSON, or fields. -/
def LoadError.Names : LoadError → Prop
  | .unreadable name => name ∈ structuredFields
  | .invalid errors => ∀ e ∈ errors, ∃ name ∈ fieldNames, [name] <+: e.path

variable {environment : List (String × String)} {e : LoadError}

theorem names_of_variableValue {name text : String} (h : variableValue name text = .error e) :
    e.Names := by
  unfold variableValue at h
  split at h
  · next hname =>
      split at h
      · exact Except.error.inj h ▸ hname
      · cases h
      · split at h
        · exact Except.error.inj h ▸ hname
        · cases h
  · cases h

theorem names_of_variableFields {names : List String}
    (h : variableFields environment names = .error e) : e.Names := by
  induction names with
  | nil => cases h
  | cons name rest ih =>
      rw [variableFields] at h
      split at h
      · exact ih h
      · split at h
        · next hvalue => exact Except.error.inj h ▸ names_of_variableValue hvalue
        · exact ih h
        · next v hvalue =>
            cases hrest : variableFields environment rest with
            | error found =>
                rw [hrest] at h
                obtain rfl := Except.error.inj h
                exact ih hrest
            | ok fields =>
                rw [hrest] at h
                cases h

/-- Settings that are not loaded fail with the name of what is wrong. -/
theorem names_of_loadFrom {file arguments : Fields}
    (h : loadFrom file environment arguments = .error e) : e.Names := by
  rw [loadFrom] at h
  split at h
  · next hfields => exact Except.error.inj h ▸ names_of_variableFields hfields
  · split at h
    · cases h
    · next errors hfields =>
        obtain rfl := Except.error.inj h
        exact named_of_invalid hfields

end Settings

/-! ## Issues -/

namespace Issue

open Checked

theorem single_textField (fields : Fields) (key : String) : Single [key] (textField fields key) := by
  unfold textField
  split
  · exact single_text _ _
  · exact .error _

theorem within_optionalTextField (fields : Fields) (key : String) :
    Within [key] (optionalTextField fields key) := by
  unfold optionalTextField
  split
  · exact within_valid _
  · exact (single_text _ _).within.map

/-- The names of the fields, in order. -/
def fieldNames : List String := ["code", "message", "path"]

/-- Every error about an issue names one of its fields. -/
theorem named_of_ofFields {fields : Fields} {e : FieldError} (he : e ∈ (ofFields fields).errors) :
    ∃ name ∈ fieldNames, [name] <+: e.path := by
  simp only [ofFields, errors_seq, errors_map, List.mem_append] at he
  rcases he with (he | he) | he
  · exact ⟨"code", by decide, (single_textField fields "code").within e he⟩
  · exact ⟨"message", by decide, (single_textField fields "message").within e he⟩
  · exact ⟨"path", by decide, within_optionalTextField fields "path" e he⟩

variable {fields : Fields} {records : List Fields} {issue : Issue} {found : List Issue}
  {errors : List FieldError}

theorem ofRecords_cons_invalid (h : ofFields fields = .invalid errors) :
    ofRecords (fields :: records) = .error errors := by
  rw [ofRecords, h]

theorem ofRecords_cons_valid (h : ofFields fields = .valid issue) :
    ofRecords (fields :: records) = (ofRecords records).map (issue :: ·) := by
  rw [ofRecords, h]

/-- Records are issues if each of them is one. -/
theorem ofRecords_eq_ok_iff :
    ofRecords records = .ok found ↔ records.map ofFields = found.map .valid := by
  induction records generalizing found with
  | nil => cases found <;> simp [ofRecords]
  | cons fields rest ih =>
      cases hfields : ofFields fields with
      | invalid errors =>
          rw [ofRecords_cons_invalid hfields]
          cases found <;> simp [hfields]
      | valid issue =>
          rw [ofRecords_cons_valid hfields, map_eq_ok_iff]
          simp only [ih]
          cases found with
          | nil => simp
          | cons other more =>
              simp only [List.cons.injEq, List.map_cons, hfields, Checked.valid.injEq]
              constructor
              · rintro ⟨issues, hissues, rfl, rfl⟩
                exact ⟨rfl, hissues⟩
              · rintro ⟨rfl, hmore⟩
                exact ⟨more, hmore, rfl, rfl⟩

/-- Records fail with the errors of the first one that is no issue. -/
theorem ofRecords_eq_error_iff : ofRecords records = .error errors ↔
    ∃ before fields after, ∃ found : List Issue, records = before ++ fields :: after ∧
      before.map ofFields = found.map .valid ∧ ofFields fields = .invalid errors := by
  constructor
  · intro h
    induction records with
    | nil => cases h
    | cons fields rest ih =>
        cases hfields : ofFields fields with
        | invalid others =>
            rw [ofRecords_cons_invalid hfields] at h
            obtain rfl := Except.error.inj h
            exact ⟨[], fields, rest, [], rfl, rfl, hfields⟩
        | valid issue =>
            rw [ofRecords_cons_valid hfields] at h
            cases hrest : ofRecords rest with
            | ok issues =>
                rw [hrest] at h
                cases h
            | error others =>
                rw [hrest] at h
                obtain rfl := Except.error.inj h
                obtain ⟨before, failed, after, found, rfl, hbefore, hfailed⟩ := ih hrest
                exact ⟨fields :: before, failed, after, issue :: found, rfl,
                  by simp [hfields, hbefore], hfailed⟩
  · rintro ⟨before, fields, after, found, rfl, hbefore, hfields⟩
    induction before generalizing found with
    | nil => exact ofRecords_cons_invalid hfields
    | cons first before ih =>
        cases found with
        | nil => cases hbefore
        | cons issue found =>
            obtain ⟨hfirst, hbefore⟩ := List.cons.inj hbefore
            rw [List.cons_append, ofRecords_cons_valid hfirst, ih found hbefore]
            rfl

end Issue

end QueryTree
