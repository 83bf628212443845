import QueryTree.Proofs.Settings

/-!
# Settings from variables and a file

The program gives no arguments, so its settings are loaded from variables and from the
fields of a file.  Each field is looked at on its own.

* The variable of a field is read.  The quotes, the priorities and the operators have to be
  JSON without overlong numbers, and any other text is the value itself (`Readable`).
* The value of the file and the variable has to be taken by the field (`Fits`).

Settings are loaded exactly if this holds of all fields (`Settings.loadFrom_iff`).  Without a
file, a text *suits* its field or it does not (`Settings.Suits`), and only the texts of four
variables are checked (`Settings.load_variables_iff`).
-/

namespace QueryTree.Settings

variable {environment : List (String × String)} {name text : String} {fields file : Fields}

/-! ## Fields one by one -/

/-- The check of a field accepts a value. -/
def Takes (name : String) (v : Value) : Prop :=
  match name with
  | "quote_identifiers" => ∃ b, boolean [name] v = .valid b
  | "quote_chars" => ∃ quotes, quotePair [name] v = .valid quotes
  | "priorities" => ∃ priorities, priorityMap [name] v = .valid priorities
  | "binop_mapping" => ∃ operators, textMap Checked.text [name] v = .valid operators
  | _ => ∃ s, Checked.text [name] v = .valid s

section

variable {α : Type} {key : String} {check : List String → Value → Checked α}

theorem exists_check_of_field {base a : α} (h : field fields key base check = .valid a) {v : Value}
    (hv : fields.get? key = some v) : ∃ a, check [key] v = .valid a := by
  rw [field, hv] at h
  exact ⟨a, h⟩

theorem exists_field_valid (base : α)
    (h : ∀ v, fields.get? key = some v → ∃ a, check [key] v = .valid a) :
    ∃ a, field fields key base check = .valid a := by
  rw [field]
  cases hv : fields.get? key with
  | none => exact ⟨base, rfl⟩
  | some v => exact h v hv

end

/-- Fields are settings exactly if each takes its value. -/
theorem exists_ofFields_iff : (∃ s, ofFields fields = .valid s) ↔
    ∀ name ∈ fieldNames, ∀ v, fields.get? name = some v → Takes name v := by
  simp only [fieldNames, List.forall_mem_cons, List.not_mem_nil, false_imp_iff, implies_true,
    and_true]
  constructor
  · rintro ⟨s, hs⟩
    have h := readFrom_of_ofFields hs
    exact ⟨fun v => exists_check_of_field h.logLevel, fun v => exists_check_of_field h.quoteIdentifiers,
      fun v => exists_check_of_field h.quotes, fun v => exists_check_of_field h.nameSeparator,
      fun v => exists_check_of_field h.listSeparator, fun v => exists_check_of_field h.placeholder,
      fun v => exists_check_of_field h.priorities, fun v => exists_check_of_field h.operators⟩
  · rintro ⟨h₁, h₂, h₃, h₄, h₅, h₆, h₇, h₈⟩
    obtain ⟨logLevel, hlogLevel⟩ := exists_field_valid ({} : Settings).logLevel h₁
    obtain ⟨quoteIdentifiers, hquoteIdentifiers⟩ :=
      exists_field_valid ({} : Settings).quoteIdentifiers h₂
    obtain ⟨quotes, hquotes⟩ := exists_field_valid ({} : Settings).quotes h₃
    obtain ⟨nameSeparator, hnameSeparator⟩ := exists_field_valid ({} : Settings).nameSeparator h₄
    obtain ⟨listSeparator, hlistSeparator⟩ := exists_field_valid ({} : Settings).listSeparator h₅
    obtain ⟨placeholder, hplaceholder⟩ := exists_field_valid ({} : Settings).placeholder h₆
    obtain ⟨priorities, hpriorities⟩ := exists_field_valid ({} : Settings).priorities h₇
    obtain ⟨operators, hoperators⟩ := exists_field_valid ({} : Settings).operators h₈
    rw [ofFields, hlogLevel, hquoteIdentifiers, hquotes, hnameSeparator, hlistSeparator, hplaceholder,
      hpriorities, hoperators]
    exact ⟨_, rfl⟩

/-! ## Texts that suit -/

/-- The text of a variable suits its field. -/
def Suits (name text : String) : Prop :=
  if name ∈ structuredFields then
    ∃ v, Json.read text = some v ∧ (v = .null ∨ Json.overlong? text v = none ∧ Takes name v)
  else Takes name (.str text)

theorem suits_structured_iff (h : name ∈ structuredFields) : Suits name text ↔
    ∃ v, Json.read text = some v ∧ (v = .null ∨ Json.overlong? text v = none ∧ Takes name v) := by
  rw [Suits, if_pos h]

theorem suits_text_iff (h : name ∉ structuredFields) :
    Suits name text ↔ Takes name (.str text) := by
  rw [Suits, if_neg h]

/-- The fields that not every text suits. -/
def checkedFields : List String := "quote_identifiers" :: structuredFields

/-- Any text suits the other fields, which are texts. -/
theorem suits_of_not_checked (h : name ∈ fieldNames) (hchecked : name ∉ checkedFields)
    (text : String) : Suits name text := by
  have hothers : fieldNames.filter (· ∉ checkedFields) =
      ["log_level", "name_separator", "list_separator", "placeholder"] := by decide
  have hname : name ∈ fieldNames.filter (· ∉ checkedFields) :=
    List.mem_filter.mpr ⟨h, decide_eq_true hchecked⟩
  rw [hothers] at hname
  simp only [List.mem_cons, List.not_mem_nil, or_false] at hname
  rcases hname with rfl | rfl | rfl | rfl
  all_goals exact (suits_text_iff (by decide)).mpr ⟨text, rfl⟩

/-- A text suits a truth value if it means one. -/
theorem suits_quoteIdentifiers_iff : Suits "quote_identifiers" text ↔
    String.ofList (text.toList.map Char.toLower) ∈ trueTexts ++ falseTexts := by
  rw [suits_text_iff (by decide), List.mem_append]
  simp only [Takes, boolean, booleanOfText]
  split
  · next htrue => simp [htrue]
  · next htrue =>
      split
      · next hfalse => simp [hfalse]
      · next hfalse => simp [htrue, hfalse, Checked.error]

theorem variableValue_structured {v : Value} (hname : name ∈ structuredFields)
    (hread : Json.read text = some v) (hnull : v ≠ .null) :
    variableValue name text =
      if (Json.overlong? text v).isSome then .error (.unreadable name) else .ok (some v) := by
  rw [variableValue, if_pos hname, hread]
  cases v with
  | null => exact absurd rfl hnull
  | _ => rfl

/-- A text suits its field exactly if it is read, and its value, if there is one, is taken. -/
theorem suits_iff : Suits name text ↔
    ∃ found, variableValue name text = .ok found ∧ ∀ v, found = some v → Takes name v := by
  by_cases hname : name ∈ structuredFields
  · rw [suits_structured_iff hname]
    cases hread : Json.read text with
    | none => simp [variableValue, hname, hread]
    | some v =>
        by_cases hnull : v = .null
        · simp [variableValue, hname, hread, hnull]
        · rw [variableValue_structured hname hread hnull]
          cases hdigits : Json.overlong? text v with
          | none => simp [hnull, hdigits]
          | some digits => simp [hnull, hdigits]
  · rw [suits_text_iff hname]
    simp [variableValue, hname]

/-! ## The fields of all variables -/

/-- The variable of a field is read, if it is there. -/
def Readable (environment : List (String × String)) (name : String) : Prop :=
  ∀ text, variableText? environment name = some text → ∃ found, variableValue name text = .ok found

/-- The value that the variable of a field gives. -/
def given? (environment : List (String × String)) (name : String) : Option Value :=
  match variableText? environment name with
  | none => none
  | some text =>
    match variableValue name text with
    | .ok found => found
    | .error _ => none

theorem readable_of_none (h : variableText? environment name = none) :
    Readable environment name := by
  intro text htext
  rw [h] at htext
  cases htext

theorem readable_iff (h : variableText? environment name = some text) :
    Readable environment name ↔ ∃ found, variableValue name text = .ok found := by
  simp [Readable, h]

theorem given?_of_value {found : Option Value} (h : variableText? environment name = some text)
    (hvalue : variableValue name text = .ok found) : given? environment name = found := by
  rw [given?, h]
  simp only [hvalue]

/-- All variables have to be read, and then they give their values. -/
theorem variableFields_eq_ok_iff {names : List String} :
    variableFields environment names = .ok fields ↔
      (∀ name ∈ names, Readable environment name) ∧
        fields = names.filterMap fun name => (given? environment name).map (.str name, ·) := by
  induction names generalizing fields with
  | nil => simp [variableFields, eq_comm]
  | cons name rest ih =>
      rw [variableFields, List.forall_mem_cons, List.filterMap_cons]
      cases htext : variableText? environment name with
      | none =>
          have hgiven : given? environment name = none := by simp [given?, htext]
          simp [ih, readable_of_none htext, hgiven]
      | some text =>
          rw [readable_iff htext]
          cases hvalue : variableValue name text with
          | error e => simp [hvalue]
          | ok found =>
              rw [given?_of_value htext hvalue]
              cases found with
              | none => simp [hvalue, ih]
              | some v => simp [hvalue, map_eq_ok_iff, ih]

/-- The fields that variables give, where they are read. -/
def givenFields (environment : List (String × String)) : Fields :=
  fieldNames.filterMap fun name => (given? environment name).map (.str name, ·)

theorem argument?_givenFields (environment : List (String × String)) (h : name ∈ fieldNames) :
    argument? (givenFields environment) name = given? environment name := by
  rw [givenFields, argument?_filterMap _ _ _ lowerCase_fieldName, if_pos h]

/-- Without arguments, the fields of the variables stay as they are. -/
theorem mergeFields_givenFields (environment : List (String × String)) :
    mergeFields (givenFields environment) [] = givenFields environment := by
  rw [mergeFields, givenFields]
  apply List.filterMap_congr
  intro name hname
  rw [get?_filterMap, if_pos hname]
  cases given? environment name <;> rfl

/-! ## A file and variables -/

/-- The value that a file and the variable of a field give. -/
def layered? (file : Fields) (environment : List (String × String)) (name : String) : Option Value :=
  overlay? (file.get? name) (given? environment name)

theorem get?_mergeFields_givenFields (file : Fields) (environment : List (String × String))
    (h : name ∈ fieldNames) :
    (mergeFields file (givenFields environment)).get? name = layered? file environment name := by
  rw [get?_mergeFields _ _ h, argument?_givenFields environment h, layered?]

/-- The variable of a field is read, and the field takes the value of the file and the variable. -/
structure Fits (file : Fields) (environment : List (String × String)) (name : String) : Prop where
  readable : Readable environment name
  taken : ∀ v, layered? file environment name = some v → Takes name v

/-- Without arguments, settings are loaded from the fields of the file and the variables. -/
theorem loadFrom_eq_ok_iff {s : Settings} : loadFrom file environment [] = .ok s ↔
    (∀ name ∈ fieldNames, Readable environment name) ∧
      ofFields (mergeFields file (givenFields environment)) = .valid s := by
  rw [loadFrom]
  cases hfields : variableFields environment fieldNames with
  | error e =>
      have hunread : ¬ ∀ name ∈ fieldNames, Readable environment name := by
        intro hread
        cases hfields.symm.trans (variableFields_eq_ok_iff.mpr ⟨hread, rfl⟩)
      simp [hunread]
  | ok fields =>
      obtain ⟨hread, rfl⟩ := variableFields_eq_ok_iff.mp hfields
      dsimp only
      rw [← givenFields, mergeFields_givenFields]
      cases ofFields (mergeFields file (givenFields environment)) with
      | valid found => simpa using fun _ => hread
      | invalid errors => simp

/-- Settings are loaded exactly if each field fits. -/
theorem loadFrom_iff : (∃ s, loadFrom file environment [] = .ok s) ↔
    ∀ name ∈ fieldNames, Fits file environment name := by
  simp only [loadFrom_eq_ok_iff, exists_and_left, exists_ofFields_iff]
  rw [← forall₂_and]
  refine forall₂_congr fun name hname => ?_
  rw [get?_mergeFields_givenFields file environment hname]
  exact ⟨fun ⟨hread, htaken⟩ => ⟨hread, htaken⟩, fun ⟨hread, htaken⟩ => ⟨hread, htaken⟩⟩

/-- Where the file has no such field, the text of the variable has to suit it. -/
theorem fits_iff_suits (h : file.get? name = none) : Fits file environment name ↔
    ∀ text, variableText? environment name = some text → Suits name text := by
  have hlayered : layered? file environment name = given? environment name := by
    rw [layered?, h]
    rfl
  cases htext : variableText? environment name with
  | none =>
      have hgiven : given? environment name = none := by simp [given?, htext]
      have hfits : Fits file environment name := by
        refine ⟨readable_of_none htext, fun v hv => ?_⟩
        rw [hlayered, hgiven] at hv
        cases hv
      simp [hfits]
  | some text =>
      simp only [Option.some.injEq, forall_eq', suits_iff]
      constructor
      · rintro ⟨hread, htaken⟩
        obtain ⟨found, hvalue⟩ := (readable_iff htext).mp hread
        rw [hlayered, given?_of_value htext hvalue] at htaken
        exact ⟨found, hvalue, htaken⟩
      · rintro ⟨found, hvalue, htaken⟩
        refine ⟨(readable_iff htext).mpr ⟨found, hvalue⟩, ?_⟩
        rwa [hlayered, given?_of_value htext hvalue]

/-- Without a file, settings are loaded exactly if each variable that is checked has a text
that suits its field, or is not there. -/
theorem load_variables_iff : (∃ s, load environment [] = .ok s) ↔
    ∀ name ∈ checkedFields, ∀ text, variableText? environment name = some text →
      Suits name text := by
  have hsubset : ∀ name ∈ checkedFields, name ∈ fieldNames := by decide
  have hfits : ∀ name, Fits [] environment name ↔
      ∀ text, variableText? environment name = some text → Suits name text :=
    fun name => fits_iff_suits rfl
  simp only [load, loadFrom_iff, hfits]
  constructor
  · exact fun h name hname => h name (hsubset name hname)
  · intro h name hname text htext
    by_cases hchecked : name ∈ checkedFields
    · exact h name hchecked text htext
    · exact suits_of_not_checked hname hchecked text

/-- The variable of the log level decides on it, whatever the file says. -/
theorem logLevel_of_loadFrom {s : Settings} (h : loadFrom file environment [] = .ok s)
    (htext : variableText? environment "log_level" = some text) : s.logLevel = text := by
  have hgiven : given? environment "log_level" = some (.str text) := given?_of_value htext rfl
  have hlayered : layered? file environment "log_level" = some (.str text) := by
    rw [layered?, hgiven]
    cases file.get? "log_level" with
    | none => rfl
    | some v => cases v <;> rfl
  have hread := (readFrom_of_ofFields (loadFrom_eq_ok_iff.mp h).2).logLevel
  rw [field, get?_mergeFields_givenFields _ _ (by decide), hlayered] at hread
  exact (Checked.valid.inj hread).symm

end QueryTree.Settings
