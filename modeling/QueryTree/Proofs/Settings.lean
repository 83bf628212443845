import QueryTree.Proofs.Operators

/-!
# Loading settings again

The value of every field of some settings is itself an argument to load settings from
(`Settings.toFields`).  Each check takes such a value as it is.  A text stands for itself,
and so do a truth value, a whole number and a pair of texts.  A map stands for itself if it
has each key once, and priorities have to rank both connectives besides.

Settings of which this holds are *lawful* (`Settings.Lawful`).  Loading leads to lawful
settings, the quotes of a dialect keep them lawful, and lawful settings are loaded from the
values of their own fields (`Settings.Lawful.load_toFields`).  So the settings that can be
loaded are the lawful ones (`Settings.exists_load_iff`).

The main statement is `Settings.load_settles`.
-/

namespace QueryTree

/-! ## Names in lower case -/

namespace Text

/-- The small letters and the underscore. -/
def smallLetters : List Char := "abcdefghijklmnopqrstuvwxyz_".toList

theorem mapCase_small {c : Char} (h : c ∈ smallLetters) : mapCase lowerRuns c = c := by
  have hall : (smallLetters.all fun c => mapCase lowerRuns c == c) = true := by decide +kernel
  exact eq_of_beq (List.all_eq_true.mp hall c h)

/-- A text of small letters is in lower case. -/
theorem lowerCase_of_small {s : String} (h : ∀ c ∈ s.toList, c ∈ smallLetters) :
    lowerCase s = s := by
  have hchars : ∀ (cs before : List Char), (∀ c ∈ cs, c ∈ smallLetters) →
      lowerChars before cs = cs := by
    intro cs
    induction cs with
    | nil => exact fun _ _ => rfl
    | cons c rest ih =>
        intro before hcs
        obtain ⟨hc, hrest⟩ := List.forall_mem_cons.mp hcs
        have hsigma : c ≠ capitalSigma := by
          rintro rfl
          exact absurd hc (by decide)
        have hdotted : c ≠ dottedCapitalI := by
          rintro rfl
          exact absurd hc (by decide)
        rw [lowerChars, if_neg hsigma, if_neg hdotted, mapCase_small hc, ih _ hrest]
        rfl
  rw [lowerCase, hchars _ _ h, String.ofList_toList]

end Text

namespace Settings

theorem lowerCase_fieldName : ∀ name ∈ fieldNames, Text.lowerCase name = name := by
  have hsmall : (fieldNames.all fun name => name.toList.all (· ∈ Text.smallLetters)) = true := by
    decide +kernel
  simp only [List.all_eq_true, decide_eq_true_eq] at hsmall
  exact fun name hname => Text.lowerCase_of_small (hsmall name hname)

/-! ## Fields in layers -/

theorem mergeFields_nil (arguments : Fields) :
    mergeFields [] arguments =
      fieldNames.filterMap fun name => (argument? arguments name).map (.str name, ·) := rfl

/-- A later argument wins. -/
theorem argument?_cons (key : String) (v : Value) (rest : Fields) (name : String) :
    argument? ((.str key, v) :: rest) name =
      (argument? rest name).or (if Text.lowerCase key = name then some v else none) := by
  rw [argument?, argument?, List.reverse_cons, List.find?_append, Option.map_or]
  congr 1
  by_cases hkey : Text.lowerCase key = name <;> simp [hkey]

theorem get?_filterMap (f : String → Option Value) (key : String) :
    ∀ names : List String,
      Fields.get? (names.filterMap fun name => (f name).map (Value.str name, ·)) key =
        if key ∈ names then f key else none
  | [] => rfl
  | name :: rest => by
      have ih := get?_filterMap f key rest
      rw [List.filterMap_cons]
      cases hname : f name with
      | none =>
          rw [Option.map_none, ih]
          by_cases hkey : key = name
          · simp [hkey, hname]
          · simp [hkey]
      | some v =>
          rw [Option.map_some, Fields.get?, ih]
          by_cases hkey : key = name
          · simp [hkey, hname]
          · simp [hkey, Ne.symm hkey]

/-- Fields with names in lower case are arguments of these names. -/
theorem argument?_filterMap (f : String → Option Value) (key : String) :
    ∀ names : List String, (∀ name ∈ names, Text.lowerCase name = name) →
      argument? (names.filterMap fun name => (f name).map (Value.str name, ·)) key =
        if key ∈ names then f key else none
  | [], _ => rfl
  | name :: rest, h => by
      obtain ⟨hname, hrest⟩ := List.forall_mem_cons.mp h
      have ih := argument?_filterMap f key rest hrest
      rw [List.filterMap_cons]
      cases hv : f name with
      | none =>
          rw [Option.map_none, ih]
          by_cases hkey : key = name
          · simp [hkey, hv]
          · simp [hkey]
      | some v =>
          rw [Option.map_some, argument?_cons, hname, ih]
          by_cases hkey : key = name
          · by_cases hmem : name ∈ rest <;> simp [hkey, hv, hmem]
          · simp [hkey, Ne.symm hkey]

/-- A field of merged fields has its value of both layers. -/
theorem get?_mergeFields (lower arguments : Fields) {name : String} (h : name ∈ fieldNames) :
    (mergeFields lower arguments).get? name =
      overlay? (lower.get? name) (argument? arguments name) := by
  rw [mergeFields, get?_filterMap, if_pos h]

theorem argument?_mergeFields (lower arguments : Fields) {name : String} (h : name ∈ fieldNames) :
    argument? (mergeFields lower arguments) name =
      overlay? (lower.get? name) (argument? arguments name) := by
  rw [mergeFields, argument?_filterMap _ _ _ lowerCase_fieldName, if_pos h]

/-- Merged fields stay as they are on top of nothing. -/
theorem mergeFields_nil_mergeFields (lower arguments : Fields) :
    mergeFields [] (mergeFields lower arguments) = mergeFields lower arguments := by
  have hfields : ∀ name ∈ fieldNames,
      (argument? (mergeFields lower arguments) name).map (Value.str name, ·) =
        (overlay? (lower.get? name) (argument? arguments name)).map (Value.str name, ·) :=
    fun name hname => by rw [argument?_mergeFields lower arguments hname]
  rw [mergeFields_nil, List.filterMap_congr hfields]
  rfl

/-! ## Arguments without variables -/

/-- Without variables, settings are loaded from the arguments of the fields. -/
theorem load_nil_eq_ok_iff {arguments : Fields} {s : Settings} :
    load [] arguments = .ok s ↔ ofFields (mergeFields [] arguments) = .valid s := by
  have hnone : variableFields [] fieldNames = .ok [] := rfl
  rw [load, loadFrom, hnone]
  dsimp only
  rw [mergeFields_nil_mergeFields]
  cases hfields : ofFields (mergeFields [] arguments) with
  | valid found => simp
  | invalid errors => simp

theorem argument?_toFields (s : Settings) {name : String} (h : name ∈ fieldNames) :
    argument? s.toFields name = s.toFields.get? name := by
  have hlower := lowerCase_fieldName
  simp only [fieldNames, List.forall_mem_cons] at hlower
  simp only [fieldNames, List.mem_cons, List.not_mem_nil, or_false] at h
  rw [toFields]
  simp only [argument?_cons, hlower]
  rcases h with rfl | rfl | rfl | rfl | rfl | rfl | rfl | rfl <;> rfl

/-- The values of the fields, as arguments, are the fields to load. -/
theorem mergeFields_toFields (s : Settings) : mergeFields [] s.toFields = s.toFields := by
  have hfields : ∀ name ∈ fieldNames, (argument? s.toFields name).map (Value.str name, ·) =
      (s.toFields.get? name).map (Value.str name, ·) := by
    intro name hname
    rw [argument?_toFields s hname]
  rw [mergeFields_nil, List.filterMap_congr hfields]
  rfl

/-! ## Maps -/

theorem withEntry_of_new {α : Type} {entries : List (String × α)} {e : String × α}
    (h : e.1 ∉ entries.map (·.1)) : withEntry entries e = entries ++ [e] := by
  rw [withEntry, if_neg]
  intro hsome
  obtain ⟨old, hold, hkey⟩ := List.lookup_isSome_iff.mp hsome
  exact h (eq_of_beq hkey ▸ List.mem_map_of_mem hold)

/-- Entries with each key once are entered as they are. -/
theorem foldl_withEntry {α : Type} {new : List (String × α)} :
    ∀ done : List (String × α), ((done ++ new).map (·.1)).Nodup →
      new.foldl withEntry done = done ++ new := by
  induction new with
  | nil => exact fun done _ => (List.append_nil done).symm
  | cons e rest ih =>
      intro done hnodup
      have hnew : e.1 ∉ done.map (·.1) := by
        rw [List.map_append, List.nodup_append] at hnodup
        exact fun hmem => hnodup.2.2 _ hmem _ List.mem_cons_self rfl
      rw [List.foldl_cons, withEntry_of_new hnew, ih _ (by simpa using hnodup), List.append_assoc,
        List.singleton_append]

section

variable {α : Type} {check : List String → Value → Checked α} {write : α → Value}

theorem each_entry (hwrite : ∀ path a, check path (write a) = .valid a) (path : List String) :
    ∀ entries : List (String × α),
      Checked.each (entry check path) (entries.map fun e => (.str e.1, write e.2)) = .valid entries
  | [] => rfl
  | e :: rest => by
      have hentry : entry check path (.str e.1, write e.2) = .valid e := by
        rw [entry, hwrite]
        rfl
      rw [List.map_cons, Checked.each, hentry, each_entry hwrite path rest]
      rfl

/-- A map of values that stand for themselves is read as it is, if it has each key once. -/
theorem textMap_written (hwrite : ∀ path a, check path (write a) = .valid a) (path : List String)
    {entries : List (String × α)} (h : (entries.map (·.1)).Nodup) :
    textMap check path (.map (entries.map fun e => (.str e.1, write e.2))) = .valid entries := by
  rw [textMap, each_entry hwrite]
  exact congrArg Checked.valid (foldl_withEntry [] h)

end

theorem unrankedNames_eq_nil_iff {priorities : List (String × Int)} :
    unrankedNames priorities = [] ↔ RanksBoth priorities := by
  refine ⟨ranksBoth_of_unrankedNames, fun h => ?_⟩
  have hand : (priorities.lookup "and").isSome = true := h .and
  have hor : (priorities.lookup "or").isSome = true := h .or
  simp [unrankedNames, Option.isNone_iff_eq_none, Option.isSome_iff_ne_none.mp hand,
    Option.isSome_iff_ne_none.mp hor]

theorem priorityMap_written (path : List String) {priorities : List (String × Int)}
    (hnodup : (priorities.map (·.1)).Nodup) (hranks : RanksBoth priorities) :
    priorityMap path (.map (priorities.map fun e => (.str e.1, .int e.2))) = .valid priorities := by
  have hint : ∀ path i, integer path (.int i) = .valid i := fun _ _ => rfl
  rw [priorityMap, textMap_written hint path hnodup]
  simp only [unrankedNames_eq_nil_iff.mpr hranks]

theorem nodup_of_priorityMap {path : List String} {v : Value} {priorities : List (String × Int)}
    (h : priorityMap path v = .valid priorities) : (priorities.map (·.1)).Nodup := by
  rw [priorityMap] at h
  cases hmap : textMap integer path v with
  | invalid errors =>
      rw [hmap] at h
      cases h
  | valid found =>
      simp only [hmap] at h
      split at h
      · obtain rfl := Checked.valid.inj h
        exact nodup_of_textMap hmap
      · cases h

/-! ## Lawful settings -/

/-- Settings whose maps have each key once, and whose priorities rank both connectives. -/
structure Lawful (s : Settings) : Prop where
  /-- Both connectives have a priority. -/
  ranked : RanksBoth s.priorities
  /-- Each connective has one priority. -/
  priorities : (s.priorities.map (·.1)).Nodup
  /-- Each operator has one token. -/
  operators : (s.operators.map (·.1)).Nodup

theorem lawful_default : ({} : Settings).Lawful where
  ranked := ranksBoth_of_unrankedNames rfl
  priorities := by decide
  operators := by decide

/-- A checked field is its default, or what the check makes of its value. -/
theorem field_valid {α : Type} {fields : Fields} {key : String} {base a : α}
    {check : List String → Value → Checked α} (h : field fields key base check = .valid a) :
    a = base ∨ ∃ v, fields.get? key = some v ∧ check [key] v = .valid a := by
  rw [field] at h
  cases hv : fields.get? key with
  | none =>
      rw [hv] at h
      exact Or.inl (Checked.valid.inj h).symm
  | some v =>
      rw [hv] at h
      exact Or.inr ⟨v, rfl, h⟩

theorem ReadFrom.lawful {fields : Fields} {s : Settings} (h : ReadFrom fields s) : s.Lawful where
  ranked := ranksBoth_of_field lawful_default.ranked h.priorities
  priorities := by
    rcases field_valid h.priorities with hbase | ⟨v, -, hmap⟩
    · exact hbase ▸ lawful_default.priorities
    · exact nodup_of_priorityMap hmap
  operators := by
    rcases field_valid h.operators with hbase | ⟨v, -, hmap⟩
    · exact hbase ▸ lawful_default.operators
    · exact nodup_of_textMap hmap

theorem lawful_of_loadFrom {file : Fields} {environment : List (String × String)}
    {arguments : Fields} {s : Settings} (h : loadFrom file environment arguments = .ok s) :
    s.Lawful := by
  obtain ⟨fields, hread⟩ := readFrom_of_loadFrom h
  exact hread.lawful

theorem lawful_of_load {environment : List (String × String)} {arguments : Fields} {s : Settings}
    (h : load environment arguments = .ok s) : s.Lawful :=
  lawful_of_loadFrom h

/-- A dialect changes neither priorities nor operators. -/
theorem Lawful.apply {s : Settings} (h : s.Lawful) (d : Dialect) (quote : Bool) :
    (d.apply s quote).Lawful := ⟨h.ranked, h.priorities, h.operators⟩

/-- Each check takes the value of its field as it is. -/
theorem Lawful.ofFields_toFields {s : Settings} (h : s.Lawful) : ofFields s.toFields = .valid s := by
  have hpriorities : field s.toFields "priorities" ({} : Settings).priorities priorityMap =
      .valid s.priorities := priorityMap_written ["priorities"] h.priorities h.ranked
  have hstr : ∀ path t, Checked.text path (.str t) = .valid t := fun _ _ => rfl
  have hoperators : field s.toFields "binop_mapping" ({} : Settings).operators
      (textMap Checked.text) = .valid s.operators :=
    textMap_written hstr ["binop_mapping"] h.operators
  rw [ofFields, hpriorities, hoperators]
  rfl

theorem Lawful.load_toFields {s : Settings} (h : s.Lawful) : load [] s.toFields = .ok s := by
  rw [load_nil_eq_ok_iff, mergeFields_toFields]
  exact h.ofFields_toFields

/-- The settings that can be loaded are the lawful ones. -/
theorem exists_load_iff {s : Settings} : (∃ arguments, load [] arguments = .ok s) ↔ s.Lawful :=
  ⟨fun ⟨_, h⟩ => lawful_of_load h, fun h => ⟨_, h.load_toFields⟩⟩

/-- Settings from a file are obtained, since they can be loaded from arguments as well. -/
theorem obtained_of_loadFrom {file : Fields} {environment : List (String × String)}
    {arguments : Fields} {s : Settings} (h : loadFrom file environment arguments = .ok s) :
    Obtained s :=
  .loaded (lawful_of_loadFrom h).load_toFields

/-! ## Quotes -/

/-- One text stands for two quotes, and so does a sequence of one text. -/
theorem quotePair_of_one (path : List String) {v : Value} {quote : String}
    (h : v = .str quote ∨ v.sequence? = some [.str quote]) :
    quotePair path v = .valid ⟨quote, quote⟩ := by
  have hitems : pairItems? v = some [.str quote, .str quote] := by
    rcases h with rfl | hsequence
    · rfl
    · rcases Value.sequence?_eq_some_iff.mp hsequence with rfl | rfl
      · rfl
      · rfl
  rw [quotePair, hitems]
  rfl

theorem quotes_of_load {arguments : Fields} {s : Settings} {v : Value} {quote : String}
    (h : load [] arguments = .ok s) (hargument : argument? arguments "quote_chars" = some v)
    (hv : v = .str quote ∨ v.sequence? = some [.str quote]) : s.quotes = ⟨quote, quote⟩ := by
  have hread := (readFrom_of_ofFields (load_nil_eq_ok_iff.mp h)).quotes
  rw [field, get?_mergeFields [] arguments (by decide), hargument] at hread
  exact (Checked.valid.inj (hread.symm.trans (quotePair_of_one _ hv)))

/-! ## Loaded settings -/

/-- Let settings be loaded from arguments.  One quote stands for two.  The maps have each
key once, and both connectives have a priority.  The same settings are loaded from the values
of their fields, and so are those with the quotes of any dialect, used or not. -/
theorem load_settles {arguments : Fields} {s : Settings} (h : load [] arguments = .ok s) :
    (∀ v quote, argument? arguments "quote_chars" = some v →
      v = .str quote ∨ v.sequence? = some [.str quote] → s.quotes = ⟨quote, quote⟩) ∧
    s.Lawful ∧ load [] s.toFields = .ok s ∧
    ∀ (d : Dialect) quote, load [] (d.apply s quote).toFields = .ok (d.apply s quote) := by
  have hlawful := lawful_of_load h
  exact ⟨fun v quote => quotes_of_load h, hlawful, hlawful.load_toFields,
    fun d quote => (hlawful.apply d quote).load_toFields⟩

/-- Arguments of which no check takes the value as it is. -/
def looseArguments : Fields :=
  [(.str "quote_identifiers", .str "YES"), (.str "quote_chars", .list [.str "|"]),
    (.str "priorities", .map [(.str "or", .str " 007"), (.str "and", .bool true)])]

/-- The settings of these arguments. -/
def looseSettings : Settings :=
  { quoteIdentifiers := true, quotes := ⟨"|", "|"⟩, priorities := [("or", 7), ("and", 1)] }

/-- Loose arguments lead to settings that are loaded again, also with other quotes. -/
theorem load_settles_loose :
    load [] looseArguments = .ok looseSettings ∧
    looseSettings.quotes = ⟨"|", "|"⟩ ∧ looseSettings.Lawful ∧
    load [] looseSettings.toFields = .ok looseSettings ∧
    load [] (Dialect.tsql.apply looseSettings false).toFields =
      .ok (Dialect.tsql.apply looseSettings false) := by
  have hload : load [] looseArguments = .ok looseSettings := by
    rw [load_nil_eq_ok_iff]
    rfl
  obtain ⟨hquotes, hlawful, hagain, hdialect⟩ := load_settles hload
  exact ⟨hload, hquotes (.list [.str "|"]) "|" rfl (Or.inr rfl), hlawful, hagain,
    hdialect .tsql false⟩

end Settings

end QueryTree
