import QueryTree.Dialect.Session
import QueryTree.Proofs.NameOrder

/-!
# What a registry has recorded

A registry of dialects starts without dialects or with the built-in ones, and dialects are
registered one after another (`Registry.Registered`).  What a look-up finds depends on the
registrations only.  An alias leads to the dialect that was last registered with it
(`Registry.aliased`), and a name to the dialect last registered under it
(`Registry.latest`).  That both maps of a registry agree with this is an invariant
(`Registry.Records`), which one registration keeps (`Registry.Records.register`).

Two statements follow from it.  `Registry.lookups_follow_registrations` says what each
look-up answers, which of them a registration leaves alone, and that look-ups leave all
others alone.  `Registry.listed_found_iff` says when a dialect is found under the name it is
listed by.  Aliases are kept in lower case and names are not, so a name with capital letters
is listed but not found.  `Registry.listed_not_found` is such a case, and one of an alias
that hides a name.
-/

namespace QueryTree.Registry

/-! ## Entries with one set -/

section

variable {α : Type} (entries : List (String × α)) (key : String) (value : α)

theorem lookup_cons_eq (name : String) :
    ((key, value) :: entries).lookup name =
      if name = key then some value else entries.lookup name := by
  rw [List.lookup_cons]
  by_cases h : name = key
  · rw [if_pos h, beq_iff_eq.mpr h]
  · rw [if_neg h, beq_eq_false_iff_ne.mpr h]

theorem lookup_put (name : String) :
    (put entries key value).lookup name = if name = key then some value else entries.lookup name := by
  induction entries with
  | nil => rw [put, lookup_cons_eq, List.lookup_nil]
  | cons entry rest ih =>
      obtain ⟨k, v⟩ := entry
      rw [put]
      by_cases hk : k = key
      · rw [if_pos hk, lookup_cons_eq, lookup_cons_eq, hk]
        by_cases h : name = key
        · rw [if_pos h, if_pos h]
        · rw [if_neg h, if_neg h, if_neg h]
      · rw [if_neg hk, lookup_cons_eq, lookup_cons_eq, ih]
        by_cases h : name = k
        · rw [if_pos h, if_pos h, if_neg fun hkey => hk (h.symm.trans hkey)]
        · rw [if_neg h, if_neg h]

theorem map_fst_put :
    (put entries key value).map (·.1) =
      if key ∈ entries.map (·.1) then entries.map (·.1) else entries.map (·.1) ++ [key] := by
  induction entries with
  | nil => rfl
  | cons entry rest ih =>
      obtain ⟨k, v⟩ := entry
      rw [put]
      by_cases hk : k = key
      · simp [hk]
      · rw [if_neg hk, List.map_cons, ih]
        by_cases hrest : key ∈ rest.map (·.1)
        · simp [hrest]
        · simp [hrest, Ne.symm hk]

theorem nodup_put (h : (entries.map (·.1)).Nodup) : ((put entries key value).map (·.1)).Nodup := by
  rw [map_fst_put]
  split
  · exact h
  · next hnew => exact List.nodup_append.mpr ⟨h, List.pairwise_singleton _ _, by
      rintro other hother _ hlast rfl
      exact hnew (List.mem_singleton.mp hlast ▸ hother)⟩

/-- The entry of several keys that are set to one value. -/
theorem lookup_foldl_put (aliases : List String) (name : String) (entries : List (String × String)) :
    (aliases.foldl (fun done other => put done (Text.lowerCase other) name) entries).lookup key =
      if key ∈ aliases.map Text.lowerCase then some name else entries.lookup key := by
  induction aliases generalizing entries with
  | nil => simp
  | cons other rest ih =>
      rw [List.foldl_cons, ih, lookup_put, List.map_cons]
      by_cases hrest : key ∈ rest.map Text.lowerCase
      · simp [hrest]
      · simp [hrest]

end

/-! ## Registrations -/

/-- A dialect that is registered, and the aliases it is registered with. -/
structure Registration where
  /-- The dialect. -/
  dialect : Dialect
  /-- Its aliases, in any case. -/
  aliases : List String

/-- The aliases in lower case. -/
def Registration.keys (e : Registration) : List String := e.aliases.map Text.lowerCase

/-- The registrations of the built-in dialects. -/
def builtins : List Registration :=
  [⟨.ansi, ["sql"]⟩, ⟨.postgres, ["postgresql", "pg"]⟩, ⟨.sqlite, ["sqlite3"]⟩,
    ⟨.mysql, ["mariadb"]⟩, ⟨.tsql, ["mssql", "sqlserver"]⟩]

/-- A registry after some registrations, the built-in ones included. -/
inductive Registered : Registry → List Registration → Prop where
  /-- At first there is no dialect, … -/
  | empty : Registered .empty []
  /-- … or there are the built-in ones. -/
  | builtin : Registered .builtin builtins
  /-- A dialect is registered. -/
  | register {r : Registry} {history : List Registration} (e : Registration) :
      Registered r history → Registered (r.register e.dialect e.aliases) (history ++ [e])

/-- The dialect last registered under exactly a name. -/
def latest (history : List Registration) (name : String) : Option Dialect :=
  (history.reverse.find? fun e => e.dialect.name = name).map (·.dialect)

/-- The name of the dialect last registered with an alias that is a key in lower case. -/
def aliased (history : List Registration) (key : String) : Option String :=
  (history.reverse.find? fun e => key ∈ e.keys).map (·.dialect.name)

/-- The name that a name in any case leads to after some registrations. -/
def endsAt (history : List Registration) (name : String) : String :=
  (aliased history (Text.lowerCase name)).getD (Text.lowerCase name)

section

variable (history : List Registration) (e : Registration)

theorem latest_concat (name : String) :
    latest (history ++ [e]) name =
      if name = e.dialect.name then some e.dialect else latest history name := by
  by_cases h : e.dialect.name = name
  · simp [latest, h]
  · simp [latest, h, Ne.symm h]

theorem aliased_concat (key : String) :
    aliased (history ++ [e]) key =
      if key ∈ e.keys then some e.dialect.name else aliased history key := by
  by_cases h : key ∈ e.keys
  · simp [aliased, h]
  · simp [aliased, h]

theorem latest_isSome_iff (name : String) :
    (latest history name).isSome ↔ ∃ e ∈ history, e.dialect.name = name := by
  simp [latest]

variable {history}

theorem name_of_latest {name : String} {d : Dialect} (h : latest history name = some d) :
    d.name = name := by
  obtain ⟨e, he, rfl⟩ := Option.map_eq_some_iff.mp h
  have hname := List.find?_some he
  exact of_decide_eq_true hname

end

/-! ## What is recorded -/

/-- What a registry has recorded after some registrations. -/
structure Records (r : Registry) (history : List Registration) : Prop where
  presets : ∀ name, r.presets.lookup name = latest history name
  aliases : ∀ key, r.aliases.lookup key = aliased history key
  distinct : (r.presets.map (·.1)).Nodup

namespace Records

variable {r : Registry} {history : List Registration}

theorem empty : Records .empty [] := ⟨fun _ => rfl, fun _ => rfl, List.nodup_nil⟩

/-- A registration is recorded. -/
theorem register (h : Records r history) (e : Registration) :
    Records (r.register e.dialect e.aliases) (history ++ [e]) where
  presets := fun name => by rw [Registry.register, lookup_put, h.presets, latest_concat]
  aliases := fun key => by
    rw [Registry.register, lookup_foldl_put, h.aliases, aliased_concat, Registration.keys]
  distinct := nodup_put _ _ _ h.distinct

end Records

/-- Everything that is registered is recorded. -/
theorem Registered.records {r : Registry} {history : List Registration} (h : Registered r history) :
    Records r history := by
  induction h with
  | empty => exact .empty
  | builtin =>
      exact ((((Records.empty.register ⟨.ansi, ["sql"]⟩).register
        ⟨.postgres, ["postgresql", "pg"]⟩).register ⟨.sqlite, ["sqlite3"]⟩).register
        ⟨.mysql, ["mariadb"]⟩).register ⟨.tsql, ["mssql", "sqlserver"]⟩
  | register e _ ih => exact ih.register e

namespace Records

variable {r : Registry} {history : List Registration}

theorem canonicalName_eq (h : Records r history) (name : String) :
    r.canonicalName name = endsAt history name := by
  rw [canonicalName, h.aliases, endsAt]

theorem get_eq (h : Records r history) (name : String) :
    r.get name =
      match latest history (endsAt history name) with
      | some d => .ok d
      | none => .error ⟨name, r.available⟩ := by
  have hlookup : r.presets.lookup (r.canonicalName name) = latest history (endsAt history name) := by
    rw [h.canonicalName_eq, h.presets]
  cases hlatest : latest history (endsAt history name) with
  | none => rw [get, hlookup, hlatest]
  | some d => rw [get, hlookup, hlatest]

theorem get_eq_ok_iff (h : Records r history) (name : String) (d : Dialect) :
    r.get name = .ok d ↔ latest history (endsAt history name) = some d := by
  rw [h.get_eq]
  cases latest history (endsAt history name) with
  | none => simp
  | some found => simp

/-- The names of all dialects are those under which there is one, each less than those
after it. -/
theorem available_ordered (h : Records r history) :
    r.available.Perm (r.presets.map (·.1)) ∧ r.available.Pairwise (· < ·) :=
  ordered_foldl_insertName h.distinct

theorem mem_available_iff (h : Records r history) (name : String) :
    name ∈ r.available ↔ ∃ e ∈ history, e.dialect.name = name := by
  rw [h.available_ordered.1.mem_iff, ← latest_isSome_iff, ← h.presets, List.lookup_isSome_iff,
    List.mem_map]
  simp only [beq_iff_eq, @eq_comm _ name]

end Records

/-- A registration leaves a name alone that is none of its aliases, in any case, and does
not lead to the name it is made under. -/
theorem get_register {r : Registry} {d : Dialect} {aliases : List String} {name : String}
    (haliases : Text.lowerCase name ∉ aliases.map Text.lowerCase)
    (hname : r.canonicalName name ≠ d.name) :
    ((r.register d aliases).get name).mapError (·.name) = (r.get name).mapError (·.name) := by
  have hcanonical : (r.register d aliases).canonicalName name = r.canonicalName name := by
    rw [canonicalName, register, lookup_foldl_put, if_neg haliases, canonicalName]
  rw [get, get, hcanonical, register, lookup_put, if_neg hname]
  cases r.presets.lookup (r.canonicalName name) with
  | none => rfl
  | some found => rfl

/-! ## Sessions -/

/-- What a step registers. -/
def Step.registration? : Step → Option Registration
  | .register d aliases => some ⟨d, aliases⟩
  | _ => none

/-- A look-up leaves the registry as it is. -/
theorem advance_registry {s : Step} (h : s.registration? = none) (r : Registry) :
    (r.advance s).registry = r := by
  cases s with
  | register d aliases => cases h
  | _ => rfl

/-- What a session leaves is registered. -/
theorem Registered.advance {r : Registry} {history : List Registration} (h : Registered r history)
    (s : Step) : Registered (r.advance s).registry (history ++ s.registration?.toList) := by
  cases s with
  | register d aliases => exact h.register ⟨d, aliases⟩
  | _ => exact (List.append_nil history).symm ▸ h

/-- Each step of a session is answered by a registry with what was registered before it. -/
theorem Registered.answer {r : Registry} {history : List Registration} (h : Registered r history)
    (before : List Step) (s : Step) (after : List Step) :
    ∃ there, Registered there (history ++ before.filterMap Step.registration?) ∧
      (r.run (before ++ s :: after))[before.length]? = some (there.advance s).answer := by
  induction before generalizing r history with
  | nil => exact ⟨r, (List.append_nil history).symm ▸ h, rfl⟩
  | cons first rest ih =>
      obtain ⟨there, hthere, hanswer⟩ := ih (h.advance first)
      have hfirst : (first :: rest).filterMap Step.registration? =
          first.registration?.toList ++ rest.filterMap Step.registration? := by
        cases first <;> rfl
      rw [List.append_assoc, ← hfirst] at hthere
      exact ⟨there, hthere, hanswer⟩

/-- The steps after a look-up are answered as without it. -/
theorem run_lookup {s : Step} (h : s.registration? = none) (r : Registry) (before after : List Step) :
    (r.run (before ++ s :: after)).eraseIdx before.length = r.run (before ++ after) := by
  induction before generalizing r with
  | nil =>
      rw [List.nil_append, run, advance_registry h]
      rfl
  | cons first rest ih =>
      rw [List.cons_append, run, List.length_cons, List.eraseIdx_cons_succ, ih]
      rfl

/-! ## Look-ups -/

/-- After any registrations a name in any case leads, by the last registration with it as an
alias or else as it is in lower case, to the dialect last registered under the name it then
has.  If there is none, the error has the name and the names of all dialects, in order.  A
registration leaves all look-ups alone that do not lead by its aliases or to its name.
Settings for a dialect are the settings there were, with its quotes.  In a session all of
this holds at each step, of what was registered before it, and a look-up leaves all others
alone. -/
theorem lookups_follow_registrations {r : Registry} {history : List Registration}
    (h : Registered r history) :
    (∀ name, r.canonicalName name = endsAt history name) ∧
      (∀ name, r.get name =
        match latest history (endsAt history name) with
        | some d => .ok d
        | none => .error ⟨name, r.available⟩) ∧
      r.available.Pairwise (· < ·) ∧
      (∀ name, name ∈ r.available ↔ ∃ e ∈ history, e.dialect.name = name) ∧
      (∀ (e : Registration) name,
        Text.lowerCase name ∉ e.keys → r.canonicalName name ≠ e.dialect.name →
          ((r.register e.dialect e.aliases).get name).mapError (·.name) =
            (r.get name).mapError (·.name)) ∧
      (∀ name base quote, r.settingsFor name base quote =
        (r.get name).map fun d => { base with quoteIdentifiers := quote, quotes := d.quotes }) ∧
      (∀ name base quote s, r.settingsFor name base quote = .ok s →
        { s with quoteIdentifiers := base.quoteIdentifiers, quotes := base.quotes } = base) ∧
      (∀ before s after, ∃ there, Registered there (history ++ before.filterMap Step.registration?) ∧
        (r.run (before ++ s :: after))[before.length]? = some (there.advance s).answer) ∧
      ∀ (before : List Step) lookup after, lookup.registration? = none →
        (r.run (before ++ lookup :: after)).eraseIdx before.length = r.run (before ++ after) := by
  have hrecords := h.records
  refine ⟨hrecords.canonicalName_eq, hrecords.get_eq, hrecords.available_ordered.2,
    hrecords.mem_available_iff, fun e name => get_register, fun _ _ _ => rfl,
    fun name base quote s hs => ?_, h.answer, fun before lookup after hlookup =>
      run_lookup hlookup r before after⟩
  rw [settingsFor] at hs
  cases hget : r.get name with
  | error e =>
      rw [hget] at hs
      cases hs
  | ok d =>
      rw [hget] at hs
      cases hs
      rfl

/-- A name that becomes an alias leads away from its dialect.  The aliases of that dialect
still lead to it. -/
theorem lookups_follow_registrations_alias :
    let oracle : Dialect := ⟨"oracle", ⟨"<", ">"⟩, some "oracle"⟩
    let r := (empty.register .mysql ["mariadb"]).register oracle ["MySQL"]
    r.get "mysql" = .ok oracle ∧ r.get "MariaDB" = .ok .mysql := by
  intro oracle r
  have hregistered : Registered r [⟨.mysql, ["mariadb"]⟩, ⟨oracle, ["MySQL"]⟩] :=
    .register ⟨oracle, ["MySQL"]⟩ (.register ⟨.mysql, ["mariadb"]⟩ .empty)
  have hget := (lookups_follow_registrations hregistered).2.1
  exact ⟨(hget "mysql").trans rfl, (hget "MariaDB").trans rfl⟩

/-! ## Listed dialects -/

/-- A dialect that is listed was registered under its name.  The last such dialect is what a
look-up of the name finds, in any case of its letters, exactly if the name in lower case
leads to the name as it is. -/
theorem listed_found_iff {r : Registry} {history : List Registration} (h : Registered r history)
    {name : String} (hlisted : name ∈ r.available) :
    ∃ d, latest history name = some d ∧
      ((∀ s, Text.lowerCase s = Text.lowerCase name →
          r.get s = .ok d ∧ ∀ base quote, r.settingsFor s base quote =
            .ok { base with quoteIdentifiers := quote, quotes := d.quotes }) ↔
        aliased history (Text.lowerCase name) = some name ∨
          aliased history (Text.lowerCase name) = none ∧ Text.lowerCase name = name) := by
  have hrecords := h.records
  obtain ⟨d, hd⟩ := Option.isSome_iff_exists.mp
    ((latest_isSome_iff history name).mpr ((hrecords.mem_available_iff name).mp hlisted))
  refine ⟨d, hd, ?_⟩
  have hends : endsAt history name = name ↔ aliased history (Text.lowerCase name) = some name ∨
      aliased history (Text.lowerCase name) = none ∧ Text.lowerCase name = name := by
    rw [endsAt]
    cases aliased history (Text.lowerCase name) with
    | none => simp
    | some target => simp
  rw [← hends]
  constructor
  · intro hfound
    have hlatest := (hrecords.get_eq_ok_iff name d).mp (hfound name rfl).1
    exact (name_of_latest hlatest).symm.trans (name_of_latest hd)
  · intro hname s hs
    have hget : r.get s = .ok d := by
      rw [hrecords.get_eq_ok_iff, endsAt, hs, ← endsAt, hname]
      exact hd
    refine ⟨hget, fun base quote => ?_⟩
    rw [settingsFor, hget]
    rfl

/-- The dialect of MySQL is found in any case. -/
theorem listed_found_iff_mysql :
    "mysql" ∈ builtin.available ∧
      ∀ s, Text.lowerCase s = Text.lowerCase "mysql" → builtin.get s = .ok .mysql := by
  have hlisted : "mysql" ∈ builtin.available := by decide
  obtain ⟨d, hd, hiff⟩ := listed_found_iff .builtin hlisted
  obtain rfl : Dialect.mysql = d := Option.some.inj (Eq.trans (by decide) hd)
  exact ⟨hlisted, fun s hs => (hiff.mpr (Or.inr ⟨rfl, rfl⟩) s hs).1⟩

/-- A name with capital letters is listed, but not found.  A listed name that is an alias of
another dialect leads to that. -/
theorem listed_not_found :
    let capital : Dialect := ⟨"Oracle", ⟨"<", ">"⟩, some "Oracle"⟩
    let other : Dialect := ⟨"oracle", ⟨"<", ">"⟩, some "oracle"⟩
    "Oracle" ∈ (builtin.register capital []).available ∧
      ((builtin.register capital []).get "Oracle").toOption = none ∧
      "mysql" ∈ (builtin.register other ["mysql"]).available ∧
      (builtin.register other ["mysql"]).get "mysql" = .ok other ∧ other ≠ .mysql :=
  ⟨by decide, rfl, by decide, rfl, by decide⟩

end QueryTree.Registry
