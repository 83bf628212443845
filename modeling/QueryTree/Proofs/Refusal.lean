import QueryTree.Dialect.Registry
import QueryTree.Proofs.Budget
import QueryTree.Proofs.Checked

/-!
# Refusals

A rendering that fails says why.  Two errors would not: a connective that the
settings do not rank, and a budget used up.  Neither occurs.

*Ranks.*  Loaded settings rank both connectives, since the check of the
priorities insists on it, and so do the defaults.  A dialect changes the quotes
only.  So all settings that are obtained by loading and by choosing dialects rank
both (`Settings.Obtained.rank_isSome`).

*Budgets.*  A closed property of the expected errors holds of every rendering, and
that a budget is used up is not expected.

The main statement is `Renderer.render_ok_or_refused`: whatever the tables, the
request and the value, there is a result, or an error of some kind.
-/

namespace QueryTree

/-! ## Ranks -/

namespace Settings

/-- Priorities that rank both connectives. -/
def RanksBoth (priorities : List (String × Int)) : Prop :=
  ∀ c : Connective, (priorities.lookup c.name).isSome

theorem ranksBoth_of_unrankedNames {priorities : List (String × Int)}
    (h : unrankedNames priorities = []) : RanksBoth priorities := by
  have hnone : ∀ name ∈ ["and", "or"], (priorities.lookup name).isSome := by
    intro name hname
    have := List.filter_eq_nil_iff.mp h name hname
    simpa using this
  intro c
  cases c with
  | and => exact hnone "and" (by simp)
  | or => exact hnone "or" (by simp)

theorem ranksBoth_of_priorityMap {path : List String} {v : Value}
    {priorities : List (String × Int)} (h : priorityMap path v = .valid priorities) :
    RanksBoth priorities := by
  rw [priorityMap] at h
  split at h
  · split at h
    · next hranked =>
        obtain rfl := Checked.valid.inj h
        exact ranksBoth_of_unrankedNames hranked
    · cases h
  · cases h

theorem ranksBoth_of_field {fields : Fields} {key : String} {base priorities : List (String × Int)}
    (hbase : RanksBoth base) (h : field fields key base priorityMap = .valid priorities) :
    RanksBoth priorities := by
  rw [field] at h
  split at h
  · exact ranksBoth_of_priorityMap h
  · obtain rfl := Checked.valid.inj h
    exact hbase

/-- Each field of some settings has been checked. -/
structure ReadFrom (fields : Fields) (s : Settings) : Prop where
  logLevel : field fields "log_level" ({} : Settings).logLevel Checked.text = .valid s.logLevel
  quoteIdentifiers : field fields "quote_identifiers" ({} : Settings).quoteIdentifiers boolean =
    .valid s.quoteIdentifiers
  quotes : field fields "quote_chars" ({} : Settings).quotes quotePair = .valid s.quotes
  nameSeparator : field fields "name_separator" ({} : Settings).nameSeparator Checked.text =
    .valid s.nameSeparator
  listSeparator : field fields "list_separator" ({} : Settings).listSeparator Checked.text =
    .valid s.listSeparator
  placeholder : field fields "placeholder" ({} : Settings).placeholder Checked.text =
    .valid s.placeholder
  priorities : field fields "priorities" ({} : Settings).priorities priorityMap =
    .valid s.priorities
  operators : field fields "binop_mapping" ({} : Settings).operators (textMap Checked.text) =
    .valid s.operators

/-- Settings from fields are valid only if each field is. -/
theorem readFrom_of_ofFields {fields : Fields} {s : Settings} (h : ofFields fields = .valid s) :
    ReadFrom fields s := by
  rw [ofFields] at h
  -- the fields are peeled off from the last to the first
  obtain ⟨_, _, h₁, hoperators, rfl⟩ := Checked.seq_valid h
  obtain ⟨_, _, h₂, hpriorities, rfl⟩ := Checked.seq_valid h₁
  obtain ⟨_, _, h₃, hplaceholder, rfl⟩ := Checked.seq_valid h₂
  obtain ⟨_, _, h₄, hlistSeparator, rfl⟩ := Checked.seq_valid h₃
  obtain ⟨_, _, h₅, hnameSeparator, rfl⟩ := Checked.seq_valid h₄
  obtain ⟨_, _, h₆, hquotes, rfl⟩ := Checked.seq_valid h₅
  obtain ⟨_, _, h₇, hquoteIdentifiers, rfl⟩ := Checked.seq_valid h₆
  obtain ⟨_, hlogLevel, rfl⟩ := Checked.map_valid h₇
  exact ⟨hlogLevel, hquoteIdentifiers, hquotes, hnameSeparator, hlistSeparator, hplaceholder,
    hpriorities, hoperators⟩

theorem readFrom_of_loadFrom {file : Fields} {environment : List (String × String)}
    {arguments : Fields} {s : Settings} (h : loadFrom file environment arguments = .ok s) :
    ∃ fields, ReadFrom fields s := by
  rw [loadFrom] at h
  split at h
  · cases h
  · split at h
    · next hfields =>
        obtain rfl := Except.ok.inj h
        exact ⟨_, readFrom_of_ofFields hfields⟩
    · cases h

theorem readFrom_of_load {environment : List (String × String)} {arguments : Fields} {s : Settings}
    (h : load environment arguments = .ok s) : ∃ fields, ReadFrom fields s :=
  readFrom_of_loadFrom h

theorem ranksBoth_of_load {environment : List (String × String)} {arguments : Fields} {s : Settings}
    (h : load environment arguments = .ok s) : RanksBoth s.priorities := by
  have hbase : RanksBoth ({} : Settings).priorities := by
    intro c
    cases c with
    | and => rfl
    | or => rfl
  obtain ⟨fields, hread⟩ := readFrom_of_load h
  exact ranksBoth_of_field hbase hread.priorities

/-- Settings that are loaded, or have the quotes of a dialect put in. -/
inductive Obtained : Settings → Prop
  | loaded {environment : List (String × String)} {arguments : Fields} {s : Settings} :
    load environment arguments = .ok s → Obtained s
  | adapted {registry : Registry} {name : String} {quote : Bool} {s s' : Settings} :
    Obtained s → registry.settingsFor name s quote = .ok s' → Obtained s'

/-- The settings for a dialect are those that the dialect makes of the base. -/
theorem settingsFor_eq {registry : Registry} {name : String} {quote : Bool} {s s' : Settings}
    (h : registry.settingsFor name s quote = .ok s') : ∃ d : Dialect, s' = d.apply s quote := by
  rw [Registry.settingsFor] at h
  cases hd : registry.get name with
  | error e =>
      rw [hd] at h
      cases h
  | ok d =>
      rw [hd] at h
      exact ⟨d, (Except.ok.inj h).symm⟩

theorem Obtained.rank_isSome {s : Settings} (h : Obtained s) (c : Connective) :
    (s.rank c).isSome := by
  induction h with
  | loaded h => exact ranksBoth_of_load h c
  | adapted _ h ih =>
      obtain ⟨d, rfl⟩ := settingsFor_eq h
      exact ih

end Settings

/-! ## Errors -/

namespace Rendering

variable {α β : Type} {P : RenderError → Prop}

/-- Every error of a rendering is of a certain sort. -/
def FailsWith (P : RenderError → Prop) (x : Rendering α) : Prop :=
  ∀ binds e after, x.outcome binds = (.error e, after) → P e

theorem failsWith_pure (a : α) : FailsWith P (pure a : Rendering α) := by
  intro binds e after h
  cases congrArg Prod.fst h

theorem failsWith_bindLiteral (v : Value) : FailsWith P (bindLiteral v) := by
  intro binds e after h
  cases congrArg Prod.fst h

theorem failsWith_fail {e : RenderError} (he : P e) : FailsWith P (fail e : Rendering α) := by
  intro binds e' after h
  cases congrArg Prod.fst h
  exact he

theorem FailsWith.bind {x : Rendering α} {f : α → Rendering β} (hx : FailsWith P x)
    (hf : ∀ a, FailsWith P (f a)) : FailsWith P (x >>= f) := by
  intro binds e after h
  rw [outcome_bind] at h
  cases ho : x.outcome binds with
  | mk answer mid =>
      rw [ho] at h
      cases answer with
      | ok a => exact hf a mid e after h
      | error e' =>
          cases congrArg Prod.fst h
          exact hx binds e mid ho

theorem closed_failsWith : Closed (FailsWith P) := ⟨failsWith_pure, fun hx hf => hx.bind hf⟩

end Rendering

namespace Renderer

theorem failsWith_perform (r : Renderer) (v : Value) (request : Request) :
    Rendering.FailsWith (RenderError.Expected r.settings) (r.perform v request) :=
  Rendering.closed_failsWith.perform Rendering.failsWith_bindLiteral
    (fun _ he => Rendering.failsWith_fail he.expected) v request

/-- Whatever is asked for fails only with errors that the renderer stops with. -/
theorem stops_of_render_error {r : Renderer} {request : Request} {v : Value} {e : RenderError}
    (h : r.render request v = .error e) : r.Stops e := by
  have hfails : Rendering.FailsWith r.Stops (r.perform v request) :=
    Rendering.closed_failsWith.perform Rendering.failsWith_bindLiteral
      (fun _ he => Rendering.failsWith_fail he) v request
  rw [render, result] at h
  cases ho : (r.perform v request).outcome [] with
  | mk answer after =>
      rw [ho] at h
      cases answer with
      | ok sql => cases h
      | error e' =>
          obtain rfl := Except.error.inj h
          exact hfails [] e' after ho

end Renderer

/-- With both connectives ranked, an expected error has a kind. -/
theorem RenderError.Expected.kind_isSome {s : Settings} {e : RenderError} (h : e.Expected s)
    (hs : ∀ c, (s.rank c).isSome) : e.kind?.isSome := by
  cases e with
  | unranked c =>
      have hc := hs c
      rw [h] at hc
      cases hc
  | _ => exact h

namespace Renderer

/-- With obtained settings and any tables, whatever is asked for of any value is
rendered, or refused with an error that has a kind. -/
theorem render_ok_or_refused (r : Renderer) (hs : r.settings.Obtained) (request : Request)
    (v : Value) :
    (∃ result, r.render request v = .ok result) ∨
      ∃ e kind, r.render request v = .error e ∧ e.kind? = some kind := by
  rw [render, result]
  cases ho : (r.perform v request).outcome [] with
  | mk answer after =>
      cases answer with
      | ok sql => exact Or.inl ⟨_, rfl⟩
      | error e =>
          have hexpected := r.failsWith_perform v request [] e after ho
          have hkind := hexpected.kind_isSome hs.rank_isSome
          exact Or.inr ⟨e, _, rfl, (Option.some_get hkind).symm⟩

/-- A comparison that stands under the tag of a select, asked to render a map that
has conditions under a key that is no text. -/
theorem render_ok_or_refused_foreign :
    let r : Renderer :=
      { settings := {}
        generic := Table.generic.layered [(.keyword .select, .comparison), (.word "f", .call "F")]
        conditions := .conditions }
    let v : Value := .map [(.str "type", .str "select"), (.str "columns", .list [.str "f"]),
      (.int 1, .map [(.null, .bytes [255]), (.str "b", .tuple [])])]
    (∃ result, r.render .select v = .ok result) ∨
      ∃ e kind, r.render .select v = .error e ∧ e.kind? = some kind :=
  render_ok_or_refused _ (@Settings.Obtained.loaded [] [] {} rfl) .select _

end Renderer

end QueryTree
