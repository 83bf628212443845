import QueryTree.CommandLine
import QueryTree.Proofs.Json.Ascii
import QueryTree.Proofs.Json.Trees
import QueryTree.Proofs.Settings

/-!
# What the program prints

The program prints one result or nothing.  A *result* is the SQL, which may have line
breaks itself, and the bound literals as JSON on the last line.

*Recovering.*  The last line has no line break, so it can be told from the SQL
(`lastLine?_eq`).  The literals come from a document, so they are read back from that line
(`prints_of_native`).  Both parts of a result are recovered from what is printed
(`recover`).

*Codes.*  A document is rendered with an answer (`Answers`), or it is unusable
(`Unusable`), and never both.

*Surroundings.*  What is assumed of the surroundings is that the document holds JSON data
or is reported, and that they raise nothing on the way (`Undisturbed`).

The main statement is `execute_reports`.
-/

namespace QueryTree.CommandLine

/-! ## The last line -/

/-- What comes before the last line, and the last line. -/
def lastLine? (printed : String) : Option (String × String) :=
  match printed.toList.reverse with
  | '\n' :: cs =>
    match cs.dropWhile (· != '\n') with
    | '\n' :: before =>
      some (String.ofList before.reverse, String.ofList (cs.takeWhile (· != '\n')).reverse)
    | _ => none
  | _ => none

/-- The SQL and the bound literals, from what is printed. -/
def recover (printed : String) : Option (String × List Value) :=
  match lastLine? printed with
  | none => none
  | some (sql, line) =>
    match Json.read line with
    | some (.list binds) => some (sql, binds)
    | _ => none

theorem lastLine?_eq (before line : String) (h : '\n' ∉ line.toList) :
    lastLine? (before ++ "\n" ++ line ++ "\n") = some (before, line) := by
  have hreverse : (before ++ "\n" ++ line ++ "\n").toList.reverse =
      '\n' :: (line.toList.reverse ++ '\n' :: before.toList.reverse) := by
    have hbreak : "\n".toList = ['\n'] := rfl
    simp only [String.toList_append, List.reverse_append, hbreak, List.reverse_singleton,
      List.cons_append, List.nil_append]
  have hline : ∀ c ∈ line.toList.reverse, (c != '\n') = true := by
    intro c hc
    rw [List.mem_reverse] at hc
    exact bne_iff_ne.mpr fun heq => h (heq ▸ hc)
  have hdrop : (line.toList.reverse ++ '\n' :: before.toList.reverse).dropWhile (· != '\n') =
      '\n' :: before.toList.reverse := by
    rw [List.dropWhile_append_of_pos hline, List.dropWhile_cons_of_neg (by decide)]
  have htake : (line.toList.reverse ++ '\n' :: before.toList.reverse).takeWhile (· != '\n') =
      line.toList.reverse := by
    rw [List.takeWhile_append_of_pos hline, List.takeWhile_cons_of_neg (by decide), List.append_nil]
  rw [lastLine?, hreverse]
  simp only [hdrop, htake, List.reverse_reverse, String.ofList_toList]

/-! ## What is printed -/

/-- A result is printed: its SQL, and its literals on a line of their own. -/
structure Prints (printed : String) (result : Renderer.Result) : Prop where
  lines : ∃ line, printed = result.sql ++ "\n" ++ line ++ "\n" ∧ Ascii line ∧
    Json.read line = some (.list result.binds)
  recovered : recover printed = some (result.sql, result.binds)

/-- Native literals are printed so that they can be recovered. -/
theorem prints_of_native {result : Renderer.Result} (h : ∀ v ∈ result.binds, Json.Native v) :
    Prints (result.sql ++ "\n" ++ Json.write (.list result.binds) ++ "\n") result := by
  have hread := Json.read_write (.list h)
  have hascii := Json.ascii_write (.list result.binds)
  refine ⟨⟨_, rfl, hascii, hread⟩, ?_⟩
  rw [recover, lastLine?_eq _ _ hascii.not_mem]
  simp only [hread]

@[simp] theorem Printout.sql_of (request : Renderer.Request) (tree : Value)
    (result : Renderer.Result) : (Printout.of request tree result).sql = result.sql := rfl

@[simp] theorem Printout.text_of (request : Renderer.Request) (tree : Value)
    (result : Renderer.Result) : (Printout.of request tree result).text =
      result.sql ++ "\n" ++ Json.write (.list result.binds) ++ "\n" := rfl

/-! ## Answers -/

section

variable {ε : Type} (w : Surroundings ε) (o : Arguments.Options) (base : Settings)

/-- The document is rendered as the options say, with this answer. -/
inductive Answers : Except RenderError Renderer.Result → Prop
  | intro {settings : Settings} {tree : Value} :
    dialectSettings o base = .ok settings →
    w.document o = .ok (.tree tree) →
    Answers ((Renderer.of settings none none).render (request o.statement) tree)

/-- The dialect is unknown, or there is no document, or it is malformed. -/
inductive Unusable : Prop
  | dialect : (∀ d, Registry.builtin.get o.dialect ≠ .ok d) → Unusable
  | absent : w.content (source o) = .error .unreadable → Unusable
  | malformed {text : String} :
    w.content (source o) = .ok text → w.read text = .error .unreadable → Unusable

/-- Nothing is raised by the surroundings, and the document holds JSON data if it is read. -/
structure Undisturbed : Prop where
  /-- The document is read, or it is reported that it is not. -/
  reported : ∀ e, w.document o = .error e → e = .unreadable
  /-- The document is JSON data, in some notation.  Its texts are of whole characters.  An
  escape may name half of a character, and then the document is no JSON data. -/
  data : ∀ d, w.document o = .ok d → ∃ tree, Json.Native tree ∧ d = .tree tree
  /-- The interpreter renders the tree to the end. -/
  interrupt : ∀ settings tree,
    dialectSettings o base = .ok settings →
    w.document o = .ok (.tree tree) → w.interrupt settings (request o.statement) tree = none
  /-- The literals are written as JSON. -/
  encode : ∀ result, Answers w o base (.ok result) → w.encode result.binds = none
  /-- The output takes the lines of the result. -/
  print : ∀ result, Answers w o base (.ok result) →
    w.print (result.sql ++ "\n" ++ Json.write (.list result.binds) ++ "\n") = none
  /-- The checker answers, if it is asked. -/
  check : ∀ result, Answers w o base (.ok result) → ∃ found, w.warnings o result.sql = .ok found

end

variable {ε : Type} {w : Surroundings ε} {o : Arguments.Options} {base : Settings} {level : Nat}

/-! ## The document -/

theorem document_of_content {text : String} (h : w.content (source o) = .ok text) :
    w.document o = w.read text := by
  rw [Surroundings.document, h]
  rfl

theorem document_of_absent {e : DocumentError ε} (h : w.content (source o) = .error e) :
    w.document o = .error e := by
  rw [Surroundings.document, h]
  rfl

theorem document_of_unusable {d : Dialect} (hd : Registry.builtin.get o.dialect = .ok d)
    (h : Unusable w o) : w.document o = .error .unreadable := by
  cases h with
  | dialect hunknown => exact absurd hd (hunknown d)
  | absent habsent => exact document_of_absent habsent
  | malformed htext hread => rw [document_of_content htext, hread]

theorem unusable_of_document (h : w.document o = .error .unreadable) : Unusable w o := by
  cases htext : w.content (source o) with
  | error e =>
      rw [document_of_absent htext] at h
      obtain rfl := Except.error.inj h
      exact .absent htext
  | ok text =>
      rw [document_of_content htext] at h
      exact .malformed htext h

/-- A document that is not disturbed holds a native tree, or there is no tree to use. -/
theorem Undisturbed.tree_or_unusable (h : Undisturbed w o base) :
    (∃ tree, Json.Native tree ∧ w.document o = .ok (.tree tree)) ∨ Unusable w o := by
  cases hdocument : w.document o with
  | error e =>
      obtain rfl := h.reported e hdocument
      exact .inr (unusable_of_document hdocument)
  | ok d =>
      obtain ⟨tree, hnative, rfl⟩ := h.data d hdocument
      exact .inl ⟨tree, hnative, rfl⟩

theorem Undisturbed.native (h : Undisturbed w o base) {tree : Value}
    (htree : w.document o = .ok (.tree tree)) : Json.Native tree := by
  obtain ⟨found, hnative, heq⟩ := h.data _ htree
  exact Document.tree.inj heq ▸ hnative

/-- A JSON document is a native tree, if it has no overlong number. -/
theorem readDocument_cases (text : String) :
    @readDocument ε text = .error .unreadable ∨
    (∃ digits, @readDocument ε text = .error (.overlong digits)) ∨
    ∃ tree, Json.Native tree ∧ @readDocument ε text = .ok (.tree tree) := by
  unfold readDocument
  split
  · exact .inr (.inr ⟨.null, .null, rfl⟩)
  · split
    · exact .inl rfl
    · next tree hread =>
        split
        · exact .inr (.inl ⟨_, rfl⟩)
        · exact .inr (.inr ⟨tree, Json.native_of_read hread, rfl⟩)

/-! ## Dialects -/

theorem get_of_dialectSettings {settings : Settings}
    (h : dialectSettings o base = .ok settings) :
    ∃ d, Registry.builtin.get o.dialect = .ok d := by
  rw [dialectSettings, Registry.settingsFor] at h
  cases hd : Registry.builtin.get o.dialect with
  | ok d => exact ⟨d, rfl⟩
  | error e =>
      rw [hd] at h
      cases h

theorem not_get_of_dialectSettings {e : UnknownDialect}
    (h : dialectSettings o base = .error e) :
    ∀ d, Registry.builtin.get o.dialect ≠ .ok d := by
  intro d hd
  rw [dialectSettings, Registry.settingsFor, hd] at h
  cases h

/-! ## One answer, or none -/

/-- There is one answer only. -/
theorem Answers.unique {answer answer' : Except RenderError Renderer.Result}
    (h : Answers w o base answer) (h' : Answers w o base answer') : answer = answer' := by
  obtain ⟨hsettings, htree⟩ := h
  obtain ⟨hsettings', htree'⟩ := h'
  obtain rfl := Except.ok.inj (hsettings.symm.trans hsettings')
  obtain rfl := Document.tree.inj (Except.ok.inj (htree.symm.trans htree'))
  rfl

theorem Answers.not_unusable {answer : Except RenderError Renderer.Result}
    (h : Answers w o base answer) : ¬ Unusable w o := by
  obtain ⟨hsettings, htree⟩ := h
  intro hunusable
  obtain ⟨d, hd⟩ := get_of_dialectSettings hsettings
  cases (document_of_unusable hd hunusable).symm.trans htree

/-- A document that is not disturbed is rendered, with some answer, or it is unusable. -/
theorem Undisturbed.answers_or_unusable (h : Undisturbed w o base) :
    (∃ answer, Answers w o base answer) ∨ Unusable w o := by
  cases hsettings : dialectSettings o base with
  | error e => exact .inr (.dialect (not_get_of_dialectSettings hsettings))
  | ok settings =>
      rcases h.tree_or_unusable with ⟨tree, -, htree⟩ | hunusable
      · exact .inl ⟨_, hsettings, htree⟩
      · exact .inr hunusable

/-- The literals of an answer are native. -/
theorem Undisturbed.native_binds (h : Undisturbed w o base) {result : Renderer.Result}
    (hresult : Answers w o base (.ok result)) : ∀ v ∈ result.binds, Json.Native v := by
  generalize hanswer : Except.ok result = answer at hresult
  obtain ⟨-, htree⟩ := hresult
  exact Renderer.native_binds _ (h.native htree) hanswer.symm

theorem loadFrom_of_settings (h : w.settings = .ok base) :
    ∃ file, w.settingsFile = .ok file ∧ Settings.loadFrom file w.environment [] = .ok base := by
  rw [Surroundings.settings] at h
  split at h
  · cases h
  · next file hfile =>
      cases hload : Settings.loadFrom file w.environment [] with
      | error e =>
          rw [hload] at h
          cases h
      | ok found =>
          rw [hload] at h
          obtain rfl := Except.ok.inj h
          exact ⟨file, hfile, hload⟩

/-- With settings that are loaded, an error has a kind. -/
theorem kind_of_render {settings : Settings} {request : Renderer.Request} {tree : Value}
    {e : RenderError} (hbase : w.settings = .ok base) (hsettings : dialectSettings o base = .ok settings)
    (h : (Renderer.of settings none none).render request tree = .error e) : e.kind?.isSome := by
  obtain ⟨file, -, hload⟩ := loadFrom_of_settings hbase
  have hobtained := Settings.Obtained.adapted (Settings.obtained_of_loadFrom hload) hsettings
  exact (Renderer.stops_of_render_error h).expected.kind_isSome hobtained.rank_isSome

theorem kind_of_answers {e : RenderError} (hbase : w.settings = .ok base)
    (h : Answers w o base (.error e)) : e.kind?.isSome := by
  generalize hanswer : Except.error e = answer at h
  obtain ⟨hsettings, -⟩ := h
  exact kind_of_render hbase hsettings hanswer.symm

/-! ## From the dialect on -/

/-- An unusable document ends the program with code 2 and prints nothing. -/
theorem executeWith_unusable (h : Unusable w o) :
    ∃ stderr, executeWith w o level (dialectSettings o base) = .ok ⟨.code 2, "", stderr⟩ := by
  cases hsettings : dialectSettings o base with
  | error e => exact ⟨_, rfl⟩
  | ok settings =>
      obtain ⟨d, hd⟩ := get_of_dialectSettings hsettings
      rw [executeWith, document_of_unusable hd h]
      exact ⟨_, rfl⟩

/-- A result is printed. -/
theorem Undisturbed.executeWith_result (h : Undisturbed w o base) {result : Renderer.Result}
    (hresult : Answers w o base (.ok result)) :
    ∃ tree found, executeWith w o level (dialectSettings o base) =
      .ok (success level (.of (request o.statement) tree result) found) := by
  obtain ⟨found, hfound⟩ := h.check result hresult
  have hencode := h.encode result hresult
  have hprint := h.print result hresult
  generalize hanswer : Except.ok result = answer at hresult
  obtain @⟨settings, tree, hsettings, htree⟩ := hresult
  have hinterrupt := h.interrupt _ _ hsettings htree
  refine ⟨tree, found, ?_⟩
  rw [hsettings]
  simp only [executeWith, htree, Surroundings.render, hinterrupt, ← hanswer, hencode,
    finish, Printout.text_of, hprint, Printout.sql_of, hfound]

/-- A refusal is reported. -/
theorem Undisturbed.executeWith_error (h : Undisturbed w o base) {e : RenderError}
    (herror : Answers w o base (.error e)) :
    executeWith w o level (dialectSettings o base) = .ok (failure level e.message) := by
  generalize hanswer : Except.error e = answer at herror
  obtain @⟨settings, tree, hsettings, htree⟩ := herror
  have hinterrupt := h.interrupt _ _ hsettings htree
  rw [hsettings]
  simp only [executeWith, htree, Surroundings.render, hinterrupt, ← hanswer]

/-! ## Reports -/

/-- How the program ends, and what it prints. -/
structure Reports (w : Surroundings ε) (o : Arguments.Options) (base : Settings)
    (outcome : Outcome) : Prop where
  ended : outcome.ending = .code 0 ∨ outcome.ending = .code 1 ∨ outcome.ending = .code 2
  rendered : outcome.ending = .code 0 ↔ ∃ result, Answers w o base (.ok result)
  printed : ∀ result, Answers w o base (.ok result) → Prints outcome.stdout result
  nothing : outcome.ending ≠ .code 0 → outcome.stdout = ""
  refused : outcome.ending = .code 1 ↔
    ∃ e kind, Answers w o base (.error e) ∧ e.kind? = some kind
  unusable : outcome.ending = .code 2 ↔ Unusable w o

/-- A result is printed, with code 0. -/
theorem Reports.of_result {result : Renderer.Result} (h : Answers w o base (.ok result))
    (hnative : ∀ v ∈ result.binds, Json.Native v) (tree : Value) (found : List String) :
    Reports w o base (success level (.of (request o.statement) tree result) found) where
  ended := .inl rfl
  rendered := ⟨fun _ => ⟨result, h⟩, fun _ => rfl⟩
  printed := by
    intro result' h'
    obtain rfl := Except.ok.inj (h.unique h')
    exact prints_of_native hnative
  nothing := fun hcode => absurd rfl hcode
  refused := by
    refine ⟨nofun, ?_⟩
    rintro ⟨e, -, h', -⟩
    cases h.unique h'
  unusable := ⟨nofun, fun h' => absurd h' h.not_unusable⟩

/-- An error of some kind prints nothing and has code 1. -/
theorem Reports.of_error {e : RenderError} {kind : ErrorKind}
    (h : Answers w o base (.error e)) (hkind : e.kind? = some kind) :
    Reports w o base (failure level e.message) where
  ended := .inr (.inl rfl)
  rendered := by
    refine ⟨nofun, ?_⟩
    rintro ⟨result, h'⟩
    cases h.unique h'
  printed := by
    intro result h'
    cases h.unique h'
  nothing := fun _ => rfl
  refused := ⟨fun _ => ⟨e, kind, h, hkind⟩, fun _ => rfl⟩
  unusable := ⟨nofun, fun h' => absurd h' h.not_unusable⟩

/-- An unusable document prints nothing and has code 2. -/
theorem Reports.of_unusable (h : Unusable w o) (stderr : String) :
    Reports w o base ⟨.code 2, "", stderr⟩ where
  ended := .inr (.inr rfl)
  rendered := by
    refine ⟨nofun, ?_⟩
    rintro ⟨result, h'⟩
    exact absurd h h'.not_unusable
  printed := fun result h' => absurd h h'.not_unusable
  nothing := fun _ => rfl
  refused := by
    refine ⟨nofun, ?_⟩
    rintro ⟨e, -, h', -⟩
    exact absurd h h'.not_unusable
  unusable := ⟨fun _ => h, fun _ => rfl⟩

theorem execute_of_settings {arguments : List String} (harguments : Arguments.parse arguments = .ok o)
    (hbase : w.settings = .ok base)
    (hlevel : levels.lookup (Text.upperCase base.logLevel) = some level) :
    execute w arguments = executeWith w o level (dialectSettings o base) := by
  simp only [execute, harguments, hbase, hlevel]

/-- The program ends with code 0 if the document is rendered, and prints the result so
that it can be recovered.  It ends with 1 if the tree is refused with an error of some
kind, and with 2 if the dialect is unknown or the document cannot be read.  Then it
prints nothing.  The arguments have to be options, the settings have to load, their log
level has to be known, and the surroundings must not disturb the program. -/
theorem execute_reports {arguments : List String} (harguments : Arguments.parse arguments = .ok o)
    (hbase : w.settings = .ok base)
    (hlevel : levels.lookup (Text.upperCase base.logLevel) = some level)
    (hundisturbed : Undisturbed w o base) :
    ∃ outcome, execute w arguments = .ok outcome ∧ Reports w o base outcome := by
  rw [execute_of_settings harguments hbase hlevel]
  rcases hundisturbed.answers_or_unusable with ⟨answer, h⟩ | h
  · cases answer with
    | ok result =>
        obtain ⟨tree, found, hresult⟩ := @Undisturbed.executeWith_result _ _ _ _ level hundisturbed _ h
        exact ⟨_, hresult, .of_result h (hundisturbed.native_binds h) tree found⟩
    | error e =>
        obtain ⟨kind, hkind⟩ := Option.isSome_iff_exists.mp (kind_of_answers hbase h)
        exact ⟨_, hundisturbed.executeWith_error h, .of_error h hkind⟩
  · obtain ⟨stderr, hstop⟩ := @executeWith_unusable _ _ _ base level h
    exact ⟨_, hstop, .of_unusable h stderr⟩

/-! ## JSON documents -/

variable {environment : List (String × String)} {content : Source → Option String}

/-- A checker that finds nothing raises nothing. -/
theorem exists_warnings_of_none (r : Registry) (name sql : String) :
    ∃ found, r.warnings (fun _ _ => (.ok none : Except ε (Option String))) name sql = .ok found := by
  rw [Registry.warnings]
  cases r.get name with
  | ok d => exact ⟨_, rfl⟩
  | error e => exact ⟨_, rfl⟩

theorem exists_warnings_json (o : Arguments.Options) (sql : String) :
    ∃ found, (@jsonSurroundings ε environment content).warnings o sql = .ok found := by
  rw [Surroundings.warnings]
  split
  · exact exists_warnings_of_none ..
  · exact ⟨_, rfl⟩

theorem document_json {text : String} (h : content (source o) = some text) :
    (@jsonSurroundings ε environment content).document o = readDocument text :=
  document_of_content (by simp only [jsonSurroundings, h])

theorem document_json_none (h : content (source o) = none) :
    (@jsonSurroundings ε environment content).document o = .error .unreadable :=
  document_of_absent (by simp only [jsonSurroundings, h])

/-- A JSON document is a native tree or malformed, if it has no overlong number. -/
theorem document_json_cases (h : ∀ text digits, content (source o) = some text →
      @readDocument ε text ≠ .error (.overlong digits)) :
    (@jsonSurroundings ε environment content).document o = .error .unreadable ∨
    ∃ tree, Json.Native tree ∧
      (@jsonSurroundings ε environment content).document o = .ok (.tree tree) := by
  cases htext : content (source o) with
  | none => exact .inl (document_json_none htext)
  | some text =>
      rw [document_json htext]
      rcases @readDocument_cases ε text with hread | ⟨digits, hread⟩ | hread
      · exact .inl hread
      · exact absurd hread (h text digits htext)
      · exact .inr hread

/-- JSON documents without overlong numbers do not disturb the program. -/
theorem undisturbed_json (h : ∀ text digits, content (source o) = some text →
      @readDocument ε text ≠ .error (.overlong digits)) :
    Undisturbed (@jsonSurroundings ε environment content) o base where
  reported := by
    intro e he
    rcases @document_json_cases ε o environment content h with hread | ⟨tree, -, hread⟩
    · exact Except.error.inj (he.symm.trans hread)
    · cases he.symm.trans hread
  data := by
    intro d hd
    rcases @document_json_cases ε o environment content h with hread | ⟨tree, hnative, hread⟩
    · cases hd.symm.trans hread
    · exact ⟨tree, hnative, Except.ok.inj (hd.symm.trans hread)⟩
  interrupt := fun _ _ _ _ => rfl
  encode := fun _ _ => rfl
  print := fun _ _ => rfl
  check := fun result _ => exists_warnings_json o result.sql

/-- A list of a literal and a name, both with a line break. -/
def brokenLines : String := "[\"-list\", [\"-value\", \"a\\nb\"], [\"-name\", \"c\\nd\"]]"

/-- A document whose result is printed over several lines. -/
theorem execute_reports_lines : ∃ outcome,
    execute (@jsonSurroundings Empty [] fun _ => some brokenLines) ["--dialect=mysql", "-"] =
      .ok outcome ∧
      Reports (@jsonSurroundings Empty [] fun _ => some brokenLines)
        { input := some "-", dialect := "mysql" } {} outcome := by
  have hread : (@readDocument Empty brokenLines).toBool = true := by decide +kernel
  refine @execute_reports _ _ { input := some "-", dialect := "mysql" } {} 20 _ rfl rfl
    (by decide +kernel) (undisturbed_json fun text digits htext htree => ?_)
  have hfailed : (@readDocument Empty text).toBool = false := congrArg Except.toBool htree
  obtain rfl := Option.some.inj htext
  exact Bool.false_ne_true (hfailed.symm.trans hread)

end QueryTree.CommandLine
