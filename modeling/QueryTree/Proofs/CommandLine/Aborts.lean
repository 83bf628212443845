import QueryTree.Proofs.CommandLine
import QueryTree.Proofs.Variables

/-!
# Where the program is broken off

Once its arguments are read, the program ends with a code or it is broken off.

*Codes.*  The code is 0, 1 or 2.  Any code but 0 comes with a line on the error stream that
begins as all errors do, and nothing is printed besides (`Ended`).

*Broken off.*  What is not reported in this way (`Unreported`) is a settings file that raises
an exception, a field that does not fit, a log level that is unknown, and whatever goes wrong
on the way from the document to the output without being a malformed document or a refused
tree (`Escapes`).  A document counts only if the dialect is known, since it is read after that.

The main statement is `execute_ends_or_breaks_off`.
-/

namespace QueryTree.CommandLine

open Settings (Suits variableText?)

variable {ε : Type} {w : Surroundings ε} {o : Arguments.Options} {base settings : Settings}
  {level : Nat}

/-! ## Reported failures -/

/-- Some line begins as errors do. -/
def HasErrorLine (stderr : String) : Prop :=
  ∃ before after, stderr = before ++ "error: " ++ after ∧
    (before = "" ∨ ∃ lines, before = lines ++ "\n")

/-- The program ends with a code, and reports a failure if this is not 0. -/
structure Ended (outcome : Outcome) : Prop where
  /-- There are three codes. -/
  code : outcome.ending = .code 0 ∨ outcome.ending = .code 1 ∨ outcome.ending = .code 2
  /-- A failure has a line of its own, and nothing else is printed. -/
  reported : outcome.ending ≠ .code 0 → outcome.stdout = "" ∧ HasErrorLine outcome.stderr

theorem ended_unusable {stderr message : String} (h : stderr = "error: " ++ message) :
    Ended ⟨.code 2, "", stderr⟩ where
  code := .inr (.inr rfl)
  reported := fun _ => ⟨rfl, "", message, by rw [h, String.empty_append], .inl rfl⟩

theorem ended_success (level : Nat) (p : Printout) (found : List String) :
    Ended (success level p found) :=
  ⟨.inl rfl, fun hcode => absurd rfl hcode⟩

theorem ended_failure (level : Nat) (message : String) : Ended (failure level message) := by
  refine ⟨.inr (.inl rfl), fun _ => ⟨rfl, _, message ++ "\n", String.append_assoc .., ?_⟩⟩
  split
  · exact .inr ⟨_, rfl⟩
  · exact .inl rfl

/-! ## Failures that are not reported -/

/-- What breaks the program off, once it has the settings of a dialect. -/
inductive Escapes (w : Surroundings ε) (o : Arguments.Options) (settings : Settings) : Prop
  /-- Reading the document raises an exception, or it holds an overlong number. -/
  | read {e : DocumentError ε} : w.document o = .error e → e ≠ .unreadable →
    Escapes w o settings
  /-- The interpreter gives up the rendering of the tree. -/
  | interrupt {tree : Value} {e : ε} : w.document o = .ok (.tree tree) →
    w.interrupt settings (request o.statement) tree = some e → Escapes w o settings
  /-- The tree is rendered, but its literals are not written. -/
  | encode {tree : Value} {result : Renderer.Result} {e : ε} : w.document o = .ok (.tree tree) →
    (Renderer.of settings none none).render (request o.statement) tree = .ok result →
    w.encode result.binds = some e → Escapes w o settings
  /-- A tree with parts that are no values raises an exception. -/
  | foreign {render : Settings → Renderer.Request → Except (Refusal ε) Printout} {e : ε} :
    w.document o = .ok (.foreign render) →
    render settings (request o.statement) = .error (.raised e) → Escapes w o settings
  /-- The output does not take the result. -/
  | print {document : Document ε} {p : Printout} {e : ε} : w.document o = .ok document →
    w.render settings (request o.statement) document = .ok p → w.print p.text = some e →
    Escapes w o settings
  /-- The checker is asked about the SQL, and raises an exception. -/
  | check {document : Document ε} {p : Printout} {e : ε} : w.document o = .ok document →
    w.render settings (request o.statement) document = .ok p → w.warnings o p.sql = .error e →
    Escapes w o settings

/-- What breaks the program off, once its arguments are read. -/
inductive Unreported (w : Surroundings ε) (o : Arguments.Options) : Prop
  /-- The settings file raises an exception. -/
  | file {e : ε} : w.settingsFile = .error e → Unreported w o
  /-- The variable of a field is not read, or the field does not take its value. -/
  | unsuited {file : Fields} {name : String} : w.settingsFile = .ok file →
    name ∈ Settings.fieldNames → ¬ Settings.Fits file w.environment name → Unreported w o
  /-- There is no such log level. -/
  | level {base : Settings} : w.settings = .ok base →
    levels.lookup (Text.upperCase base.logLevel) = none → Unreported w o
  /-- The dialect is known, and something escapes after that. -/
  | escapes {base settings : Settings} : w.settings = .ok base →
    dialectSettings o base = .ok settings → Escapes w o settings → Unreported w o

/-! ## Overlong documents -/

/-- A blank text is not read. -/
theorem read_blank {text : String} (h : Json.skipBlank text.toList = []) :
    Json.read text = none := by
  rw [Json.read, Json.value, h]
  rfl

/-- A document that is one whole number is overlong from `10 ^ 4300` on. -/
theorem readDocument_write_int {n : Nat} (h : 10 ^ Json.digitLimit ≤ n) :
    @readDocument ε (Json.write (.int n)) = .error (.overlong (Json.digitCount n)) := by
  have hread : Json.read (Json.write (.int n)) = some (.int n) := Json.read_write (.int n)
  have hblank : Json.skipBlank (Json.write (.int n)).toList ≠ [] := by
    intro hblank
    cases hread.symm.trans (read_blank hblank)
  have hcount : Json.digitCount n > Json.digitLimit := by
    have hlength : (Nat.toDigits 10 n).length ≤ Json.digitLimit ↔ n < 10 ^ Json.digitLimit :=
      Nat.length_toDigits_le_iff (by decide) (by decide)
    rw [Json.digitCount, Int.natAbs_natCast]
    omega
  have hexcess : Json.excess? (.int n) = some (Json.digitCount n) := if_pos hcount
  have hoverlong : Json.overlong? (Json.write (.int n)) (.int n) = some (Json.digitCount n) := by
    rw [Json.overlong?]
    cases (Json.write (.int n)).length with
    | zero => simp [Json.firstExcess?, hexcess]
    | succ m => simp [Json.firstExcess?, hexcess]
  rw [readDocument, if_neg (by simpa using hblank), hread]
  simp only [hoverlong]

/-! ## From the dialect on -/

theorem finish_ended {p : Printout} {outcome : Outcome} (h : finish w o level p = .ok outcome) :
    Ended outcome := by
  unfold finish at h
  split at h
  · cases h
  · split at h
    · cases h
    · exact Except.ok.inj h ▸ ended_success ..

theorem executeWith_ended {found : Except UnknownDialect Settings} {outcome : Outcome}
    (h : executeWith w o level found = .ok outcome) : Ended outcome := by
  unfold executeWith at h
  split at h
  · exact Except.ok.inj h ▸ ended_unusable (String.append_assoc ..)
  · split at h
    · exact Except.ok.inj h ▸ @ended_unusable _ "cannot read AST:" rfl
    · cases h
    · cases h
    · split at h
      · exact Except.ok.inj h ▸ ended_failure ..
      · cases h
      · exact finish_ended h

/-- Rendering a tree raises an exception if the interpreter gives up, or if the literals of
the result are not written. -/
theorem render_tree_raised_iff {request : Renderer.Request} {tree : Value} :
    (∃ e, w.render settings request (.tree tree) = .error (.raised e)) ↔
      (∃ e, w.interrupt settings request tree = some e) ∨
        ∃ result, (Renderer.of settings none none).render request tree = .ok result ∧
          ∃ e, w.encode result.binds = some e := by
  rw [Surroundings.render]
  cases hinterrupt : w.interrupt settings request tree with
  | some e => simp
  | none =>
      cases hresult : (Renderer.of settings none none).render request tree with
      | error e => simp
      | ok result => cases hencode : w.encode result.binds <;> simp [hencode]

theorem finish_error_iff {p : Printout} : (∃ a, finish w o level p = .error a) ↔
    (∃ e, w.print p.text = some e) ∨ ∃ e, w.warnings o p.sql = .error e := by
  rw [finish]
  cases hprint : w.print p.text with
  | some e => simp
  | none => cases hwarnings : w.warnings o p.sql <;> simp

/-- With a document, something escapes if rendering it raises an exception, or if its result
is not finished. -/
theorem escapes_iff_of_document {document : Document ε} (h : w.document o = .ok document) :
    Escapes w o settings ↔
      (∃ e, w.render settings (request o.statement) document = .error (.raised e)) ∨
        ∃ p, w.render settings (request o.statement) document = .ok p ∧
          ∃ a, finish w o level p = .error a := by
  constructor
  · intro hescapes
    cases hescapes with
    | read herror => cases h.symm.trans herror
    | interrupt htree hinterrupt =>
        obtain rfl := Except.ok.inj (h.symm.trans htree)
        exact .inl (render_tree_raised_iff.mpr (.inl ⟨_, hinterrupt⟩))
    | encode htree hresult hencode =>
        obtain rfl := Except.ok.inj (h.symm.trans htree)
        exact .inl (render_tree_raised_iff.mpr (.inr ⟨_, hresult, _, hencode⟩))
    | foreign hforeign hraised =>
        obtain rfl := Except.ok.inj (h.symm.trans hforeign)
        exact .inl ⟨_, hraised⟩
    | print hdocument hrender hprint =>
        obtain rfl := Except.ok.inj (h.symm.trans hdocument)
        exact .inr ⟨_, hrender, finish_error_iff.mpr (.inl ⟨_, hprint⟩)⟩
    | check hdocument hrender hwarnings =>
        obtain rfl := Except.ok.inj (h.symm.trans hdocument)
        exact .inr ⟨_, hrender, finish_error_iff.mpr (.inr ⟨_, hwarnings⟩)⟩
  · rintro (⟨e, hraised⟩ | ⟨p, hrender, hfinish⟩)
    · cases document with
      | foreign render => exact .foreign h hraised
      | tree tree =>
          rcases render_tree_raised_iff.mp ⟨e, hraised⟩ with ⟨_, hinterrupt⟩ | ⟨_, hresult, _, hencode⟩
          · exact .interrupt h hinterrupt
          · exact .encode h hresult hencode
    · rcases finish_error_iff.mp hfinish with ⟨_, hprint⟩ | ⟨_, hwarnings⟩
      · exact .print h hrender hprint
      · exact .check h hrender hwarnings

theorem escapes_iff_of_error {e : DocumentError ε} (h : w.document o = .error e) :
    Escapes w o settings ↔ e ≠ .unreadable := by
  constructor
  · intro hescapes
    cases hescapes with
    | read herror he => exact Except.error.inj (h.symm.trans herror) ▸ he
    | interrupt htree => cases h.symm.trans htree
    | encode htree => cases h.symm.trans htree
    | foreign hforeign => cases h.symm.trans hforeign
    | print hdocument => cases h.symm.trans hdocument
    | check hdocument => cases h.symm.trans hdocument
  · exact .read h

theorem executeWith_error_iff :
    (∃ a, executeWith w o level (.ok settings) = .error a) ↔ Escapes w o settings := by
  rw [executeWith]
  cases hdocument : w.document o with
  | error e =>
      rw [escapes_iff_of_error hdocument]
      cases e <;> simp
  | ok document =>
      rw [@escapes_iff_of_document _ _ _ _ level _ hdocument]
      cases hrender : w.render settings (request o.statement) document with
      | error e => cases e <;> simp [hrender]
      | ok p => simp [hrender]

/-! ## The whole program -/

/-- The settings of the program are loaded exactly if the settings file is read, and each
field fits. -/
theorem settings_ok_iff : (∃ base, w.settings = .ok base) ↔
    ∃ file, w.settingsFile = .ok file ∧
      ∀ name ∈ Settings.fieldNames, Settings.Fits file w.environment name := by
  constructor
  · rintro ⟨base, h⟩
    obtain ⟨file, hfile, hload⟩ := loadFrom_of_settings h
    exact ⟨file, hfile, Settings.loadFrom_iff.mp ⟨base, hload⟩⟩
  · rintro ⟨file, hfile, hfits⟩
    obtain ⟨base, hload⟩ := Settings.loadFrom_iff.mpr hfits
    exact ⟨base, by rw [Surroundings.settings, hfile]; simp only [hload]; rfl⟩

theorem unreported_of_settings_error {a : Abort ε} (h : w.settings = .error a) :
    Unreported w o := by
  have hnone : ¬ ∃ base, w.settings = .ok base := by
    rintro ⟨base, hbase⟩
    cases h.symm.trans hbase
  cases hfile : w.settingsFile with
  | error e => exact .file hfile
  | ok file =>
      rw [settings_ok_iff] at hnone
      push Not at hnone
      obtain ⟨name, hname, hfits⟩ := hnone file hfile
      exact .unsuited hfile hname hfits

/-- A variable with an unknown log level is not reported. -/
theorem unreported_of_level {text : String}
    (htext : variableText? w.environment "log_level" = some text)
    (hlevel : levels.lookup (Text.upperCase text) = none) : Unreported w o := by
  cases hbase : w.settings with
  | error a => exact unreported_of_settings_error hbase
  | ok base =>
      obtain ⟨file, -, hload⟩ := loadFrom_of_settings hbase
      refine .level hbase ?_
      rwa [Settings.logLevel_of_loadFrom hload htext]

/-- Without a settings file, a variable with a text that does not suit is not reported. -/
theorem unreported_of_unsuited {name text : String} (hfile : w.settingsFile = .ok [])
    (hname : name ∈ Settings.fieldNames) (htext : variableText? w.environment name = some text)
    (hunsuited : ¬ Suits name text) : Unreported w o :=
  .unsuited hfile hname fun hfits => hunsuited ((Settings.fits_iff_suits rfl).mp hfits text htext)

/-- Once settings are loaded, there are two failures left that are not reported. -/
theorem unreported_of_settings (h : w.settings = .ok base) : Unreported w o ↔
    levels.lookup (Text.upperCase base.logLevel) = none ∨
      ∃ settings, dialectSettings o base = .ok settings ∧ Escapes w o settings := by
  obtain ⟨file, hfile, hfits⟩ := settings_ok_iff.mp ⟨base, h⟩
  constructor
  · intro hunreported
    cases hunreported with
    | file herror => cases hfile.symm.trans herror
    | unsuited hfile' hname hunfit =>
        obtain rfl := Except.ok.inj (hfile.symm.trans hfile')
        exact absurd (hfits _ hname) hunfit
    | level hbase hlevel =>
        obtain rfl := Except.ok.inj (h.symm.trans hbase)
        exact .inl hlevel
    | escapes hbase hsettings hescapes =>
        obtain rfl := Except.ok.inj (h.symm.trans hbase)
        exact .inr ⟨_, hsettings, hescapes⟩
  · rintro (hlevel | ⟨settings, hsettings, hescapes⟩)
    · exact .level h hlevel
    · exact .escapes h hsettings hescapes

theorem execute_error_iff {arguments : List String} (harguments : Arguments.parse arguments = .ok o) :
    (∃ a, execute w arguments = .error a) ↔ Unreported w o := by
  cases hbase : w.settings with
  | error a => simp [execute, harguments, hbase, unreported_of_settings_error hbase]
  | ok base =>
      rw [unreported_of_settings hbase]
      cases hlevel : levels.lookup (Text.upperCase base.logLevel) with
      | none => simp [execute, harguments, hbase, hlevel]
      | some level =>
          rw [execute_of_settings harguments hbase hlevel]
          cases hsettings : dialectSettings o base with
          | error e => simp [executeWith]
          | ok settings => simp [executeWith_error_iff]

/-- Once its arguments are read, the program is broken off exactly if a failure is not
reported.  Else it ends with code 0, 1 or 2, and any code but 0 comes with a line about an
error and nothing printed.  The errors of trees that are reported are those of some kind, and
there are no others. -/
theorem execute_ends_or_breaks_off {arguments : List String}
    (harguments : Arguments.parse arguments = .ok o) :
    ((∃ a, execute w arguments = .error a) ↔ Unreported w o) ∧
    (∀ outcome, execute w arguments = .ok outcome → Ended outcome) ∧
    ∀ base settings request tree e, w.settings = .ok base → dialectSettings o base = .ok settings →
      (Renderer.of settings none none).render request tree = .error e → e.kind?.isSome := by
  refine ⟨execute_error_iff harguments, fun outcome h => ?_,
    fun base settings request tree e => kind_of_render⟩
  unfold execute at h
  simp only [harguments] at h
  split at h
  · cases h
  · split at h
    · cases h
    · exact executeWith_ended h

/-- A variable with an unknown log level. -/
def loudVariable : String × String := ("SQLAQT_LOG_LEVEL", "loud")

theorem unreported_loud (h : w.environment = [loudVariable]) : Unreported w o := by
  have htext : variableText? [loudVariable] "log_level" = some "loud" := by decide +kernel
  exact unreported_of_level (h ▸ htext) (by decide +kernel)

theorem default_level : levels.lookup (Text.upperCase "INFO") = some 20 := by
  decide +kernel

/-- A file that is not there is reported, but not if the log level is unknown as well. -/
theorem execute_ends_or_breaks_off_loud :
    (∃ outcome, run ["query.json"] [] (fun _ => none) = .ok outcome ∧ Ended outcome) ∧
    ∃ a, run ["query.json"] [loudVariable] (fun _ => none) = .error a := by
  have harguments : Arguments.parse ["query.json"] = .ok { input := some "query.json" } := rfl
  have habsent : Unusable (@jsonSurroundings Empty [] fun _ => none) { input := some "query.json" } :=
    .absent rfl
  have hbase : (@jsonSurroundings Empty [] fun _ => none).settings = .ok {} := rfl
  obtain ⟨stderr, hstop⟩ := @executeWith_unusable _ _ _ {} 20 habsent
  have hrun : run ["query.json"] [] (fun _ => none) = .ok ⟨.code 2, "", stderr⟩ :=
    (execute_of_settings harguments hbase default_level).trans hstop
  exact ⟨⟨_, hrun, (execute_ends_or_breaks_off harguments).2.1 _ hrun⟩,
    (execute_ends_or_breaks_off harguments).1.mpr (unreported_loud rfl)⟩

/-- Surroundings with a document of two lines, which names an accented letter, and an output
that takes ASCII only.  An exception is the character that is not taken. -/
def accented : Surroundings Char :=
  { jsonSurroundings [] fun _ => some "- -name\n- é" with
    read := fun _ => .ok (.tree (.list [.str "-name", .str "é"]))
    print := fun text => text.toList.find? fun c => 128 ≤ c.toNat }

theorem dialectSettings_default : dialectSettings {} {} = .ok (Dialect.ansi.apply {} true) := by
  rfl

/-- Without options and with default settings, nothing that escapes is reported. -/
theorem unreported_of_default (hbase : w.settings = .ok {})
    (h : Escapes w {} (Dialect.ansi.apply {} true)) : Unreported w {} :=
  .escapes hbase dialectSettings_default h

theorem unreported_accented : Unreported accented {} := by
  have hrender : accented.render (Dialect.ansi.apply {} true) .tree
      (.tree (.list [.str "-name", .str "é"])) =
        .ok (.of .tree (.list [.str "-name", .str "é"]) ⟨"\"é\"", []⟩) := rfl
  have hprint : accented.print ("\"é\"" ++ "\n" ++ Json.write (.list []) ++ "\n") = some 'é' := by
    decide +kernel
  exact unreported_of_default rfl (.print rfl hrender hprint)

/-- A document that is an overlong number is not reported. -/
theorem unreported_number {n : Nat} (h : 10 ^ Json.digitLimit ≤ n) :
    Unreported (@jsonSurroundings ε [] fun _ => some (Json.write (.int n))) {} := by
  have hdocument : (@jsonSurroundings ε [] fun _ => some (Json.write (.int n))).document {} =
      .error (.overlong (Json.digitCount n)) :=
    (document_json rfl).trans (readDocument_write_int h)
  exact unreported_of_default rfl (.read hdocument nofun)

theorem unreported_undecoded :
    Unreported { accented with content := fun _ => .error (.raised 'é') } {} :=
  unreported_of_default rfl (.read rfl nofun)

/-- What is not reported: an unknown log level, a text that is no truth value, a settings file
and a document that raise an exception, a document that is an overlong number, and a letter
that the output does not take. -/
theorem failures_not_reported :
    (∃ a, run [] [loudVariable] (fun _ => some "") = .error a) ∧
    (∃ a, run [] [("SQLAQT_QUOTE_IDENTIFIERS", "maybe")] (fun _ => some "") = .error a) ∧
    (∃ a, run [] [] (fun _ => some (Json.write (.int (10 ^ Json.digitLimit : Nat)))) = .error a) ∧
    (∃ a, execute { accented with settingsFile := .error 'é' } [] = .error a) ∧
    (∃ a, execute { accented with content := fun _ => .error (.raised 'é') } [] = .error a) ∧
    ∃ a, execute accented [] = .error a := by
  have harguments : Arguments.parse [] = .ok {} := rfl
  have hmaybe : variableText? [("SQLAQT_QUOTE_IDENTIFIERS", "maybe")] "quote_identifiers" =
      some "maybe" := by
    decide +kernel
  have hunsuited : ¬ Suits "quote_identifiers" "maybe" := by
    rw [Settings.suits_quoteIdentifiers_iff]
    decide
  exact ⟨(execute_error_iff harguments).mpr (unreported_loud rfl),
    (execute_error_iff harguments).mpr (unreported_of_unsuited rfl (by decide) hmaybe hunsuited),
    (execute_error_iff harguments).mpr (unreported_number (Nat.le_refl _)),
    (execute_error_iff harguments).mpr (.file rfl),
    (execute_error_iff harguments).mpr unreported_undecoded,
    (execute_error_iff harguments).mpr unreported_accented⟩

end QueryTree.CommandLine
