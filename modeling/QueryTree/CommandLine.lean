import QueryTree.CommandLine.Arguments
import QueryTree.Dialect.Registry
import QueryTree.Json.Limit
import QueryTree.Json.Writer
import QueryTree.Renderer
import QueryTree.Settings.Load

/-!
# The command line

The program reads a tree from a document and prints its SQL on one line and the
bound literals as a JSON array on the next.

*Steps.*  Arguments are read.  Settings are loaded from a file and from variables.
The log level is looked up.  The dialect is looked up.  The document is read.  The
tree is rendered and printed, and the SQL is checked if this is asked for.

*Failures.*  A dialect that is unknown and a document that cannot be read end the
program with code 2, and a tree that cannot be rendered with code 1.  All three
print a line on the error stream and nothing else.  Whatever else fails is no
outcome of the program, but breaks it off (`Abort`).

*Surroundings.*  The reader of documents, the checker of SQL, the output and the
interpreter belong to the surroundings of the program.  They are given as functions
(`Surroundings`), and each of them may raise an exception that the program does not
expect.

`CommandLine.execute` is the whole program, and `CommandLine.run` is the program in
surroundings where documents are JSON and nothing is raised.
-/

namespace QueryTree.CommandLine

/-! ## Log levels -/

/-- The numbers of the log levels. -/
def levels : List (String × Nat) :=
  [("CRITICAL", 50), ("FATAL", 50), ("ERROR", 40), ("WARN", 30), ("WARNING", 30), ("INFO", 20),
    ("DEBUG", 10), ("NOTSET", 0)]

/-- The number of a message about a failure. -/
def errorLevel : Nat := 40

/-- The number of a message about progress. -/
def debugLevel : Nat := 10

/-- A line of the log. -/
def logLine (level logger message : String) : String :=
  level ++ ":" ++ logger ++ ":" ++ message ++ "\n"

/-! ## Documents -/

/-- Where the tree is read from. -/
inductive Source where
  /-- The standard input. -/
  | standardInput
  /-- A file. -/
  | file (name : String)
deriving DecidableEq, Repr

/-- The source that options name.  A lone hyphen is the standard input. -/
def source (o : Arguments.Options) : Source :=
  match o.input with
  | none => .standardInput
  | some name => if name = "-" then .standardInput else .file name

/-- Why a document has no tree. -/
inductive DocumentError (ε : Type) where
  /-- It is not there, or it is malformed.  This is reported. -/
  | unreadable
  /-- It holds a whole number with too many digits. -/
  | overlong (digits : Nat)
  /-- Reading it raises an exception. -/
  | raised (e : ε)
deriving DecidableEq, Repr

/-- What the tree is rendered as. -/
def request : Option String → Renderer.Request
  | some "select" => .select
  | some "insert" => .insert
  | some "update" => .update
  | some "delete" => .delete
  | some "where" => .conditions
  | _ => .tree

/-- The settings with the quotes of the dialect that options name. -/
def dialectSettings (o : Arguments.Options) (base : Settings) : Except UnknownDialect Settings :=
  Registry.builtin.settingsFor o.dialect base (!o.noQuote)

/-! ## Surroundings -/

/-- A rendered tree, as it is printed. -/
structure Printout where
  /-- The SQL. -/
  sql : String
  /-- The literals as JSON. -/
  literals : String
  /-- What the log says about it. -/
  progress : String
deriving DecidableEq, Repr

/-- Why a tree is not printed. -/
inductive Refusal (ε : Type) where
  /-- It cannot be rendered.  This is reported. -/
  | reported (message : String)
  /-- Rendering it raises an exception. -/
  | raised (e : ε)
deriving DecidableEq, Repr

/-- What a document holds. -/
inductive Document (ε : Type) where
  /-- A tree. -/
  | tree (v : Value)
  /-- A tree with parts that are no values, such as dates, sets, halves of characters and
  lists that hold themselves.  What is printed for it is given. -/
  | foreign (render : Settings → Renderer.Request → Except (Refusal ε) Printout)

/-- What the program is given besides its arguments.  The exceptions that nothing in it
expects are `ε`. -/
structure Surroundings (ε : Type) where
  /-- The variables that are set. -/
  environment : List (String × String)
  /-- The fields that the settings file gives, none if there is no such file. -/
  settingsFile : Except ε Fields
  /-- The text of a document. -/
  content : Source → Except (DocumentError ε) String
  /-- The reader of documents. -/
  read : String → Except (DocumentError ε) (Document ε)
  /-- What the interpreter raises while a tree is rendered, as when calls are nested too
  deeply for it. -/
  interrupt : Settings → Renderer.Request → Value → Option ε
  /-- What is raised when literals are written as JSON, as for a key that has no text. -/
  encode : List Value → Option ε
  /-- What the output raises when it is given a text, as for a character that it cannot
  write. -/
  print : String → Option ε
  /-- What the checker finds in SQL, under its own name of the dialect. -/
  check : Option String → String → Except ε (Option String)

/-- The tree of a JSON document.  An empty document is null.  An escape of half a character
is malformed here, since no value holds it. -/
def readDocument {ε : Type} (text : String) : Except (DocumentError ε) (Document ε) :=
  if (Json.skipBlank text.toList).isEmpty then .ok (.tree .null)
  else match Json.read text with
    | none => .error .unreadable
    | some tree =>
      match Json.overlong? text tree with
      | some digits => .error (.overlong digits)
      | none => .ok (.tree tree)

/-- Surroundings without a settings file, in which documents are JSON and nothing is
raised. -/
def jsonSurroundings {ε : Type} (environment : List (String × String))
    (content : Source → Option String) : Surroundings ε where
  environment := environment
  settingsFile := .ok []
  content source := match content source with
    | some text => .ok text
    | none => .error .unreadable
  read := readDocument
  interrupt _ _ _ := none
  encode _ := none
  print _ := none
  check _ _ := .ok none

/-! ## Outcomes -/

/-- How the program ends. -/
inductive Ending where
  /-- With a code of its own. -/
  | code (n : Nat)
  /-- With a code from reading the arguments. -/
  | exit (n : Nat)
deriving DecidableEq, Repr

/-- The end of the program and what it prints. -/
structure Outcome where
  /-- How it ends. -/
  ending : Ending
  /-- What it prints. -/
  stdout : String
  /-- What it prints on the error stream. -/
  stderr : String
deriving DecidableEq, Repr

/-- Why the program is broken off. -/
inductive Abort (ε : Type) where
  /-- Settings cannot be loaded. -/
  | settings (e : Settings.LoadError)
  /-- There is no such log level. -/
  | unknownLevel (name : String)
  /-- The document holds a whole number with too many digits. -/
  | overlong (digits : Nat)
  /-- The surroundings raise an exception. -/
  | raised (e : ε)

/-- The wording of an unknown log level. -/
def unknownLevelMessage (name : String) : String := "Unknown level: " ++ Text.quoted name

/-- The wording of an overlong whole number. -/
def overlongMessage (digits : Nat) : String :=
  "Exceeds the limit (" ++ toString Json.digitLimit
    ++ " digits) for integer string conversion: value has " ++ toString digits
    ++ " digits; use sys.set_int_max_str_digits() to increase the limit"

/-- How the log names a tree. -/
def describe : Value → String
  | .node tag .. => tag
  | .map entries => ((Fields.get? entries "type").getD (.str "mapping")).plain
  | v =>
    match v.sequence? with
    | some (first :: _) => first.plain
    | _ => v.kind

/-- What the log says about a rendered tree. -/
def progressMessage (request : Renderer.Request) (tree : Value) (binds : List Value) : String :=
  let subject := if request = .conditions then "where clause" else describe tree
  "Rendered " ++ subject ++ " with " ++ toString binds.length ++ " bind value(s)"

/-- A result as it is printed. -/
def Printout.of (request : Renderer.Request) (tree : Value) (result : Renderer.Result) : Printout where
  sql := result.sql
  literals := Json.write (.list result.binds)
  progress := progressMessage request tree result.binds

/-- The lines that are printed. -/
def Printout.text (p : Printout) : String := p.sql ++ "\n" ++ p.literals ++ "\n"

/-- The outcome for a printed tree, with warnings about its SQL. -/
def success (level : Nat) (p : Printout) (warnings : List String) : Outcome where
  ending := .code 0
  stdout := p.text
  stderr := (if level ≤ debugLevel then logLine "DEBUG" "sqlaqt.renderer" p.progress else "")
    ++ String.join (warnings.map fun warning => "warning: " ++ warning ++ "\n")

/-- The outcome for a tree that cannot be rendered. -/
def failure (level : Nat) (message : String) : Outcome where
  ending := .code 1
  stdout := ""
  stderr := (if level ≤ errorLevel then
      logLine "ERROR" "sqlaqt.cli" ("Rendering failed: " ++ message) else "")
    ++ "error: " ++ message ++ "\n"

/-! ## Steps -/

namespace Surroundings

variable {ε : Type} (w : Surroundings ε)

/-- The settings of the program. -/
def settings : Except (Abort ε) Settings :=
  match w.settingsFile with
  | .error e => .error (.raised e)
  | .ok file => (Settings.loadFrom file w.environment []).mapError .settings

/-- The document that options name. -/
def document (o : Arguments.Options) : Except (DocumentError ε) (Document ε) :=
  (w.content (source o)).bind w.read

/-- What is printed for a document.  Settings that are loaded rank both connectives, so an
error always has a kind and is reported. -/
def render (settings : Settings) (request : Renderer.Request) :
    Document ε → Except (Refusal ε) Printout
  | .foreign render => render settings request
  | .tree tree =>
    match w.interrupt settings request tree with
    | some e => .error (.raised e)
    | none =>
      match (Renderer.of settings none none).render request tree with
      | .error e => .error (.reported e.message)
      | .ok result =>
        match w.encode result.binds with
        | some e => .error (.raised e)
        | none => .ok (.of request tree result)

/-- The warnings about SQL, if options ask for them. -/
def warnings (o : Arguments.Options) (sql : String) : Except ε (List String) :=
  if o.validate then Registry.builtin.warnings w.check o.dialect sql else .ok []

end Surroundings

section

variable {ε : Type} (w : Surroundings ε)

/-- The outcome for a rendered tree. -/
def finish (o : Arguments.Options) (level : Nat) (p : Printout) : Except (Abort ε) Outcome :=
  match w.print p.text with
  | some e => .error (.raised e)
  | none =>
    match w.warnings o p.sql with
    | .error e => .error (.raised e)
    | .ok warnings => .ok (success level p warnings)

/-- The outcome with the settings of a dialect, if it is known. -/
def executeWith (o : Arguments.Options) (level : Nat) :
    Except UnknownDialect Settings → Except (Abort ε) Outcome
  | .error e => .ok ⟨.code 2, "", "error: " ++ e.message ++ "\n"⟩
  | .ok settings =>
    match w.document o with
    | .error .unreadable => .ok ⟨.code 2, "", "error: cannot read AST:"⟩
    | .error (.overlong digits) => .error (.overlong digits)
    | .error (.raised e) => .error (.raised e)
    | .ok document =>
      match w.render settings (request o.statement) document with
      | .error (.reported message) => .ok (failure level message)
      | .error (.raised e) => .error (.raised e)
      | .ok p => finish w o level p

/-- The outcome of the program. -/
def execute (arguments : List String) : Except (Abort ε) Outcome :=
  match Arguments.parse arguments with
  | .error .help => .ok ⟨.exit 0, Arguments.help, ""⟩
  | .error (.failure message) =>
    .ok ⟨.exit 2, "", Arguments.usage ++ "sqlaqt: error: " ++ message ++ "\n"⟩
  | .ok o =>
    match w.settings with
    | .error a => .error a
    | .ok base =>
      let name := Text.upperCase base.logLevel
      match levels.lookup name with
      | none => .error (.unknownLevel name)
      | some level => executeWith w o level (dialectSettings o base)

end

/-- The outcome of the program for JSON documents. -/
def run (arguments : List String) (environment : List (String × String))
    (content : Source → Option String) : Except (Abort Empty) Outcome :=
  execute (jsonSurroundings environment content) arguments

end QueryTree.CommandLine
