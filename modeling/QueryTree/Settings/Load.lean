import QueryTree.Checked
import QueryTree.Json.Limit
import QueryTree.Settings
import QueryTree.Settings.WholeNumber
import QueryTree.Text.LetterCase

/-!
# Loading settings

Settings are read from *arguments*, which are values, from *variables* of the
environment, which are texts, and from a *file*, whose fields are given as values.
An argument has the name of its field, and a variable has that name after
`variableStem`.  Case does not matter in either, and of several spellings the last
one counts.  Arguments win over variables, and variables over the file.  Where both
are maps, their entries are merged.

The quotes, the priorities and the operators are written as JSON in variables.
A variable that is not JSON stops the loading, even if an argument replaces it,
and so does one with an overlong whole number.  A JSON null leaves the field as
it is.

Each field has a check.  A truth value may be written as a number or a text, and
a whole number as a text (`WholeNumber.read`).  Bytes stand for the text they
encode.  One quote stands for two.  The priorities must rank both connectives.
The errors of all fields are collected in the order of the fields.
-/

namespace QueryTree.Settings

open Checked (valid error text)

/-! ## Truth values and whole numbers -/

/-- The texts that mean true. -/
def trueTexts : List String := ["1", "t", "y", "on", "yes", "true"]

/-- The texts that mean false. -/
def falseTexts : List String := ["0", "f", "n", "no", "off", "false"]

/-- Whether a whole number fits into 64 bits with a sign. -/
def fits (i : Int) : Bool := -Int.pow 2 63 ≤ i && i < Int.pow 2 63

/-- Whether a binary64 number with this whole value is taken as a whole number. -/
def fitsAsFloat (i : Int) : Bool := i.natAbs < Nat.pow 2 63

/-- The truth value of a whole number. -/
def booleanOfInt (path : List String) (i : Int) : Checked Bool :=
  if i = 0 then valid false else if i = 1 then valid true else error path .unclearBoolean

/-- The truth value of a text.  ASCII case does not matter. -/
def booleanOfText (path : List String) (s : String) : Checked Bool :=
  let s := String.ofList (s.toList.map Char.toLower)
  if s ∈ trueTexts then valid true else if s ∈ falseTexts then valid false
  else error path .unclearBoolean

/-- A truth value. -/
def boolean (path : List String) : Value → Checked Bool
  | .bool b => valid b
  | .int i => if fits i then booleanOfInt path i else error path .notBoolean
  | .float x =>
    match x.toInt? with
    | some i => if fitsAsFloat i then booleanOfInt path i else error path .notBoolean
    | none => error path .notBoolean
  | .str s => booleanOfText path s
  | .bytes bs =>
    match Checked.decoded? bs with
    | some s => booleanOfText path s
    | none => error path .unclearBoolean
  | _ => error path .notBoolean

/-- The whole number of a text. -/
def integerOfText (path : List String) (s : String) : Checked Int :=
  match WholeNumber.read s with
  | .number i => valid i
  | .tooLong => error path .tooLarge
  | .malformed => error path .unclearInteger

/-- A whole number. -/
def integer (path : List String) : Value → Checked Int
  | .int i => valid i
  | .bool b => valid (if b then 1 else 0)
  | .float x =>
    match x with
    | .finite .. =>
      match x.toInt? with
      | some i => if fitsAsFloat i then valid i else error path .tooLarge
      | none => error path .fractional
    | _ => error path .notFinite
  | .str s => integerOfText path s
  | .bytes bs =>
    match Checked.decoded? bs with
    | some s => integerOfText path s
    | none => error path .unclearInteger
  | _ => error path .notInteger

/-! ## Quotes and maps -/

/-- The items of a pair, where one text or a single item stands for two. -/
def pairItems? : Value → Option (List Value)
  | .str s => some [.str s, .str s]
  | v => v.sequence?.map fun items => match items with
    | [v] => [v, v]
    | items => items

/-- A pair of quotes. -/
def quotePair (path : List String) (v : Value) : Checked Quotes :=
  match pairItems? v with
  | none => error path .notPair
  | some [opening, closing] =>
    Quotes.mk <$> text (path ++ ["0"]) opening <*> text (path ++ ["1"]) closing
  | some [] =>
    Quotes.mk <$> error (path ++ ["0"]) .missing <*> error (path ++ ["1"]) .missing
  | some items => error path (.tooManyItems items.length)

/-- A key as paths show it.  A truth value is shown as a number. -/
def keyName : Value → String
  | .bool b => if b then "1" else "0"
  | v => v.plain

/-- An entry of a map with a text key and a checked value. -/
def entry {α : Type} (check : List String → Value → Checked α) (path : List String)
    (e : Value × Value) : Checked (String × α) :=
  let place := path ++ [keyName e.1]
  Prod.mk <$> text (place ++ ["[key]"]) e.1 <*> check place e.2

/-- Entries with one more.  A key that is there keeps its place. -/
def withEntry {α : Type} (entries : List (String × α)) (e : String × α) : List (String × α) :=
  if (entries.lookup e.1).isSome then entries.map fun old => if old.1 = e.1 then e else old
  else entries ++ [e]

/-- A map with text keys and checked values.  Keys with the same text are one. -/
def textMap {α : Type} (check : List String → Value → Checked α) (path : List String) :
    Value → Checked (List (String × α))
  | .map entries => (·.foldl withEntry []) <$> Checked.each (entry check path) entries
  | _ => error path .notMap

/-- The connectives a priority table does not rank. -/
def unrankedNames (priorities : List (String × Int)) : List String :=
  ["and", "or"].filter fun name => (priorities.lookup name).isNone

/-- A map of priorities that ranks both connectives. -/
def priorityMap (path : List String) (v : Value) : Checked (List (String × Int)) :=
  match textMap integer path v with
  | .valid priorities =>
    match unrankedNames priorities with
    | [] => valid priorities
    | names => error path (.unranked names)
  | .invalid errors => .invalid errors

/-! ## Fields -/

/-- The names of the fields, in order. -/
def fieldNames : List String :=
  ["log_level", "quote_identifiers", "quote_chars", "name_separator", "list_separator",
    "placeholder", "priorities", "binop_mapping"]

/-- The fields that are JSON in variables. -/
def structuredFields : List String := ["quote_chars", "priorities", "binop_mapping"]

/-- A field, or its default if it is not there. -/
def field {α : Type} (fields : Fields) (key : String) (default : α)
    (check : List String → Value → Checked α) : Checked α :=
  match fields.get? key with
  | some v => check [key] v
  | none => valid default

/-- Settings from fields.  Other fields are ignored. -/
def ofFields (fields : Fields) : Checked Settings :=
  let base : Settings := {}
  Settings.mk <$> field fields "log_level" base.logLevel text
    <*> field fields "quote_identifiers" base.quoteIdentifiers boolean
    <*> field fields "quote_chars" base.quotes quotePair
    <*> field fields "name_separator" base.nameSeparator text
    <*> field fields "list_separator" base.listSeparator text
    <*> field fields "placeholder" base.placeholder text
    <*> field fields "priorities" base.priorities priorityMap
    <*> field fields "binop_mapping" base.operators (textMap text)

/-- The value of every field, in order.  They are fields to load the same
settings from. -/
def toFields (s : Settings) : Fields :=
  [(.str "log_level", .str s.logLevel), (.str "quote_identifiers", .bool s.quoteIdentifiers),
    (.str "quote_chars", .tuple [.str s.quotes.opening, .str s.quotes.closing]),
    (.str "name_separator", .str s.nameSeparator), (.str "list_separator", .str s.listSeparator),
    (.str "placeholder", .str s.placeholder),
    (.str "priorities", .map (s.priorities.map fun e => (.str e.1, .int e.2))),
    (.str "binop_mapping", .map (s.operators.map fun e => (.str e.1, .str e.2)))]

/-! ## Variables -/

/-- Why settings are not loaded. -/
inductive LoadError where
  /-- A variable is not JSON, or holds an overlong number. -/
  | unreadable (field : String)
  /-- Some fields do not pass their check. -/
  | invalid (errors : List FieldError)

/-- The wording of an error that is not one of fields. -/
def LoadError.message : LoadError → String
  | unreadable field =>
    "error parsing value for field \"" ++ field ++ "\" from source \"EnvSettingsSource\""
  | invalid _ => ""

/-- What the names of all variables begin with, in lower case. -/
def variableStem : String := "sqlaqt_"

/-- The text of the variable of a field, the last one of several spellings. -/
def variableText? (environment : List (String × String)) (name : String) : Option String :=
  (environment.reverse.find? fun v => Text.lowerCase v.1 = variableStem ++ name).map (·.2)

/-- The value of a variable.  JSON null is no value. -/
def variableValue (name text : String) : Except LoadError (Option Value) :=
  if name ∈ structuredFields then
    match Json.read text with
    | none => .error (.unreadable name)
    | some .null => .ok none
    | some v => if (Json.overlong? text v).isSome then .error (.unreadable name) else .ok (some v)
  else .ok (some (.str text))

/-- The fields that variables give, among those named. -/
def variableFields (environment : List (String × String)) : List String → Except LoadError Fields
  | [] => .ok []
  | name :: rest =>
    match variableText? environment name with
    | none => variableFields environment rest
    | some text =>
      match variableValue name text with
      | .error e => .error e
      | .ok none => variableFields environment rest
      | .ok (some v) => (variableFields environment rest).map ((.str name, v) :: ·)

/-- One value on top of another.  Maps are merged. -/
def overlay : Value → Value → Value
  | .map lower, .map upper => .map (upper.foldl (fun done e => Fields.enter done e.1 e.2) lower)
  | _, v => v

/-- The argument of a field, the last one of several spellings. -/
def argument? (arguments : Fields) (name : String) : Option Value :=
  (arguments.reverse.find? fun e => match e.1 with
    | .str key => Text.lowerCase key = name
    | _ => false).map (·.2)

/-- The value of a field, if it is there, on top of another. -/
def overlay? : Option Value → Option Value → Option Value
  | some lower, some upper => some (overlay lower upper)
  | some v, none => some v
  | none, v? => v?

/-- Fields with arguments on top. -/
def mergeFields (lower arguments : Fields) : Fields :=
  fieldNames.filterMap fun name =>
    (overlay? (lower.get? name) (argument? arguments name)).map (.str name, ·)

/-- Settings from the fields of a file, variables and arguments. -/
def loadFrom (file : Fields) (environment : List (String × String)) (arguments : Fields) :
    Except LoadError Settings :=
  match variableFields environment fieldNames with
  | .error e => .error e
  | .ok given =>
    match ofFields (mergeFields file (mergeFields given arguments)) with
    | .valid s => .ok s
    | .invalid errors => .error (.invalid errors)

/-- Settings from variables and arguments, without a file. -/
def load (environment : List (String × String)) (arguments : Fields) : Except LoadError Settings :=
  loadFrom [] environment arguments

/-! ## Assignment -/

/-- Settings after an assignment to a field.  They are frozen, so it is refused. -/
def assign (_ : Settings) (name : String) (_ : Value) : Checked Settings :=
  error [name] .frozen

end QueryTree.Settings
