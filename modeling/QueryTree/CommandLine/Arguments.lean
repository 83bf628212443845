import QueryTree.Text.Digit
import QueryTree.Value.Printer

/-!
# Command line arguments

The arguments name an input and some options.  `Arguments.parse` reads them, or
answers with the help text or with what is wrong.

*Options.*  A long option may be shortened to any beginning that fits no other.
Its value follows an equals sign or is the next argument.  Later options win.
An argument is an option if it begins with a hyphen, unless it is a lone hyphen,
a negative number, or holds a blank and fits no option.  After an argument `--`
there are no options.

*Short help.*  The help option has a short name, and its letter may be repeated.
An equals sign right after the name is passed over.  Anything else that follows
is refused.

*Input.*  The input is the first argument that is no option.  Arguments left
over are errors, and so are options that are not known.  They are reported
together at the end, whereas any other error and the help option stop the
reading at once.
-/

namespace QueryTree.Arguments

/-! ## Options -/

/-- The known options. -/
inductive Flag where
  | help
  | dialect
  | statement
  | noQuote
  | validate
deriving DecidableEq, Repr

namespace Flag

/-- The options in order. -/
def all : List Flag := [help, dialect, statement, noQuote, validate]

/-- The long name of an option. -/
def long : Flag → String
  | help => "--help"
  | dialect => "--dialect"
  | statement => "--statement"
  | noQuote => "--no-quote"
  | validate => "--validate"

/-- The names of an option, as errors give them. -/
def title : Flag → String
  | help => "-h/--help"
  | flag => flag.long

/-- Whether an option takes a value. -/
def takesValue : Flag → Bool
  | dialect => true
  | statement => true
  | _ => false

/-- The option of a long name written in full. -/
def ofName? (name : String) : Option Flag := all.find? fun flag => flag.long = name

end Flag

/-- What an argument is. -/
inductive Item where
  /-- Not an option. -/
  | plain (text : String)
  /-- The end of the options. -/
  | separator
  /-- A known option, perhaps with a value. -/
  | long (flag : Flag) (value : Option String)
  /-- The short help option, perhaps with a text after it. -/
  | shortHelp (following : Option (List Char))
  /-- An option that is not known. -/
  | unknown (text : String)

/-- The text before the first equals sign and the text after it, if there is one. -/
def splitEquals (text : String) : String × Option String :=
  match text.toList.dropWhile (· != '=') with
  | [] => (text, none)
  | _ :: value => (String.ofList (text.toList.takeWhile (· != '=')), some (String.ofList value))

/-- Whether a text is a negative number. -/
def isNegativeNumber (text : String) : Bool :=
  let cs := match text.toList.reverse with
    | '\n' :: rest => rest.reverse
    | _ => text.toList
  match cs with
  | '-' :: rest =>
    match rest.dropWhile Text.isDecimalDigit with
    | [] => !rest.isEmpty
    | '.' :: decimals => !decimals.isEmpty && decimals.all Text.isDecimalDigit
    | _ => false
  | _ => false

/-- The options that begin with a text. -/
def startingWith (beginning : String) : List Flag :=
  Flag.all.filter fun flag => beginning.toList.isPrefixOf flag.long.toList

/-- An argument that begins with a hyphen and is no option. -/
def notOption (text : String) : Item :=
  if isNegativeNumber text || text.toList.contains ' ' then .plain text else .unknown text

/-- What an argument with two hyphens is, or the options it could be. -/
def classifyLong (text : String) : Except (List Flag) Item :=
  let (name, value) := splitEquals text
  match Flag.ofName? name with
  | some flag => .ok (.long flag value)
  | none =>
    match startingWith name with
    | [] => .ok (notOption text)
    | [flag] => .ok (.long flag value)
    | flags => .error flags

/-- What an argument before the end of the options is, or the options it could
be. -/
def classify (text : String) : Except (List Flag) Item :=
  match text.toList with
  | '-' :: '-' :: _ => classifyLong text
  | ['-', 'h'] => .ok (.shortHelp none)
  | '-' :: 'h' :: '=' :: rest => .ok (.shortHelp (some rest))
  | '-' :: 'h' :: rest => .ok (.shortHelp (some rest))
  | '-' :: _ :: _ => .ok (notOption text)
  | _ => .ok (.plain text)

/-- The wording for an argument that could be several options. -/
def ambiguous (text : String) (flags : List Flag) : String :=
  "ambiguous option: " ++ text ++ " could match " ++ ", ".intercalate (flags.map (·.long))

/-- What each argument is, or the wording of an error. -/
def classifyAll : List String → Except String (List Item)
  | [] => .ok []
  | "--" :: rest => .ok (.separator :: rest.map .plain)
  | text :: rest =>
    match classify text with
    | .error flags => .error (ambiguous text flags)
    | .ok item => (classifyAll rest).map (item :: ·)

/-! ## Results -/

/-- The statements that can be asked for. -/
def statements : List String := ["delete", "insert", "select", "update", "where"]

/-- What the arguments ask for. -/
structure Options where
  /-- The name of the input. -/
  input : Option String := none
  /-- The name of the dialect. -/
  dialect : String := "ansi"
  /-- The statement asked for. -/
  statement : Option String := none
  /-- Identifiers are not quoted. -/
  noQuote : Bool := false
  /-- The SQL is checked. -/
  validate : Bool := false
deriving DecidableEq, Repr

/-- Why arguments do not lead to options. -/
inductive Stop where
  /-- Help is asked for. -/
  | help
  /-- An error with its wording. -/
  | failure (message : String)
deriving DecidableEq, Repr

/-- An error about an option. -/
def about (flag : Flag) (message : String) : Stop :=
  .failure ("argument " ++ flag.title ++ ": " ++ message)

/-- A value that an option does not take. -/
def ignored (flag : Flag) (value : String) : Stop :=
  about flag ("ignored explicit argument " ++ Text.quoted value)

/-- Options with an option that takes no value. -/
def withFlag (o : Options) : Flag → Except Stop Options
  | .noQuote => .ok { o with noQuote := true }
  | .validate => .ok { o with validate := true }
  | _ => .error .help

/-- Options with an option and its value. -/
def withValue (o : Options) (flag : Flag) (value : String) : Except Stop Options :=
  match flag with
  | .dialect => .ok { o with dialect := value }
  | .statement =>
    if value ∈ statements then .ok { o with statement := some value }
    else .error (about .statement ("invalid choice: " ++ Text.quoted value ++ " (choose from "
      ++ ", ".intercalate (statements.map Text.quoted) ++ ")"))
  | flag => .error (ignored flag value)

/-- The short help option with a text after it.  Its letter may be repeated. -/
def helpWith (following : List Char) : Stop :=
  match following, following.dropWhile (· == 'h') with
  | _ :: _, [] => .help
  | _, refused => ignored .help (String.ofList refused)

/-! ## Reading -/

/-- Options so far, arguments left over, and whether the input is settled. -/
structure Progress where
  /-- The options so far. -/
  options : Options
  /-- The arguments left over, the last one first. -/
  extras : List String
  /-- Whether the input is settled. -/
  settled : Bool

/-- Progress with an argument that is no option.  The first one is the input. -/
def Progress.plain (p : Progress) (text : String) : Progress :=
  if p.settled then { p with extras := text :: p.extras }
  else { p with options := { p.options with input := some text }, settled := true }

/-- Progress past the end of the options.  It is left over unless the input is
still open or came just before. -/
def Progress.separator (p : Progress) (afterInput : Bool) : Progress :=
  if p.settled && !afterInput then { p with extras := "--" :: p.extras } else p

/-- Reads items.  `pending` is an option that waits for its value, and
`afterInput` tells that the item before was taken as the input. -/
def read (p : Progress) (pending : Option Flag) (afterInput : Bool) :
    List Item → Except Stop Progress
  | [] =>
    match pending with
    | some flag => .error (about flag "expected one argument")
    | none => .ok p
  | item :: rest =>
    match pending, item with
    | some flag, .plain text =>
      match withValue p.options flag text with
      | .ok options => read { p with options } none false rest
      | .error stop => .error stop
    | some flag, _ => .error (about flag "expected one argument")
    | none, .plain text => read (p.plain text) none (!p.settled) rest
    | none, .separator => read (p.separator afterInput) none false rest
    | none, .unknown text => read { p with extras := text :: p.extras } none false rest
    | none, .shortHelp none => .error .help
    | none, .shortHelp (some following) => .error (helpWith following)
    | none, .long flag (some value) =>
      match withValue p.options flag value with
      | .ok options => read { p with options } none false rest
      | .error stop => .error stop
    | none, .long flag none =>
      if flag.takesValue then read p (some flag) false rest
      else match withFlag p.options flag with
        | .ok options => read { p with options } none false rest
        | .error stop => .error stop

/-- The options of a command line. -/
def parse (arguments : List String) : Except Stop Options :=
  match classifyAll arguments with
  | .error message => .error (.failure message)
  | .ok items =>
    match read ⟨{}, [], false⟩ none false items with
    | .error stop => .error stop
    | .ok p =>
      match p.extras with
      | [] => .ok p.options
      | extras => .error (.failure ("unrecognized arguments: " ++ " ".intercalate extras.reverse))

/-! ## Texts -/

/-- The usage of the program. -/
def usage : String :=
  "usage: sqlaqt [-h] [--dialect DIALECT]\n"
    ++ "              [--statement \x7bdelete,insert,select,update,where\x7d] [--no-quote]\n"
    ++ "              [--validate]\n"
    ++ "              [input]\n"

/-- The help text. -/
def help : String :=
  usage ++ "\n"
    ++ "Render an abstract query tree (YAML or JSON) to SQL and bind values\n\n"
    ++ "positional arguments:\n"
    ++ "  input                 AST file (default: stdin)\n\n"
    ++ "options:\n"
    ++ "  -h, --help            show this help message and exit\n"
    ++ "  --dialect DIALECT     Quoting preset: ansi, mysql, postgres, sqlite, tsql\n"
    ++ "  --statement \x7bdelete,insert,select,update,where\x7d\n"
    ++ "                        Tag for a top-level mapping without a 'type' key\n"
    ++ "  --no-quote            Emit identifiers unquoted\n"
    ++ "  --validate            Check the rendered SQL with sqlglot\n"

end QueryTree.Arguments
