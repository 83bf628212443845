import QueryTree.CommandLine

/-!
# The program

Reads the variables and the document that the command line needs, runs it, and
prints its outcome.  Nothing is decided here.
-/

namespace QueryTree.Program

/-- The variables that are set, by their names in capitals. -/
def environment : IO (List (String × String)) :=
  Settings.fieldNames.filterMapM fun field => do
    let name := Text.upperCase (Settings.variableStem ++ field)
    return (← IO.getEnv name).map fun text => (name, text)

/-- The text that a document encodes. -/
def decoded (bytes : ByteArray) : Except (CommandLine.DocumentError IO.Error) String :=
  match String.fromUTF8? bytes with
  | some text => .ok text
  | none => .error (.raised (.userError "the document is no text in UTF-8"))

/-- The text of a document. -/
def content : CommandLine.Source → IO (Except (CommandLine.DocumentError IO.Error) String)
  | .standardInput => do return decoded (← (← IO.getStdin).readBinToEnd)
  | .file name => do
    try return decoded (← IO.FS.readBinFile name)
    catch _ => return .error .unreadable

/-- The text of the document the arguments name.  If they are wrong, no document is needed. -/
def document (arguments : List String) :
    IO (Except (CommandLine.DocumentError IO.Error) String) :=
  match Arguments.parse arguments with
  | .ok o => content (CommandLine.source o)
  | .error _ => return .error .unreadable

/-- The surroundings of the program. -/
def surroundings (arguments : List String) : IO (CommandLine.Surroundings IO.Error) := do
  let text ← document arguments
  return { CommandLine.jsonSurroundings (← environment) (fun _ => none) with content := fun _ => text }

/-- The wording of what breaks the program off. -/
def abortMessage : CommandLine.Abort IO.Error → String
  | .settings (.invalid errors) =>
    "\n".intercalate (errors.map fun e =>
      ".".intercalate e.path ++ ": " ++ e.fault.message ++ " [type=" ++ e.fault.code ++ "]")
  | .settings e => e.message
  | .unknownLevel name => CommandLine.unknownLevelMessage name
  | .overlong digits => CommandLine.overlongMessage digits
  | .raised e => toString e

/-- The number of a code that the program ends with. -/
def endingCode : CommandLine.Ending → UInt32
  | .code n => n.toUInt32
  | .exit n => n.toUInt32

/-- Runs the program and prints its outcome. -/
def run (arguments : List String) : IO UInt32 := do
  match CommandLine.execute (← surroundings arguments) arguments with
  | .ok outcome =>
    IO.print outcome.stdout
    IO.eprint outcome.stderr
    return endingCode outcome.ending
  | .error e =>
    IO.eprintln (abortMessage e)
    return 1

end QueryTree.Program

/-- Renders the document named on the command line. -/
def main (arguments : List String) : IO UInt32 :=
  QueryTree.Program.run arguments
