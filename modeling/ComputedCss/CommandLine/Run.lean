import ComputedCss.CommandLine.Report
import ComputedCss.Json.Reader
import ComputedCss.Json.Settings

/-!
# Running a command

* `Readers`: what reads the words of a command and the text of its settings.
* `run` answers the words of a command, given the contents of files and the readers.
-/

namespace ComputedCss.CommandLine

/-- What a command leaves behind: its exit code, its output, and the lines of its error output. -/
structure Response where
  exitCode : Nat
  output : String
  errors : List String

/-- The lines of a text, each with its line break. -/
def joinLines (lines : List String) : String :=
  String.join (lines.map (· ++ "\n"))

/-- The name of the command. -/
def commandName : String := "kestrel"

/-- How the command is used. -/
def usage : String :=
  "Usage: " ++ commandName ++ " [OPTIONS] --property <PROPERTY> <VALUE>"

/-- The response to words that are not carried out. The help is the usage alone: what the command is
about, the list of its options and the examples are left out. -/
def Stop.response : Stop → Response
  | mistake => ⟨2, "", [usage]⟩
  | help => ⟨0, usage ++ "\n", []⟩
  | version => ⟨0, commandName ++ " 0.1.0\n", []⟩

/-- The response of a command that fails with a message. What caused the failure of a system call or
of a reader is not shown below the message. -/
def failure (shown : List String) (message : String) : Response :=
  ⟨1, "", shown ++ ["Error: " ++ message]⟩

/-- What reads the words of a command and the text of its settings. -/
structure Readers where
  options : List String → Except Stop Options
  config : String → Option (Config Float)

namespace Readers

/-- The readers of the program. -/
def standard : Readers where
  options := Options.read
  config text := (Json.parse? text).bind Config.ofJson?

/-- The settings for a command, from the contents of files. The error names the file, and not what is
wrong with it. -/
def loadConfig (readers : Readers) (options : Options) (readFile : String → Option String) :
    Except String (Config Float) :=
  match options.configPath with
  | none => .ok .standard
  | some path =>
    match readFile path with
    | none => .error ("failed to read config " ++ path)
    | some text =>
      match readers.config text with
      | some config => .ok config
      | none => .error ("invalid config " ++ path)

end Readers

/-- The text of a report. -/
def Report.text (report : Report) (printsJson : Bool) : String :=
  if printsJson then report.toJson.pretty ++ "\n" else joinLines report.lines

/-- The response of a command with known settings. Each notice is shown once. -/
def respond (options : Options) (config : Config Float) : Response :=
  let computed := (Report.compute options config).run
  let shown := (Log.empty.recordAll computed.notices).2.map Notice.line
  match computed.value with
  | .ok (some report) => ⟨0, report.text options.printsJson, shown⟩
  | .ok none =>
    failure shown ("no computed value for '" ++ (Property.ofName options.property).name ++ "'")
  | .error error => failure shown error.message

/-- The response to the words of a command, given the contents of files. -/
def run (words : List String) (readFile : String → Option String)
    (readers : Readers := .standard) : Response :=
  match readers.options words with
  | .error stop => stop.response
  | .ok options =>
    match readers.loadConfig options readFile with
    | .error message => failure [] message
    | .ok config => respond options config

end ComputedCss.CommandLine
