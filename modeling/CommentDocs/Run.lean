import CommentDocs.Arguments
import CommentDocs.Run.Generation

/-!
# Runs

A run turns arguments and a workspace into an outcome: the exit code, what is written to the
standard output, what is reported, and the workspace afterwards.
-/

set_option autoImplicit false

namespace CommentDocs

/-- The name that the program goes by. -/
def programName : Text := "dsdoc"

/-- The version of the program. -/
def versionText : Text := "0.3.0"

/-- What a run leaves behind. -/
structure Outcome where
  exit : Nat
  stdout : Text := []
  events : List Event := []
  failure : Option Failure := none
  workspace : Workspace

/-- How the program is used. -/
def helpText : Text :=
  Text.unlines
    ["Generate DsLink documentation from DsDoc comments", [],
      "Usage: dsdoc [OPTIONS] [PATH]", [],
      "Options:",
      "  -t, --format <FORMAT>  Output format: md, text or json",
      "  -o, --output <OUTPUT>  Output file, - for stdout",
      "  -c, --config <CONFIG>  Configuration file (defaults to dsdoc.toml in PATH)",
      "      --prefix <PREFIX>  Comment prefix that marks documentation lines",
      "      --strict           Stop at the first rejected batch",
      "  -v, --verbose          More log output (repeatable)",
      "  -q, --quiet            Only log errors",
      "  -h, --help             Print help",
      "  -V, --version          Print version"]

namespace Arguments

/-- The settings with those of the arguments put over them. -/
def override (a : Arguments) (s : Settings) : Settings :=
  { s with
    format := a.format.getD s.format
    output := a.output.getD s.output
    marker := a.marker.getD s.marker
    strict := s.strict || a.strict }

/-- The root of the sources. -/
def root (a : Arguments) : Text := a.path.getD "."

/-- The failure of settings that cannot be used, with the reason given first, if any. -/
def settingsFailure (context : Option String) (e : SettingsError) : Failure :=
  match context, e.messages with
  | some reason, causes => ⟨reason, causes⟩
  | none, reason :: causes => ⟨reason, causes⟩
  | none, [] => ⟨"", []⟩

/-- The settings of a run. -/
def settingsIn (a : Arguments) (w : Workspace) : Except Failure Settings :=
  match Settings.discover w a.settings a.root with
  | .error e => .error (settingsFailure (some "Failed to load configuration") e)
  | .ok s =>
    match (a.override s).validate with
    | .error e => .error (settingsFailure none e)
    | .ok s' => .ok s'

/-- Whether the output is the standard output. -/
def isStdout (output : Text) : Bool := Path.components output == [['-']]

/-- The workspace with the directory of the output in it. -/
def makeRoom (w : Workspace) (output : Text) : Except Failure Workspace :=
  match Path.parent? output with
  | none => .ok w
  | some dir =>
    match w.createDirs dir with
    | .error e => .error ⟨"Failed to create '" ++ String.ofList dir ++ "'", [e.message]⟩
    | .ok w' => .ok w'

/-- The workspace with the output written, or the failure and the workspace that is left then. -/
def writeOutput (w : Workspace) (output content : Text) : Option Failure × Workspace :=
  match makeRoom w output with
  | .error f => (some f, w)
  | .ok w' =>
    match w'.write output (String.ofList content).toUTF8 with
    | .error e =>
      (some ⟨"Failed to write '" ++ String.ofList output ++ "'", [e.message]⟩, w')
    | .ok w'' => (none, w'')

/-- The outcome of a failure. -/
def failed (w : Workspace) (events : List Event) (f : Failure) : Outcome :=
  { exit := 1, events := events, failure := some f, workspace := w }

/-- Carry out what the arguments ask for, reporting everything. -/
def perform (a : Arguments) (w : Workspace) : Outcome :=
  match a.settingsIn w with
  | .error f => failed w [] f
  | .ok s =>
    match generate w s a.root with
    | ⟨events, .error e⟩ => failed w events e.failure
    | ⟨events, .ok (content, summary)⟩ =>
      if isStdout s.output then
        { exit := 0, stdout := content, events := events ++ [.generated summary], workspace := w }
      else
        match writeOutput w s.output content with
        | (some f, w') => failed w' events f
        | (none, w') =>
          { exit := 0
            events := events ++ [.wrote s.output, .generated summary]
            workspace := w' }

/-- Carry out what the arguments ask for, reporting what they want to hear. -/
def run (a : Arguments) (w : Workspace) : Outcome :=
  let outcome := a.perform w
  { outcome with
    events := outcome.events.filter fun e => e.level.isShown a.quiet a.verbose }

end Arguments

/-- The outcome of a command line in a workspace. -/
def runCommand (args : List Text) (w : Workspace) : Outcome :=
  match Arguments.read args with
  | .misuse => { exit := 2, workspace := w }
  | .version =>
    { exit := 0, stdout := programName ++ " " ++ versionText ++ ['\n'], workspace := w }
  | .help => { exit := 0, stdout := helpText, workspace := w }
  | .run a => a.run w

end CommentDocs
