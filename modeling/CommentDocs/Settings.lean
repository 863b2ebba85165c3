import CommentDocs.Batch
import CommentDocs.Document.Format
import CommentDocs.Toml
import CommentDocs.Workspace

/-!
# Settings

What a run looks for, where, and what it writes.  Settings come from a file next to the sources,
each of them optional; a file with an unknown key or a value of the wrong kind is refused.
-/

set_option autoImplicit false

namespace CommentDocs

/-- The settings of a run. -/
structure Settings where
  /-- The marker of documentation lines. -/
  marker : Text := Batch.defaultMarker
  /-- The extensions of source files. -/
  extensions : List Text := ["dart", "java", "go", "c", "cpp", "cc", "js", "ts", "es"]
  /-- The names of directories that are passed over. -/
  exclude : List Text := ["target", "node_modules"]
  format : Format := .markdown
  /-- The file to write; a dash stands for the standard output. -/
  output : Text := "api.md"
  /-- Whether a rejected batch ends the run. -/
  strict : Bool := false
  deriving DecidableEq, Repr

/-- Why there are no settings. -/
inductive SettingsError where
  | unreadable (e : FileError)
  | malformed
  | emptyMarker
  | noExtensions
  deriving DecidableEq, Repr

namespace SettingsError

/-- The wording of an error, and of what lies behind it. -/
def messages : SettingsError → List String
  | .unreadable e => ["failed to read config file: " ++ e.message, e.message]
  | .malformed =>
    ["failed to parse config: not a table of settings", "not a table of settings"]
  | .emptyMarker => ["comment prefix must not be empty"]
  | .noExtensions => ["at least one source extension is required"]

end SettingsError

namespace Settings

/-- The name of the file that settings are looked for in. -/
def fileName : Text := "dsdoc.toml"

/-- Settings that a run can go by: the marker shows, and there are source files. -/
def validate (s : Settings) : Except SettingsError Settings :=
  if (Text.trim s.marker).isEmpty then .error .emptyMarker
  else if s.extensions.isEmpty then .error .noExtensions
  else .ok s

/-- Whether the path has the extension of a source file. -/
def accepts (s : Settings) (path : Text) : Bool :=
  match Path.extension? path with
  | some extension => s.extensions.contains extension
  | none => false

/-- Whether directories of the given name are passed over. -/
def excludes (s : Settings) (name : Text) : Bool := s.exclude.contains name

/-! ## Reading -/

/-- The format that settings call by the given name. -/
def formatNamed? (name : Text) : Option Format :=
  if name = "txt".toList then none else Format.ofName? name

/-- Whether the value is an array or a table without content. -/
def isVoid : Toml.Value → Bool
  | .array items => items.isEmpty
  | .table _ entries => entries.isEmpty
  | _ => false

/-- A format, by name or as a table whose only key is the name, with a value that is void. -/
def formatOf? : Toml.Value → Option Format
  | .string name => formatNamed? name
  | .table _ [(name, v)] => if isVoid v then formatNamed? name else none
  | _ => none

/-- A string. -/
def textOf? : Toml.Value → Option Text
  | .string t => some t
  | _ => none

/-- A boolean. -/
def flagOf? : Toml.Value → Option Bool
  | .boolean b => some b
  | _ => none

/-- An array of strings. -/
def textsOf? : Toml.Value → Option (List Text)
  | .array items => items.mapM textOf?
  | _ => none

/-- The settings with one of them given. -/
def assign? (s : Settings) (key : Text) (v : Toml.Value) : Option Settings :=
  if key = "prefix".toList then (textOf? v).map fun t => { s with marker := t }
  else if key = "extensions".toList then (textsOf? v).map fun ts => { s with extensions := ts }
  else if key = "exclude".toList then (textsOf? v).map fun ts => { s with exclude := ts }
  else if key = "format".toList then (formatOf? v).map fun f => { s with format := f }
  else if key = "output".toList then (textOf? v).map fun t => { s with output := t }
  else if key = "strict".toList then (flagOf? v).map fun b => { s with strict := b }
  else none

/-- The settings with those of a list given. -/
def assignAll? (s : Settings) : Toml.Entries → Option Settings
  | [] => some s
  | (key, v) :: entries =>
    match s.assign? key v with
    | some s' => s'.assignAll? entries
    | none => none

/-- The settings that a text gives, the others being as usual. -/
def parse (text : Text) : Except SettingsError Settings :=
  match Toml.parse text with
  | none => .error .malformed
  | some entries =>
    match assignAll? {} entries with
    | none => .error .malformed
    | some s => s.validate

/-- The settings in a file. -/
def load (w : Workspace) (path : Text) : Except SettingsError Settings :=
  match w.readText path with
  | .error e => .error (.unreadable e)
  | .ok text => parse text

/-- Where settings are looked for when the sources are at `root`: in that directory, or in the one
that a single file is in. -/
def candidate (w : Workspace) (root : Text) : Text :=
  if w.isDirectoryAt root then Path.join root fileName
  else Path.join ((Path.parent? root).getD ".") fileName

/-- The settings of the file that was asked for, or of the one next to the sources, or the usual
ones. -/
def discover (w : Workspace) (explicit : Option Text) (root : Text) :
    Except SettingsError Settings :=
  match explicit with
  | some path => load w path
  | none => if w.isFileAt (candidate w root) then load w (candidate w root) else .ok {}

end Settings

end CommentDocs
