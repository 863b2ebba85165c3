import CommentDocs.Run.Event
import CommentDocs.Sources

/-!
# From source files to a document

The source files are read in order, their batches registered, the records linked and the tree
written out.  A rejected batch is reported and passed over, or ends the generation if the settings
are strict.  A file that is not text is reported and passed over in any case.
-/

set_option autoImplicit false

namespace CommentDocs

/-- How far the reading of sources has come. -/
structure Scan where
  registry : Registry := .empty
  summary : Summary := {}
  events : List Event := []
  deriving DecidableEq, Repr

namespace Scan

/-- What is reported of the record registered last. -/
def registered (reg : Registry) : List Event :=
  match reg.entries.getLast? with
  | none => []
  | some e =>
    match e.parent.bind fun p => reg.entries[p]? with
    | some parent => [.linked e.record.key parent.record.key]
    | none => [.deferred e.record.key]

/-- Read batches in order, up to the first rejected one if `strict`. -/
def batches (strict : Bool) (s : Scan) : List Batch → Scan × Option Error
  | [] => (s, none)
  | b :: more =>
    let counted := { s.summary with batches := s.summary.batches + 1 }
    match s.registry.registerBatch b with
    | .ok reg => batches strict ⟨reg, counted, s.events ++ registered reg⟩ more
    | .error e =>
      if strict then (⟨s.registry, counted, s.events⟩, some e)
      else
        batches strict
          ⟨s.registry, { counted with rejected := counted.rejected + 1 },
            s.events ++ [.rejected e]⟩ more

/-- Read the batches of a source. -/
def source (settings : Settings) (s : Scan) (file text : Text) : Scan × Option Error :=
  let found := Batch.extract settings.marker file text
  batches settings.strict
    { s with
      summary := { s.summary with files := s.summary.files + 1 }
      events := s.events ++ [.scanned file found.length] } found

/-- Read files in order. -/
def files (w : Workspace) (settings : Settings) (s : Scan) : List Text → Scan × Option Error
  | [] => (s, none)
  | file :: more =>
    match w.readText file with
    | .error e => files w settings { s with events := s.events ++ [.unreadable file e.message] } more
    | .ok text =>
      match s.source settings file text with
      | (s', some e) => (s', some e)
      | (s', none) => files w settings s' more

end Scan

namespace Registry

/-- What is reported of the links that were made late. -/
def linkEvents (reg : Registry) : List Event :=
  reg.deferredLinks.1.filterMap fun (i, p) =>
    match reg.entries[i]?, reg.entries[p]? with
    | some e, some parent => some (.linkedLate e.record.key parent.record.key)
    | _, _ => none

end Registry

/-- Why there is no document. -/
inductive GenerationError where
  /-- Nothing is at the root of the sources. -/
  | missing (root : Text)
  /-- A batch was rejected, and the settings are strict. -/
  | rejected (e : Error)
  | unlinked (e : LinkError)
  deriving DecidableEq, Repr

namespace GenerationError

/-- The failure of a run that has no document to write. -/
def failure : GenerationError → Failure
  | .missing root => ⟨Sources.missingMessage root, []⟩
  | .rejected e => ⟨"Batch rejected in strict mode", [e.message]⟩
  | .unlinked e => ⟨"Failed to link documentation tree", [e.message]⟩

end GenerationError

/-- What generation gives: the document and a summary, or why there is none; and what it reports. -/
structure Generation where
  events : List Event
  result : Except GenerationError (Text × Summary)

/-- The document of a scan. -/
def Scan.document (settings : Settings) (s : Scan) : Generation :=
  let events := s.events ++ s.registry.linkEvents
  match s.registry.link with
  | .error e => ⟨events, .error (.unlinked e)⟩
  | .ok tree =>
    ⟨events ++ [.treeLinked tree.size s.registry.deferred],
      .ok (settings.format.render tree, s.summary)⟩

/-- The document of the sources at `root`. -/
def generate (w : Workspace) (settings : Settings) (root : Text) : Generation :=
  match Sources.find w settings root with
  | none => ⟨[], .error (.missing root)⟩
  | some found =>
    let start : Scan := { events := (Sources.passedOver found).map .excluded }
    match start.files w settings (Sources.sorted found) with
    | (s, some e) => ⟨s.events, .error (.rejected e)⟩
    | (s, none) => s.document settings

end CommentDocs
