import CommentDocs.Run

/-!
# The command line program

The outer layer: what the arguments name and what is below the current directory is read, the
command is run on it, and what the run changed is written back.
-/

set_option autoImplicit false

namespace CommentDocs

/-- The tree at a directory entry, with the name of the entry. -/
partial def loadEntry (e : IO.FS.DirEntry) : IO (Text × FileTree) := do
  if ← e.path.isDir then
    let entries ← (← e.path.readDir).toList.mapM loadEntry
    return (e.fileName.toList, .directory entries)
  else
    return (e.fileName.toList, .file (← IO.FS.readBinFile e.path))

/-- The names from the top to a place that is written out in full. -/
def namesTo (place : String) : List Text := (Path.components place.toList).tail

/-- The workspace with what is found at a path, if anything is; `deep` says whether the entries of a
directory are wanted. -/
def loadAt (deep : Bool) (w : Workspace) (path : Text) : IO Workspace := do
  match ← (IO.FS.realPath (String.ofList path)).toBaseIO with
  | .error _ => return w
  | .ok place =>
    let found ←
      if !(← place.isDir) then pure (.file (← IO.FS.readBinFile place))
      else if deep then pure (.directory (← (← place.readDir).toList.mapM loadEntry))
      else pure .empty
    return { w with top := FileTree.graft found (namesTo place.toString) w.top }

/-- The workspace that a command line is about: the file with the settings, the current directory
and the sources. -/
def loadWorkspace (request : Request) : IO Workspace := do
  let w := Workspace.ofHome (namesTo (← IO.FS.realPath ".").toString) .empty
  match request with
  | .run a =>
    let w ← a.settings.toList.foldlM (loadAt false) w
    [['.'], a.root].foldlM (loadAt true) w
  | _ => return w

/-- How a level is shown. -/
def Level.label : Level → String
  | .warning => " WARN "
  | .info => " INFO "
  | .detail => "DEBUG "

/-- Write the files that a run changed. -/
def store (before after : Workspace) : IO Unit := do
  for (path, content) in before.top.changes after.top do
    let place := '/' :: path
    if let some dir := Path.parent? place then
      IO.FS.createDirAll (String.ofList dir)
    IO.FS.writeBinFile (String.ofList place) content

end CommentDocs

open CommentDocs in
/-- Run the command on the current directory. -/
def main (args : List String) : IO UInt32 := do
  let texts := args.map String.toList
  let before ← loadWorkspace (Arguments.read texts)
  let outcome := runCommand texts before
  IO.print (String.ofList outcome.stdout)
  store before outcome.workspace
  for e in outcome.events do
    IO.eprintln (e.level.label ++ e.message)
  if let some f := outcome.failure then
    IO.eprintln f.report
  if outcome.exit = 2 then
    IO.eprint (String.ofList helpText)
  return outcome.exit.toUInt32
