import CommentDocs.Settings

/-!
# Source files

Which files are read, in which order.  Below the directory that was asked for, names
that start with a dot, excluded directories and files with other extensions are passed over.  The
paths found start with the root as it was written and are sorted component by component.
-/

set_option autoImplicit false

namespace CommentDocs

/-- What the search meets: a source file, or a directory that it passes over. -/
inductive Found where
  | source (path : Text)
  | excluded (dir : Text)
  deriving DecidableEq, Repr

namespace Sources

/-- Whether the name marks a hidden file or directory. -/
def isHidden (name : Text) : Bool := name.head? == some '.'

mutual

/-- What is found at a path below the root, in the order of the listings. -/
def search (s : Settings) (name path : Text) : FileTree → List Found
  | .file _ => if s.accepts path then [.source path] else []
  | .directory entries =>
    if s.excludes name then [.excluded path] else searchEntries s path entries

/-- What is found in a directory. -/
def searchEntries (s : Settings) (dir : Text) : List (Text × FileTree) → List Found
  | [] => []
  | (name, t) :: entries =>
    (if isHidden name then [] else search s name (Path.join dir name) t) ++
      searchEntries s dir entries

end

/-- The source files among what was found, sorted. -/
def sorted (found : List Found) : List Text :=
  (found.filterMap fun f =>
    match f with
    | .source path => some path
    | .excluded _ => none).mergeSort Path.le

/-- The directories passed over, in the order of the listings. -/
def passedOver (found : List Found) : List Text :=
  found.filterMap fun f =>
    match f with
    | .source _ => none
    | .excluded dir => some dir

/-- What is found from the root on.  A root that is a file is a source file, whatever its name. -/
def find (w : Workspace) (s : Settings) (root : Text) : Option (List Found) :=
  match w.lookup root with
  | .ok (.file _) => some [.source root]
  | .ok (.directory entries) => some (searchEntries s root entries)
  | .error _ => none

/-- The wording for a root that is not there. -/
def missingMessage (root : Text) : String :=
  "Path '" ++ String.ofList root ++ "' does not exist"

/-- The source files from the root on. -/
def collect (w : Workspace) (s : Settings) (root : Text) : Except String (List Text) :=
  match find w s root with
  | some found => .ok (sorted found)
  | none => .error (missingMessage root)

end Sources

end CommentDocs
