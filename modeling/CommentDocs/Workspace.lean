import CommentDocs.FileTree

/-!
# Workspaces

A file tree with the directory that relative paths start from.  Reading and writing by path fail
as an operating system does: the path is checked as a whole, then followed part by part, and the
first obstacle is the reason.

* `lookup` gives what a path stands for.
* `createDirs` and `write` give the workspace after the change.
-/

set_option autoImplicit false

namespace CommentDocs

/-- A file tree and a place in it. -/
structure Workspace where
  top : FileTree
  /-- The names from the top to the directory that relative paths start from. -/
  home : List Text := []

namespace Workspace

/-- A workspace of which only the home directory is known. -/
def ofHome (home : List Text) (t : FileTree) : Workspace := ⟨FileTree.graft t home .empty, home⟩

/-- The most bytes that a path may take. -/
def maxPathSize : Nat := 4095

/-- What keeps a path from being followed at all. -/
def pathError? (path : Text) : Option FileError :=
  if path.contains '\x00' then some .nulInName
  else if path.isEmpty then some .notFound
  else if maxPathSize < Text.byteSize path then some .nameTooLong
  else none

/-- Where a path starts: at the top if it starts with a slash, else at home. -/
def start (w : Workspace) (path : Text) : FileTree.Place :=
  w.top.place (if path.head? == some '/' then [] else w.home.reverse)

/-! ## Reading -/

/-- What a path stands for. -/
def lookup (w : Workspace) (path : Text) : Except FileError FileTree :=
  match pathError? path with
  | some e => .error e
  | none =>
    match w.top.follow (w.start path) (Path.parts path) with
    | .error e => .error e
    | .ok ⟨_, some t⟩ => .ok t
    | .ok ⟨_, none⟩ => .error .notFound

/-- Whether the path stands for a file. -/
def isFileAt (w : Workspace) (path : Text) : Bool :=
  match w.lookup path with
  | .ok (.file _) => true
  | _ => false

/-- Whether the path stands for a directory. -/
def isDirectoryAt (w : Workspace) (path : Text) : Bool :=
  match w.lookup path with
  | .ok (.directory _) => true
  | _ => false

/-- The text of a file. -/
def readText (w : Workspace) (path : Text) : Except FileError Text :=
  match w.lookup path with
  | .error e => .error e
  | .ok (.directory _) => .error .isDirectory
  | .ok (.file content) =>
    match String.fromUTF8? content with
    | some s => .ok s.toList
    | none => .error .notText

/-! ## Changes -/

/-- The last part of a path before slashes at its end, with the parts before it; a path of slashes
ends with the dot that stands for the top. -/
def splitLast (path : Text) : List Text × Text :=
  match (Path.parts path).reverse.dropWhile fun part => part.isEmpty with
  | [] => ([], ['.'])
  | last :: before => (before.reverse, last)

/-- Where the last part of a path is looked for: the names back from that directory, and what it
holds under the part. -/
structure Slot where
  back : List Text
  name : Text
  found : Option FileTree

/-- Where the last part of a path is looked for. -/
def locateSlot (w : Workspace) (path : Text) : Except FileError Slot :=
  match pathError? path with
  | some e => .error e
  | none =>
    match w.top.follow (w.start path) (splitLast path).1 with
    | .error e => .error e
    | .ok ⟨_, none⟩ => .error .notFound
    | .ok ⟨_, some (.file _)⟩ => .error .notDirectory
    | .ok ⟨back, some (.directory entries)⟩ =>
      .ok ⟨back, (splitLast path).2, (FileTree.directory entries).child? (splitLast path).2⟩

/-- The workspace with a tree put into a slot. -/
def fill (w : Workspace) (s : Slot) (t : FileTree) : Workspace :=
  { w with top := FileTree.setAt s.name t s.back.reverse w.top }

/-- Whether the part names an entry of the directory that it is looked for in. -/
def isEntryName (part : Text) : Bool := Path.isNaming part && part != ['.', '.']

/-- The workspace with a new, empty directory. -/
def createDir (w : Workspace) (path : Text) : Except FileError Workspace :=
  match w.locateSlot path with
  | .error e => .error e
  | .ok s =>
    if !isEntryName s.name then .error .exists
    else if FileTree.isTooLong s.name then .error .nameTooLong
    else if s.found.isSome then .error .exists
    else .ok (w.fill s .empty)

/-- The workspace with a directory and those above it, where they were missing, `limit` of them at
most. -/
def createDirsWithin : Nat → Workspace → Text → Except FileError Workspace
  | 0, _, _ => .error .notFound
  | limit + 1, w, path =>
    if path.isEmpty then .ok w
    else
      match w.createDir path with
      | .ok w' => .ok w'
      | .error .notFound =>
        match Path.parent? path with
        | none => .error .notFound
        | some above =>
          match createDirsWithin limit w above with
          | .error e => .error e
          | .ok w' =>
            match w'.createDir path with
            | .ok w'' => .ok w''
            | .error e => if w'.isDirectoryAt path then .ok w' else .error e
      | .error e => if w.isDirectoryAt path then .ok w else .error e

/-- The workspace with a directory and those above it, where they were missing.  A path has no more
directories above it than characters. -/
def createDirs (w : Workspace) (path : Text) : Except FileError Workspace :=
  createDirsWithin (path.length + 1) w path

/-- The workspace with a file written.  A path that ends with a slash names no file. -/
def write (w : Workspace) (path : Text) (content : ByteArray) : Except FileError Workspace :=
  match w.locateSlot path with
  | .error e => .error e
  | .ok s =>
    if path.getLast? == some '/' || !isEntryName s.name then .error .isDirectory
    else if FileTree.isTooLong s.name then .error .nameTooLong
    else
      match s.found with
      | some (.directory _) => .error .isDirectory
      | _ => .ok (w.fill s (.file content))

/-! ## The home directory -/

/-- The home directory with everything below it. -/
def homeTree (w : Workspace) : FileTree := (w.top.descend? w.home).getD .empty

/-- The files below the home directory of `w'` that are not in that of `w` with the same
content. -/
def changes (w w' : Workspace) : List (Text × ByteArray) := w.homeTree.changes w'.homeTree

end Workspace

end CommentDocs
