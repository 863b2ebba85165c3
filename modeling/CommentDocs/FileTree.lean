import CommentDocs.Path

/-!
# File trees

A directory with everything below it, as a value, and the reasons for which an operating system
refuses to work on it.

* `follow` goes by the parts of a path; every part but the last has to be a directory.
* `setAt` and `graft` give the tree after a change.
* `files` lists what there is, and `changes` what a change has made of it.
-/

set_option autoImplicit false

namespace CommentDocs

/-- A file with its bytes, or a directory with its entries in the order of its listing. -/
inductive FileTree where
  | file (content : ByteArray)
  | directory (entries : List (Text × FileTree))

/-- Why a file operation fails. -/
inductive FileError where
  | notFound
  | exists
  | notDirectory
  | isDirectory
  | nameTooLong
  | nulInName
  | notText
  deriving DecidableEq, Repr

namespace FileError

/-- The wording of a failure. -/
def message : FileError → String
  | .notFound => "No such file or directory (os error 2)"
  | .exists => "File exists (os error 17)"
  | .notDirectory => "Not a directory (os error 20)"
  | .isDirectory => "Is a directory (os error 21)"
  | .nameTooLong => "File name too long (os error 36)"
  | .nulInName => "file name contained an unexpected NUL byte"
  | .notText => "stream did not contain valid UTF-8"

end FileError

namespace FileTree

/-- The directory without entries. -/
def empty : FileTree := .directory []

/-- The entries of a directory; a file has none. -/
def entries : FileTree → List (Text × FileTree)
  | .file _ => []
  | .directory entries => entries

/-- The entry with the given name. -/
def child? (name : Text) (t : FileTree) : Option FileTree :=
  (t.entries.find? fun e => e.1 == name).map (·.2)

/-- What is found by following names down. -/
def descend? (t : FileTree) : List Text → Option FileTree
  | [] => some t
  | name :: names => (t.child? name).bind fun u => u.descend? names

/-- The most bytes that a name may take. -/
def maxNameSize : Nat := 255

/-- Whether a name takes too many bytes. -/
def isTooLong (name : Text) : Bool := maxNameSize < Text.byteSize name

/-- Somewhere in a tree: the names from there up to the top, and what there is. -/
structure Place where
  back : List Text
  found : Option FileTree

/-- The place at the end of the names that `back` holds in reverse. -/
def place (t : FileTree) (back : List Text) : Place := ⟨back, t.descend? back.reverse⟩

/-- Go from a place by one part of a path.  Only a directory can be left, even by a part that names
nothing, and the top is its own parent. -/
def step (t : FileTree) (p : Place) (part : Text) : Except FileError Place :=
  match p.found with
  | none => .error .notFound
  | some (.file _) => .error .notDirectory
  | some (.directory entries) =>
    if !Path.isNaming part then .ok p
    else if part = ['.', '.'] then .ok (t.place p.back.tail)
    else if isTooLong part then .error .nameTooLong
    else .ok ⟨part :: p.back, (directory entries).child? part⟩

/-- Go from a place by the parts of a path.  There may be nothing at the end. -/
def follow (t : FileTree) (p : Place) : List Text → Except FileError Place
  | [] => .ok p
  | part :: parts =>
    match t.step p part with
    | .error e => .error e
    | .ok q => t.follow q parts

/-! ## Changes -/

/-- The entries with one of them replaced, or added at the end. -/
def setEntry (name : Text) (u : FileTree) : List (Text × FileTree) → List (Text × FileTree)
  | [] => [(name, u)]
  | (other, v) :: entries =>
    if other = name then (name, u) :: entries else (other, v) :: setEntry name u entries

/-- The tree with an entry set in the directory at the end of the names.  Names that lead nowhere
leave the tree as it is. -/
def setAt (name : Text) (u : FileTree) : List Text → FileTree → FileTree
  | _, .file content => .file content
  | [], .directory entries => .directory (setEntry name u entries)
  | next :: names, .directory entries =>
    match entries.find? fun e => e.1 == next with
    | some (_, v) => .directory (setEntry next (setAt name u names v) entries)
    | none => .directory entries

/-- The tree with another one put in where the names lead.  Directories on the way are made, also
in the place of a file. -/
def graft (u : FileTree) : List Text → FileTree → FileTree
  | [], _ => u
  | name :: names, t =>
    .directory (setEntry name (graft u names ((t.child? name).getD empty)) t.entries)

/-! ## Listing -/

mutual

/-- The files of a tree, each with its path below `dir`. -/
def filesBelow (dir : Text) : FileTree → List (Text × ByteArray)
  | .file content => [(dir, content)]
  | .directory entries => filesOf dir entries

/-- The files of a list of entries. -/
def filesOf (dir : Text) : List (Text × FileTree) → List (Text × ByteArray)
  | [] => []
  | (name, t) :: entries => filesBelow (Path.join dir name) t ++ filesOf dir entries

end

/-- Every file with its path from the top. -/
def files (t : FileTree) : List (Text × ByteArray) := filesBelow [] t

/-- The files of `t'` that are not in `t` with the same content. -/
def changes (t t' : FileTree) : List (Text × ByteArray) :=
  t'.files.filter fun f => !(t.files.any fun g => g.1 == f.1 && g.2.toList == f.2.toList)

end FileTree

end CommentDocs
