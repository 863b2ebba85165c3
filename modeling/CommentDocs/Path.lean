import CommentDocs.Text.Basic

/-!
# Paths

A path is kept as it was written, since it is shown that way; its components say what it names.
Empty components and dots that do not come first name nothing of their own.
-/

set_option autoImplicit false

namespace CommentDocs.Path

/-- What stands between slashes, empty parts included. -/
def parts : Text → List Text
  | [] => [[]]
  | c :: t =>
    if c = '/' then [] :: parts t
    else
      match parts t with
      | [] => [[c]]
      | part :: more => (c :: part) :: more

/-- Whether a part that is not the first one names something. -/
def isNaming (part : Text) : Bool := !part.isEmpty && part != ['.']

/-- The components of a path.  A slash at the front is a component of its own. -/
def components (path : Text) : List Text :=
  match path, parts path with
  | [], _ => []
  | _, [] => []
  | _, [] :: more => ['/'] :: more.filter isNaming
  | _, first :: more => first :: more.filter isNaming

/-- The order of characters, extended to texts; a text comes before its extensions. -/
def textLe : Text → Text → Bool
  | [], _ => true
  | _ :: _, [] => false
  | a :: s, b :: t => a.toNat < b.toNat || (a == b && textLe s t)

/-- The order of texts, extended to lists of components. -/
def componentsLe : List Text → List Text → Bool
  | [], _ => true
  | _ :: _, [] => false
  | a :: s, b :: t => if a = b then componentsLe s t else textLe a b

/-- The order of paths, component by component. -/
def le (a b : Text) : Bool := componentsLe (components a) (components b)

/-- A name below a directory. -/
def join (dir name : Text) : Text :=
  match dir.getLast? with
  | none => name
  | some '/' => dir ++ name
  | some _ => dir ++ '/' :: name

/-- A reversed path without slashes and dots at its end that name nothing. -/
def trimReversed : Text → Text
  | ['/'] => ['/']
  | '/' :: t => trimReversed t
  | '.' :: '/' :: t => trimReversed ('/' :: t)
  | t => t
  termination_by t => t.length

/-- The directory that a path is in, as far as it is written; the empty path for a single name. -/
def parent? (path : Text) : Option Text :=
  match trimReversed path.reverse with
  | [] => none
  | ['/'] => none
  | t => some (trimReversed (t.dropWhile fun c => c != '/')).reverse

/-- The last component, if it is a name. -/
def fileName? (path : Text) : Option Text :=
  let name := ((trimReversed path.reverse).takeWhile fun c => c != '/').reverse
  if name.isEmpty || name == ['.'] || name == ['.', '.'] then none else some name

/-- What follows the last dot of the name, unless that dot comes first. -/
def extension? (path : Text) : Option Text :=
  match fileName? path with
  | none => none
  | some name =>
    match name.reverse.dropWhile fun c => c != '.' with
    | [] => none
    | [_] => none
    | _ => some (name.reverse.takeWhile fun c => c != '.').reverse

end CommentDocs.Path
