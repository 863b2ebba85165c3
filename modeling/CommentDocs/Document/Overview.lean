import CommentDocs.Tree

/-!
# Overviews

Documents open with an overview of the tree: one line for each record of the walk, indented by a
bar for each level.
-/

set_option autoImplicit false

namespace CommentDocs

/-- The indentation of a depth, one bar for each level. -/
def bars : Nat → Text
  | 0 => []
  | depth + 1 => ' ' :: '|' :: bars depth

/-- An action with the names of its parameters. -/
def Record.signature (r : Record) : Text :=
  '@' :: r.name ++ '(' :: Text.joinWith ", " (r.params.map (·.name)) ++ [')']

/-- What an overview shows of a record: actions with their parameters, others by name. -/
def Record.title (r : Record) : Text :=
  match r.kind with
  | .action => r.signature
  | _ => r.name

end CommentDocs
