import CommentDocs.Document.Markdown
import CommentDocs.Document.Nested
import CommentDocs.Document.Plain

/-!
# Document formats
-/

set_option autoImplicit false

namespace CommentDocs

/-- The formats a tree can be written in. -/
inductive Format where
  | markdown
  | text
  | json
  deriving DecidableEq, Repr

namespace Format

/-- The format with the given name. -/
def ofName? (name : Text) : Option Format :=
  if name = "md".toList ∨ name = "markdown".toList then some .markdown
  else if name = "text".toList ∨ name = "txt".toList then some .text
  else if name = "json".toList then some .json
  else none

/-- The short name of the format. -/
def name : Format → Text
  | .markdown => "md"
  | .text => "text"
  | .json => "json"

/-- The usual extension of files in the format. -/
def extension : Format → Text
  | .markdown => "md"
  | .text => "txt"
  | .json => "json"

/-- The wording for a name that no format has. -/
def unknownMessage (name : Text) : String :=
  "unknown output format " ++ Text.quote name ++ ", expected one of: md, text, json"

/-- The tree written in the format. -/
def render : Format → Tree → Text
  | .markdown => Markdown.render
  | .text => Plain.render
  | .json => Nested.render

end Format

end CommentDocs
