/-!
# Texts

Lines, names, descriptions and documents are lists of characters: columns count characters, and
every scanner consumes its input from the front.
-/

set_option autoImplicit false

namespace CommentDocs

/-- A text is the list of its characters. -/
abbrev Text := List Char

/-- String literals stand for the texts they spell. -/
instance : Coe String Text := ⟨String.toList⟩

namespace Text

/-- The lines one after the other, each ended by a line feed. -/
def unlines : List Text → Text
  | [] => []
  | line :: lines => line ++ '\n' :: unlines lines

/-- The number of bytes that a text takes in UTF-8. -/
def byteSize : Text → Nat
  | [] => 0
  | c :: t => c.utf8Size + byteSize t

/-- The texts with a separator between any two neighbours. -/
def joinWith (separator : Text) : List Text → Text
  | [] => []
  | [t] => t
  | t :: ts => t ++ separator ++ joinWith separator ts

end Text

end CommentDocs
