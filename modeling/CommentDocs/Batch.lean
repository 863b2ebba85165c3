import CommentDocs.Text.Blank

/-!
# Batches

A line of a source is a documentation line if it holds the marker.  What follows the first marker
on it, trimmed, is its content.  A longest run of documentation lines is a batch.
-/

set_option autoImplicit false

namespace CommentDocs

/-- The contents of a run of documentation lines. -/
structure Batch where
  /-- The name of the source. -/
  source : Text
  /-- The line of the source that the run starts on, counted from one. -/
  startLine : Nat
  lines : List Text
  deriving DecidableEq, Repr

namespace Text

/-- The lines of a text: what stands between line feeds. -/
def splitLines : Text → List Text
  | [] => [[]]
  | c :: t =>
    if c = '\n' then [] :: splitLines t
    else
      match splitLines t with
      | [] => [[c]]
      | line :: lines => (c :: line) :: lines

/-- The line without a carriage return at its end. -/
def dropReturn (line : Text) : Text :=
  if line.getLast? = some '\r' then line.dropLast else line

/-- What follows the first occurrence of the marker. -/
def after? (marker : Text) : Text → Option Text
  | [] => marker.isPrefixOf? []
  | c :: t =>
    match marker.isPrefixOf? (c :: t) with
    | some rest => some rest
    | none => after? marker t

end Text

namespace Batch

/-- The marker of documentation lines unless another is chosen. -/
def defaultMarker : Text := "//*"

/-- The content of a line, if it is a documentation line. -/
def content? (marker line : Text) : Option Text :=
  (Text.after? marker (Text.dropReturn line)).map Text.trim

/-- The batches among lines counted from `n`, given the content of each documentation line. -/
def ofContents (source : Text) : Nat → List (Option Text) → List Batch
  | _, [] => []
  | n, none :: lines => ofContents source (n + 1) lines
  | n, some content :: lines =>
    match ofContents source (n + 1) lines with
    | [] => [⟨source, n, [content]⟩]
    | b :: more =>
      if b.startLine = n + 1 then ⟨source, n, content :: b.lines⟩ :: more
      else ⟨source, n, [content]⟩ :: b :: more

/-- The batches of a source, in order. -/
def extract (marker source text : Text) : List Batch :=
  ofContents source 1 ((Text.splitLines text).map (content? marker))

end Batch

end CommentDocs
