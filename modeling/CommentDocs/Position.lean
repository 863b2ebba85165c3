import CommentDocs.Text.Basic

/-!
# Positions

A position is a line and a column, both counted from one; columns count characters.
-/

set_option autoImplicit false

namespace CommentDocs

/-- A place in a source, lines and columns counted from one. -/
structure Position where
  line : Nat
  column : Nat
  deriving DecidableEq, Repr

namespace Position

/-- The number of characters whose encoded lengths add up to exactly `bytes`, if there is one. -/
def charsIn : Nat → Text → Option Nat
  | 0, _ => some 0
  | _ + 1, [] => none
  | bytes + 1, c :: t =>
    if c.utf8Size ≤ bytes + 1 then (charsIn (bytes + 1 - c.utf8Size) t).map (· + 1) else none
  termination_by _ t => t.length

/-- The position `bytes` bytes into the `index`-th line, counted from zero.  An offset that is not
the start of a character of the line, nor its end, stands for the start of the line. -/
def ofOffset (index : Nat) (line : Text) (bytes : Nat) : Position :=
  ⟨index + 1, (charsIn bytes line).getD 0 + 1⟩

/-- The position `lines` lines further down. -/
def down (p : Position) (lines : Nat) : Position := { p with line := p.line + lines }

/-- Line and column with a colon between them. -/
def render (p : Position) : String := toString p.line ++ ":" ++ toString p.column

end Position

end CommentDocs
