import CommentDocs.Text.Quoted

/-!
# Texts for a terminal

A text that comes from outside may hold characters that a terminal takes as commands.  Where it is
shown as part of a report, those characters are written by number; all others, line feeds among
them, stand for themselves.
-/

set_option autoImplicit false

namespace CommentDocs.Text

/-- One character on a terminal.  Backspace, bell, form feed, escape and delete are written with two
hexadecimal digits, and the controls above ASCII as in a quoted text. -/
def shownChar (c : Char) : String :=
  if c = '\x07' then "\\x07"
  else if c = '\x08' then "\\x08"
  else if c = '\x0c' then "\\x0c"
  else if c = '\x1b' then "\\x1b"
  else if c = '\x7f' then "\\x7f"
  else if 0x80 ≤ c.toNat ∧ c.toNat ≤ 0x9f then byNumber c
  else String.singleton c

/-- A text without commands to the terminal. -/
def shown (s : String) : String := String.join (s.toList.map shownChar)

end CommentDocs.Text
