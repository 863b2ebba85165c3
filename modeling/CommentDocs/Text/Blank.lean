import CommentDocs.Text.Basic

/-!
# Blank characters and trimming

The blank characters are those with the Unicode property White_Space.  `trim` removes them from
both ends of a text; what it leaves neither starts nor ends with one.
-/

set_option autoImplicit false

namespace CommentDocs.Text

/-- Whether the character has the property White_Space. -/
def isBlank (c : Char) : Bool :=
  let n := c.toNat
  (9 ≤ n && n ≤ 13) || n == 0x20 || n == 0x85 || n == 0xA0 || n == 0x1680 ||
    (0x2000 ≤ n && n ≤ 0x200A) || n == 0x2028 || n == 0x2029 || n == 0x202F || n == 0x205F ||
    n == 0x3000

/-- The text without the blanks at its start. -/
def trimStart (t : Text) : Text := t.dropWhile isBlank

/-- The text without the blanks at its end. -/
def trimEnd (t : Text) : Text := (t.reverse.dropWhile isBlank).reverse

/-- The text without the blanks at either end. -/
def trim (t : Text) : Text := trimEnd (trimStart t)

/-- A space or a tab: what separates words on a line. -/
def isGap (c : Char) : Bool := c == ' ' || c == '\t'

end CommentDocs.Text
