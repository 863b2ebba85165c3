import CommentDocs.Text.Hidden

/-!
# Quoted characters and texts

Messages show a character or a text between quotes.  Characters that do not show are written by
number, the usual controls by their letter, and only the quote in use is escaped.
-/

set_option autoImplicit false

namespace CommentDocs.Text

/-- A code point by number, in lower-case hexadecimal digits without padding. -/
def byNumber (c : Char) : String :=
  "\\u\x7b" ++ String.ofList (Nat.toDigits 16 c.toNat) ++ "\x7d"

/-- One character inside quotes of the given kind. -/
def quotedChar (quote c : Char) : String :=
  if c = '\x00' then "\\0"
  else if c = '\t' then "\\t"
  else if c = '\r' then "\\r"
  else if c = '\n' then "\\n"
  else if c = '\\' then "\\\\"
  else if c = quote then String.ofList ['\\', c]
  else if isHidden c then byNumber c
  else String.singleton c

/-- A character between single quotes. -/
def quoteChar (c : Char) : String := "'" ++ quotedChar '\x27' c ++ "'"

/-- A text between double quotes. -/
def quote (t : List Char) : String := "\"" ++ String.join (t.map (quotedChar '\x22')) ++ "\""

end CommentDocs.Text
