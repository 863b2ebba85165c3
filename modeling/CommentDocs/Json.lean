import CommentDocs.Text.Basic

/-!
# JSON values

The values that documents are made of, texts, lists and objects, and their indented text.  Fields
keep their order.
-/

set_option autoImplicit false

namespace CommentDocs

/-- A JSON value. -/
inductive Json where
  | text (t : Text)
  | list (items : List Json)
  | object (fields : List (Text × Json))
  deriving Repr

namespace Json

/-- The digit of a number below sixteen. -/
def hexDigit (n : Nat) : Char := Nat.digitChar n

/-- One character inside a JSON string: quotes, backslashes and controls are escaped. -/
def escapeChar (c : Char) : Text :=
  if c = '\x22' then ['\\', c]
  else if c = '\\' then ['\\', '\\']
  else if c = '\x08' then ['\\', 'b']
  else if c = '\x0c' then ['\\', 'f']
  else if c = '\n' then ['\\', 'n']
  else if c = '\r' then ['\\', 'r']
  else if c = '\t' then ['\\', 't']
  else if c.toNat < 0x20 then
    ['\\', 'u', '0', '0', hexDigit (c.toNat / 16), hexDigit (c.toNat % 16)]
  else [c]

/-- A text between quotes. -/
def escape (t : Text) : Text := '\x22' :: t.flatMap escapeChar ++ ['\x22']

/-- A line feed and the indentation of a depth, two spaces for each level. -/
def newline (depth : Nat) : Text := '\n' :: List.replicate (2 * depth) ' '

mutual

/-- The text of a value, its later lines indented for the depth, and `rest` after it. -/
def write (depth : Nat) : Json → Text → Text
  | .text t, rest => escape t ++ rest
  | .list [], rest => '[' :: ']' :: rest
  | .list (x :: xs), rest =>
    '[' :: (newline (depth + 1) ++
      write (depth + 1) x (writeItems (depth + 1) xs (newline depth ++ ']' :: rest)))
  | .object [], rest => '\x7b' :: '\x7d' :: rest
  | .object ((name, x) :: fields), rest =>
    '\x7b' :: (newline (depth + 1) ++ (escape name ++ ':' :: ' ' ::
      write (depth + 1) x (writeFields (depth + 1) fields (newline depth ++ '\x7d' :: rest))))

/-- The items of a list after the first one, and `rest` after them. -/
def writeItems (depth : Nat) : List Json → Text → Text
  | [], rest => rest
  | x :: xs, rest => ',' :: (newline depth ++ write depth x (writeItems depth xs rest))

/-- The fields of an object after the first one, and `rest` after them. -/
def writeFields (depth : Nat) : List (Text × Json) → Text → Text
  | [], rest => rest
  | (name, x) :: fields, rest =>
    ',' :: (newline depth ++ (escape name ++ ':' :: ' ' ::
      write depth x (writeFields depth fields rest)))

end

/-- The indented text of a value. -/
def pretty (x : Json) : Text := write 0 x []

end Json

end CommentDocs
