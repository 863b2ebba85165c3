import CommentDocs.Text.Blank

/-!
# TOML strings and keys

Readers for the four kinds of strings, for keys, and for what may stand between the parts of a
document.  Each gives what it read and the rest of the text, or nothing if the text is no such
thing.
-/

set_option autoImplicit false

namespace CommentDocs.Toml

/-- The characters that comments and strings may hold: all but the controls, the tab excepted. -/
def isPlain (c : Char) : Bool := c == '\t' || (32 ≤ c.toNat && c.toNat != 127)

/-- The characters of keys that need no quotes. -/
def isBare (c : Char) : Bool := c.isAlphanum || c == '-' || c == '_'

/-- Put a character in front of what was read. -/
def prepend (c : Char) : Option (Text × Text) → Option (Text × Text) :=
  Option.map fun (read, rest) => (c :: read, rest)

/-! ## Between the parts -/

/-- The text after spaces and tabs. -/
def skipGaps (t : Text) : Text := t.dropWhile Text.isGap

/-- The text after a line end. -/
def lineEnd? : Text → Option Text
  | '\n' :: t => some t
  | '\r' :: '\n' :: t => some t
  | _ => none

/-- The text after a comment, if one comes next. -/
def skipComment : Text → Text
  | '#' :: t => t.dropWhile isPlain
  | t => t

/-- The text after the rest of a line on which nothing but a comment follows. -/
def finishLine? (t : Text) : Option Text :=
  match skipComment (skipGaps t) with
  | [] => some []
  | u => lineEnd? u

/-- The text after spaces, line ends and comments; `inComment` says whether a comment is open. -/
def skipLines (inComment : Bool) : Text → Option Text
  | [] => if inComment then none else some []
  | '\n' :: t => skipLines false t
  | '\r' :: '\n' :: t => skipLines false t
  | c :: t =>
    if inComment then if isPlain c then skipLines true t else none
    else if Text.isGap c then skipLines false t
    else if c = '#' then skipLines true t
    else some (c :: t)

/-! ## Escapes -/

/-- The value of a hexadecimal digit. -/
def hexValue? (c : Char) : Option Nat :=
  if c.isDigit then some (c.toNat - '0'.toNat)
  else if 'a'.toNat ≤ c.toNat && c.toNat ≤ 'f'.toNat then some (c.toNat - 'a'.toNat + 10)
  else if 'A'.toNat ≤ c.toNat && c.toNat ≤ 'F'.toNat then some (c.toNat - 'A'.toNat + 10)
  else none

/-- The number that hexadecimal digits stand for, after those read already. -/
def hexNumber? (read : Nat) : Text → Option Nat
  | [] => some read
  | c :: t =>
    match hexValue? c with
    | some d => hexNumber? (16 * read + d) t
    | none => none

/-- The character with the given hexadecimal number, if there is one. -/
def charByNumber? (digits : Text) : Option Char :=
  match hexNumber? 0 digits with
  | some n => if n.isValidChar then some (Char.ofNat n) else none
  | none => none

/-- The character that a letter after a backslash stands for. -/
def letterEscape? (c : Char) : Option Char :=
  if c = 'b' then some '\x08'
  else if c = 't' then some '\t'
  else if c = 'n' then some '\n'
  else if c = 'f' then some '\x0c'
  else if c = 'r' then some '\r'
  else if c = '\x22' || c = '\\' then some c
  else none

/-! ## Strings -/

/-- The rest of a string in double quotes. -/
def basicString : Text → Option (Text × Text)
  | [] => none
  | '\x22' :: t => some ([], t)
  | '\\' :: 'u' :: a :: b :: c :: d :: t =>
    match charByNumber? [a, b, c, d] with
    | some ch => prepend ch (basicString t)
    | none => none
  | '\\' :: 'U' :: a :: b :: c :: d :: e :: f :: g :: h :: t =>
    match charByNumber? [a, b, c, d, e, f, g, h] with
    | some ch => prepend ch (basicString t)
    | none => none
  | '\\' :: c :: t =>
    match letterEscape? c with
    | some ch => prepend ch (basicString t)
    | none => none
  | c :: t => if isPlain c && c != '\\' then prepend c (basicString t) else none

/-- The rest of a string in single quotes, which has no escapes. -/
def literalString : Text → Option (Text × Text)
  | [] => none
  | c :: t =>
    if c = '\x27' then some ([], t)
    else if isPlain c then prepend c (literalString t)
    else none

/-- Close a string of several lines after three quotes: up to two more belong to the string. -/
def closeLong (quote : Char) : Text → Option (Text × Text)
  | a :: b :: c :: t =>
    if a = quote && b = quote && c = quote then none
    else if a = quote && b = quote then some ([quote, quote], c :: t)
    else if a = quote then some ([quote], b :: c :: t)
    else some ([], a :: b :: c :: t)
  | [a, b] =>
    if a = quote && b = quote then some ([quote, quote], [])
    else if a = quote then some ([quote], [b])
    else some ([], [a, b])
  | [a] => if a = quote then some ([quote], []) else some ([], [a])
  | [] => some ([], [])

/-- Whether nothing but spaces and tabs stands before the next line end. -/
def endsLine (t : Text) : Bool := (lineEnd? (skipGaps t)).isSome

/-- The rest of a string of several lines in double quotes.  After a backslash at the end of a line
`skipping` is on, and blanks are passed over up to the next character that shows. -/
def longBasicString (skipping : Bool) : Text → Option (Text × Text)
  | [] => none
  | '\x22' :: '\x22' :: '\x22' :: t => closeLong '\x22' t
  | '\r' :: '\n' :: t =>
    if skipping then longBasicString true t else prepend '\n' (longBasicString false t)
  | '\\' :: 'u' :: a :: b :: c :: d :: t =>
    match charByNumber? [a, b, c, d] with
    | some ch => prepend ch (longBasicString false t)
    | none => none
  | '\\' :: 'U' :: a :: b :: c :: d :: e :: f :: g :: h :: t =>
    match charByNumber? [a, b, c, d, e, f, g, h] with
    | some ch => prepend ch (longBasicString false t)
    | none => none
  | '\\' :: c :: t =>
    match letterEscape? c with
    | some ch => prepend ch (longBasicString false t)
    | none => if endsLine (c :: t) then longBasicString true (c :: t) else none
  | c :: t =>
    if skipping && (Text.isGap c || c == '\n') then longBasicString true t
    else if c = '\n' || (isPlain c && c != '\\') then prepend c (longBasicString false t)
    else none

/-- The rest of a string of several lines in single quotes. -/
def longLiteralString : Text → Option (Text × Text)
  | [] => none
  | '\x27' :: '\x27' :: '\x27' :: t => closeLong '\x27' t
  | '\r' :: '\n' :: t => prepend '\n' (longLiteralString t)
  | c :: t => if c = '\n' || isPlain c then prepend c (longLiteralString t) else none

/-- The text after a line end, if one comes first. -/
def dropLineEnd (t : Text) : Text := (lineEnd? t).getD t

/-- A string of one line. -/
def shortString : Text → Option (Text × Text)
  | '\x22' :: t => basicString t
  | '\x27' :: t => literalString t
  | _ => none

/-- A string of any kind.  A line end right after three quotes is not part of the string. -/
def string : Text → Option (Text × Text)
  | '\x22' :: '\x22' :: '\x22' :: t => longBasicString false (dropLineEnd t)
  | '\x27' :: '\x27' :: '\x27' :: t => longLiteralString (dropLineEnd t)
  | t => shortString t

/-! ## Keys -/

/-- A bare or quoted key. -/
def simpleKey (t : Text) : Option (Text × Text) :=
  match t.takeWhile isBare with
  | [] => shortString t
  | key => some (key, t.dropWhile isBare)

/-- Keys with dots between them, at most `limit` of them. -/
def keyPathWithin : Nat → Text → Option (List Text × Text)
  | 0, _ => none
  | limit + 1, t =>
    match simpleKey t with
    | none => none
    | some (key, u) =>
      match skipGaps u with
      | '.' :: v =>
        (keyPathWithin limit (skipGaps v)).map fun (keys, rest) => (key :: keys, rest)
      | rest => some ([key], rest)

/-- Keys with dots between them.  Every key takes a character at least. -/
def keyPath (t : Text) : Option (List Text × Text) := keyPathWithin (t.length + 1) t

end CommentDocs.Toml
