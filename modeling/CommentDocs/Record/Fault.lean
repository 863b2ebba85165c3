import CommentDocs.Record
import CommentDocs.Text.Quoted
import CommentDocs.Token

/-!
# Malformed batches

Why a batch is no record, where in the batch it shows, and the wording of it.  A `Fault` is placed
inside its batch; a `SyntaxError` names the source and counts the lines of the source.
-/

set_option autoImplicit false

namespace CommentDocs

/-- What would have been accepted. -/
inductive Expected where
  | token (kind : TokenKind)
  | oneOf (kinds : List TokenKind)
  | description (words : String)
  deriving DecidableEq, Repr

namespace Expected

/-- The wording of what would have been accepted. -/
def describe : Expected → String
  | .token kind => kind.describe
  | .oneOf kinds => "one of: " ++ String.intercalate ", " (kinds.map TokenKind.describe)
  | .description words => words

end Expected

/-- Why a batch is no record. -/
inductive Cause where
  | illegalCharacter (c : Char)
  | unexpectedToken (found : Text) (expected : Expected)
  | unexpectedEnd (expected : Expected)
  | actionOnly (named : TokenKind) (kind : RecordKind)
  | missingName
  | missingParent
  deriving DecidableEq, Repr

namespace Cause

/-- The wording of a cause. -/
def describe : Cause → String
  | .illegalCharacter c => "illegal character " ++ Text.quoteChar c
  | .unexpectedToken found expected =>
    "found " ++ Text.quote found ++ ", expected " ++ expected.describe
  | .unexpectedEnd expected => "record ended early, expected " ++ expected.describe
  | .actionOnly named kind =>
    "@" ++ named.describe ++ " is only allowed on Action records, not " ++
      String.ofList kind.name
  | .missingName => "missing required name: give one after the record kind or with @MetaType"
  | .missingParent => "missing required @Parent field"

end Cause

/-- A cause, where in the batch it shows, and advice if there is any. -/
structure Fault where
  cause : Cause
  position : Position
  hint : Option String := none
  deriving DecidableEq, Repr

namespace Fault

/-- The fault of meeting a token where something else had to stand.  Reserved words get advice,
since they may have been meant as names. -/
def unexpected (t : Token) (expected : Expected) : Fault where
  cause :=
    match t.kind, t.lexeme with
    | .illegal, c :: _ => .illegalCharacter c
    | .batchEnd, _ => .unexpectedEnd expected
    | .lineEnd, _ => .unexpectedToken "end of line" expected
    | _, found => .unexpectedToken found expected
  position := t.position
  hint :=
    if t.kind.isKeyword then some ("`" ++ String.ofList t.lexeme ++ "` is a reserved word")
    else none

end Fault

/-- A fault in a named source. -/
structure SyntaxError where
  cause : Cause
  origin : Text
  position : Position
  hint : Option String := none
  deriving DecidableEq, Repr

namespace SyntaxError

/-- The fault of a batch whose first line comes after `above` lines of its source. -/
def ofFault (origin : Text) (above : Nat) (f : Fault) : SyntaxError :=
  ⟨f.cause, origin, f.position.down above, f.hint⟩

/-- Source, position, cause and advice in one line. -/
def message (e : SyntaxError) : String :=
  String.ofList e.origin ++ ":" ++ e.position.render ++ ": " ++ e.cause.describe ++
    match e.hint with
    | some hint => " (hint: " ++ hint ++ ")"
    | none => ""

end SyntaxError

end CommentDocs
