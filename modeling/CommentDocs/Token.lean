import CommentDocs.Position

/-!
# Tokens

The vocabulary of record batches: ten reserved words, the attribute sign, words, type names, text
runs and the ends of lines and of the batch.
-/

set_option autoImplicit false

namespace CommentDocs

/-- The reserved words: three open a record, seven name an attribute. -/
inductive Keyword where
  | action
  | node
  | link
  | metaType
  | is
  | parent
  | param
  | returns
  | column
  | value
  deriving DecidableEq, Repr

namespace Keyword

/-- The words that open a record. -/
def openings : List Keyword := [.action, .node, .link]

/-- The words that name an attribute. -/
def attributes : List Keyword := [.metaType, .is, .parent, .param, .returns, .column, .value]

/-- Every reserved word. -/
def all : List Keyword := openings ++ attributes

/-- How the word is written. -/
def spelling : Keyword → Text
  | .action => "Action"
  | .node => "Node"
  | .link => "Link"
  | .metaType => "MetaType"
  | .is => "Is"
  | .parent => "Parent"
  | .param => "Param"
  | .returns => "Return"
  | .column => "Column"
  | .value => "Value"

/-- The reserved word with exactly this spelling, if there is one. -/
def ofSpelling? (word : Text) : Option Keyword := all.find? fun k => k.spelling == word

end Keyword

/-- What a token is. -/
inductive TokenKind where
  /-- A reserved word. -/
  | keyword (word : Keyword)
  /-- The sign `@` before a record kind or an attribute. -/
  | attr
  /-- Spaces and tabs. -/
  | gap
  /-- Letters, digits and underscores that are no reserved word. -/
  | word
  /-- The name of a type. -/
  | typeName
  /-- A run of free text. -/
  | text
  /-- The end of a line that others follow. -/
  | lineEnd
  /-- The end of the batch. -/
  | batchEnd
  /-- A character that starts no token. -/
  | illegal
  deriving DecidableEq, Repr

namespace TokenKind

/-- Whether the token is a reserved word. -/
def isKeyword : TokenKind → Bool
  | .keyword _ => true
  | _ => false

/-- Whether the token may open a record. -/
def opensRecord : TokenKind → Bool
  | .keyword k => Keyword.openings.contains k
  | _ => false

/-- The name of the kind in messages. -/
def describe : TokenKind → String
  | .keyword k => String.ofList k.spelling
  | .attr => "@"
  | .gap => "whitespace"
  | .word => "identifier"
  | .typeName => "type name"
  | .text => "text"
  | .lineEnd => "end of line"
  | .batchEnd => "end of input"
  | .illegal => "illegal character"

end TokenKind

/-- A token, where it starts, and the characters it stands for. -/
structure Token where
  kind : TokenKind
  position : Position
  lexeme : Text
  deriving DecidableEq, Repr

end CommentDocs
