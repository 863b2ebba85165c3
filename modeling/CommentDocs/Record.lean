import CommentDocs.Text.Basic

/-!
# Records

A record documents one action, node or link.  It is made of items: each attribute of its batch and
each run of free text is one, and `Record.add` says what an item does to a record.
-/

set_option autoImplicit false

namespace CommentDocs

/-- What a record documents. -/
inductive RecordKind where
  | action
  | node
  | link
  deriving DecidableEq, Repr

namespace RecordKind

/-- The kind as it is written and shown. -/
def name : RecordKind → Text
  | .action => "Action"
  | .node => "Node"
  | .link => "Link"

end RecordKind

/-- A parameter of an action, or a column of what it returns. -/
structure Parameter where
  name : Text
  type : Text
  description : Text
  deriving DecidableEq, Repr

/-- One documentation record. -/
structure Record where
  kind : RecordKind
  /-- The name shown. -/
  name : Text := []
  /-- The key it is registered under, and other records name as their parent. -/
  key : Text := []
  /-- The implementation it stands for. -/
  is : Option Text := none
  /-- The key of the record it hangs under. -/
  parent : Option Text := none
  /-- The first run of text. -/
  short : Text := []
  /-- The later runs of text, a space between any two. -/
  long : Text := []
  params : List Parameter := []
  returns : Option Text := none
  columns : List Parameter := []
  valueType : Option Text := none
  /-- The write permission of a value. -/
  writable : Option Text := none
  /-- The source it was read from. -/
  origin : Text := []
  deriving DecidableEq, Repr

/-- One thing a batch says about its record. -/
inductive Item where
  | metaType (key : Text)
  | is (name : Text)
  | parent (key : Text)
  | param (p : Parameter)
  | returns (type : Text)
  | column (p : Parameter)
  | value (type : Text) (permission : Option Text)
  | text (run : Text)
  deriving DecidableEq, Repr

namespace Record

/-- The key of the record that every tree hangs from. -/
def rootKey : Text := "root"

/-- The record that every tree hangs from. -/
def root : Record :=
  { kind := .node, name := rootKey, key := rootKey, short := "Root node of the DsLink" }

/-- Whether this is the record that trees hang from. -/
def isRoot (r : Record) : Bool := r.parent.isNone && r.key == rootKey

/-- Whether the record documents a value. -/
def isValue (r : Record) : Bool := r.valueType.isSome

/-- The write permission to show. -/
def permission (r : Record) : Text := r.writable.getD "never"

/-- Add a run of text: the first one is the short description, the others make up the long one.
An empty run says nothing. -/
def addText (r : Record) (run : Text) : Record :=
  if run.isEmpty then r
  else if r.short.isEmpty then { r with short := run }
  else if r.long.isEmpty then { r with long := run }
  else { r with long := r.long ++ ' ' :: run }

/-- Add an item.  Parameters and columns pile up, texts follow `addText`, and of the rest the last
one counts; a meta type also names a record that has no name yet. -/
def add (r : Record) : Item → Record
  | .metaType key => { r with name := if r.name.isEmpty then key else r.name, key := key }
  | .is name => { r with is := some name }
  | .parent key => { r with parent := some key }
  | .param p => { r with params := r.params ++ [p] }
  | .returns type => { r with returns := some type }
  | .column p => { r with columns := r.columns ++ [p] }
  | .value type permission => { r with valueType := some type, writable := permission }
  | .text run => r.addText run

/-- The record of a kind, with an optional name after it, before any item. -/
def opening (kind : RecordKind) (name : Option Text) (origin : Text) : Record :=
  { kind := kind, name := name.getD [], key := name.getD [], origin := origin }

/-- The record that the items describe. -/
def ofItems (kind : RecordKind) (name : Option Text) (origin : Text) (items : List Item) :
    Record :=
  items.foldl add (opening kind name origin)

end Record

end CommentDocs
