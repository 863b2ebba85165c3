import CommentDocs.Document.Overview

/-!
# Plain text documents

The overview, a rule, and a section for each record of the walk.  A document is a list of lines.
-/

set_option autoImplicit false

namespace CommentDocs.Plain

/-- What an overview shows of the value of a record; of actions it shows none. -/
def valueNote (r : Record) : Text :=
  match r.kind, r.valueType with
  | .action, _ => []
  | _, some type => " *" ++ type ++ " (" ++ r.permission ++ ")*"
  | _, none => []

/-- The line of a record in the overview. -/
def overviewLine (depth : Nat) (r : Record) : Text :=
  bars depth ++ "- " ++ r.title ++ valueNote r

/-- The rule between sections. -/
def rule : List Text := [[], "---", []]

/-- The lines of a parameter. -/
def parameterLines (p : Parameter) : List Text :=
  if p.description.isEmpty then ["     Name: " ++ p.name, "     Type: " ++ p.type, []]
  else ["     Name: " ++ p.name, "     Type: " ++ p.type, "     " ++ p.description, []]

/-- The parameters of an action. -/
def paramLines (r : Record) : List Text :=
  if r.params.isEmpty then [] else "Params:" :: (r.params.flatMap parameterLines ++ [[]])

/-- What an action returns. -/
def returnLine (r : Record) : Text :=
  match r.returns with
  | some type => "Return type: " ++ type
  | none => "Return type:"

/-- The columns of what an action returns. -/
def columnLines (r : Record) : List Text :=
  if r.columns.isEmpty then [] else "Columns:" :: r.columns.flatMap parameterLines

/-- What only the sections of actions have. -/
def actionLines (r : Record) : List Text :=
  if r.kind = .action then paramLines r ++ returnLine r :: columnLines r else []

/-- The implementation a record stands for. -/
def isLines (r : Record) : List Text :=
  match r.is with
  | some name => ["$is: " ++ name]
  | none => []

/-- The record that a record hangs under. -/
def parentLines : Option Record → List Text
  | some p => ["Parent: " ++ p.name]
  | none => []

/-- The long description. -/
def longLines (r : Record) : List Text :=
  if r.long.isEmpty then [] else ["Description:", r.long, []]

/-- The value of a record. -/
def valueLines (r : Record) : List Text :=
  match r.valueType with
  | some type => ["Value Type: " ++ type, "Writable: " ++ r.permission]
  | none => []

/-- The first lines of a section. -/
def headLines (r : Record) : List Text :=
  ["Name: " ++ r.name, [], r.short, [], "Type: " ++ r.kind.name]

/-- The section of a record, given the record it hangs under. -/
def sectionLines (parent : Option Record) (r : Record) : List Text :=
  headLines r ++ isLines r ++ parentLines parent ++ longLines r ++ actionLines r ++
    valueLines r ++ rule

/-- The lines of the overview. -/
def overview (t : Tree) : List Text :=
  t.walk.map fun (depth, i) => overviewLine depth (t.record i)

/-- The lines of all sections. -/
def sections (t : Tree) : List Text :=
  t.walk.flatMap fun (_, i) => sectionLines ((t.parent? i).map t.record) (t.record i)

/-- The tree as plain text. -/
def render (t : Tree) : Text := Text.unlines (overview t ++ rule ++ sections t)

end CommentDocs.Plain
