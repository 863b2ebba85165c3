import CommentDocs.Document.Overview
import CommentDocs.Text.LowerCase

/-!
# Markdown documents

The overview with a link to each section, a rule, and the sections.  Two spaces at the end of a
line keep the line break.
-/

set_option autoImplicit false

namespace CommentDocs.Markdown

/-- The anchor of the section with the given heading. -/
def anchor (name : Text) : Text := Text.toLower name

/-- A link to a section. -/
def linkTo (title name : Text) : Text := '[' :: title ++ "](#" ++ anchor name ++ [')']

/-- A code span. -/
def code (t : Text) : Text := '\x60' :: t ++ ['\x60']

/-- The line with a line break kept at its end. -/
def broken (line : Text) : Text := line ++ "  "

/-! ## Overview -/

/-- What an overview shows of the value of a record; of actions it shows none. -/
def valueNote (r : Record) : Text :=
  match r.kind, r.valueType with
  | .action, _ => []
  | _, some type => " - " ++ type
  | _, none => []

/-- The line of a record in the overview. -/
def overviewLine (depth : Nat) (r : Record) : Text :=
  bars depth ++ '-' :: linkTo r.title r.name ++ valueNote r

/-- The line before the overview. -/
def opening : List Text := [" <pre>"]

/-- The line after the overview. -/
def closing : List Text := [" </pre>"]

/-- The lines of the overview. -/
def overview (t : Tree) : List Text :=
  t.walk.map fun (depth, i) => overviewLine depth (t.record i)

/-! ## Tables -/

/-- A text with its pipes escaped, so that it stays in one cell of a table. -/
def escapeCell (t : Text) : Text := t.flatMap fun c => if c = '|' then ['\\', '|'] else [c]

/-- The row of a parameter. -/
def tableRow (p : Parameter) : Text :=
  p.name ++ " | " ++ code (escapeCell p.type) ++ " | " ++ escapeCell p.description

/-- The table of parameters or columns. -/
def tableLines (ps : List Parameter) : List Text :=
  "Name | Type | Description" :: "--- | --- | ---" :: ps.map tableRow

/-! ## Sections -/

/-- The rule between sections. -/
def rule : List Text := [[], "---", []]

/-- The parameters of an action. -/
def paramLines (r : Record) : List Text :=
  if r.params.isEmpty then [] else broken "Params:" :: [] :: (tableLines r.params ++ [[]])

/-- What an action returns. -/
def returnLine (r : Record) : Text :=
  match r.returns with
  | some type => broken ("Return type: " ++ type)
  | none => broken "Return type:"

/-- The columns of what an action returns. -/
def columnLines (r : Record) : List Text :=
  if r.columns.isEmpty then [] else broken "Columns:" :: [] :: tableLines r.columns

/-- What only the sections of actions have. -/
def actionLines (r : Record) : List Text :=
  if r.kind = .action then paramLines r ++ returnLine r :: columnLines r else []

/-- The implementation a record stands for. -/
def isLines (r : Record) : List Text :=
  match r.is with
  | some name => [broken ("$is: " ++ name)]
  | none => []

/-- The record that a record hangs under. -/
def parentLines : Option Record → List Text
  | some p => [broken ("Parent: " ++ linkTo p.name p.name)]
  | none => []

/-- The long description. -/
def longLines (r : Record) : List Text :=
  if r.long.isEmpty then [] else [[], broken "Description:", broken r.long, []]

/-- The value of a record. -/
def valueLines (r : Record) : List Text :=
  match r.valueType with
  | some type =>
    [broken ("Value Type: " ++ code type), broken ("Writable: " ++ code r.permission)]
  | none => []

/-- The first lines of a section. -/
def headLines (r : Record) : List Text :=
  [broken ("### " ++ r.name), [], broken r.short, [], broken ("Type: " ++ r.kind.name)]

/-- The section of a record, given the record it hangs under. -/
def sectionLines (parent : Option Record) (r : Record) : List Text :=
  headLines r ++ isLines r ++ parentLines parent ++ longLines r ++ actionLines r ++
    valueLines r ++ rule

/-- The lines of all sections. -/
def sections (t : Tree) : List Text :=
  t.walk.flatMap fun (_, i) => sectionLines ((t.parent? i).map t.record) (t.record i)

/-- The tree as Markdown. -/
def render (t : Tree) : Text :=
  Text.unlines (opening ++ overview t ++ closing ++ rule ++ sections t)

end CommentDocs.Markdown
