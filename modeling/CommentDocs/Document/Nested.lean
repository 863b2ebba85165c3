import CommentDocs.Json
import CommentDocs.Tree

/-!
# JSON documents

Each record is an object of its fields with its children nested in it, in link order.  Fields
without content are left out, and so is the origin.
-/

set_option autoImplicit false

namespace CommentDocs.Nested

/-- A field with a text. -/
def textField (name t : Text) : List (Text × Json) := [(name, .text t)]

/-- A field that is left out if there is no value. -/
def optionalField (name : Text) : Option Text → List (Text × Json)
  | some t => [(name, .text t)]
  | none => []

/-- A field that is left out if the list is empty. -/
def listField (name : Text) (items : List Json) : List (Text × Json) :=
  if items.isEmpty then [] else [(name, .list items)]

/-- A parameter as an object. -/
def ofParameter (p : Parameter) : Json :=
  .object [("name", .text p.name), ("type", .text p.type), ("description", .text p.description)]

/-- The fields of a record. -/
def recordFields (r : Record) : List (Text × Json) :=
  textField "kind" r.kind.name ++ textField "name" r.name ++ textField "identity_key" r.key ++
    optionalField "is" r.is ++ optionalField "parent" r.parent ++ textField "short" r.short ++
    optionalField "long" (if r.long.isEmpty then none else some r.long) ++
    listField "params" (r.params.map ofParameter) ++ optionalField "return" r.returns ++
    listField "columns" (r.columns.map ofParameter) ++
    optionalField "value_type" r.valueType ++ optionalField "writable" r.writable

mutual

/-- A branch as an object. -/
def ofBranch : Branch → Json
  | .mk r children => .object (recordFields r ++ listField "children" (ofBranches children))

/-- Branches as objects. -/
def ofBranches : List Branch → List Json
  | [] => []
  | b :: bs => ofBranch b :: ofBranches bs

end

/-- The tree as a JSON value. -/
def value (t : Tree) : Json := ofBranch t.branch

/-- The tree as JSON text. -/
def render (t : Tree) : Text := (value t).pretty ++ ['\n']

end CommentDocs.Nested
