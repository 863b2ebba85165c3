import CommentDocs.Registry

/-!
# Trees

A tree is a list of entries in which every record but the root has a parent, and every chain of
parents ends at the root, together with the index of their keys.  `Registry.link` makes the links
that registration deferred and says which record stands in the way if there is no tree.

* `Tree.walk` lists the records from the root down, the actions under a record before its other
  children.
* `Tree.branch` is the tree below a record as a nested value, children in link order.
-/

set_option autoImplicit false

namespace CommentDocs

/-- Why registered records are no tree. -/
inductive LinkError where
  | parentNotFound (parent key origin : Text)
  | cycle (key origin : Text)
  deriving DecidableEq, Repr

namespace LinkError

/-- The wording of a link error. -/
def message : LinkError → String
  | .parentNotFound parent key origin =>
    String.ofList origin ++ ": unable to locate parent " ++ Text.quote parent ++
      " referenced by " ++ Text.quote key
  | .cycle key origin =>
    String.ofList origin ++ ": " ++ Text.quote key ++
      " is part of a parent cycle and never reaches root"

end LinkError

/-- Linked entries, the first one being the root, and where their keys lead. -/
structure Tree where
  entries : List Entry
  index : KeyIndex
  deriving DecidableEq, Repr

namespace Tree

/-- How many records there are, the root included. -/
def size (t : Tree) : Nat := t.entries.length

/-- The entry at a place, if there is one. -/
def entry? (t : Tree) (i : Nat) : Option Entry := t.entries[i]?

/-- The record at a place; the root stands in where there is none. -/
def record (t : Tree) (i : Nat) : Record := ((t.entry? i).map (·.record)).getD Record.root

/-- The place of the parent of the record at a place. -/
def parent? (t : Tree) (i : Nat) : Option Nat := (t.entry? i).bind (·.parent)

/-- The places of the children of the record at a place, in link order. -/
def children (t : Tree) (i : Nat) : List Nat := ((t.entry? i).map (·.children)).getD []

/-- The place of the record with the given key. -/
def find? (t : Tree) (key : Text) : Option Nat := t.index.find? key

/-- The links on the way up, at most `limit` of them. -/
def depthWithin (t : Tree) : Nat → Nat → Nat
  | 0, _ => 0
  | limit + 1, i =>
    match t.parent? i with
    | some p => t.depthWithin limit p + 1
    | none => 0

/-- The number of links between a record and the root.  No way up is longer than the tree has
records. -/
def depth (t : Tree) (i : Nat) : Nat := t.depthWithin t.size i

/-- How following parents ended. -/
inductive Ascent where
  /-- At a record known to be under the root, after passing the given ones. -/
  | arrived (passed : List Nat)
  /-- At a record that is not known to be under the root and has no parent. -/
  | stuck
  /-- Not at all: as many records as allowed were passed. -/
  | endless
  deriving DecidableEq, Repr

/-- The same end with one more record passed before. -/
def Ascent.past (i : Nat) : Ascent → Ascent
  | .arrived passed => .arrived (i :: passed)
  | .stuck => .stuck
  | .endless => .endless

/-- Follow parents from a record up to one of those known to be under the root, past at most
`limit` records. -/
def ascend (t : Tree) (known : List Nat) (limit i : Nat) : Ascent :=
  if known.contains i then .arrived []
  else
    match limit with
    | 0 => .endless
    | limit + 1 =>
      match t.parent? i with
      | none => .stuck
      | some p => (t.ascend known limit p).past i

/-- The first of the given records from which following parents does not end.  What was passed on
the way to a record under the root is under the root too, and is not followed a second time. -/
def firstEndless? (t : Tree) : List Nat → List Nat → Option Nat
  | _, [] => none
  | known, i :: places =>
    match t.ascend known (t.size + 1) i with
    | .arrived passed => t.firstEndless? (passed ++ known) places
    | .stuck => t.firstEndless? known places
    | .endless => some i

/-! ## Walking -/

/-- Whether the record at a place documents an action. -/
def isAction (t : Tree) (i : Nat) : Bool := (t.record i).kind == .action

/-- The children of a record, actions first, otherwise in link order. -/
def orderedChildren (t : Tree) (i : Nat) : List Nat :=
  (t.children i).filter t.isAction ++ (t.children i).filter fun j => !t.isAction j

/-- Visit at most `limit` records from a stack of depths and places, the children of a record
right after it. -/
def visit (t : Tree) : Nat → List (Nat × Nat) → List (Nat × Nat)
  | 0, _ => []
  | _ + 1, [] => []
  | limit + 1, (depth, i) :: stack =>
    (depth, i) :: t.visit limit ((t.orderedChildren i).map (fun j => (depth + 1, j)) ++ stack)

/-- The records from the root down, each with its depth.  Every record is met once, so there are
as many visits as records. -/
def walk (t : Tree) : List (Nat × Nat) := t.visit t.size [(0, 0)]

end Tree

/-- A record with the branches below it. -/
inductive Branch where
  | mk (record : Record) (children : List Branch)
  deriving Repr

namespace Tree

/-- The branch that starts at a record, down to `limit` links. -/
def branchWithin (t : Tree) : Nat → Nat → Branch
  | 0, i => .mk (t.record i) []
  | limit + 1, i => .mk (t.record i) ((t.children i).map (t.branchWithin limit))

/-- The whole tree as a nested value. -/
def branch (t : Tree) : Branch := t.branchWithin t.size 0

end Tree

/-! ## Linking -/

namespace Registry

/-- The deferred records, in order of registration. -/
def deferredPlaces (reg : Registry) : List Nat :=
  (List.range reg.size).filter fun i =>
    i != 0 && match reg.entries[i]? with
      | some e => e.parent.isNone
      | none => false

/-- The key that linking looks up for a record; a record without a parent names the empty key. -/
def wantedParent (r : Record) : Text := r.parent.getD []

/-- The links of deferred records, up to the first record whose parent is not registered. -/
def resolve (reg : Registry) : List Nat → List (Nat × Nat) × Option LinkError
  | [] => ([], none)
  | i :: places =>
    match reg.entries[i]? with
    | none => reg.resolve places
    | some e =>
      match reg.find? (wantedParent e.record) with
      | none => ([], some (.parentNotFound (wantedParent e.record) e.record.key e.record.origin))
      | some p =>
        let more := reg.resolve places
        ((i, p) :: more.1, more.2)

/-- The links still to be made, and what stops them if something does. -/
def deferredLinks (reg : Registry) : List (Nat × Nat) × Option LinkError :=
  reg.resolve reg.deferredPlaces

/-- The entries with links added. -/
def withLinks (reg : Registry) (links : List (Nat × Nat)) : List Entry :=
  links.foldl (fun entries link => Entry.attach link.1 link.2 entries) reg.entries

/-- The first record, in order of registration, from which no way leads up to the root. -/
def firstStray? (t : Tree) : Option Record :=
  (t.firstEndless? [0] (List.range' 1 (t.size - 1))).map t.record

/-- The tree of the registered records. -/
def link (reg : Registry) : Except LinkError Tree :=
  match reg.deferredLinks with
  | (_, some e) => .error e
  | (links, none) =>
    let t : Tree := ⟨reg.withLinks links, reg.index⟩
    match firstStray? t with
    | some r => .error (.cycle r.key r.origin)
    | none => .ok t

end Registry

end CommentDocs
