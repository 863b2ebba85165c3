import CommentDocs.Record
import CommentDocs.Text.Quoted

/-!
# Registry

Records are registered one after the other, each under a key of its own.  A record whose parent
key is registered already is linked to that record at once; the others are deferred.  Nothing that
is registered changes afterwards, except that children are added.

* `KeyIndex`: the places that keys lead to.  A registry keeps one beside its entries, and every
  lookup by key goes through it.
* `Registry.insert` refuses a key that is taken and leaves the registry as it was.
-/

set_option autoImplicit false

namespace CommentDocs

/-- A registered record with its links: records are named by their place in order of
registration. -/
structure Entry where
  record : Record
  parent : Option Nat := none
  /-- In the order in which the links were made. -/
  children : List Nat := []
  deriving DecidableEq, Repr

/-- Keys with the places that they lead to; of two pairs with one key, the first one counts. -/
structure KeyIndex where
  pairs : List (Text × Nat)
  deriving DecidableEq, Repr

namespace KeyIndex

/-- No key leads anywhere. -/
def empty : KeyIndex := ⟨[]⟩

/-- The place that a key leads to. -/
def find? (ix : KeyIndex) (key : Text) : Option Nat := ix.pairs.lookup key

/-- Let a key lead to a place, wherever it led before. -/
def insert (ix : KeyIndex) (key : Text) (place : Nat) : KeyIndex := ⟨(key, place) :: ix.pairs⟩

@[simp] theorem find?_empty (key : Text) : empty.find? key = none := rfl

/-- **One key changes**: it leads to its new place, and the others to where they did. -/
theorem find?_insert (ix : KeyIndex) (key : Text) (place : Nat) (other : Text) :
    (ix.insert key place).find? other = if other = key then some place else ix.find? other := by
  unfold find? insert
  rw [List.lookup_cons]
  by_cases h : other = key
  · simp [h]
  · simp [h, beq_eq_false_iff_ne.mpr h]

end KeyIndex

/-- The records registered so far, the root first, where their keys lead, and how many of them were
deferred. -/
structure Registry where
  entries : List Entry
  index : KeyIndex
  deferred : Nat
  deriving DecidableEq, Repr

/-- A record came with a key that was taken. -/
structure DuplicateKey where
  key : Text
  origin : Text
  /-- The origin of the record registered under the key. -/
  existing : Text
  deriving DecidableEq, Repr

namespace DuplicateKey

/-- The wording of the refusal. -/
def message (e : DuplicateKey) : String :=
  String.ofList e.origin ++ ": record with identity " ++ Text.quote e.key ++
    " already exists (first defined in " ++ String.ofList e.existing ++ ")"

end DuplicateKey

namespace Entry

/-- Link a record to its parent. -/
def attach (child parent : Nat) (entries : List Entry) : List Entry :=
  (entries.modify child fun e => { e with parent := some parent }).modify parent
    fun e => { e with children := e.children ++ [child] }

end Entry

namespace Registry

/-- Only the root is registered. -/
def empty : Registry :=
  ⟨[{ record := Record.root }], KeyIndex.empty.insert Record.root.key 0, 0⟩

/-- How many records are registered, the root included. -/
def size (reg : Registry) : Nat := reg.entries.length

/-- The registered records in order. -/
def records (reg : Registry) : List Record := reg.entries.map (·.record)

/-- The record at a place; the root stands in where there is none. -/
def recordAt (reg : Registry) (i : Nat) : Record :=
  (reg.entries[i]?.map (·.record)).getD Record.root

/-- The place of the record with the given key. -/
def find? (reg : Registry) (key : Text) : Option Nat := reg.index.find? key

/-- The record with the given key. -/
def get? (reg : Registry) (key : Text) : Option Record := (reg.find? key).map reg.recordAt

/-- Whether the key is taken. -/
def contains (reg : Registry) (key : Text) : Bool := (reg.find? key).isSome

/-- The place of the parent of a record that comes next, if it is registered. -/
def parentOf? (reg : Registry) (r : Record) : Option Nat := r.parent.bind reg.find?

/-- Register a record; its place is the size of the registry before.  The parent is looked up
before the record has a place, so a record that names itself is deferred. -/
def insert (reg : Registry) (r : Record) : Except DuplicateKey Registry :=
  match reg.find? r.key with
  | some existing => .error ⟨r.key, r.origin, (reg.recordAt existing).origin⟩
  | none =>
    let index := reg.index.insert r.key reg.size
    let entries := reg.entries ++ [{ record := r }]
    match reg.parentOf? r with
    | some parent => .ok ⟨Entry.attach reg.size parent entries, index, reg.deferred⟩
    | none => .ok ⟨entries, index, reg.deferred + 1⟩

end Registry

end CommentDocs
