import CommentDocs.Batch
import CommentDocs.Record.Grammar
import CommentDocs.Tree

/-!
# Sessions

A session reads batches one after the other and registers the record of each.  A batch that is no
record, or whose key is taken, is rejected and leaves no trace.
-/

set_option autoImplicit false

namespace CommentDocs

/-- What can go wrong between a source and its tree. -/
inductive Error where
  | malformed (e : SyntaxError)
  | duplicate (e : DuplicateKey)
  | unlinked (e : LinkError)
  deriving DecidableEq, Repr

namespace Error

/-- The wording of an error. -/
def message : Error → String
  | .malformed e => e.message
  | .duplicate e => e.message
  | .unlinked e => e.message

end Error

namespace Registry

/-- Read a batch and register its record. -/
def registerBatch (reg : Registry) (b : Batch) : Except Error Registry :=
  match Record.parse b.source b.startLine b.lines with
  | .error e => .error (.malformed e)
  | .ok r =>
    match reg.insert r with
    | .error e => .error (.duplicate e)
    | .ok reg' => .ok reg'

/-- Read a batch; one that is rejected leaves the registry as it was. -/
def offer (reg : Registry) (b : Batch) : Registry :=
  match reg.registerBatch b with
  | .ok reg' => reg'
  | .error _ => reg

/-- The outcome of each of a list of batches, and the registry after them. -/
def offerAll (reg : Registry) : List Batch → List (Except Error Unit) × Registry
  | [] => ([], reg)
  | b :: batches =>
    let more := (reg.offer b).offerAll batches
    ((reg.registerBatch b).map (fun _ => ()) :: more.1, more.2)

/-- Read batches up to the first one that is rejected. -/
def registerAll (reg : Registry) : List Batch → Except Error Registry
  | [] => .ok reg
  | b :: batches =>
    match reg.registerBatch b with
    | .error e => .error e
    | .ok reg' => reg'.registerAll batches

end Registry

/-- The tree of the batches of one source, or the first error. -/
def parseSource (source text : Text) : Except Error Tree :=
  match Registry.empty.registerAll (Batch.extract Batch.defaultMarker source text) with
  | .error e => .error e
  | .ok reg =>
    match reg.link with
    | .error e => .error (.unlinked e)
    | .ok t => .ok t

end CommentDocs
