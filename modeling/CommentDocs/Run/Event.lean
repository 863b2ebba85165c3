import CommentDocs.Session
import CommentDocs.Text.Terminal

/-!
# Events

What a run reports while it goes on.  Each event has a level; a run that was asked to be quiet
reports none of them, and details are reported only on request.
-/

set_option autoImplicit false

namespace CommentDocs

/-- The weight of an event. -/
inductive Level where
  | warning
  | info
  | detail
  deriving DecidableEq, Repr

/-- How much a run has done. -/
structure Summary where
  /-- The files read. -/
  files : Nat := 0
  batches : Nat := 0
  /-- The batches rejected. -/
  rejected : Nat := 0
  deriving DecidableEq, Repr

/-- Something worth reporting. -/
inductive Event where
  | excluded (dir : Text)
  | unreadable (file : Text) (reason : String)
  | scanned (file : Text) (batches : Nat)
  | linked (key parent : Text)
  | deferred (key : Text)
  | rejected (e : Error)
  | linkedLate (key parent : Text)
  | treeLinked (records late : Nat)
  | wrote (output : Text)
  | generated (s : Summary)
  deriving DecidableEq, Repr

namespace Event

/-- The level of an event. -/
def level : Event → Level
  | .unreadable _ _ | .rejected _ => .warning
  | .wrote _ | .generated _ => .info
  | _ => .detail

/-- The wording of an event: what happened, then the particulars as they are.  The message of an
error tells what happened, so it may not command the terminal. -/
def message : Event → String
  | .excluded dir => "excluded dir=" ++ String.ofList dir
  | .unreadable file reason =>
    "skipping unreadable file file=" ++ String.ofList file ++ " error=" ++ reason
  | .scanned file batches =>
    "scanned file=" ++ String.ofList file ++ " batches=" ++ toString batches
  | .linked key parent =>
    "record linked key=" ++ String.ofList key ++ " parent=" ++ String.ofList parent
  | .deferred key => "record registered, parent deferred key=" ++ String.ofList key
  | .rejected e => Text.shown e.message
  | .linkedLate key parent =>
    "deferred record linked key=" ++ String.ofList key ++ " parent=" ++ String.ofList parent
  | .treeLinked records late =>
    "tree linked records=" ++ toString records ++ " deferred=" ++ toString late
  | .wrote output => "wrote documentation output=" ++ String.ofList output
  | .generated s =>
    "documentation generated files=" ++ toString s.files ++ " batches=" ++ toString s.batches ++
      " rejected=" ++ toString s.rejected

end Event

namespace Level

/-- Whether events of the level are reported. -/
def isShown (quiet : Bool) (verbose : Nat) : Level → Bool
  | .detail => !quiet && verbose != 0
  | _ => !quiet

end Level

/-- Why a run fails, the outermost reason first. -/
structure Failure where
  reason : String
  causes : List String := []
  deriving DecidableEq, Repr

namespace Failure

/-- A text whose lines but the first are indented. -/
def hanging (margin : Nat) (s : String) : String :=
  String.ofList (s.toList.flatMap fun c =>
    if c = '\n' then '\n' :: List.replicate margin ' ' else [c])

/-- The causes, counted from `n`, the lines of each under its first one. -/
def numbered (n : Nat) : List String → String
  | [] => ""
  | cause :: causes => "\n    " ++ toString n ++ ": " ++ hanging 7 cause ++ numbered (n + 1) causes

/-- The report of a failure; several causes are numbered. -/
def report (f : Failure) : String :=
  "Error: " ++ f.reason ++
    match f.causes with
    | [] => ""
    | [cause] => "\n\nCaused by:\n    " ++ hanging 4 cause
    | causes => "\n\nCaused by:" ++ numbered 0 causes

end Failure

end CommentDocs
