import CommentDocs.Document.Format

/-!
# Arguments

The command line.  Options have a long and most of them a short spelling; a value stands in the
same argument, with or without an equals sign, or in the next one.  Short options without a value
may stand together.  Two dashes end the options.  The arguments are read from left to right, and
the first thing that settles the outcome counts: a misuse, or asking for the version or for help.
-/

set_option autoImplicit false

namespace CommentDocs

/-- What the arguments ask a run to do. -/
structure Arguments where
  /-- The directory or file to read; the current directory if none is given. -/
  path : Option Text := none
  format : Option Format := none
  output : Option Text := none
  settings : Option Text := none
  marker : Option Text := none
  strict : Bool := false
  verbose : Nat := 0
  quiet : Bool := false
  deriving DecidableEq, Repr

/-- What a command line asks for. -/
inductive Request where
  | run (a : Arguments)
  | version
  | help
  | misuse
  deriving DecidableEq, Repr

namespace Arguments

/-- The options that take a value. -/
inductive ValueOption where
  | format
  | output
  | settings
  | marker
  deriving DecidableEq, Repr

/-- The options that take none. -/
inductive Flag where
  | strict
  | verbose
  | quiet
  | help
  | version
  deriving DecidableEq, Repr

/-- An option of either kind. -/
inductive OptionKind where
  | valued (o : ValueOption)
  | flag (f : Flag)
  deriving DecidableEq, Repr

/-- The option with a long spelling, given without its dashes. -/
def long? (name : Text) : Option OptionKind :=
  if name = "format".toList then some (.valued .format)
  else if name = "output".toList then some (.valued .output)
  else if name = "config".toList then some (.valued .settings)
  else if name = "prefix".toList then some (.valued .marker)
  else if name = "strict".toList then some (.flag .strict)
  else if name = "verbose".toList then some (.flag .verbose)
  else if name = "quiet".toList then some (.flag .quiet)
  else if name = "help".toList then some (.flag .help)
  else if name = "version".toList then some (.flag .version)
  else none

/-- The option with a short spelling. -/
def short? (c : Char) : Option OptionKind :=
  if c = 't' then some (.valued .format)
  else if c = 'o' then some (.valued .output)
  else if c = 'c' then some (.valued .settings)
  else if c = 'v' then some (.flag .verbose)
  else if c = 'q' then some (.flag .quiet)
  else if c = 'h' then some (.flag .help)
  else if c = 'V' then some (.flag .version)
  else none

/-- How reading goes on after an argument. -/
inductive Progress where
  /-- Nothing is settled yet. -/
  | going (a : Arguments)
  /-- The option takes its value from the next argument. -/
  | wanting (o : ValueOption) (a : Arguments)
  | settled (r : Request)
  deriving DecidableEq, Repr

/-- Give a value to what must not have one yet. -/
def giveOnce {α : Type} (old : Option α) (new : Option α) (set : Option α → Arguments) :
    Progress :=
  match old, new with
  | none, some v => .going (set (some v))
  | _, _ => .settled .misuse

/-- A path; an empty one is none. -/
def pathOf? (v : Text) : Option Text := if v.isEmpty then none else some v

/-- Give an option its value. -/
def give (a : Arguments) (o : ValueOption) (v : Text) : Progress :=
  match o with
  | .format => giveOnce a.format (Format.ofName? v) fun x => { a with format := x }
  | .output => giveOnce a.output (pathOf? v) fun x => { a with output := x }
  | .settings => giveOnce a.settings (pathOf? v) fun x => { a with settings := x }
  | .marker => giveOnce a.marker (some v) fun x => { a with marker := x }

/-- Give the path. -/
def givePath (a : Arguments) (v : Text) : Progress :=
  giveOnce a.path (pathOf? v) fun x => { a with path := x }

/-- Switch a flag on.  Only the request for more output may be repeated. -/
def raise (a : Arguments) : Flag → Progress
  | .strict => if a.strict then .settled .misuse else .going { a with strict := true }
  | .quiet => if a.quiet then .settled .misuse else .going { a with quiet := true }
  | .verbose => .going { a with verbose := a.verbose + 1 }
  | .help => .settled .help
  | .version => .settled .version

/-- The name of a long option and its value, if one is attached. -/
def splitValue (t : Text) : Text × Option Text :=
  match t.dropWhile fun c => c != '=' with
  | [] => (t, none)
  | _ :: v => (t.takeWhile fun c => c != '=', some v)

/-- Read a long option, given without its dashes. -/
def readLong (a : Arguments) (t : Text) : Progress :=
  match long? (splitValue t).1, (splitValue t).2 with
  | none, _ => .settled .misuse
  | some (.valued o), some v => a.give o v
  | some (.valued o), none => .wanting o a
  | some (.flag _), some _ => .settled .misuse
  | some (.flag f), none => a.raise f

/-- Read short options, given without their dash. -/
def readShort (a : Arguments) : Text → Progress
  | [] => .going a
  | c :: t =>
    match short? c with
    | none => .settled .misuse
    | some (.valued o) =>
      match t with
      | [] => .wanting o a
      | '=' :: v => a.give o v
      | v => a.give o v
    | some (.flag f) =>
      match a.raise f with
      | .going a' => readShort a' t
      | p => p

/-- Whether an argument can be a value or a path: it has no dash in front, or is only a dash. -/
def isPlain : Text → Bool
  | ['-'] => true
  | '-' :: _ => false
  | _ => true

/-- The request once everything is read.  More output and none exclude each other. -/
def finish (a : Arguments) : Request :=
  if a.quiet && a.verbose != 0 then .misuse else .run a

/-- Read arguments after the options have ended. -/
def readPaths (a : Arguments) : List Text → Request
  | [] => a.finish
  | v :: rest =>
    match a.givePath v with
    | .going a' => readPaths a' rest
    | .wanting _ _ => .misuse
    | .settled r => r

/-- Read one argument that is not the value of an option, nor ends the options. -/
def readOne (a : Arguments) (t : Text) : Progress :=
  if isPlain t then a.givePath t
  else
    match t with
    | '-' :: '-' :: name => a.readLong name
    | _ :: letters => a.readShort letters
    | [] => .settled .misuse

/-- Read arguments; `wanted` is the option that waits for its value. -/
def readFrom (a : Arguments) (wanted : Option ValueOption) : List Text → Request
  | [] => if wanted.isSome then .misuse else a.finish
  | t :: rest =>
    match wanted with
    | some o =>
      if isPlain t then
        match a.give o t with
        | .going a' => readFrom a' none rest
        | .wanting _ _ => .misuse
        | .settled r => r
      else .misuse
    | none =>
      if t = ['-', '-'] then a.readPaths rest
      else
        match a.readOne t with
        | .going a' => readFrom a' none rest
        | .wanting o a' => readFrom a' (some o) rest
        | .settled r => r

/-- What the arguments ask for. -/
def read (args : List Text) : Request := readFrom {} none args

end Arguments

end CommentDocs
